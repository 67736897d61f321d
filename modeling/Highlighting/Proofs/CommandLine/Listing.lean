import Highlighting.Proofs.CommandLine.Plain
import Highlighting.Proofs.Text.Reading
import Highlighting.Proofs.Tree.Agreement

/-! # Reading the listing of tokens

No field of a line has a tab or a line feed in it. So what has been printed is cut into lines at the line
feeds, and a line into its fields at the tabs, and each field is read back on its own. The tokens follow
each other from the start of the input, so that the lengths of their texts give their offsets. -/
set_option autoImplicit false
namespace Highlighting.CommandLine

/-- What a line of the listing tells of a token. -/
structure Row where
  span : Span
  scope : Option Scope
  text : String
deriving DecidableEq, Repr

namespace Row

def ofToken (token : Token) : Row :=
  ⟨token.span, token.scope, token.text⟩

def scopeField : Option Scope → List Char
  | some scope => scope.name.toList
  | none => ['-']

def fields (row : Row) : List (List Char) :=
  [row.span.toString.toList, scopeField row.scope, Quoted.encode row.text.toList]

def line (row : Row) : List Char :=
  ['\t'].intercalate row.fields

def readScope? (field : List Char) : Option (Option Scope) :=
  if field = ['-'] then some none else (Scope.ofName? (String.ofList field)).map some

def read? (line : List Char) : Option Row :=
  match line.splitOn '\t' with
  | [span, scope, text] => do
      return ⟨← Span.read? span, ← readScope? scope, String.ofList (← Quoted.decode? text)⟩
  | _ => none

/-- The third field of a line without its quotes and escapes. -/
def readText? (line : List Char) : Option (List Char) :=
  (line.splitOn '\t')[2]?.bind Quoted.decode?

theorem names_known : ∀ scope ∈ Scope.all, Scope.ofName? scope.name = some scope ∧
    scope.name.toList ≠ ['-'] ∧ InField scope.name.toList := by
  decide +kernel

theorem readScope?_field (scope : Option Scope) : readScope? (scopeField scope) = some scope := by
  cases scope with
  | none => rfl
  | some scope =>
      obtain ⟨known, named, _⟩ := names_known scope scope.mem_all
      rw [scopeField, readScope?, if_neg named, String.ofList_toList, known, Option.map_some]

theorem scopeField_inField (scope : Option Scope) : InField (scopeField scope) := by
  cases scope with
  | none => decide
  | some scope => exact (names_known scope scope.mem_all).2.2

theorem fields_inField (row : Row) : ∀ field ∈ row.fields, InField field := by
  intro field member
  simp only [fields, List.mem_cons, List.not_mem_nil, or_false] at member
  rcases member with rfl | rfl | rfl
  · exact row.span.written_inField
  · exact scopeField_inField row.scope
  · exact Quoted.encode_inField row.text.toList

theorem splitOn_line (row : Row) : row.line.splitOn '\t' = row.fields :=
  List.splitOn_intercalate '\t' (fun field member => (row.fields_inField field member).1)
    (List.cons_ne_nil _ _)

theorem line_apart (row : Row) : '\n' ∉ row.line := by
  have apart : ∀ field ∈ row.fields, '\n' ∉ field :=
    fun field member => (row.fields_inField field member).2
  simp only [fields, List.forall_mem_cons] at apart
  simp [line, fields, List.intercalate_cons_cons, apart]

theorem read?_line (row : Row) : read? row.line = some row := by
  simp only [read?, splitOn_line, fields, Span.read?_written, readScope?_field, Quoted.decode?_encode]
  simp

theorem readText?_line (row : Row) : readText? row.line = some row.text.toList := by
  rw [readText?, splitOn_line]
  exact Quoted.decode?_encode row.text.toList

end Row

/-- The tokens of some rows, each from where the one before it stops. -/
def tokensFrom (start : Nat) : List Row → List Token
  | [] => []
  | row :: rest =>
      let stop := start + row.text.utf8ByteSize
      { scope := row.scope, text := row.text, start, stop, span := row.span } :: tokensFrom stop rest

/-- What stands before the line feeds. -/
def lines (printed : String) : List (List Char) :=
  (printed.toList.splitOn '\n').dropLast

/-- The texts in the third fields, one behind the other. -/
def readInput? (printed : String) : Option String := do
  let texts ← (lines printed).mapM Row.readText?
  return String.ofList texts.flatten

def readTokens? (printed : String) : Option (List Token) := do
  let rows ← (lines printed).mapM Row.read?
  return tokensFrom 0 rows

theorem splitOn_lines {lines : List (List Char)} (apart : ∀ line ∈ lines, '\n' ∉ line) :
    (lines.flatMap (· ++ ['\n'])).splitOn '\n' = lines ++ [[]] := by
  induction lines with
  | nil => rfl
  | cons line rest ih =>
      obtain ⟨here, others⟩ := List.forall_mem_cons.mp apart
      rw [List.flatMap_cons, List.append_assoc, List.singleton_append,
        List.splitOn_append_cons_self_of_not_mem here, ih others, List.cons_append]

theorem mapM_written {α β : Type} {read? : List Char → Option β} {write : α → List Char} {value : α → β}
    (known : ∀ item, read? (write item) = some (value item)) (items : List α) :
    (items.map write).mapM read? = some (items.map value) := by
  have each : read? ∘ write = fun item => pure (value item) := funext known
  rw [List.mapM_map, each, List.mapM_pure]
  rfl

theorem tokensFrom_rows {last : Nat} {tokens : List Token} :
    ∀ {first : Nat}, Tiling first last (tokens.map (·.range)) →
      (∀ token ∈ tokens, token.start + token.text.utf8ByteSize = token.stop) →
        tokensFrom first (tokens.map Row.ofToken) = tokens := by
  induction tokens with
  | nil => exact fun _ _ => rfl
  | cons token rest ih =>
      rintro first ⟨rfl, _, tiled⟩ long
      have stop : token.range.1 + (Row.ofToken token).text.utf8ByteSize = token.stop :=
        long token List.mem_cons_self
      rw [List.map_cons, tokensFrom, stop]
      exact congrArg (token :: ·) (ih tiled fun other member => long other (List.mem_cons_of_mem _ member))

theorem tokensFrom_of_wellFormed {highlight : Highlight} (formed : highlight.WellFormed) :
    tokensFrom 0 (highlight.tokens.map Row.ofToken) = highlight.tokens := by
  have agrees := formed.agrees
  refine tokensFrom_rows agrees.tiled ?_
  intro token member
  obtain ⟨before, after, _, range, _⟩ := agrees.tokens_stand token member
  obtain ⟨start, stop⟩ := Prod.mk.inj range
  rw [start, stop, String.utf8ByteSize_append]

theorem toList_tokenLine (token : Token) :
    (tokenLine token).toList = (Row.ofToken token).line ++ ['\n'] := by
  rw [tokenLine]
  cases scope : token.scope <;>
    simp [scope, quoted, Row.line, Row.fields, Row.ofToken, Row.scopeField, List.intercalate_cons_cons]

/-! ## The whole listing -/

variable (tokens : List Token)

/-- A listing has a line for each token, with a line feed behind it. -/
theorem splitOn_listing : (String.join (tokens.map tokenLine)).toList.splitOn '\n' =
    tokens.map (Row.line ∘ Row.ofToken) ++ [[]] := by
  have apart : ∀ line ∈ tokens.map (Row.line ∘ Row.ofToken), '\n' ∉ line := by
    intro line member
    obtain ⟨token, _, rfl⟩ := List.mem_map.mp member
    exact (Row.ofToken token).line_apart
  rw [String.toList_join, List.flatMap_map, ← splitOn_lines apart, List.flatMap_map]
  simp only [toList_tokenLine, Function.comp_apply]

theorem lines_listing :
    lines (String.join (tokens.map tokenLine)) = tokens.map (Row.line ∘ Row.ofToken) := by
  rw [lines, splitOn_listing, List.dropLast_concat]

theorem readInput?_listing :
    readInput? (String.join (tokens.map tokenLine)) = some (String.join (tokens.map (·.text))) := by
  have texts : (tokens.map (Row.line ∘ Row.ofToken)).mapM Row.readText? =
      some (tokens.map (·.text.toList)) :=
    mapM_written (fun token => (Row.ofToken token).readText?_line) tokens
  have joined : String.ofList (tokens.map (·.text.toList)).flatten =
      String.join (tokens.map (·.text)) := by
    rw [← String.toList_inj, String.toList_ofList, String.toList_join, List.flatMap_map]
    rfl
  rw [readInput?, lines_listing, texts, ← joined]
  rfl

theorem readTokens?_listing {highlight : Highlight} (formed : highlight.WellFormed) :
    readTokens? (String.join (highlight.tokens.map tokenLine)) = some highlight.tokens := by
  have rows : (highlight.tokens.map (Row.line ∘ Row.ofToken)).mapM Row.read? =
      some (highlight.tokens.map Row.ofToken) :=
    mapM_written (fun token => (Row.ofToken token).read?_line) highlight.tokens
  rw [readTokens?, lines_listing, rows, Option.bind_eq_bind, Option.bind_some,
    tokensFrom_of_wellFormed formed]
  rfl

/-- What has been printed is the listing of the tokens of a text. -/
structure Lists (printed : String) (tokens : List Token) (text : String) : Prop where
  /-- Every line ends with a line feed. -/
  ended : printed.toList.splitOn '\n' = lines printed ++ [[]]
  /-- There is a line for each token, with two tabs between its fields. -/
  fields : (lines printed).map (·.splitOn '\t') = tokens.map fun token =>
    [token.span.toString.toList, Row.scopeField token.scope, (quoted token.text).toList]
  input : readInput? printed = some text
  tokens : readTokens? printed = some tokens

theorem lists_of_wellFormed {highlight : Highlight} (formed : highlight.WellFormed) :
    Lists (render .tokens highlight) highlight.tokens highlight.plain where
  ended := by rw [render, lines_listing, splitOn_listing]
  fields := by
    rw [render, lines_listing, List.map_map]
    refine List.map_congr_left fun token _ => ?_
    rw [Function.comp_apply, Function.comp_apply, Row.splitOn_line, quoted, String.toList_ofList]
    rfl
  input := readInput?_listing highlight.tokens
  tokens := readTokens?_listing formed

theorem run_tokens {filter : LogFilter} {options : Options} (tokens : options.format = .tokens)
    (jacy : options.language = "jacy") {text : String}
    (succeeds : (run filter options (.ok text)).exitCode = 0) :
    ∃ result, options.highlighter.highlight text = .ok result ∧
      Lists (run filter options (.ok text)).stdout result.tokens text := by
  rcases run_jacy filter options jacy text with
    ⟨result, highlighted, _, printed⟩ | ⟨_, _, failed, _⟩
  · obtain ⟨formed, plain⟩ := Jacy.plain_eq (highlighter_eq options ▸ highlighted)
    refine ⟨result, highlighted, ?_⟩
    rw [printed, tokens, ← plain]
    exact lists_of_wellFormed formed
  · rw [failed] at succeeds
    exact nomatch succeeds

/-- The listing of the tokens can be read back. It has one line for each token, which ends with a line
feed, and the line has three fields with tabs between them: the span, the name of the scope or a dash,
and the text in quotes. Without the quotes and the escapes these texts are the input, so that the listing
alone gives the input and all tokens. -/
theorem listing_read_back (filter : LogFilter) (text : String) :
    ∀ arguments ∈ [["-f", "tokens"], ["-f", "tokens", "-i"]],
      ∃ options, Request.ofArguments arguments = .run options ∧ options.file = none ∧
        ((run filter options (textOf text.toUTF8)).exitCode = 0 →
          ∃ result, options.highlighter.highlight text = .ok result ∧
            Lists (run filter options (textOf text.toUTF8)).stdout result.tokens text) := by
  rw [textOf_toUTF8]
  intro arguments member
  simp only [List.mem_cons, List.not_mem_nil, or_false] at member
  rcases member with rfl | rfl
  · exact ⟨{ format := .tokens }, by decide +kernel, rfl, run_tokens rfl rfl⟩
  · exact ⟨{ format := .tokens, ignoreIllegal := true }, by decide +kernel, rfl, run_tokens rfl rfl⟩

theorem escaped_read_back :
    ∃ options, Request.ofArguments ["-f", "tokens", "-i"] = .run options ∧
      let output := run (LogFilter.parse "") options (textOf "say(\"a\\n\")\t# \u200b\n".toUTF8)
      output.exitCode = 0 ∧ readInput? output.stdout = some "say(\"a\\n\")\t# \u200b\n" := by
  obtain ⟨options, asked, _, listed⟩ := listing_read_back (LogFilter.parse "")
    "say(\"a\\n\")\t# \u200b\n" ["-f", "tokens", "-i"] (by decide)
  have given : Request.ofArguments ["-f", "tokens", "-i"] =
      .run { format := .tokens, ignoreIllegal := true } := by decide +kernel
  obtain rfl := Request.run.inj (given.symm.trans asked)
  rw [textOf_toUTF8] at listed ⊢
  have succeeds := run_lenient (LogFilter.parse "") { format := .tokens, ignoreIllegal := true } rfl rfl
    "say(\"a\\n\")\t# \u200b\n"
  obtain ⟨_, _, lists⟩ := listed succeeds
  exact ⟨_, asked, succeeds, lists.input⟩

end Highlighting.CommandLine
