import Highlighting.Proofs.Checked.Run
import Highlighting.Proofs.Jacy

/-! # Scans never fail

Whatever the language and the text are, the scan over bytes has a result, and so have the views of what
it comes to. So every text that is cut out on the way lies between two boundaries in order, the innermost
frame is there wherever it is used, and what is tried inside a frame is that of the language or of a
container. -/
set_option autoImplicit false
namespace Highlighting

namespace Checked
variable {source : Source} {highlighter : Highlighter}

/-- The states that a scan over bytes comes to, turn by turn. -/
inductive Reached (source : Source) (highlighter : Highlighter) : State → Prop where
  | start : Reached source highlighter {}
  | turn {state next : State} (reached : Reached source highlighter state)
      (more : state.pos < source.bytes)
      (turned : step? source highlighter state = some (.ok next)) : Reached source highlighter next

theorem Reached.scan (listed : highlighter.Listed) {state : State}
    (reached : Reached source highlighter state) :
    ∃ scan, highlighter.Reaches source scan ∧ state = .ofScan source scan := by
  induction reached with
  | start => exact ⟨{}, ⟨0, rfl⟩, (ofScan_start source).symm⟩
  | turn _ more turned ih =>
      obtain ⟨scan, reached, rfl⟩ := ih
      have visits : highlighter.Visits source scan := ⟨reached, (pos_lt_iff source scan).mp more⟩
      have stepped := (step?_visited listed visits).result
      rw [turned] at stepped
      cases ends : highlighter.step source scan with
      | error refusal =>
          rw [ends] at stepped
          exact nomatch stepped
      | ok next =>
          rw [ends] at stepped
          cases stepped
          exact ⟨next, visits.next ends, rfl⟩

/-- The frame of the language, and inside it frames of containers only. -/
def Framed (highlighter : Highlighter) (state : State) : Prop :=
  ∃ inner ground, state.frames = inner ++ [ground] ∧ ground.rule = none ∧
    ∀ frame ∈ inner, ∃ index rule, frame.rule = some index ∧
      highlighter.rules[index]? = some (.container rule)

theorem Reached.framed (listed : highlighter.Listed) {state : State}
    (reached : Reached source highlighter state) : Framed highlighter state := by
  obtain ⟨scan, visited, rfl⟩ := reached.scan listed
  refine ⟨scan.containers.map (.ofContainer source), .ofGround source scan.ground, rfl, rfl, ?_⟩
  intro frame member
  obtain ⟨container, opened, rfl⟩ := List.mem_map.mp member
  exact ⟨container.index, container.rule, rfl, visited.nested.mem_rules container opened⟩

theorem Reached.turns (listed : highlighter.Listed) {state : State}
    (reached : Reached source highlighter state) (more : state.pos < source.bytes) :
    ∃ turned, step? source highlighter state = some turned := by
  obtain ⟨scan, visited, rfl⟩ := reached.scan listed
  exact ⟨_, (step?_visited listed ⟨visited, (pos_lt_iff source scan).mp more⟩).result⟩

end Checked

namespace Highlighter

/-- For a language that compiles, the scan of any text over bytes has a result, which is that of the scan
over places, and the views of a result can be read off it. In every state on the way there is the frame of
the language with frames of containers inside it, and the next turn can be taken. Text can be cut out
between two byte offsets only where the whole text splits at both of them. -/
theorem scan_never_fails {language : Language} {highlighter : Highlighter}
    (compiles : ofLanguage language = .ok highlighter) (ignore : Bool) (text : String) :
    let source := Source.ofString text
    let scanner := highlighter.ignoring ignore
    Checked.run? source scanner = some ((scanner.highlight text).map Highlight.inBytes) ∧
      (∀ result, scanner.highlight text = .ok result →
        Checked.tokens? result.inBytes = some result.tokens ∧
        Checked.regions? result.inBytes = some result.regions ∧
        Checked.html? result.inBytes = some result.html) ∧
      (∀ state, Checked.Reached source scanner state →
        Checked.Framed scanner state ∧
          (state.pos < source.bytes → ∃ turned, Checked.step? source scanner state = some turned)) ∧
      ∀ first last chars, source.cut? first last = some chars ↔
        ∃ before after, text.toList = before ++ chars ++ after ∧ byteLength before = first ∧
          byteLength (before ++ chars) = last := by
  intro source scanner
  have listed : scanner.Listed := (listed_of_ofLanguage compiles).ignoring ignore
  obtain ⟨ran, fit⟩ := Checked.run?_eq listed source
  refine ⟨ran, ?_, ?_, fun _ _ _ => source.cut?_eq_some_iff⟩
  · intro result highlighted
    have fits := fit result highlighted
    exact ⟨Checked.tokens?_inBytes fits, Checked.regions?_inBytes fits, Checked.html?_inBytes fits⟩
  · intro state reached
    exact ⟨reached.framed listed, reached.turns listed⟩

end Highlighter

namespace Knots

/-- A part that ends inside the one before it, a fence whose group is missing, and containers inside
each other. -/
def language : Language where
  name := "knots"
  keywords := { pattern := "[a-z]+!?", keyword := ["é"], operator := ["!"] }
  rules :=
    [.parts { parts := ["(?:é", "b+)"], scopes := [(1, .symbol), (2, .string)] },
      .single
        { scope := some .string, opener := "r", fence := some { group := 7, close := '"', mark := '#' } },
      .container { scope := some .metadata, opener := "ü", closer := "»" } [.enclosing]]

theorem ready : (Highlighter.ofLanguage language).toOption.isSome = true := by
  decide +kernel

def highlighter : Highlighter :=
  (Highlighter.ofLanguage language).toOption.get ready

/-- The characters of the inner part are there twice, so the text of the tokens is longer than the text
that is scanned. -/
theorem knots_never_fail :
    Highlighter.ofLanguage language = .ok highlighter ∧
      ∃ result, Checked.run? (.ofString "ébb é r\"#\" ü<ü»»") (highlighter.ignoring false) =
          some (.ok (Highlight.inBytes result)) ∧
        Checked.tokens? result.inBytes = some result.tokens ∧
        Checked.regions? result.inBytes = some result.regions ∧
        Checked.html? result.inBytes = some result.html ∧
        result.plain = "ébbbb é r\"#\" ü<ü»»" := by
  have compiles : Highlighter.ofLanguage language = .ok highlighter := ok_toOption_get ready
  obtain ⟨ran, views, _⟩ := Highlighter.scan_never_fails compiles false "ébb é r\"#\" ü<ü»»"
  have plain : ((highlighter.ignoring false).highlight "ébb é r\"#\" ü<ü»»").toOption.map (·.plain) =
      some "ébbbb é r\"#\" ü<ü»»" := by
    decide +kernel
  refine ⟨compiles, ?_⟩
  cases highlighted : (highlighter.ignoring false).highlight "ébb é r\"#\" ü<ü»»" with
  | error illegal =>
      rw [highlighted] at plain
      exact nomatch plain
  | ok result =>
      rw [highlighted] at ran plain
      obtain ⟨tokens, regions, html⟩ := views result highlighted
      exact ⟨result, ran, tokens, regions, html, Option.some.inj plain⟩

end Knots

end Highlighting
