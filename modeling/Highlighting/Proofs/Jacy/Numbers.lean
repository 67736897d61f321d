import Highlighting.Proofs.Jacy.RawStrings
import Highlighting.Proofs.Pattern.Choices

/-! # Numbers in Jacy

A numeral with a type behind it is one token. The numeral may be binary, octal, hexadecimal or decimal,
underscores may stand between its digits and behind them, and a decimal one may have a fraction and an
exponent. Hexadecimal digits also take what would be a type of floating point numbers. -/
set_option autoImplicit false
namespace Highlighting.Jacy

/-! ## Numerals -/

/-- One digit or more, all among those that are allowed. -/
def Digits (allowed : String) (digits : List Char) : Prop :=
  digits ≠ [] ∧ ∀ c ∈ digits, c ∈ allowed.toList

/-- The letters that tell a base, each with the digits of the base. -/
def bases : List (Char × String) :=
  [('b', "01_"), ('o', "01234567_"), ('x', "0123456789ABCDEFabcdef_")]

/-- Nothing, or a point with digits. -/
inductive Fraction : List Char → Prop where
  | none : Fraction []
  | point {digits : List Char} (fits : Digits "0123456789_" digits) : Fraction ('.' :: digits)

/-- Nothing, or a letter with digits, which may have a sign. -/
inductive Exponent : List Char → Prop where
  | none : Exponent []
  | power {letter : Char} {sign digits : List Char} (known : letter ∈ ['e', 'E'])
      (signed : sign ∈ [[], ['+'], ['-']]) (fits : Digits "0123456789_" digits) :
      Exponent (letter :: (sign ++ digits))

inductive Numeral : List Char → Prop where
  | based {letter : Char} {allowed : String} {digits : List Char} (known : (letter, allowed) ∈ bases)
      (fits : Digits allowed digits) : Numeral ('0' :: letter :: digits)
  | decimal {first : Char} {digits fraction exponent : List Char} (known : first ∈ "0123456789".toList)
      (fits : ∀ c ∈ digits, c ∈ "0123456789_".toList) (part : Fraction fraction)
      (power : Exponent exponent) : Numeral (first :: (digits ++ (fraction ++ exponent)))

/-- The types that may stand behind a numeral, or none. -/
def numberTypes : List String :=
  "" :: "f32" :: "f64" ::
    ['u', 'i'].flatMap fun letter =>
      ["", "8", "16", "32", "64", "128"].map (String.singleton letter ++ ·)

/-! ## What the patterns of numbers take -/

section Patterns
open Pattern (Prefers Declines)

/-- A width may stand behind the letter of a type of integers. -/
theorem width_prefers (group : Nat) {width : String} (listed : width ∈ ["", "8", "16", "32", "64", "128"]) :
    ∃ marks, (Patterns.maybe (.capture group none
      (.alts (["8", "16", "32", "64", "128"].map Patterns.text)))).Prefers width.toList [] marks := by
  have found : ∀ width ∈ ["8", "16", "32", "64", "128"],
      ["8", "16", "32", "64", "128"].find? (fun spelling => spelling.toList.isPrefixOf (width.toList ++ [])) =
        some width := by
    decide
  rcases List.mem_cons.mp listed with rfl | some
  · have missing : ∀ width ∈ ["8", "16", "32", "64", "128"], width.toList.isPrefixOf [] = false := by
      decide
    exact ⟨_, .absent (.capture (.literals missing))⟩
  · exact ⟨_, .present (.capture (.literals (found width some) rfl))⟩

/-- What may stand behind the digits of a number. -/
theorem suffix_prefers (group : Nat) {type : String} (listed : type ∈ numberTypes) :
    ∃ marks, (Patterns.suffix group).Prefers type.toList [] marks := by
  have integer : ∀ letter ∈ ['u', 'i'],
      ((CharSet.single 'i').union (.single 'u')).contains letter = true := by
    decide
  have float (width : String) (listed : width ∈ ["32", "64"]) :
      ∃ marks, (Patterns.suffix group).Prefers (['f'] ++ width.toList) [] marks := by
    have other : ((['f'] ++ width.toList) ++ []).head?.any
        ((CharSet.single 'i').union (.single 'u')).contains = false :=
      rfl
    have found : ∀ width ∈ ["32", "64"],
        ["32", "64"].find? (fun spelling => spelling.toList.isPrefixOf (width.toList ++ [])) = some width := by
      decide
    exact ⟨_, .present (.capture (.altRight (.seq (.char other))
      (.seq (.char (by decide)) (.capture (.literals (found width listed) rfl)))))⟩
  simp only [numberTypes, List.mem_cons, List.mem_flatMap] at listed
  rcases listed with rfl | rfl | rfl | ⟨letter, known, isType⟩
  · exact ⟨_, .absent (.capture (.alt (.seq (.char rfl)) (.seq (.char rfl))))⟩
  · exact float "32" (by decide)
  · exact float "64" (by decide)
  · obtain ⟨width, isWidth, rfl⟩ := List.mem_map.mp isType
    obtain ⟨marks, prefers⟩ := width_prefers (group + 1) isWidth
    rw [String.toList_append, String.toList_singleton]
    exact ⟨_, .present (.capture (.altLeft (.seq (.char (integer letter (by simpa using known))) prefers)))⟩

/-! ### What digits end before -/

theorem head?_any_eq_false {chars letters : List Char} {set : CharSet}
    (starts : ∀ c ∈ chars.head?, c ∈ letters) (apart : ∀ c ∈ letters, set.contains c = false) :
    chars.head?.any set.contains = false := by
  cases chars with
  | nil => rfl
  | cons c rest => exact apart c (starts c rfl)

theorem type_starts {type : String} (listed : type ∈ numberTypes) :
    ∀ c ∈ type.toList.head?, c ∈ ['f', 'i', 'u'] := by
  have all : ∀ type ∈ numberTypes, type.toList.head?.all (['f', 'i', 'u'].contains ·) = true := by
    decide
  intro c first
  have known := all type listed
  rw [Option.mem_def.mp first] at known
  simpa using known

variable {exponent fraction digits : List Char} {type : String}

theorem exponent_starts (power : Exponent exponent) (listed : type ∈ numberTypes) :
    ∀ c ∈ (exponent ++ type.toList).head?, c ∈ ['E', 'e', 'f', 'i', 'u'] := by
  intro c first
  cases power with
  | none =>
      have known := type_starts listed c first
      exact List.mem_cons_of_mem _ (List.mem_cons_of_mem _ known)
  | power known signed fits =>
      cases first
      rcases List.mem_pair.mp known with rfl | rfl <;> decide

theorem fraction_starts (part : Fraction fraction) (power : Exponent exponent)
    (listed : type ∈ numberTypes) :
    ∀ c ∈ (fraction ++ (exponent ++ type.toList)).head?, c ∈ ['.', 'E', 'e', 'f', 'i', 'u'] := by
  intro c first
  cases part with
  | none => exact List.mem_cons_of_mem _ (exponent_starts power listed c first)
  | point fits =>
      cases first
      exact List.mem_cons_self

/-! ### The parts of a decimal numeral -/

/-- Digits are characters of the set that has them all. -/
theorem Digits.several {allowed : String} {set : CharSet} {rest : List Char} (fits : Digits allowed digits)
    (inSet : ∀ c ∈ allowed.toList, set.contains c = true) (ends : rest.head?.any set.contains = false) :
    (Patterns.several set).Prefers digits rest fun _ => [] :=
  .several (fun c member => inSet c (fits.2 c member)) ends fits.1

theorem decimal_inSet : ∀ c ∈ "0123456789_".toList, Patterns.decimalDigits.contains c = true := by
  decide

/-- A sign is taken if there is one in front of digits. -/
theorem sign_prefers {sign rest : List Char} (signed : sign ∈ [[], ['+'], ['-']])
    (fits : Digits "0123456789_" digits) :
    ∃ marks, (Patterns.maybe (.char ((CharSet.single '+').union (.single '-')))).Prefers sign
      (digits ++ rest) marks := by
  have unsigned : ∀ c ∈ "0123456789_".toList,
      ((CharSet.single '+').union (.single '-')).contains c = false := by
    decide
  have first : ∀ c ∈ (digits ++ rest).head?, c ∈ "0123456789_".toList := by
    intro c first
    rw [List.head?_append_of_ne_nil _ fits.1] at first
    exact fits.2 c (List.mem_of_mem_head? first)
  simp only [List.mem_cons, List.not_mem_nil, or_false] at signed
  rcases signed with rfl | rfl | rfl
  · exact ⟨_, .absent (.char (head?_any_eq_false first unsigned))⟩
  · exact ⟨_, .present (.char (by decide))⟩
  · exact ⟨_, .present (.char (by decide))⟩

theorem exponent_prefers (power : Exponent exponent) (listed : type ∈ numberTypes) :
    ∃ marks, Patterns.exponent.Prefers exponent type.toList marks := by
  have starts := type_starts listed
  have letters : ∀ c ∈ ['e', 'E'], ((CharSet.single 'E').union (.single 'e')).contains c = true := by
    decide
  have others : ∀ c ∈ ['f', 'i', 'u'], ((CharSet.single 'E').union (.single 'e')).contains c = false := by
    decide
  cases power with
  | none => exact ⟨_, .absent (.capture (.seq (.char (head?_any_eq_false starts others))))⟩
  | @power letter sign digits known signed fits =>
      obtain ⟨marks, prefers⟩ := sign_prefers signed fits
      have behind := fits.several decimal_inSet (head?_any_eq_false starts (by decide))
      exact ⟨_, .present (.capture (.seq (.char (letters letter known)) (.seq prefers behind)))⟩

theorem fraction_prefers (part : Fraction fraction) (power : Exponent exponent)
    (listed : type ∈ numberTypes) :
    ∃ marks, Patterns.fraction.Prefers fraction (exponent ++ type.toList) marks := by
  have starts := exponent_starts power listed
  have others : ∀ c ∈ ['E', 'e', 'f', 'i', 'u'], (CharSet.single '.').contains c = false := by
    decide
  cases part with
  | none => exact ⟨_, .absent (.capture (.seq (.char (head?_any_eq_false starts others))))⟩
  | point fits =>
      have behind := fits.several decimal_inSet (head?_any_eq_false starts (by decide))
      exact ⟨_, .present (.capture (.seq (.char (by decide)) behind))⟩

/-! ### Whole numerals -/

/-- A number of some base, without the boundary in front of it. -/
theorem based_prefers {letter : Char} {set : CharSet} (each : ∀ c ∈ digits, set.contains c = true)
    (nonempty : digits ≠ []) (ends : type.toList.head?.any set.contains = false)
    (listed : type ∈ numberTypes) :
    ∃ marks, (Pattern.seqs [Patterns.one '0', Patterns.one letter,
      .capture 1 none (Patterns.several set), Patterns.suffix 2]).Prefers
        ('0' :: letter :: digits ++ type.toList) [] marks := by
  obtain ⟨_, suffix⟩ := suffix_prefers 2 listed
  rw [← List.append_nil type.toList] at ends
  have run := Prefers.several each ends nonempty
  exact ⟨_, (Prefers.single '0').seq ((Prefers.single letter).seq (run.capture.seq suffix))⟩

theorem decimal_prefers {first : Char} (known : first ∈ "0123456789".toList)
    (fits : ∀ c ∈ digits, c ∈ "0123456789_".toList) (part : Fraction fraction) (power : Exponent exponent)
    (listed : type ∈ numberTypes) :
    ∃ marks, (Pattern.seqs [.capture 1 none (.seqs [.char (.range '0' '9'),
      Patterns.many Patterns.decimalDigits, Patterns.fraction, Patterns.exponent]),
      Patterns.suffix 4]).Prefers (first :: (digits ++ (fraction ++ exponent)) ++ type.toList) [] marks := by
  have isDigit : ∀ c ∈ "0123456789".toList, (CharSet.range '0' '9').contains c = true := by
    decide
  have ends : (fraction ++ exponent ++ type.toList).head?.any Patterns.decimalDigits.contains = false := by
    rw [List.append_assoc]
    exact head?_any_eq_false (fraction_starts part power listed) (by decide)
  have run := Prefers.many (fun c member => decimal_inSet c (fits c member)) ends
  obtain ⟨_, pointed⟩ := fraction_prefers part power listed
  obtain ⟨_, raised⟩ := exponent_prefers power listed
  obtain ⟨_, suffix⟩ := suffix_prefers 4 listed
  have numeral := (Prefers.char (isDigit first known)).seq (run.seq (pointed.seq raised))
  rw [← List.append_nil type.toList] at numeral
  exact ⟨_, numeral.capture.seq suffix⟩

end Patterns

/-! ## The rules of numbers -/

section Rules
open Pattern (Prefers)
variable {source : Source} (ignore : Bool)

theorem digit_isWord : ∀ c ∈ "0123456789".toList, Assertion.isWord false c = true := by
  decide

/-- The rules before those of numbers match nothing at a digit. -/
theorem silent_of_digit {place : Nat} {first : Char} (digit : first ∈ "0123456789".toList)
    (here : source.chars[place]? = some first) :
    ∀ other ∈ [0, 2, 4, 6, 7, 8], ∀ rule ∈ Ready.rules[other]?, rule.match? source place other = none := by
  have refused : ∀ c ∈ "0123456789".toList, Refused [0, 2, 4, 6, 7, 8] [c] := by
    decide +kernel
  exact (refused first digit).silent (Source.holdsAt_singleton.mpr here)

/-- The rule of a base matches nothing where its letter is missing. -/
theorem number_match?_eq_none {letter : Char} {set : CharSet} {place index : Nat}
    (steady : (Patterns.number letter set).isSteady = true)
    (missing : source.chars[place + 1]? ≠ some letter) :
    (Rule.single (Ready.single (some .number) (Patterns.number letter set) 0)).match? source place index =
      none := by
  refine Rule.match?_eq_none ?_
  have opener : (Ready.single (some .number) (Patterns.number letter set) 0).opener =
      Program.ofPattern (Patterns.number letter set) :=
    rfl
  rw [Rule.opener, opener, Program.match?_ofPattern steady, List.head?_eq_none_iff, Pattern.ways,
    List.map_eq_nil_iff, List.eq_nil_iff_forall_not_mem]
  intro k way
  obtain ⟨edge, boundary, way⟩ := List.mem_flatMap.mp way
  obtain ⟨behind, zero, way⟩ := List.mem_flatMap.mp way
  obtain ⟨last, known, _⟩ := List.mem_flatMap.mp way
  rw [Patterns.boundary, Pattern.ways] at boundary
  split at boundary
  · obtain rfl := List.mem_singleton.mp boundary
    obtain ⟨_, rfl⟩ := Patterns.mem_one_ways.mp zero
    exact missing (Patterns.mem_one_ways.mp known).1.2
  · exact absurd boundary List.not_mem_nil

/-- The rules of digits of a base, with the letters of their bases. -/
def baseRules : List (Nat × Char) :=
  [(9, 'b'), (10, 'o'), (11, 'x')]

theorem silent_of_letter {index place : Nat} {letter : Char}
    (isBase : (index, letter) ∈ baseRules)
    (missing : source.chars[place + 1]? ≠ some letter) :
    ∀ rule ∈ Ready.rules[index]?, rule.match? source place index = none := by
  simp only [baseRules, List.mem_cons, Prod.mk.injEq, List.not_mem_nil, or_false] at isBase
  rcases isBase with ⟨rfl, rfl⟩ | ⟨rfl, rfl⟩ | ⟨rfl, rfl⟩
  all_goals
    rintro rule ⟨⟩
    exact number_match?_eq_none (by decide) missing

/-- A rule of numbers whose pattern takes the whole source is the first one that matches. -/
theorem firstMatch?_number {p : Pattern} {earlier back : List Nat} {index : Nat} {first : Char}
    {rest : List Char} {marks : Nat → List Mark} (digit : first ∈ "0123456789".toList)
    (whole : source.part 0 source.size = first :: rest)
    (root : Ready.root = ([0, 2, 4, 6, 7, 8] ++ earlier) ++ index :: back)
    (listed : Ready.rules[index]? =
      some (.single (Ready.single (some .number) (.seq Patterns.boundary p) 0)))
    (silent : ∀ other ∈ earlier, ∀ rule ∈ Ready.rules[other]?, rule.match? source 0 other = none)
    (steady : p.isSteady = true) (prefers : p.Prefers (first :: rest) [] marks) :
    ∃ index, (Ready.highlighter.ignoring ignore).firstMatch? source 0 Ready.root =
      some (.single index (Ready.single (some .number) (.seq Patterns.boundary p) 0) source.size) := by
  obtain ⟨here, inside, _⟩ := Source.left_eq_cons whole
  have word : source.chars[0]?.any (Assertion.isWord false) = true := by
    rw [here]
    exact digit_isWord first digit
  have holds := boundary_start word
  have length : (first :: rest).length = source.size := by
    rw [← whole, source.part_length (Nat.le_refl _), Nat.sub_zero]
  have taken : (Program.ofPattern (.seq Patterns.boundary p)).stop? source.chars 0 source.size =
      some source.size := by
    have way := prefers source ⟨0, [⟨0, true, 0⟩]⟩ (Nat.zero_le _) (by rw [whole, List.append_nil])
    have bounded : (Pattern.seq Patterns.boundary p).isSteady = true := steady
    rw [Program.stop?_ofPattern bounded, Patterns.boundary, Pattern.ways,
      Pattern.ways, if_pos holds, List.flatMap_singleton, way, length, Nat.zero_add]
    rfl
  refine ⟨index, firstMatch?_of_silent ignore root listed ?_ (single_match? taken inside)⟩
  intro other member
  rcases List.mem_append.mp member with before | later
  · exact silent_of_digit digit here other before
  · exact silent other later

/-- The digits of a base with a type behind them, which hexadecimal digits may go into. -/
theorem hexadecimal_split {digits : List Char} {type : String}
    (fits : Digits "0123456789ABCDEFabcdef_" digits) (listed : type ∈ numberTypes) :
    ∃ others rest, digits ++ type.toList = others ++ rest.toList ∧
      Digits "0123456789ABCDEFabcdef_" others ∧ rest ∈ numberTypes ∧
      rest.toList.head?.any Patterns.hexadecimalDigits.contains = false := by
  have cases : ∀ type ∈ numberTypes, type.toList.head?.any Patterns.hexadecimalDigits.contains = false ∨
      ∀ c ∈ type.toList, c ∈ "0123456789ABCDEFabcdef_".toList := by
    decide
  rcases cases type listed with apart | digital
  · exact ⟨digits, type, rfl, fits, listed, apart⟩
  · refine ⟨digits ++ type.toList, "", by rw [String.toList_empty, List.append_nil], ?_, by decide, rfl⟩
    refine ⟨List.append_ne_nil_of_left_ne_nil fits.1 _, fun c member => ?_⟩
    rcases List.mem_append.mp member with before | behind
    · exact fits.2 c before
    · exact digital c behind

/-- A decimal digit stands in front of no letter of a base. -/
theorem decimal_second {digits fraction exponent : List Char} {type : String}
    (fits : ∀ c ∈ digits, c ∈ "0123456789_".toList) (part : Fraction fraction) (power : Exponent exponent)
    (listed : type ∈ numberTypes) :
    ∀ c ∈ (digits ++ (fraction ++ exponent) ++ type.toList).head?, c ∉ ['b', 'o', 'x'] := by
  have apart : (∀ c ∈ "0123456789_".toList, c ∉ ['b', 'o', 'x']) ∧
      ∀ c ∈ ['.', 'E', 'e', 'f', 'i', 'u'], c ∉ ['b', 'o', 'x'] := by
    decide
  intro c first
  cases digits with
  | nil =>
      rw [List.nil_append, List.append_assoc] at first
      exact apart.2 c (fraction_starts part power listed c first)
  | cons d rest =>
      cases first
      exact apart.1 c (fits c List.mem_cons_self)

/-- Digits of a base are matched by its rule if the type behind them starts with no digit of it. -/
theorem firstMatch?_based {letter : Char} {allowed : String} {set : CharSet} {digits : List Char}
    {type : String} {earlier back : List Nat} {index : Nat} (fits : Digits allowed digits)
    (inSet : ∀ c ∈ allowed.toList, set.contains c = true) (listed : type ∈ numberTypes)
    (ends : type.toList.head?.any set.contains = false)
    (whole : source.part 0 source.size = '0' :: letter :: digits ++ type.toList)
    (root : Ready.root = ([0, 2, 4, 6, 7, 8] ++ earlier) ++ index :: back)
    (isRule : Ready.rules[index]? =
      some (.single (Ready.single (some .number) (Patterns.number letter set) 0)))
    (steady : (Patterns.number letter set).isSteady = true)
    (bases : ∀ other ∈ earlier, ∃ mark, mark ≠ letter ∧ (other, mark) ∈ baseRules) :
    ∃ index p, (Ready.highlighter.ignoring ignore).firstMatch? source 0 Ready.root =
      some (.single index (Ready.single (some .number) p 0) source.size) := by
  obtain ⟨_, _, behind⟩ := Source.left_eq_cons whole
  have second : source.chars[1]? = some letter := (Source.left_eq_cons behind).1
  have silent : ∀ other ∈ earlier, ∀ rule ∈ Ready.rules[other]?, rule.match? source 0 other = none := by
    intro other member
    obtain ⟨mark, isOther, isBase⟩ := bases other member
    refine silent_of_letter isBase ?_
    rw [second]
    exact fun same => isOther (Option.some.inj same).symm
  obtain ⟨_, prefers⟩ := based_prefers (fun c member => inSet c (fits.2 c member)) fits.1 ends listed
  obtain ⟨index, first⟩ :=
    firstMatch?_number ignore (by decide) whole root isRule silent steady prefers
  exact ⟨index, _, first⟩

/-- A numeral with a type behind it is matched as a whole by the first rule that matches. -/
theorem firstMatch?_numeral {chars : List Char} {type : String} (numeral : Numeral chars)
    (listed : type ∈ numberTypes) (whole : source.part 0 source.size = chars ++ type.toList) :
    ∃ index p, (Ready.highlighter.ignoring ignore).firstMatch? source 0 Ready.root =
      some (.single index (Ready.single (some .number) p 0) source.size) := by
  have starts := type_starts listed
  cases numeral with
  | @based letter allowed digits known fits =>
      simp only [bases, List.mem_cons, Prod.mk.injEq, List.not_mem_nil, or_false] at known
      rcases known with ⟨rfl, rfl⟩ | ⟨rfl, rfl⟩ | ⟨rfl, rfl⟩
      · have root : Ready.root = ([0, 2, 4, 6, 7, 8] ++ []) ++ 9 :: Ready.root.drop 7 := rfl
        have ends := head?_any_eq_false starts
          (show ∀ c ∈ _, Patterns.binaryDigits.contains c = false by decide)
        refine firstMatch?_based ignore fits (by decide) listed ends whole root rfl (by decide) ?_
        simp
      · have root : Ready.root = ([0, 2, 4, 6, 7, 8] ++ [9]) ++ 10 :: Ready.root.drop 8 := rfl
        have ends := head?_any_eq_false starts
          (show ∀ c ∈ _, Patterns.octalDigits.contains c = false by decide)
        refine firstMatch?_based ignore fits (by decide) listed ends whole root rfl (by decide) ?_
        simp [baseRules]
      · have root : Ready.root = ([0, 2, 4, 6, 7, 8] ++ [9, 10]) ++ 11 :: Ready.root.drop 9 := rfl
        obtain ⟨others, rest, split, fits, listed, ends⟩ := hexadecimal_split fits listed
        have whole : source.part 0 source.size = '0' :: 'x' :: others ++ rest.toList :=
          whole.trans (congrArg (fun behind => '0' :: 'x' :: behind) split)
        refine firstMatch?_based ignore fits (by decide) listed ends whole root rfl (by decide) ?_
        simp [baseRules]
  | @decimal first digits fraction exponent known fits part power =>
      have root : Ready.root = ([0, 2, 4, 6, 7, 8] ++ [9, 10, 11]) ++ 12 :: Ready.root.drop 10 := rfl
      obtain ⟨_, inside, behind⟩ := Source.left_eq_cons whole
      have second : ∀ letter ∈ ['b', 'o', 'x'], source.chars[0 + 1]? ≠ some letter := by
        intro letter isLetter here
        rw [← source.part_head?_size inside, behind] at here
        exact decimal_second fits part power listed letter here isLetter
      have all : ∀ other ∈ [9, 10, 11], ∃ letter ∈ ['b', 'o', 'x'], (other, letter) ∈ baseRules := by
        simp [baseRules]
      have silent : ∀ other ∈ [9, 10, 11], ∀ rule ∈ Ready.rules[other]?,
          rule.match? source 0 other = none := by
        intro other member
        obtain ⟨letter, isLetter, isBase⟩ := all other member
        exact silent_of_letter isBase (second letter isLetter)
      obtain ⟨_, prefers⟩ := decimal_prefers known fits part power listed
      obtain ⟨index, found⟩ := firstMatch?_number ignore known whole root rfl silent (by decide) prefers
      exact ⟨index, _, found⟩

end Rules

/-- A numeral with a type behind it is read as one number, which is the only token of its text and says
nothing of the language, whether illegal text is ignored or not. -/
theorem number_whole (ignore : Bool) (numeral type : String) (isNumeral : Numeral numeral.toList)
    (isType : type ∈ numberTypes) :
    let text := numeral ++ type
    ∃ result, (highlighter.ignoring ignore).highlight text = .ok result ∧ result.relevance = 0 ∧
      ∃ span, result.tokens = [⟨some .number, text, 0, text.utf8ByteSize, span⟩] := by
  intro text
  rw [highlighter_eq]
  let source := Source.ofString text
  have whole : source.part 0 source.size = numeral.toList ++ type.toList := by
    rw [source.part_whole, ← String.toList_append]
    rfl
  obtain ⟨index, p, first⟩ := firstMatch?_numeral ignore isNumeral isType whole
  have inside : 0 < source.size := by
    generalize numeral.toList = chars at isNumeral whole
    cases isNumeral <;> exact (Source.left_eq_cons whole).2.1
  obtain ⟨result, highlighted, same, nodes, relevance⟩ :=
    Highlighter.highlight_of_whole inside first rfl rfl
  have tree : result.nodes = [.leaf .number 0 result.source.size] := by
    rw [nodes, same]
    rfl
  have read := (Highlight.of_leaf tree).2
  rw [same, Source.toString_ofString] at read
  exact ⟨result, highlighted, relevance, read⟩

theorem measurement_whole :
    let text := "1_0.5E-3_" ++ "f64"
    Numeral "1_0.5E-3_".toList ∧ "f64" ∈ numberTypes ∧
      ∃ result, (highlighter.ignoring false).highlight text = .ok result ∧ result.relevance = 0 ∧
        ∃ span, result.tokens = [⟨some .number, text, 0, text.utf8ByteSize, span⟩] := by
  have power : Exponent ('E' :: (['-'] ++ "3_".toList)) :=
    .power (by decide) (by decide) ⟨by decide, by decide⟩
  have point : Fraction ('.' :: "5".toList) := .point ⟨by decide, by decide⟩
  have numeral : Numeral "1_0.5E-3_".toList :=
    .decimal (by decide) (show ∀ c ∈ "_0".toList, _ by decide) point power
  have isType : "f64" ∈ numberTypes := by decide
  exact ⟨numeral, isType, number_whole false "1_0.5E-3_" "f64" numeral isType⟩

end Highlighting.Jacy
