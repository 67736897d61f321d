import Highlighting.Main
import Highlighting.Proofs.Jacy

/-! # The plain format

A run that prints the plain format prints its input, or it fails on illegal text and prints nothing. -/
set_option autoImplicit false
namespace Highlighting.CommandLine

theorem textOf_toUTF8 (text : String) : textOf text.toUTF8 = .ok text := by
  have valid : text.toUTF8.IsValidUTF8 := text.isValidUTF8
  rw [textOf, String.fromUTF8?, dif_pos valid]
  rfl

theorem highlighter_eq (options : Options) :
    options.highlighter = Jacy.highlighter.ignoring options.ignoreIllegal := rfl

theorem register_keys {highlighter : Highlighter} (ignore : Bool) {name nickname : String}
    (named : highlighter.name = name) (nicknamed : highlighter.aliases = [nickname]) :
    (({} : Registry).register (highlighter.ignoring ignore)).keys =
      [(lowerCase nickname, 0), (lowerCase name, 0)] := by
  have sameName : (highlighter.ignoring ignore).name = name := named
  have sameAliases : (highlighter.ignoring ignore).aliases = [nickname] := nicknamed
  rw [Registry.register, sameName, sameAliases]
  rfl

theorem register_first (highlighter : Highlighter) :
    (({} : Registry).register highlighter).languages[0]? = some highlighter := rfl

theorem get?_jacy (options : Options) :
    options.registry.get? "jacy" = some options.highlighter := by
  have found : [(lowerCase "jc", 0), (lowerCase "Jacy", 0)].lookup (lowerCase "jacy") = some 0 := by
    decide +kernel
  have keys : options.registry.keys = [(lowerCase "jc", 0), (lowerCase "Jacy", 0)] := by
    rw [Options.registry, highlighter_eq]
    exact register_keys _ Jacy.highlighter_name Jacy.highlighter_aliases
  rw [Registry.get?, keys, found, Option.bind_some]
  exact register_first options.highlighter

theorem run_of_produced (filter : LogFilter) (options : Options) (input : Except InputError String) :
    (∀ result, (produce options input).2 = .ok result →
      (run filter options input).exitCode = 0 ∧
        (run filter options input).stdout = render options.format result) ∧
    ∀ failure, (produce options input).2 = .error failure →
      (run filter options input).exitCode = 1 ∧ (run filter options input).stdout = "" := by
  rw [run]
  obtain ⟨lines, come⟩ := produce options input
  constructor
  · rintro result rfl
    exact ⟨rfl, rfl⟩
  · rintro failure rfl
    exact ⟨rfl, rfl⟩

theorem produce_known {options : Options} {highlighter : Highlighter}
    {input : Except InputError String} (text : String) (given : input = .ok text)
    (known : options.registry.get? options.language = some highlighter) :
    (produce options input).2 =
      match highlighter.highlight text with
      | .ok result => .ok result
      | .error illegal => .error (.illegal highlighter.name illegal) := by
  -- The input stays a variable until the language is known, so that Jacy is not compiled here.
  unfold produce
  rw [known]
  subst given
  rw [Highlighter.highlight]
  dsimp only
  cases (highlighter.scan (.ofString text)).result <;> rfl

/-- A run that highlights as Jacy prints what comes of it in its format, or it fails and prints nothing. -/
theorem run_jacy (filter : LogFilter) (options : Options) (jacy : options.language = "jacy")
    (text : String) :
    (∃ result, options.highlighter.highlight text = .ok result ∧
      (run filter options (.ok text)).exitCode = 0 ∧
      (run filter options (.ok text)).stdout = render options.format result) ∨
    (∃ illegal, options.highlighter.highlight text = .error illegal ∧
      (run filter options (.ok text)).exitCode = 1 ∧ (run filter options (.ok text)).stdout = "") := by
  have known : options.registry.get? options.language = some options.highlighter := by
    rw [jacy]
    exact get?_jacy options
  have produced := produce_known text rfl known
  obtain ⟨succeeds, fails⟩ := run_of_produced filter options (.ok text)
  cases highlighted : options.highlighter.highlight text with
  | ok result =>
      rw [highlighted] at produced
      exact .inl ⟨result, rfl, succeeds result produced⟩
  | error illegal =>
      rw [highlighted] at produced
      exact .inr ⟨illegal, rfl, fails _ produced⟩

/-- A run that ignores illegal text does not fail. -/
theorem run_lenient (filter : LogFilter) (options : Options) (ignore : options.ignoreIllegal = true)
    (jacy : options.language = "jacy") (text : String) : (run filter options (.ok text)).exitCode = 0 := by
  rcases run_jacy filter options jacy text with ⟨_, _, succeeds, _⟩ | ⟨illegal, refused, _⟩
  · exact succeeds
  · obtain ⟨result, highlighted⟩ := Jacy.highlighter.highlight_lenient text
    rw [highlighter_eq, ignore, highlighted] at refused
    exact nomatch refused

theorem run_plain (filter : LogFilter) (options : Options) (plain : options.format = .plain)
    (jacy : options.language = "jacy") (text : String) :
    (∃ result, options.highlighter.highlight text = .ok result ∧
      (run filter options (.ok text)).exitCode = 0 ∧ (run filter options (.ok text)).stdout = text) ∨
    (∃ illegal, options.highlighter.highlight text = .error illegal ∧
      (run filter options (.ok text)).exitCode = 1 ∧ (run filter options (.ok text)).stdout = "") := by
  refine (run_jacy filter options jacy text).imp_left ?_
  rintro ⟨result, highlighted, code, printed⟩
  refine ⟨result, highlighted, code, ?_⟩
  rw [highlighter_eq] at highlighted
  rw [printed, plain]
  exact (Jacy.plain_eq highlighted).2

/-- In the plain format the program writes what it has read. With illegal text ignored it never fails,
and otherwise it fails without having written anything. The matches of Jacy drop no text, repeat none
and leave it in its order. -/
theorem plain_identity (filter : LogFilter) (text : String) :
    (∃ options, Request.ofArguments ["-f", "plain", "-i"] = .run options ∧ options.file = none ∧
      (run filter options (textOf text.toUTF8)).exitCode = 0 ∧
      (run filter options (textOf text.toUTF8)).stdout = text) ∧
    (∃ options, Request.ofArguments ["-f", "plain"] = .run options ∧ options.file = none ∧
      ((run filter options (textOf text.toUTF8)).exitCode = 0 ∧
          (run filter options (textOf text.toUTF8)).stdout = text ∨
        (run filter options (textOf text.toUTF8)).exitCode = 1 ∧
          (run filter options (textOf text.toUTF8)).stdout = "")) ∧
    ∀ ignore, (Jacy.highlighter.ignoring ignore).TakesInOrder (.ofString text) ∧
      ∀ result, (Jacy.highlighter.ignoring ignore).highlight text = .ok result →
        result.WellFormed ∧ result.plain = text := by
  rw [textOf_toUTF8]
  refine ⟨?_, ?_, ?_⟩
  · refine ⟨{ format := .plain, ignoreIllegal := true }, by decide +kernel, rfl, ?_⟩
    rcases run_plain filter { format := .plain, ignoreIllegal := true } rfl rfl text with
      ⟨result, _, printed⟩ | ⟨_, _, failed, _⟩
    · exact printed
    · rw [run_lenient filter _ rfl rfl text] at failed
      exact nomatch failed
  · refine ⟨{ format := .plain }, by decide +kernel, rfl, ?_⟩
    rcases run_plain filter { format := .plain } rfl rfl text with
      ⟨result, _, printed⟩ | ⟨illegal, _, failed⟩
    · exact .inl printed
    · exact .inr failed
  · exact fun ignore => ⟨Jacy.takesInOrder ignore _, fun result => Jacy.plain_eq⟩

end Highlighting.CommandLine
