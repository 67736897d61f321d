import Mathlib.Data.List.Induction
import Highlighting.Registry

/-! # What registries find

A registration takes over the keys of its language, and all other keys stay with the languages that had
them. So a registry finds the language that was registered last under a key, and whatever else was
registered before or behind it stays listed. -/
set_option autoImplicit false
namespace Highlighting

/-- The language goes by the name: its own name or one of its aliases has the same lower case. -/
def Highlighter.GoesBy (highlighter : Highlighter) (name : String) : Prop :=
  ∃ own ∈ highlighter.name :: highlighter.aliases, lowerCase own = lowerCase name

instance (highlighter : Highlighter) (name : String) : Decidable (highlighter.GoesBy name) :=
  inferInstanceAs (Decidable (∃ own ∈ highlighter.name :: highlighter.aliases, _))

namespace Registry

/-- What registering these languages one after the other comes to. -/
def ofHistory (history : List Highlighter) : Registry :=
  history.foldl register {}

/-- Every key stands for a language of the registry. -/
def Sound (registry : Registry) : Prop :=
  ∀ entry ∈ registry.keys, entry.2 < registry.languages.size

variable {registry : Registry}

theorem lookup_enter (index : Nat) (key : String) (names : List String) :
    ∀ keys : List (String × Nat),
      (names.foldl (fun keys name => (lowerCase name, index) :: keys) keys).lookup key =
        if ∃ name ∈ names, lowerCase name = key then some index else keys.lookup key := by
  induction names with
  | nil => intro keys; simp
  | cons name rest ih =>
      intro keys
      rw [List.foldl_cons, ih, List.lookup_cons]
      by_cases here : lowerCase name = key
      · simp [here]
      · have other : (key == lowerCase name) = false := by
          simpa using fun same : key = lowerCase name => here same.symm
        simp [here, other]

theorem mem_enter {index : Nat} {entry : String × Nat} {names : List String} :
    ∀ {keys : List (String × Nat)},
      entry ∈ names.foldl (fun keys name => (lowerCase name, index) :: keys) keys →
        entry.2 = index ∨ entry ∈ keys := by
  induction names with
  | nil => intro keys member; exact .inr member
  | cons name rest ih =>
      intro keys member
      rcases ih member with same | earlier
      · exact .inl same
      · rcases List.mem_cons.mp earlier with rfl | before
        · exact .inl rfl
        · exact .inr before

theorem Sound.register (sound : registry.Sound) (highlighter : Highlighter) :
    (registry.register highlighter).Sound := by
  intro entry member
  simp only [Registry.register, Array.size_push]
  rcases mem_enter member with same | earlier
  · omega
  · have := sound entry earlier
    omega

theorem lookup_register (registry : Registry) (highlighter : Highlighter) (name : String) :
    (registry.register highlighter).keys.lookup (lowerCase name) =
      if highlighter.GoesBy name then some registry.languages.size
      else registry.keys.lookup (lowerCase name) := by
  rw [Registry.register, lookup_enter]
  exact if_congr Iff.rfl rfl rfl

/-- A registration takes over the keys of its language and leaves the others as they are. -/
theorem get?_register (sound : registry.Sound) (highlighter : Highlighter) (name : String) :
    (registry.register highlighter).get? name =
      if highlighter.GoesBy name then some highlighter else registry.get? name := by
  rw [get?, get?, lookup_register]
  by_cases known : highlighter.GoesBy name
  · rw [if_pos known, if_pos known, Option.bind_some]
    exact Array.getElem?_push_size
  · rw [if_neg known, if_neg known]
    cases found : registry.keys.lookup (lowerCase name) with
    | none => rfl
    | some index =>
        obtain ⟨before, after, split, _⟩ := List.lookup_eq_some_iff.mp found
        have inside : index < registry.languages.size :=
          sound (lowerCase name, index) (split ▸ List.mem_append_cons_self)
        rw [Option.bind_some, Option.bind_some, Registry.register, Array.getElem?_push,
          if_neg (Nat.ne_of_lt inside)]

theorem ofHistory_append (history : List Highlighter) (highlighter : Highlighter) :
    ofHistory (history ++ [highlighter]) = (ofHistory history).register highlighter := by
  rw [ofHistory, List.foldl_append]
  rfl

theorem ofHistory_sound (history : List Highlighter) : (ofHistory history).Sound := by
  induction history using List.reverseRecOn with
  | nil => exact List.forall_mem_nil _
  | append_singleton earlier highlighter sound =>
      rw [ofHistory_append]
      exact sound.register highlighter

theorem ofHistory_languages (history : List Highlighter) :
    (ofHistory history).languages.toList = history := by
  induction history using List.reverseRecOn with
  | nil => rfl
  | append_singleton earlier highlighter ih =>
      rw [ofHistory_append, Registry.register, Array.toList_push, ih]

/-- The latest registration under a name counts. -/
theorem get?_ofHistory (history : List Highlighter) (name : String) :
    (ofHistory history).get? name = history.reverse.find? (·.GoesBy name) := by
  induction history using List.reverseRecOn with
  | nil => rfl
  | append_singleton earlier highlighter ih =>
      rw [ofHistory_append, get?_register (ofHistory_sound earlier), ih, List.reverse_append,
        List.reverse_singleton, List.singleton_append, List.find?_cons]
      by_cases known : highlighter.GoesBy name <;> simp [known]

/-- After any history of registrations, a name finds the language that was registered last among those
that go by it, and none if there is none, so that case does not count. All languages stay listed in the
order of registration. Scanning under a name is scanning with the language that it finds, and a name
that finds none is given back as it was asked for. -/
theorem lookup_follows_history (history : List Highlighter) :
    let registry := ofHistory history
    (∀ name highlighter, registry.get? name = some highlighter ↔
      ∃ before after, history = before ++ highlighter :: after ∧ highlighter.GoesBy name ∧
        ∀ later ∈ after, ¬ later.GoesBy name) ∧
    (∀ name, registry.get? name = none ↔ ∀ highlighter ∈ history, ¬ highlighter.GoesBy name) ∧
    (∀ name other, lowerCase name = lowerCase other → registry.get? name = registry.get? other) ∧
    registry.names = history.map (·.name) ∧
    ∀ name source, registry.scan name source =
      match registry.get? name with
      | some highlighter => .ok (highlighter.scan source)
      | none => .error ⟨name⟩ := by
  intro registry
  refine ⟨?_, ?_, ?_, ?_, fun _ _ => rfl⟩
  · intro name highlighter
    rw [get?_ofHistory, List.find?_eq_some_iff_append]
    constructor
    · rintro ⟨known, after, before, split, others⟩
      refine ⟨before.reverse, after.reverse, ?_, of_decide_eq_true known, ?_⟩
      · rw [← history.reverse_reverse, split]
        simp
      · intro later member
        simpa using others later (List.mem_reverse.mp member)
    · rintro ⟨before, after, rfl, known, others⟩
      refine ⟨decide_eq_true known, after.reverse, before.reverse, by simp, ?_⟩
      intro later member
      simpa using others later (List.mem_reverse.mp member)
  · intro name
    rw [get?_ofHistory, List.find?_eq_none]
    simp
  · intro name other same
    simp only [get?, same]
  · rw [names, ofHistory_languages]

end Registry

end Highlighting
