import Highlighting.Proofs.Registry

/-! # Detecting the language

A text is scanned with every language in the order of registration, and the best result so far is kept.
A result takes the place of an earlier one only if it is more relevant. So what is found in the end is the
first of the most relevant results, and there is none only if every language refuses the text. -/
set_option autoImplicit false
namespace Highlighting

def Highlighter.Refuses (highlighter : Highlighter) (text : String) : Prop :=
  ∃ illegal, highlighter.highlight text = .error illegal

theorem Highlighter.Refuses.not_accepts {highlighter : Highlighter} {text : String} {result : Highlight}
    (refuses : highlighter.Refuses text) : highlighter.highlight text ≠ .ok result := by
  obtain ⟨illegal, refused⟩ := refuses
  rw [refused]
  exact fun absurdity => nomatch absurdity

namespace Registry

/-- The best result so far, once another language has been tried. -/
def judge (text : String) (best : Option Highlight) (highlighter : Highlighter) : Option Highlight :=
  match highlighter.highlight text with
  | .ok next => some (better best next)
  | .error _ => best

theorem scanAll_eq_foldl (text : String) (highlighters : List Highlighter) :
    ∀ best : Option Highlight,
      (scanAll (.ofString text) best highlighters).1 = highlighters.foldl (judge text) best := by
  induction highlighters with
  | nil => intro best; rfl
  | cons highlighter rest ih =>
      intro best
      rw [scanAll, List.foldl_cons, judge, Highlighter.highlight]
      cases (highlighter.scan (.ofString text)).result with
      | ok next => exact ih _
      | error illegal => exact ih best

/-- What is found in a text after a history of registrations. -/
def detect? (history : List Highlighter) (text : String) : Option Highlight :=
  ((ofHistory history).scanAuto (.ofString text)).1

theorem detect?_append (history : List Highlighter) (later : Highlighter) (text : String) :
    detect? (history ++ [later]) text = judge text (detect? history text) later := by
  have folded : ∀ languages : List Highlighter,
      detect? languages text = languages.foldl (judge text) none := by
    intro languages
    rw [detect?, scanAuto, scanAll_eq_foldl, ofHistory_languages]
  rw [folded, folded, List.foldl_append]
  rfl

/-- The language at the index accepts the text with the result. No result is more relevant, and those of
the languages before it are less so. -/
structure FirstBest (history : List Highlighter) (text : String) (index : Nat) (result : Highlight) :
    Prop where
  accepts : ∃ highlighter, history[index]? = some highlighter ∧ highlighter.highlight text = .ok result
  most : ∀ highlighter ∈ history, ∀ other, highlighter.highlight text = .ok other →
    other.relevance ≤ result.relevance
  first : ∀ earlier < index, ∀ highlighter, history[earlier]? = some highlighter → ∀ other,
    highlighter.highlight text = .ok other → other.relevance < result.relevance

/-- What has been found is the first of the best results, or every language has refused the text. -/
def Judged (history : List Highlighter) (text : String) : Option Highlight → Prop
  | none => ∀ highlighter ∈ history, highlighter.Refuses text
  | some result => ∃ index, FirstBest history text index result

section Judging
variable {history : List Highlighter} {text : String} {later : Highlighter} {index : Nat}
  {result next : Highlight}

theorem FirstBest.inside (best : FirstBest history text index result) : index < history.length := by
  obtain ⟨_, here, _⟩ := best.accepts
  exact (List.getElem?_eq_some_iff.mp here).1

/-- The first of the best results stays so behind a language that has none or no better one. -/
theorem FirstBest.append (best : FirstBest history text index result)
    (worse : ∀ other, later.highlight text = .ok other → other.relevance ≤ result.relevance) :
    FirstBest (history ++ [later]) text index result := by
  have inside := best.inside
  refine ⟨?_, ?_, ?_⟩
  · rw [List.getElem?_append_left inside]
    exact best.accepts
  · intro highlighter member
    rcases List.mem_append.mp member with before | last
    · exact best.most highlighter before
    · rw [List.mem_singleton.mp last]
      exact worse
  · intro earlier before highlighter here
    rw [List.getElem?_append_left (Nat.lt_trans before inside)] at here
    exact best.first earlier before highlighter here

/-- A result that is better than all before it is the first of the best. -/
theorem firstBest_last (accepts : later.highlight text = .ok next)
    (better : ∀ highlighter ∈ history, ∀ other, highlighter.highlight text = .ok other →
      other.relevance < next.relevance) :
    FirstBest (history ++ [later]) text history.length next := by
  refine ⟨⟨later, List.getElem?_concat_length, accepts⟩, ?_, ?_⟩
  · intro highlighter member other accepted
    rcases List.mem_append.mp member with before | last
    · exact Nat.le_of_lt (better highlighter before other accepted)
    · rw [List.mem_singleton.mp last, accepts] at accepted
      cases accepted
      exact Nat.le_refl _
  · intro earlier before highlighter here
    rw [List.getElem?_append_left before] at here
    exact better highlighter (List.mem_of_getElem? here)

/-- One more language keeps it that what has been found is the first of the best results. -/
theorem Judged.append {best : Option Highlight} (judged : Judged history text best)
    (later : Highlighter) : Judged (history ++ [later]) text (judge text best later) := by
  cases accepts : later.highlight text with
  | error illegal =>
      have nothing : ∀ other, later.highlight text ≠ .ok other :=
        fun other => Highlighter.Refuses.not_accepts ⟨illegal, accepts⟩
      rw [judge, accepts]
      cases best with
      | none =>
          intro highlighter member
          rcases List.mem_append.mp member with before | last
          · exact judged highlighter before
          · rw [List.mem_singleton.mp last]
            exact ⟨illegal, accepts⟩
      | some result =>
          obtain ⟨index, first⟩ := judged
          exact ⟨index, first.append fun other accepted => absurd accepted (nothing other)⟩
  | ok next =>
      rw [judge, accepts]
      cases best with
      | none =>
          exact ⟨history.length, firstBest_last accepts fun highlighter before other accepted =>
            absurd accepted (judged highlighter before).not_accepts⟩
      | some result =>
          obtain ⟨index, first⟩ := judged
          by_cases less : result.relevance < next.relevance
          · have taken : better (some result) next = next := if_pos less
            dsimp only
            rw [taken]
            exact ⟨history.length, firstBest_last accepts fun highlighter before other accepted =>
              Nat.lt_of_le_of_lt (first.most highlighter before other accepted) less⟩
          · have kept : better (some result) next = result := if_neg less
            dsimp only
            rw [kept]
            refine ⟨index, first.append fun other accepted => ?_⟩
            rw [accepts] at accepted
            cases accepted
            exact Nat.not_lt.mp less

theorem judged_detect? (history : List Highlighter) (text : String) :
    Judged history text (detect? history text) := by
  induction history using List.reverseRecOn with
  | nil => exact List.forall_mem_nil _
  | append_singleton earlier later ih =>
      rw [detect?_append]
      exact ih.append later

/-- There is only one first of the best results. -/
theorem FirstBest.unique {other : Highlight} {place : Nat} (best : FirstBest history text index result)
    (also : FirstBest history text place other) : result = other := by
  obtain ⟨highlighter, here, accepts⟩ := best.accepts
  obtain ⟨second, there, accepted⟩ := also.accepts
  have ordered := best.most second (List.mem_of_getElem? there) other accepted
  have reverse := also.most highlighter (List.mem_of_getElem? here) result accepts
  rcases Nat.lt_trichotomy index place with before | rfl | behind
  · have less := also.first index before highlighter here result accepts
    omega
  · obtain rfl := Option.some.inj (here.symm.trans there)
    rw [accepts] at accepted
    exact Except.ok.inj accepted
  · have less := best.first place behind second there other accepted
    omega

theorem detect?_eq_none_iff :
    detect? history text = none ↔ ∀ highlighter ∈ history, highlighter.Refuses text := by
  have judged := judged_detect? history text
  cases found : detect? history text with
  | none =>
      rw [found] at judged
      exact iff_of_true rfl judged
  | some result =>
      rw [found] at judged
      obtain ⟨index, first⟩ := judged
      obtain ⟨highlighter, here, accepts⟩ := first.accepts
      refine iff_of_false (fun absurdity => nomatch absurdity) fun refuse => ?_
      exact (refuse highlighter (List.mem_of_getElem? here)).not_accepts accepts

theorem detect?_eq_some_iff :
    detect? history text = some result ↔ ∃ index, FirstBest history text index result := by
  have judged := judged_detect? history text
  constructor
  · intro found
    rwa [found] at judged
  · rintro ⟨index, first⟩
    cases found : detect? history text with
    | none =>
        obtain ⟨highlighter, here, accepts⟩ := first.accepts
        have refuses := detect?_eq_none_iff.mp found highlighter (List.mem_of_getElem? here)
        exact absurd accepts refuses.not_accepts
    | some other =>
        rw [found] at judged
        obtain ⟨place, also⟩ := judged
        rw [first.unique also]

/-- One more language makes a difference where it accepts a text that was refused so far, or has a more
relevant result. -/
theorem detect?_append_ne_iff :
    detect? (history ++ [later]) text ≠ detect? history text ↔
      ∃ next, later.highlight text = .ok next ∧
        ∀ best, detect? history text = some best → best.relevance < next.relevance := by
  rw [detect?_append, judge]
  cases later.highlight text with
  | error illegal =>
      refine iff_of_false (fun differs => differs rfl) ?_
      rintro ⟨next, absurdity, _⟩
      exact nomatch absurdity
  | ok next =>
      cases detect? history text with
      | none =>
          refine iff_of_true (fun absurdity => nomatch absurdity) ⟨next, rfl, ?_⟩
          exact fun _ absurdity => nomatch absurdity
      | some best =>
          by_cases less : best.relevance < next.relevance
          · have taken : better (some best) next = next := if_pos less
            dsimp only
            rw [taken]
            refine iff_of_true (fun same => ?_) ⟨next, rfl, fun _ found => Option.some.inj found ▸ less⟩
            rw [Option.some.inj same] at less
            exact Nat.lt_irrefl _ less
          · have kept : better (some best) next = best := if_neg less
            dsimp only
            rw [kept]
            refine iff_of_false (fun differs => differs rfl) ?_
            rintro ⟨other, accepted, more⟩
            cases accepted
            exact less (more best rfl)

end Judging

/-- What is found in a text is the first of the most relevant results, in the order of registration. It is
none exactly if every language refuses the text. A further registration makes a difference exactly if
the language accepts the text, and either all earlier ones refuse it or its result is more relevant. -/
theorem detection_takes_first_best (history : List Highlighter) (text : String) :
    (detect? history text = none ↔ ∀ highlighter ∈ history, highlighter.Refuses text) ∧
    (∀ result, detect? history text = some result ↔ ∃ index, FirstBest history text index result) ∧
    ∀ later, detect? (history ++ [later]) text ≠ detect? history text ↔
      ∃ next, later.highlight text = .ok next ∧
        ((∀ highlighter ∈ history, highlighter.Refuses text) ∨
          ∃ best, detect? history text = some best ∧ best.relevance < next.relevance) := by
  refine ⟨detect?_eq_none_iff, fun _ => detect?_eq_some_iff, fun later => ?_⟩
  rw [detect?_append_ne_iff, ← detect?_eq_none_iff]
  refine exists_congr fun next => and_congr_right fun _ => ?_
  cases detect? history text with
  | none => exact iff_of_true (fun _ absurdity => nomatch absurdity) (.inl rfl)
  | some best => simp

/-- A highlighter without words, to which each character of one kind counts the same. -/
def counting (name : String) (c : Char) (relevance : Nat) : Highlighter where
  name := name
  aliases := []
  rules := #[.single
    { scope := none, opener := .ofPattern (.char (.single c)), followedBy := none, excluded := [],
      fence := none, words := none, relevance }]
  root := [0]
  words := { pattern := .ofPattern (.char .none), vocabularies := [], operators := none }
  illegal := none

/-- Two times 2³¹ is nothing in 32 bits, so that the single match of the other language is more. -/
example :
    (detect? [counting "A" 'a' (2 ^ 31), counting "B" 'b' 1] "aab").map (·.language) = some "B" := by
  decide +kernel

end Registry

end Highlighting
