import Mathlib.Order.Bounds.Basic
import Highlighting.Proofs.Checked.Attempt

/-! # The first closer

Closers of a fence may overlap: the marks can have the closing character in them, and a closer that a
further mark follows may start a run of marks in which another one ends. The search tries every place
behind the opener, so that it finds the first end of a closer that no mark follows. To look for the next
closer from behind the closing character of the last one is the same search. -/
set_option autoImplicit false
namespace Highlighting

namespace Fence
variable (fence : Fence) (source : Source) (marks : List Char)

/-- The text from the end of the opener up to `stop` ends with a closer, and no mark follows it. -/
structure Closes (opened stop : Nat) : Prop where
  inside : stop ≤ source.size
  closer : fence.close :: marks <:+ source.part opened stop
  unmarked : source.chars[stop]? ≠ some fence.mark

/-- A closer stands somewhere behind the opener. -/
theorem closes_iff {opened stop : Nat} :
    fence.Closes source marks opened stop ↔
      ∃ place, opened ≤ place ∧ place ≤ source.size ∧ fence.closesAt source marks place = true ∧
        stop = place + 1 + marks.length := by
  constructor
  · intro closes
    obtain ⟨front, split⟩ := closes.closer
    have ordered : opened ≤ stop := by
      rw [← Nat.not_lt]
      intro later
      have nothing : source.part opened stop = [] := by
        rw [Source.part, Array.extract_empty_of_stop_le_start (Nat.le_of_lt later)]
      simp [nothing] at split
    obtain ⟨within, _, closer⟩ := source.part_of_append ordered closes.inside split
    have length : (source.part (opened + front.length) stop).length = stop - (opened + front.length) :=
      source.part_length closes.inside
    rw [closer, List.length_cons] at length
    have stands : source.holdsAt (fence.close :: marks) (opened + front.length) = true := by
      have starts : fence.close :: marks <+: source.part (opened + front.length) stop :=
        closer ▸ List.prefix_rfl
      exact source.holdsAt_of_prefix starts
    have ends : stop = opened + front.length + 1 + marks.length := by omega
    have inside : opened + front.length ≤ source.size := Nat.le_trans within closes.inside
    refine ⟨opened + front.length, Nat.le_add_right _ _, inside, ?_, ends⟩
    rw [closesAt, stands, ← ends]
    simp [closes.unmarked]
  · rintro ⟨place, behind, inside, closes, rfl⟩
    have fits := fence.closesAt_le source marks inside closes
    obtain ⟨stands, unmarked⟩ := Bool.and_eq_true_iff.mp closes
    refine ⟨fits, ⟨source.part opened place, ?_⟩, by simpa using unmarked⟩
    have closer : source.part place (place + 1 + marks.length) = fence.close :: marks := by
      have text := source.slice_of_holdsAt stands
      rw [List.length_cons, ← Nat.add_assoc, Nat.add_right_comm] at text
      exact String.ofList_injective text
    rw [← closer]
    exact source.part_append behind (by omega)

/-- Where no closer starts, the closers are those that start later. -/
theorem closes_succ_iff {place stop : Nat} (missing : fence.closesAt source marks place = false) :
    fence.Closes source marks (place + 1) stop ↔ fence.Closes source marks place stop := by
  simp only [closes_iff]
  constructor
  · rintro ⟨first, behind, closes⟩
    exact ⟨first, Nat.le_of_succ_le behind, closes⟩
  · rintro ⟨first, behind, inside, closes, ends⟩
    rcases Nat.eq_or_lt_of_le behind with rfl | later
    · simp [missing] at closes
    · exact ⟨first, later, inside, closes, ends⟩

/-- What the search from a place comes to: the first end of a closer, or nothing if there is none. -/
theorem stop?_cases (room : Nat) :
    ∀ {place : Nat}, place + room = source.size →
      (fence.stop? source marks room place = none ∧ ∀ stop, ¬ fence.Closes source marks place stop) ∨
      ∃ stop, fence.stop? source marks room place = some stop ∧
        IsLeast {stop | fence.Closes source marks place stop} stop := by
  have here : ∀ {place : Nat}, place ≤ source.size → fence.closesAt source marks place = true →
      IsLeast {stop | fence.Closes source marks place stop} (place + 1 + marks.length) := by
    intro place inside closes
    refine ⟨(fence.closes_iff source marks).mpr ⟨place, Nat.le_refl _, inside, closes, rfl⟩, ?_⟩
    intro stop also
    obtain ⟨first, behind, _, _, rfl⟩ := (fence.closes_iff source marks).mp also
    omega
  -- Closers have one length, so that the first one that starts is the first one that ends.
  induction room with
  | zero =>
      intro place ends
      rw [stop?_zero]
      by_cases closes : fence.closesAt source marks place = true
      · rw [if_pos closes]
        exact .inr ⟨_, rfl, here (by omega) closes⟩
      · rw [if_neg closes]
        refine .inl ⟨rfl, ?_⟩
        intro stop also
        obtain ⟨first, behind, inside, further, _⟩ := (fence.closes_iff source marks).mp also
        obtain rfl : first = place := by omega
        exact closes further
  | succ room ih =>
      intro place ends
      rw [stop?_succ]
      by_cases closes : fence.closesAt source marks place = true
      · rw [if_pos closes]
        exact .inr ⟨_, rfl, here (by omega) closes⟩
      · rw [if_neg closes]
        have left : place + 1 + room = source.size := by omega
        have later := ih left
        simpa only [fence.closes_succ_iff source marks (eq_false_of_ne_true closes)] using later

theorem stop?_eq_some_iff {place stop : Nat} (inside : place ≤ source.size) :
    fence.stop? source marks (source.size - place) place = some stop ↔
      IsLeast {last | fence.Closes source marks place last} stop := by
  have ends : place + (source.size - place) = source.size := by omega
  rcases fence.stop?_cases source marks _ ends with ⟨missing, nowhere⟩ | ⟨first, found, least⟩
  · rw [missing]
    refine iff_of_false (by simp) ?_
    intro least
    exact nowhere stop least.1
  · rw [found]
    constructor
    · rintro ⟨⟩
      exact least
    · intro also
      rw [least.unique also]

theorem stop?_eq_none_iff {place : Nat} (inside : place ≤ source.size) :
    fence.stop? source marks (source.size - place) place = none ↔
      ∀ stop, ¬ fence.Closes source marks place stop := by
  have ends : place + (source.size - place) = source.size := by omega
  rcases fence.stop?_cases source marks _ ends with ⟨missing, nowhere⟩ | ⟨first, found, least⟩
  · exact iff_of_true missing nowhere
  · rw [found]
    refine iff_of_false (by simp) ?_
    intro nowhere
    exact nowhere first least.1

/-- A fence is matched up to the first end of a closer behind the opener. It is not matched if the opener
does not match, or if no closer stands behind it. The search by bytes, which goes on behind the closing
character of a closer that does not count, comes to the same end. -/
theorem match?_first_closer (opener : Program) {pos : Nat} (inside : pos ≤ source.size) :
    (∀ stop, fence.match? opener source pos = some stop ↔
      ∃ m, opener.match? source.chars pos source.size = some m ∧
        IsLeast {last | fence.Closes source (fence.marks source m) m.stop last} stop) ∧
    (fence.match? opener source pos = none ↔
      ∀ m, opener.match? source.chars pos source.size = some m →
        ∀ last, ¬ fence.Closes source (fence.marks source m) m.stop last) ∧
    Checked.fenceMatch? source fence opener (source.offset pos) =
      some ((fence.match? opener source pos).map source.offset) := by
  cases opened : opener.match? source.chars pos source.size with
  | none =>
      refine ⟨?_, ?_, Checked.fenceMatch?_offset source fence opener inside⟩
      · simp [match?, opened]
      · simp [match?, opened]
  | some m =>
      have stops := (Program.match?_bounds inside opened).2
      have search : fence.match? opener source pos =
          fence.stop? source (fence.marks source m) (source.size - m.stop) m.stop := by
        rw [match?, opened]
      refine ⟨?_, ?_, Checked.fenceMatch?_offset source fence opener inside⟩
      · intro stop
        simpa [search] using fence.stop?_eq_some_iff source (fence.marks source m) stops
      · simpa [search] using fence.stop?_eq_none_iff source (fence.marks source m) stops

end Fence

namespace Hashes

/-- The marks are made of the closing character. -/
def fence : Fence := ⟨1, '#', '#'⟩

/-- Hashes up to a colon. -/
def opener : Program :=
  .ofPattern (.seq (.capture 1 none (.rounds 0 none true (.char (.single '#')))) (.char (.single ':')))

def source : Source :=
  .ofString "##:x####y"

/-- Of the two closers that overlap, the second one counts. -/
theorem hashes_close :
    fence.match? opener source 0 = some 8 ∧
      (∃ m, opener.match? source.chars 0 source.size = some m ∧
        IsLeast {last | fence.Closes source (fence.marks source m) m.stop last} 8) ∧
      Checked.fenceMatch? source fence opener (source.offset 0) = some (some 8) := by
  have found : fence.match? opener source 0 = some 8 := by decide +kernel
  obtain ⟨first, _, bytes⟩ := fence.match?_first_closer source opener (Nat.zero_le source.size)
  refine ⟨found, (first 8).mp found, ?_⟩
  rw [bytes, found]
  decide +kernel

end Hashes

end Highlighting
