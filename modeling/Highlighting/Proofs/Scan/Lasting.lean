import Highlighting.Proofs.Scan.Exposure

/-! # What stays hidden

Once a scan is behind a place that it hides, the place stays hidden up to the end of the run. So a match
that has been taken is still marked in the result. -/
set_option autoImplicit false
namespace Highlighting.Highlighter
variable {highlighter : Highlighter} {source : Source} {hidden : List Scope} {scan : Scan} {place : Nat}

theorem turns_hides {count : Nat} :
    ∀ {scan last : Scan}, scan.Ready source → place < scan.pos → scan.Hides hidden place →
      highlighter.turns source count scan = .ok last → place < last.pos ∧ last.Hides hidden place := by
  induction count with
  | zero =>
      intro scan last _ before hides turned
      cases turned
      exact ⟨before, hides⟩
  | succ count ih =>
      intro scan last ready before hides turned
      by_cases inside : scan.pos < source.size
      · rw [turns_succ count inside] at turned
        split at turned
        · next next stepped =>
            have advances := step_advances ready stepped
            have behind : place < next.pos := by omega
            exact ih (step_ready ready inside stepped).1 behind (step_hides ready stepped behind hides)
              turned
        · exact nomatch turned
      · rw [turns_of_end _ (Nat.not_lt.mp inside)] at turned
        cases turned
        exact ⟨before, hides⟩

/-- What is hidden when the pending text has been sorted is hidden in the end. -/
theorem finish_keeps (ready : scan.Ready source) (before : place < scan.pos)
    (hides : (highlighter.flush source scan).Hides hidden place) :
    Node.AnyHides hidden place (highlighter.finish source scan).ground.nodes := by
  have stays : place < (highlighter.flush source scan).pos := by
    rwa [flush_eq highlighter source ready.pending_le, Scan.pass_pos]
  obtain ⟨closed, same⟩ : (highlighter.flush source scan).closeAll.containers = [] ∧
      ∀ place < (highlighter.flush source scan).pos,
        (highlighter.flush source scan).closeAll.Hides hidden place ↔
          (highlighter.flush source scan).Hides hidden place :=
    closeAll_hides _
  rcases (same place stays).mpr hides with ground | ⟨container, opened, _⟩
  · exact ground
  · rw [closed] at opened
    exact absurd opened List.not_mem_nil

theorem Reaches.run_hides {done : Scan} (reached : highlighter.Reaches source scan)
    (ran : highlighter.run source = .ok done) (before : place < scan.pos)
    (hides : scan.Hides hidden place) : Node.AnyHides hidden place done.ground.nodes := by
  rw [← reached.resume_eq] at ran
  obtain ⟨last, turned, _, rfl⟩ := resume_ok reached.ready ran
  obtain ⟨behind, stillHides⟩ := turns_hides reached.ready before hides turned
  have ready := (reached.later turned).ready
  apply finish_keeps ready behind
  rw [flush_eq highlighter source ready.pending_le, Scan.hides_pass]
  exact .inl stillHides

/-- A run hides the text of a match that it takes, by the scope of its rule. -/
theorem Visits.run_hides {done : Scan} {index stop : Nat} {rule : SingleRule}
    (visits : highlighter.Visits source scan)
    (first : highlighter.firstMatch? source scan.pos (highlighter.rulesAt scan) =
      some (.single index rule stop))
    (veils : Veils hidden rule.scope) (within : scan.pos ≤ place ∧ place < stop)
    (ran : highlighter.run source = .ok done) : Node.AnyHides hidden place done.ground.nodes := by
  have ready := visits.reached.ready
  have taken := visits.next (step_of_match first)
  have marks : highlighter.MatchHides source hidden place scan (.single index rule stop) :=
    Scan.hides_wrapped.mpr (.inl ⟨veils, within⟩)
  apply taken.run_hides ran
  · rw [take_pos ready]
    exact within.2
  · rw [take_hides ready.pending_le]
    exact .inr (.inr marks)

end Highlighting.Highlighter
