import Highlighting.Pattern.Bounds
import Highlighting.Proofs.Pattern.Paths

/-! # Charts of marks

Where no group stands inside a choice or a loop, every way to an instruction makes the same marks in the
same order. A chart gives them for each instruction, and where a program keeps to a chart, a match has
the marks that the chart gives for the end. -/
set_option autoImplicit false
namespace Highlighting

/-- An end of a group, wherever it is. -/
structure GroupEnd where
  number : Nat
  opens : Bool
deriving DecidableEq, Repr

def Mark.groupEnd (mark : Mark) : GroupEnd :=
  ⟨mark.number, mark.opens⟩

/-- The ends of groups that have been marked on the way to each instruction, the latest first. -/
structure Chart where
  marked : Array (List GroupEnd)

namespace Chart

def before (chart : Chart) (index : Nat) : List GroupEnd :=
  chart.marked.getD index []

def enter (chart : Chart) (index : Nat) (ends : List GroupEnd) : Chart :=
  ⟨chart.marked.setIfInBounds index ends⟩

/-- Enters what has been marked behind an instruction, given what has been marked before it. -/
def behind (chart : Chart) (ends : List GroupEnd) : Instruction → Chart
  | .take _ next | .check _ next | .jump next => chart.enter next ends
  | .fork first second => (chart.enter first ends).enter second ends
  | .mark number opens next => chart.enter next (⟨number, opens⟩ :: ends)
  | .accept => chart

/-- What comes behind an instruction has been marked as the instruction leaves it. -/
def Fits (chart : Chart) (ends : List GroupEnd) : Instruction → Prop
  | .take _ next | .check _ next | .jump next => chart.before next = ends
  | .fork first second => chart.before first = ends ∧ chart.before second = ends
  | .mark number opens next => chart.before next = ⟨number, opens⟩ :: ends
  | .accept => True

instance (chart : Chart) (ends : List GroupEnd) :
    (instruction : Instruction) → Decidable (chart.Fits ends instruction)
  | .take _ next | .check _ next | .jump next => inferInstanceAs (Decidable (chart.before next = ends))
  | .fork first second =>
      inferInstanceAs (Decidable (chart.before first = ends ∧ chart.before second = ends))
  | .mark number opens next =>
      inferInstanceAs (Decidable (chart.before next = ⟨number, opens⟩ :: ends))
  | .accept => inferInstanceAs (Decidable True)

end Chart

namespace Program

/-- The chart that is entered instruction by instruction. -/
def chart (program : Program) : Chart :=
  program.code.toList.zipIdx.foldl
    (fun chart (instruction, index) => chart.behind (chart.before index) instruction)
    ⟨.replicate program.code.size []⟩

/-- The program keeps to its chart, and where it accepts, these ends have been marked. -/
structure Charted (program : Program) (ends : List GroupEnd) : Prop where
  start : program.chart.before 0 = []
  fits : ∀ index < program.code.size, ∀ instruction ∈ program.code[index]?,
    program.chart.Fits (program.chart.before index) instruction
  accepts : ∀ index < program.code.size, program.code[index]? = some .accept →
    program.chart.before index = ends

theorem charted_iff {program : Program} {ends : List GroupEnd} :
    program.Charted ends ↔
      program.chart.before 0 = [] ∧
      (∀ index < program.code.size, ∀ instruction ∈ program.code[index]?,
        program.chart.Fits (program.chart.before index) instruction) ∧
      ∀ index < program.code.size, program.code[index]? = some .accept →
        program.chart.before index = ends :=
  ⟨fun charted => ⟨charted.start, charted.fits, charted.accepts⟩,
    fun all => ⟨all.1, all.2.1, all.2.2⟩⟩

instance (program : Program) (ends : List GroupEnd) : Decidable (program.Charted ends) :=
  decidable_of_iff' _ charted_iff

variable {program : Program} {ends : List GroupEnd} {text : Array Char} {start place : Nat}

theorem Charted.path (charted : program.Charted ends) {thread : Thread}
    (path : program.Path text start place thread) :
    thread.marks.map Mark.groupEnd = program.chart.before thread.instruction := by
  have fits : ∀ {index : Nat} {instruction : Instruction},
      program.code[index]? = some instruction →
        program.chart.Fits (program.chart.before index) instruction := by
    intro index instruction code
    obtain ⟨inside, _⟩ := Array.getElem?_eq_some_iff.mp code
    exact charted.fits index inside instruction code
  -- Whatever leads to an instruction, the chart has one entry for it.
  induction path with
  | start => exact charted.start.symm
  | take path code here member ih => exact ih.trans (fits code).symm
  | check path code holds ih => exact ih.trans (fits code).symm
  | first path code ih => exact ih.trans (fits code).1.symm
  | second path code ih => exact ih.trans (fits code).2.symm
  | mark path code ih =>
      rw [List.map_cons, ih]
      exact (fits code).symm
  | jump path code ih => exact ih.trans (fits code).symm

/-- A match of a charted program has marked the ends of its groups in the order of the chart. -/
theorem Charted.marks (charted : program.Charted ends) {limit : Nat} {m : Match}
    (found : program.match? text start limit = some m) : m.marks.map Mark.groupEnd = ends := by
  obtain ⟨index, code, path⟩ := match?_accepted found
  obtain ⟨inside, _⟩ := Array.getElem?_eq_some_iff.mp code
  exact (charted.path path).trans (charted.accepts index inside code)

end Program

end Highlighting
