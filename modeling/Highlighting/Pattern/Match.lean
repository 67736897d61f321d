import Highlighting.Pattern.Program

/-! # Matching

A program is run on a text by threads that all stand at one place, the most preferred one first. A
thread waits to take a character, or it has come to a match. Threads less preferred than a match are
given up, and a match that a more preferred thread comes to later takes its place.

At one place every instruction is followed at most once, by the most preferred thread that comes to it.
A round of a loop that comes back to where it started without a character thus ends, even in the middle
of the loop. A match is tried at its place only and never looks for a later start, and it reads no
character at or after the limit. -/
set_option autoImplicit false
namespace Highlighting

/-- An end of a group, at a place. -/
structure Mark where
  number : Nat
  opens : Bool
  place : Nat
deriving DecidableEq, Repr

/-- The part of the text that a capturing group took. -/
structure Group where
  start : Nat
  stop : Nat
deriving DecidableEq, Repr

structure Match where
  stop : Nat
  /-- The ends of the groups, the latest first. -/
  marks : List Mark := []
deriving DecidableEq, Repr

namespace Match

/-- What the group took when it last took part: its latest end and the latest start before that. Group
zero is the whole match. -/
def group? (m : Match) (number : Nat) : Option Group :=
  match m.marks.dropWhile fun mark => mark.opens || mark.number != number with
  | [] => none
  | last :: earlier =>
      (earlier.find? fun mark => mark.opens && mark.number == number).map
        fun first => ⟨first.place, last.place⟩

end Match

/-- A thread that has come to an instruction, with the marks that it has made, the latest first. -/
structure Thread where
  instruction : Nat
  marks : List Mark
deriving DecidableEq, Repr

/-- What has been reached at a place. -/
structure Frontier where
  /-- For each instruction, whether it has been followed. -/
  followed : Array Bool
  /-- The threads that wait for a character or have come to a match, the latest first. -/
  waiting : List Thread := []
deriving DecidableEq, Repr

namespace Program

/-- Follows a thread at a place up to the instructions that take a character or accept. A way that
comes to no instruction twice is no longer than the program. -/
def follow (program : Program) (text : Array Char) (place : Nat) :
    Nat → Frontier → Thread → Frontier
  | 0, frontier, _ => frontier
  | fuel + 1, frontier, thread =>
      if frontier.followed[thread.instruction]?.getD true then frontier
      else
        let seen := { frontier with followed := frontier.followed.setIfInBounds thread.instruction true }
        match program.code[thread.instruction]? with
        | none => seen
        | some (.take _ _) | some .accept => { seen with waiting := thread :: seen.waiting }
        | some (.check assertion next) =>
            if assertion.holds text place then
              program.follow text place fuel seen { thread with instruction := next }
            else seen
        | some (.fork first second) =>
            program.follow text place fuel
              (program.follow text place fuel seen { thread with instruction := first })
              { thread with instruction := second }
        | some (.mark number opens next) =>
            program.follow text place fuel seen ⟨next, ⟨number, opens, place⟩ :: thread.marks⟩
        | some (.jump next) =>
            program.follow text place fuel seen { thread with instruction := next }

/-- Follows threads at a place, the most preferred one first. -/
def gather (program : Program) (text : Array Char) (place : Nat) (threads : List Thread) :
    List Thread :=
  let start := { followed := .replicate program.code.size false }
  (threads.foldl (program.follow text place program.code.size) start).waiting.reverse

def accepts (program : Program) (thread : Thread) : Bool :=
  program.code[thread.instruction]? == some .accept

/-- Takes a character, if the thread waits for it. -/
def take? (program : Program) (c : Char) (thread : Thread) : Option Thread :=
  match program.code[thread.instruction]? with
  | some (.take set next) => if set.contains c then some { thread with instruction := next } else none
  | _ => none

/-- The match of the most preferred thread that has come to one. -/
def found? (program : Program) (place : Nat) (threads : List Thread) : Option Match :=
  (threads.find? program.accepts).map fun thread => ⟨place, thread.marks⟩

/-- The threads that go on by a character: those more preferred than any that has come to a match. -/
def step (program : Program) (text : Array Char) (place : Nat) (c : Char) (threads : List Thread) :
    List Thread :=
  program.gather text (place + 1)
    ((threads.takeWhile (!program.accepts ·)).filterMap (program.take? c))

/-- Runs threads from a place on, with room for so many characters, where `best` is the match of a
less preferred thread. -/
def run (program : Program) (text : Array Char) :
    (room place : Nat) → List Thread → Option Match → Option Match
  | _, _, [], best => best
  | 0, place, threads, best => (program.found? place threads).or best
  | room + 1, place, threads, best =>
      let better := (program.found? place threads).or best
      match text[place]? with
      | none => better
      | some c => program.run text room (place + 1) (program.step text place c threads) better

/-- The preferred match at a place. -/
def match? (program : Program) (text : Array Char) (place limit : Nat) : Option Match :=
  program.run text (limit - place) place (program.gather text place [⟨0, []⟩]) none

/-- Where the preferred match ends. -/
def stop? (program : Program) (text : Array Char) (place limit : Nat) : Option Nat :=
  (program.match? text place limit).map (·.stop)

end Program

end Highlighting
