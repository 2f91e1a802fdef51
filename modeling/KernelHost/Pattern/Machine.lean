import KernelHost.Pattern.CharSet
import KernelHost.Pattern.Fault
import KernelHost.Text.ByteRange
import Std.Data.HashMap

/-!
# Machines for patterns

The sizes of the machines that search for patterns.  A machine reads bytes and is built state by
state.  A state takes 32 bytes of memory; a choice takes four more for each of its ways, and a
choice of bytes eight more for each range.  Among the states of a set equal ones are built once, as
long as they are remembered: every state has a slot by what it does, and a slot holds the last state
that came to it.
-/

namespace KernelHost.Pattern

open Text (ByteRange)

/-- The size of a machine. -/
structure Machine where
  /-- The number of its states, which is the number that the next one gets. -/
  states : Nat := 0
  /-- The bytes that choices take besides those of their states. -/
  wayBytes : Nat := 0
  deriving DecidableEq, Repr

namespace Machine

/-- The bytes of memory that a machine takes. -/
def bytes (m : Machine) : Nat :=
  32 * m.states + m.wayBytes

/-- Adds states without choices. -/
def addStates (m : Machine) (n : Nat) : Machine :=
  { m with states := m.states + n }

/-- Adds ways to choices that are there. -/
def addWays (m : Machine) (n : Nat) : Machine :=
  { m with wayBytes := m.wayBytes + 4 * n }

/-- Adds a state that chooses between so many ways. -/
def addChoice (m : Machine) (ways : Nat) : Machine :=
  (m.addStates 1).addWays ways

/-- Adds a state that chooses between so many ranges of bytes. -/
def addBranch (m : Machine) (ranges : Nat) : Machine :=
  (m.addStates 1).addWays (2 * ranges)

/-- Grows a machine so many times, or until it takes more memory than it may. -/
def growTimes (grow : Machine → Machine) : Nat → Machine → Machine
  | 0, m => m
  | n + 1, m => if PatternFault.memoryLimit < m.bytes then m else growTimes grow n (grow m)

@[simp]
theorem bytes_addStates (m : Machine) (n : Nat) : (m.addStates n).bytes = m.bytes + 32 * n := by
  simp only [bytes, addStates]
  omega

@[simp]
theorem bytes_addWays (m : Machine) (n : Nat) : (m.addWays n).bytes = m.bytes + 4 * n := by
  simp only [bytes, addWays]
  omega

/-- What never shrinks a machine does not shrink it several times over. -/
theorem bytes_le_growTimes {grow : Machine → Machine} (h : ∀ m, m.bytes ≤ (grow m).bytes)
    (n : Nat) (m : Machine) : m.bytes ≤ (growTimes grow n m).bytes := by
  induction n generalizing m with
  | zero => exact Nat.le_refl _
  | succ n ih =>
    unfold growTimes
    split
    · exact Nat.le_refl _
    · exact Nat.le_trans (h m) (ih (grow m))

end Machine

/-- A machine to which the states of a set are added. -/
structure SetMachine where
  machine : Machine
  /-- By slots what a state does and the state's number. -/
  remembered : Std.HashMap Nat (List Nat × Nat) := ∅

namespace SetMachine

/-- The slot of a state among so many, by what the state does. -/
def slot (slots : Nat) (action : List Nat) : Nat :=
  let mixed : UInt64 :=
    action.foldl (fun mixed n => (mixed ^^^ .ofNat n) * 1099511628211) 14695981039346656037
  mixed.toNat % slots

/-- The number of a state that is remembered. -/
def known? (s : SetMachine) (slots : Nat) (action : List Nat) : Option Nat :=
  (s.remembered[slot slots action]?).bind fun (known, state) =>
    if known = action then some state else none

/-- The number of a state that does something, which is added unless it is remembered. -/
def enter (s : SetMachine) (slots : Nat) (action : List Nat) (add : Machine → Machine) :
    Nat × SetMachine :=
  match s.known? slots action with
  | some state => (state, s)
  | none =>
    let state := s.machine.states
    (state, ⟨add s.machine, s.remembered.insert (slot slots action) (action, state)⟩)

/-- What is remembered is not added again. -/
theorem enter_of_known? {s : SetMachine} {slots state : Nat} {action : List Nat}
    (h : s.known? slots action = some state) (add : Machine → Machine) :
    s.enter slots action add = (state, s) := by
  simp [enter, h]

/-- The sequences that begin with the same range, next to each other, without that range. -/
def tails : List (List ByteRange) → List (ByteRange × List (List ByteRange))
  | [] => []
  | [] :: sequences => tails sequences
  | (r :: rest) :: sequences =>
    match tails sequences with
    | (s, rests) :: others =>
      if r = s then (s, rest :: rests) :: others else (r, [rest]) :: (s, rests) :: others
    | [] => [(r, [rest])]

/-- The first state for sequences of at most so many ranges each, with a state behind them all. -/
def addChoices (behind : Nat) : Nat → List (List ByteRange) → SetMachine → Nat × SetMachine
  | 0, _, s => (behind, s)
  | n + 1, sequences, s =>
    match tails sequences with
    | [] => (behind, s)
    | ways =>
      let (action, s) := ways.foldl
        (fun (action, s) ((low, high), rests) =>
          let (next, s) := addChoices behind n rests s
          (next :: high.toNat :: low.toNat :: action, s))
        ([], s)
      s.enter 10000 action.reverse (·.addBranch ways.length)

/-- Adds the states of a sequence one behind another, the first in front of a state. -/
def addSequence (behind : Nat) (sequence : List ByteRange) (s : SetMachine) : SetMachine :=
  (sequence.foldl
    (fun (next, s) (low, high) => s.enter 1000 [next, low.toNat, high.toNat] (·.addStates 1))
    (behind, s)).2

end SetMachine

namespace Machine

/--
Adds what reads one character of a set.  Equal ends of characters are shared by a machine that reads
forward, equal beginnings by one that reads backward.
-/
def addSet (backward : Bool) (set : CharSet) (m : Machine) : Machine :=
  if set.isAscii then (m.addStates 1).addBranch set.ranges.length
  else
    let sequences := set.ranges.flatMap fun (low, high) => Text.byteSequences low high
    if backward then
      let empty : SetMachine := { machine := m.addStates 2 }
      let whole := sequences.foldl (fun s sequence => s.addSequence (m.states + 1) sequence) empty
      whole.machine.addWays sequences.length
    else
      let empty : SetMachine := { machine := m.addStates 1 }
      (empty.addChoices m.states 4 sequences).2.machine

end Machine
end KernelHost.Pattern
