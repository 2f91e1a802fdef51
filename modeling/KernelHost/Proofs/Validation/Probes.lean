import KernelHost.CType.Scalar
import KernelHost.Manifest.Basic
import KernelHost.Proofs.Validation.Memory
import Mathlib.Tactic.Common

/-!
# What has to be compared

The comparisons that a manifest asks for, and what is to be said about them.  Each validated output
is compared with its reference copy, element by element in the order of the storage, and lane by
lane in vectors.  The first difference ends the announced step, and every difference has a line.
-/

namespace KernelHost

open Code (Var)
open Validation (Cell Grid Memory)

namespace Variable

/-- The cells of a variable and of its copy, with the factor on its elements. -/
def grid (v : Variable) (copies : Nat) : Grid where
  elements := if v.members * copies = 1 then none else some (v.members * copies)
  lanes := (VectorType.ofName? v.type).map (·.lanes)

/-- The conversion that shows the contents of a cell. -/
def conversion (v : Variable) : String :=
  CType.conversion ((VectorType.ofName? v.type).elim v.type (·.lane.base))

/-- The format of the line about a difference. -/
def message (v : Variable) (copies : Nat) : String :=
  "Variable " ++ v.name ++ (if (v.grid copies).elements.isSome then "[%d]" else "") ++
    (if (v.grid copies).lanes.isSome then ".s[%d]" else "") ++
    ": expected %" ++ v.conversion ++ " got %" ++ v.conversion ++
    (if v.tolerance.isSome then " (with epsilon)" else "") ++ ".\\n"

end Variable

/-- A place where an output has to be compared with its copy. -/
structure Probe where
  output : Variable
  element : Nat
  /-- The lane, if elements are vectors. -/
  lane : Option Nat

namespace Probe

variable {α : Type} (M : Memory α) (copies : Nat) (q : Probe)

def expected : Cell :=
  ⟨.reference q.output.name, q.element, q.lane⟩

def actual : Cell :=
  ⟨.host q.output.name, q.element, q.lane⟩

def tolerance : Option Cell :=
  q.output.tolerance.map fun _ => ⟨.tolerance q.output.name, 0, none⟩

def differs : Bool :=
  match q.tolerance with
  | none => M.unequal (M.contents q.expected) (M.contents q.actual)
  | some t => M.outside (M.contents q.expected) (M.contents q.actual) (M.contents t)

/-- The indices that tell the place: that of the element in an array, that of the lane in a
vector. -/
def indices : List Nat :=
  (if (q.output.grid copies).elements.isSome then [q.element] else []) ++ q.lane.toList

/-- What the line about a difference is filled with. -/
def args : List Validation.Argument :=
  (q.indices copies).map .index ++ [.cell q.expected, .cell q.actual]

/-- What is done about a place, by whether a difference was found before. -/
def events (found : Bool) : List Validation.Event :=
  .compared q.expected q.actual q.tolerance ::
    if q.differs M then
      (if found then [] else [.called .printFail]) ++
        [.printed (q.output.message copies) (q.args copies)]
    else []

end Probe

/-- The lanes of an element. -/
def Validation.Grid.places (g : Grid) : List (Option Nat) :=
  g.lanes.elim [none] fun n => (List.range n).map some

theorem Validation.Grid.mem_places {g : Grid} {l : Option Nat} :
    l ∈ g.places ↔ l.elim (g.lanes = none) fun l => ∃ n, g.lanes = some n ∧ l < n := by
  unfold places
  cases lanes : g.lanes <;> cases l <;> simp

/-- The places of a variable that have to be compared. -/
def Variable.probes (copies : Nat) (v : Variable) : List Probe :=
  if v.validated then
    (List.range (v.members * copies)).flatMap fun k =>
      (v.grid copies).places.map fun l => ⟨v, k, l⟩
  else []

theorem Variable.mem_probes {v : Variable} {copies : Nat} {q : Probe} :
    q ∈ v.probes copies ↔ v.validated ∧ q.output = v ∧ q.element < v.members * copies ∧
      q.lane ∈ (v.grid copies).places := by
  unfold probes
  obtain ⟨output, element, lane⟩ := q
  split
  · rename_i validated
    simp only [List.mem_flatMap, List.mem_map, List.mem_range, Probe.mk.injEq]
    constructor
    · rintro ⟨k, inside, l, place, rfl, rfl, rfl⟩
      exact ⟨validated, rfl, inside, place⟩
    · rintro ⟨-, rfl, inside, place⟩
      exact ⟨element, inside, lane, place, rfl, rfl, rfl⟩
  · simp_all

namespace Manifest

variable (m : Manifest)

/-- The variable of the host with a name. -/
def named? (name : String) : Option Variable :=
  (m.hostVariables.map (·.2)).find? (·.name == name)

/-- The cells of the variables that a manifest brings along. -/
def grid? : Var → Option Grid
  | .host name => (m.named? name).map (·.grid m.settings.copies)
  | .reference name => ((m.named? name).filter (·.validated)).map (·.grid m.settings.copies)
  | .tolerance name => ((m.named? name).bind (·.tolerance)).map fun _ => ⟨none, none⟩
  | _ => none

def validates : Bool :=
  m.hostVariables.any (·.2.validated)

/-- The places that have to be compared. -/
def probes : List Probe :=
  m.hostVariables.flatMap fun x => x.2.probes m.settings.copies

end Manifest

namespace Validation

/-- What is done about places one after the other. -/
def record {α : Type} (M : Memory α) (copies : Nat) : Bool → List Probe → List Event
  | _, [] => []
  | found, q :: qs => q.events M copies found ++ record M copies (found || q.differs M) qs

def Event.compared? : Event → Option (Cell × Cell × Option Cell)
  | .compared expected actual tolerance => some (expected, actual, tolerance)
  | _ => none

def Event.printed? : Event → Option (String × List Argument)
  | .printed format args => some (format, args)
  | _ => none

section Record

variable {α : Type} (M : Memory α) (copies : Nat) (found : Bool) (qs rs : List Probe)

theorem record_append : record M copies found (qs ++ rs) =
    record M copies found qs ++ record M copies (found || qs.any (·.differs M)) rs := by
  induction qs generalizing found with
  | nil => simp [record]
  | cons q qs ih => simp [record, ih, Bool.or_assoc]

theorem compared_record : (record M copies found qs).filterMap Event.compared? =
    qs.map fun q => (q.expected, q.actual, q.tolerance) := by
  induction qs generalizing found with
  | nil => rfl
  | cons q qs ih =>
      have here : (q.events M copies found).filterMap Event.compared? =
          [(q.expected, q.actual, q.tolerance)] := by
        unfold Probe.events
        split_ifs <;> rfl
      simp [record, here, ih]

theorem printed_record : (record M copies found qs).filterMap Event.printed? =
    (qs.filter (·.differs M)).map fun q => (q.output.message copies, q.args copies) := by
  induction qs generalizing found with
  | nil => rfl
  | cons q qs ih =>
      have here : (q.events M copies found).filterMap Event.printed? =
          if q.differs M then [(q.output.message copies, q.args copies)] else [] := by
        unfold Probe.events
        split_ifs <;> rfl
      by_cases differs : q.differs M <;> simp [record, here, ih, differs]

theorem count_printFail_record : (record M copies found qs).count (.called .printFail) =
    if !found && qs.any (·.differs M) then 1 else 0 := by
  induction qs generalizing found with
  | nil => simp [record]
  | cons q qs ih =>
      by_cases differs : q.differs M <;> cases found <;>
        simp [record, Probe.events, ih, differs]

theorem count_printSuccess_record :
    (record M copies found qs).count (.called .printSuccess) = 0 := by
  induction qs generalizing found with
  | nil => rfl
  | cons q qs ih =>
      by_cases differs : q.differs M <;> cases found <;>
        simp [record, Probe.events, ih, differs]

end Record

end Validation
end KernelHost
