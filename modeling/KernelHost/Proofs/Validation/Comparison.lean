import KernelHost.Host.Verdict
import KernelHost.Proofs.Plan.Checks
import KernelHost.Proofs.Validation.Message
import KernelHost.Proofs.Validation.Probes

/-!
# The comparison of an output

The loops around a comparison come to each place of an output once, in the order of the storage.
What is recorded there is what the place asks for.
-/

namespace KernelHost.Validation

open Code (Expr Machine Stmt Var formatText)
open Host (mismatchFormat reportMismatch nest compareOutput)

/-- Indices of loops have values. -/
def Indexed (indices : List (Var × Nat)) (a : State) : Prop :=
  ∀ x ∈ indices, (x.1 = .i ∨ x.1 = .j) ∧ a.values x.1 = some (.number x.2)

/-- What was done so far, whether a difference was found, and where the loops are. -/
structure Stage (exit : Option Value) (trace : List Event) (found : Bool)
    (indices : List (Var × Nat)) (a : State) : Prop where
  trace : a.trace = trace
  found : a.flag? .invalidDataFound = some found
  /-- The exit code is left alone. -/
  exit : a.values .exitCode = exit
  indices : Indexed indices a

variable {α : Type} {grid : Var → Option Grid} {M : Memory α} {program : List Stmt}
  {exit : Option Value} {trace : List Event} {found : Bool} {indices : List (Var × Nat)}

namespace Stage

variable {a : State}

theorem record (stage : Stage exit trace found indices a) (e : Event) :
    Stage exit (trace ++ [e]) found indices (a.record e) :=
  ⟨by simp [stage.trace], stage.found, stage.exit, stage.indices⟩

theorem setIndex (stage : Stage exit trace found indices a) {x : Var} (index : x = .i ∨ x = .j)
    (fresh : ∀ y ∈ indices, y.1 ≠ x) (k : Nat) :
    Stage exit trace found ((x, k) :: indices) (a.set x (.number k)) := by
  have flag : .invalidDataFound ≠ x := by rcases index with rfl | rfl <;> simp
  have code : .exitCode ≠ x := by rcases index with rfl | rfl <;> simp
  refine ⟨stage.trace, ?_, ?_, fun y mem => ?_⟩
  · rw [State.flag?, State.values_set_of_ne a flag]
    exact stage.found
  · rw [State.values_set_of_ne a code]
    exact stage.exit
  · rcases List.mem_cons.mp mem with rfl | mem
    · exact ⟨index, a.values_set_self x _⟩
    · rw [State.values_set_of_ne a (fresh y mem)]
      exact stage.indices y mem

theorem setFlag (stage : Stage exit trace found indices a) :
    Stage exit trace true indices (a.set .invalidDataFound (.constant "true")) := by
  refine ⟨stage.trace, by simp [State.flag?], ?_, fun y mem => ?_⟩
  · rw [State.values_set_of_ne a (by simp)]
    exact stage.exit
  · obtain ⟨index, value⟩ := stage.indices y mem
    rw [State.values_set_of_ne a (by rcases index with index | index <;> simp [index])]
    exact ⟨index, value⟩

theorem forget {x : Var × Nat} (stage : Stage exit trace found (x :: indices) a) :
    Stage exit trace found indices a :=
  ⟨stage.trace, stage.found, stage.exit, fun y mem => stage.indices y (List.mem_cons_of_mem x mem)⟩

end Stage

/-! ## Single statements -/

theorem achieves_index {x : Var} (index : x = .i ∨ x = .j) (fresh : ∀ y ∈ indices, y.1 ≠ x)
    (k : Nat) :
    (machine grid M).Achieves program (Stage exit trace found indices)
      [.assign (.var x) (.number k)] (Stage exit trace found ((x, k) :: indices)) :=
  .plain rfl fun _ stage => ⟨_, rfl, stage.setIndex index fresh k⟩

/-- A comparison is made at a place: its expressions denote the cells of the place, and the line
about a difference is filled with what tells the place. -/
structure Meets (grid : Var → Option Grid) (copies : Nat) (c : Check) (q : Probe)
    (indices : List (Var × Nat)) : Prop where
  expected : ∀ a, Indexed indices a → a.cell? grid c.expected = some q.expected
  actual : ∀ a, Indexed indices a → a.cell? grid c.actual = some q.actual
  comparison : c.comparison = q.output.tolerance.elim .exact
    fun t => .within (.var (.tolerance q.output.name)) t.text t.value
  tolerance : ∀ a : State, q.output.tolerance.isSome →
    a.cell? grid (.var (.tolerance q.output.name)) = some ⟨.tolerance q.output.name, 0, none⟩
  args : ∀ a, Indexed indices a →
    (c.locationArgs.map Expr.var ++ [c.expected, c.actual]).mapM (a.argument? grid) =
      some (q.args copies)
  message : formatText (mismatchFormat c) = q.output.message copies

variable {copies : Nat} {c : Check} {q : Probe}

theorem Meets.test (meets : Meets grid copies c q indices) {a : State}
    (indexed : Indexed indices a) :
    a.test? grid M (.holds c.test) =
      some (q.differs M, a.record (.compared q.expected q.actual q.tolerance)) := by
  have expected := meets.expected a indexed
  have actual := meets.actual a indexed
  rw [Check.test, meets.comparison]
  cases tolerance : q.output.tolerance with
  | none =>
      simp [Comparison.condition, State.test?, expected, actual, Probe.differs, Probe.tolerance,
        tolerance]
  | some t =>
      have cell := meets.tolerance a (by simp [tolerance])
      simp [Comparison.condition, State.test?, expected, actual, cell, Probe.differs,
        Probe.tolerance, tolerance]

/-- The report of a difference ends the announced step if it is the first one. -/
theorem achieves_report (meets : Meets grid copies c q indices) :
    (machine grid M).Achieves program (Stage exit trace found indices) (reportMismatch c)
      (Stage exit (trace ++ (if found then [] else [.called .printFail]) ++
        [.printed (q.output.message copies) (q.args copies)]) true indices) := by
  have line {trace : List Event} : (machine grid M).Achieves program
      (Stage exit trace true indices)
      [.perform ⟨.printf, .literal (mismatchFormat c) :: c.locationArgs.map Expr.var ++
        [c.expected, c.actual]⟩]
      (Stage exit (trace ++ [Event.printed (q.output.message copies) (q.args copies)]) true
        indices) := by
    refine .plain rfl fun a stage => ⟨_, ?_, stage.record _⟩
    simp [machine, State.effect?, meets.args a stage.indices, meets.message]
  refine .cons ?_ line
  cases found with
  | true =>
      refine .when (R := fun _ => False) (fun a stage => ⟨false, a, ?_, ?_⟩) (.never fun _ => id)
      · simp [machine, State.test?, stage.found]
      · simpa using stage
  | false =>
      refine .when (R := Stage exit trace false indices) (fun a stage => ⟨true, a, ?_, ?_⟩) ?_
      · simp [machine, State.test?, stage.found]
      · simpa using stage
      · have fail : (machine grid M).Achieves program (Stage exit trace false indices)
            [.perform ⟨.printFail, []⟩]
            (Stage exit (trace ++ [Event.called .printFail]) false indices) :=
          .plain rfl fun _ stage => ⟨_, rfl, stage.record _⟩
        exact fail.cons (.plain rfl fun _ stage => ⟨_, rfl, stage.setFlag⟩)

/-- A comparison records what its place asks for. -/
theorem achieves_compare (meets : Meets grid copies c q indices) :
    (machine grid M).Achieves program (Stage exit trace found indices)
      [.when c.test (reportMismatch c)]
      (Stage exit (trace ++ q.events M copies found) (found || q.differs M) indices) := by
  have given (a : State) (stage : Stage exit trace found indices a) :=
    meets.test (M := M) stage.indices
  cases differs : q.differs M with
  | false =>
      refine .when (R := fun _ => False)
        (fun a stage => ⟨false, _, (given a stage).trans (by rw [differs]), ?_⟩)
        (.never fun _ => id)
      simpa [Probe.events, differs] using stage.record _
  | true =>
      refine .when
        (R := Stage exit (trace ++ [Event.compared q.expected q.actual q.tolerance]) found indices)
        (fun a stage => ⟨true, _, (given a stage).trans (by rw [differs]), ?_⟩) ?_
      · simpa using stage.record _
      · refine (achieves_report meets).weaken (fun _ => id) fun a stage => ?_
        simpa [Probe.events, differs] using stage

/-! ## Loops -/

/-- The places in a list are done. -/
def Done (M : Memory α) (copies : Nat) (exit : Option Value) (start : List Event)
    (done : List Probe) : List (Var × Nat) → State → Prop :=
  Stage exit (start ++ record M copies false done) (done.any (·.differs M))

variable {start : List Event} {done : List Probe}

theorem achieves_place (meets : Meets grid copies c q indices) :
    (machine grid M).Achieves program (Done M copies exit start done indices)
      [.when c.test (reportMismatch c)] (Done M copies exit start (done ++ [q]) indices) := by
  refine (achieves_compare meets).weaken (fun _ => id) fun a stage => ?_
  simpa [Done, record_append, record] using stage

/-- A loop over places does all of them. -/
theorem achieves_loop {x : Var} {bound : Nat} {body : List Stmt} {f : Nat → List Probe}
    (index : x = .i ∨ x = .j) (fresh : ∀ y ∈ indices, y.1 ≠ x)
    (each : ∀ k < bound, ∀ done,
      (machine grid M).Achieves program (Done M copies exit start done ((x, k) :: indices)) body
        (Done M copies exit start (done ++ f k) ((x, k) :: indices))) :
    (machine grid M).Achieves program (Done M copies exit start done indices)
      [.count x bound body]
      (Done M copies exit start (done ++ (List.range bound).flatMap f) indices) := by
  suffices passes : (machine grid M).Achieves program
      (Done M copies exit start (done ++ (List.range 0).flatMap f) indices) [.count x bound body]
      (Done M copies exit start (done ++ (List.range bound).flatMap f) indices) by
    simpa using passes
  refine .count (fun k => Done M copies exit start (done ++ (List.range k).flatMap f) indices)
    (fun k inside => ?_) ?_
  · refine (achieves_index index fresh k).cons ((each k inside _).weaken (fun _ => id) ?_)
    intro a stage
    simpa [Done, List.range_succ] using stage.forget
  · exact (achieves_index index fresh bound).weaken (fun _ => id) fun a stage => stage.forget

/-! ## The nest of loops -/

/-- The cells of an output, as its comparison sees them. -/
def cells (c : Check) : Grid :=
  ⟨c.elements, c.lanes⟩

/-- The index of lanes. -/
def laneVar (c : Check) : Var :=
  if c.elements.isSome then .j else .i

/-- The index of elements, if there is one. -/
def elementIndices (c : Check) (k : Nat) : List (Var × Nat) :=
  c.elements.toList.map fun _ => (.i, k)

/-- The indices inside all loops. -/
def indicesAt (c : Check) (k : Nat) (l : Option Nat) : List (Var × Nat) :=
  l.toList.map (laneVar c, ·) ++ elementIndices c k

theorem laneVar_index (c : Check) : laneVar c = .i ∨ laneVar c = .j := by
  unfold laneVar
  split <;> simp

theorem laneVar_fresh (c : Check) (k : Nat) : ∀ y ∈ elementIndices c k, y.1 ≠ laneVar c := by
  unfold elementIndices laneVar
  cases c.elements <;> simp

theorem compareOutput_eq (c : Check) :
    compareOutput c = nest (c.elements.toList.map (.i, ·))
      (nest (c.lanes.toList.map (laneVar c, ·)) [.when c.test (reportMismatch c)]) :=
  List.foldr_append

variable {v : Variable}

/-- The comparison of an element comes to all its places. -/
theorem achieves_lanes {k : Nat}
    (meets : ∀ l ∈ (cells c).places, Meets grid copies c ⟨v, k, l⟩ (indicesAt c k l)) :
    (machine grid M).Achieves program (Done M copies exit start done (elementIndices c k))
      (nest (c.lanes.toList.map (laneVar c, ·)) [.when c.test (reportMismatch c)])
      (Done M copies exit start (done ++ (cells c).places.map fun l => ⟨v, k, l⟩)
        (elementIndices c k)) := by
  unfold cells at meets ⊢
  cases lanes : c.lanes with
  | none =>
      rw [lanes] at meets
      exact achieves_place (meets none (by simp [Grid.places]))
  | some n =>
      rw [lanes] at meets
      have loop : (machine grid M).Achieves program
          (Done M copies exit start done (elementIndices c k))
          [.count (laneVar c) n [.when c.test (reportMismatch c)]]
          (Done M copies exit start
            (done ++ (List.range n).map fun l => ⟨v, k, some l⟩) (elementIndices c k)) := by
        rw [List.map_eq_flatMap]
        refine achieves_loop (laneVar_index c) (laneVar_fresh c k) fun l inside done => ?_
        exact achieves_place (meets (some l) (by simpa [Grid.places] using inside))
      simpa [nest, Grid.places, Function.comp_def] using loop

/-- The comparison of an output comes to all its places. -/
theorem achieves_compareOutput
    (meets : ∀ k < c.elements.getD 1, ∀ l ∈ (cells c).places,
      Meets grid copies c ⟨v, k, l⟩ (indicesAt c k l)) :
    (machine grid M).Achieves program (Done M copies exit start done []) (compareOutput c)
      (Done M copies exit start
        (done ++ (List.range (c.elements.getD 1)).flatMap fun k =>
          (cells c).places.map fun l => ⟨v, k, l⟩) []) := by
  rw [compareOutput_eq]
  cases elements : c.elements with
  | none =>
      have lanes : (machine grid M).Achieves program
          (Done M copies exit start done (elementIndices c 0)) _ _ :=
        achieves_lanes (meets 0 (by simp [elements]))
      simpa [nest, elementIndices, elements] using lanes
  | some n =>
      have loop : (machine grid M).Achieves program (Done M copies exit start done [])
          [.count .i n
            (nest (c.lanes.toList.map (laneVar c, ·)) [.when c.test (reportMismatch c)])]
          (Done M copies exit start
            (done ++ (List.range n).flatMap fun k => (cells c).places.map fun l => ⟨v, k, l⟩)
            []) := by
        refine achieves_loop (.inl rfl) (by simp) fun k inside done => ?_
        have lanes : (machine grid M).Achieves program
            (Done M copies exit start done (elementIndices c k)) _ _ :=
          achieves_lanes (meets k (by simpa [elements] using inside))
        simpa [elementIndices, elements] using lanes
      simpa [nest] using loop

end KernelHost.Validation
