import KernelHost.Proofs.Text.Words
import KernelHost.Proofs.Validation.Comparison

/-!
# The places of an output

The expressions of a comparison denote the cells of the place that the loops are at, and its message
is the line about a difference there.  Names are identifiers, so the conversions of the message are
those that its arguments are for.
-/

namespace KernelHost.Validation

open Code (Expr Piece Var formatText)
open Host (mismatchFormat)

variable {grid : Var → Option Grid} {c : Check} {a : State} {k : Nat} {l : Option Nat}

theorem number?_of_indexed {indices : List (Var × Nat)} (indexed : Indexed indices a) {x : Var}
    {n : Nat} (mem : (x, n) ∈ indices) : a.number? (.var x) = some n := by
  simp [State.number?, (indexed _ mem).2]

/-! ## Expressions -/

theorem element?_access {base : Var} (laid : grid base = some (cells c))
    (inside : k < c.elements.getD 1) (indexed : Indexed (elementIndices c k) a) :
    a.element? grid (c.elementIndex?.elim (.var base) fun index =>
      .index (.var base) (.var index)) = some (base, k) := by
  unfold Check.elementIndex?
  unfold elementIndices at indexed
  unfold cells at laid
  cases elements : c.elements with
  | none =>
      rw [elements] at laid inside
      have first : k = 0 := by simpa using inside
      simp [State.element?, laid, first]
  | some n =>
      rw [elements] at laid inside indexed
      have index := number?_of_indexed indexed (x := .i) (n := k) (by simp)
      simp at inside
      simp [State.element?, laid, index, inside]

theorem cell?_access {base : Var} (laid : grid base = some (cells c))
    (inside : k < c.elements.getD 1) (lane : l ∈ (cells c).places)
    (indexed : Indexed (indicesAt c k l) a) :
    a.cell? grid (c.access base) = some ⟨base, k, l⟩ := by
  have element := element?_access laid inside fun y mem =>
    indexed y (List.mem_append_right _ mem)
  unfold Check.access Check.laneIndex?
  cases l with
  | none =>
      have lanes : c.lanes = none := Grid.mem_places.mp lane
      rw [lanes]
      exact State.cell?_of_element? element laid lanes
  | some l =>
      obtain ⟨n, lanes, below⟩ : ∃ n, c.lanes = some n ∧ l < n := Grid.mem_places.mp lane
      rw [lanes]
      have index := number?_of_indexed indexed (x := laneVar c) (n := l) (by simp [indicesAt])
      exact State.cell?_lane element laid lanes index below

/-- Indices are printed as numbers, since no storage has their names. -/
theorem argument?_index {indices : List (Var × Nat)} (indexed : Indexed indices a) {x : Var}
    {n : Nat} (mem : (x, n) ∈ indices) (bare : grid x = none) :
    a.argument? grid (.var x) = some (.index n) := by
  have none : a.cell? grid (.var x) = none := by simp [State.cell?, State.element?, bare]
  simp [State.argument?, none, number?_of_indexed indexed mem]

theorem mapM_argument?_access {v : Variable} {copies : Nat} (bare : grid .i = none ∧ grid .j = none)
    (shape : v.grid copies = cells c)
    (expected : a.cell? grid c.expected = some ⟨.reference v.name, k, l⟩)
    (actual : a.cell? grid c.actual = some ⟨.host v.name, k, l⟩) (lane : l ∈ (cells c).places)
    (indexed : Indexed (indicesAt c k l) a) :
    (c.locationArgs.map Expr.var ++ [c.expected, c.actual]).mapM (a.argument? grid) =
      some (Probe.args copies ⟨v, k, l⟩) := by
  have loops : c.locationArgs = c.elements.toList.map (fun _ => Var.i) ++
      c.lanes.toList.map fun _ => laneVar c := by
    simp [Check.locationArgs, Check.loops, laneVar, Function.comp_def]
  have element : (c.elements.toList.map fun _ => Expr.var .i).mapM (a.argument? grid) =
      some (c.elements.toList.map fun _ => .index k) := by
    cases elements : c.elements with
    | none => rfl
    | some n =>
        have mem : (.i, k) ∈ indicesAt c k l := by simp [indicesAt, elementIndices, elements]
        simp [argument?_index indexed mem bare.1]
  have lane : (c.lanes.toList.map fun _ => Expr.var (laneVar c)).mapM (a.argument? grid) =
      some (l.toList.map .index) := by
    cases l with
    | none =>
        have lanes : c.lanes = none := Grid.mem_places.mp lane
        rw [lanes]
        rfl
    | some l =>
        obtain ⟨n, lanes, -⟩ : ∃ n, c.lanes = some n ∧ l < n := Grid.mem_places.mp lane
        have mem : (laneVar c, l) ∈ indicesAt c k (some l) := by simp [indicesAt]
        have free : grid (laneVar c) = none := by
          rcases laneVar_index c with index | index <;> simp [index, bare]
        simp [lanes, argument?_index indexed mem free]
  have values : [c.expected, c.actual].mapM (a.argument? grid) =
      some [.cell ⟨.reference v.name, k, l⟩, .cell ⟨.host v.name, k, l⟩] := by
    simp [State.argument?, expected, actual]
  have indices : Probe.indices copies ⟨v, k, l⟩ =
      (c.elements.toList.map fun _ => k) ++ l.toList := by
    rw [Probe.indices, shape]
    cases elements : c.elements <;> simp [cells, elements]
  simp only [loops, List.map_append, List.map_map, List.mapM_append, Function.comp_def, element,
    lane, values]
  simp [Probe.args, indices, Probe.expected, Probe.actual]

/-! ## Messages -/

/-- A comparison is that of a variable with its copy. -/
structure Compares (c : Check) (v : Variable) (copies : Nat) : Prop where
  output : c.output = v.name
  comparison : c.comparison = v.tolerance.elim .exact
    fun t => .within (.var (.tolerance v.name)) t.text t.value
  format : c.format = v.conversion
  cells : v.grid copies = cells c

variable {v : Variable} {copies : Nat} (compares : Compares c v copies)

include compares

theorem note_eq : c.comparison.note = if v.tolerance.isSome then " (with epsilon)" else "" := by
  rw [compares.comparison]
  cases v.tolerance <;> rfl

theorem formatText_mismatchFormat : formatText (mismatchFormat c) = v.message copies := by
  unfold Variable.message
  rw [compares.cells, ← String.toList_inj]
  unfold mismatchFormat Check.location Check.elementIndex? Check.laneIndex? cells
  cases elements : c.elements <;> cases lanes : c.lanes <;>
    simp [formatText, Piece.render, compares.output, compares.format, note_eq compares]

/-- The conversions of a message are those for the indices and for the two values. -/
theorem conversions_message (identifier : Text.isIdentifier v.name) (lane : l ∈ (cells c).places) :
    conversions (v.message copies) =
      (Probe.indices copies ⟨v, k, l⟩).map (fun _ => "d") ++ [v.conversion, v.conversion] := by
  have honest : ∀ piece ∈ mismatchFormat c, Honest piece := by
    have name : '%' ∉ v.name.toList := (IsWord.of_isIdentifier identifier).not_mem (by decide)
    have value : isConversion v.conversion := isConversion_conversion _
    have end_plain : '%' ∉ (c.comparison.note ++ ".\\n").toList := by
      rw [note_eq compares]
      split <;> simp
    unfold mismatchFormat Check.location Check.elementIndex? Check.laneIndex?
    have digit : isConversion "d" := by decide
    cases c.elements <;> cases c.lanes <;>
      simp_all [Honest, compares.output, compares.format]
  have one_lane : l.toList.map (fun _ => "d") = c.lanes.toList.map fun _ => "d" := by
    cases l with
    | none =>
        have lanes : c.lanes = none := Grid.mem_places.mp lane
        rw [lanes]
    | some l =>
        obtain ⟨n, lanes, -⟩ : ∃ n, c.lanes = some n ∧ l < n := Grid.mem_places.mp lane
        rw [lanes]
        rfl
  rw [← formatText_mismatchFormat compares, conversions_formatText honest, Probe.indices,
    compares.cells, List.map_append, one_lane]
  unfold mismatchFormat Check.location Check.elementIndex? Check.laneIndex? cells
  cases c.elements <;> cases c.lanes <;>
    simp [conversion?, List.filterMap_cons, compares.format]

omit compares

/-! ## Storage -/

/-- There is storage for a variable, its copy and its tolerance, but not for indices. -/
structure Stored (grid : Var → Option Grid) (copies : Nat) (v : Variable) : Prop where
  host : grid (.host v.name) = some (v.grid copies)
  reference : grid (.reference v.name) = some (v.grid copies)
  tolerance : v.tolerance.isSome → grid (.tolerance v.name) = some ⟨none, none⟩
  indices : grid .i = none ∧ grid .j = none

theorem meets_of_compares (compares : Compares c v copies) (stored : Stored grid copies v)
    (inside : k < c.elements.getD 1) (lane : l ∈ (cells c).places) :
    Meets grid copies c ⟨v, k, l⟩ (indicesAt c k l) := by
  have expected (a : State) (indexed : Indexed (indicesAt c k l) a) :
      a.cell? grid c.expected = some ⟨.reference v.name, k, l⟩ := by
    rw [← compares.output]
    refine cell?_access ?_ inside lane indexed
    rw [compares.output, stored.reference, compares.cells]
  have actual (a : State) (indexed : Indexed (indicesAt c k l) a) :
      a.cell? grid c.actual = some ⟨.host v.name, k, l⟩ := by
    rw [← compares.output]
    refine cell?_access ?_ inside lane indexed
    rw [compares.output, stored.host, compares.cells]
  exact
    { expected
      actual
      comparison := compares.comparison
      tolerance := fun a given => by
        simp [State.cell?, State.element?, stored.tolerance given]
      args := fun a indexed =>
        mapM_argument?_access stored.indices compares.cells (expected a indexed)
          (actual a indexed) lane indexed
      message := formatText_mismatchFormat compares }

end KernelHost.Validation
