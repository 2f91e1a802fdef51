/-!
# Places in a text

Sets of places in a text, and what leads from places to places without ever leading back.  A place
is the number of characters in front of it.  `contains_join` says that joining leads just where some
place leads, and `reached_compose` that composed links lead where one after the other leads.
-/

namespace KernelHost

/-- A set of places. -/
structure Places where
  /-- The number whose binary digits tell which places there are. -/
  bits : Nat
  deriving DecidableEq, Repr

namespace Places

/-- No place. -/
def none : Places := ⟨0⟩

/-- One place. -/
def only (place : Nat) : Places := ⟨1 <<< place⟩

/-- Whether a place is among some places. -/
def contains (places : Places) (place : Nat) : Bool :=
  places.bits.testBit place

/-- The places of two sets. -/
def union (left right : Places) : Places :=
  ⟨left.bits ||| right.bits⟩

/-- The places that two sets share. -/
def intersection (left right : Places) : Places :=
  ⟨left.bits &&& right.bits⟩

/-- The places one character further. -/
def next (places : Places) : Places :=
  ⟨places.bits <<< 1⟩

/-- The places with a mark, from the first place on. -/
def ofMarks (marks : List Bool) : Places :=
  ⟨marks.foldr (fun mark bits => 2 * bits + mark.toNat) 0⟩

@[simp]
theorem contains_none (place : Nat) : none.contains place = false := by
  simp [contains, none]

@[simp]
theorem contains_only (place other : Nat) :
    (only place).contains other = decide (place = other) := by
  simp [contains, only, Nat.one_shiftLeft, Nat.testBit_two_pow]

@[simp]
theorem contains_union (left right : Places) (place : Nat) :
    (left.union right).contains place = (left.contains place || right.contains place) := by
  simp [contains, union]

@[simp]
theorem contains_intersection (left right : Places) (place : Nat) :
    (left.intersection right).contains place =
      (left.contains place && right.contains place) := by
  simp [contains, intersection]

/-- A number without its highest binary digit is less. -/
theorem sub_highest_lt {n : Nat} (h : ¬n = 0) : n - 1 <<< n.log2 < n :=
  Nat.sub_lt (Nat.pos_of_ne_zero h) (by rw [Nat.one_shiftLeft]; exact Nat.two_pow_pos _)

/-- The binary digits of a number without its highest one. -/
theorem testBit_sub_highest {n : Nat} (h : ¬n = 0) (place : Nat) :
    (n - 1 <<< n.log2).testBit place = (n.testBit place && decide (place ≠ n.log2)) := by
  have low := Nat.log2_self_le h
  have high := Nat.lt_log2_self (n := n)
  have rest : n - 1 <<< n.log2 = n % 2 ^ n.log2 := by
    rw [Nat.one_shiftLeft, Nat.mod_eq_sub_mod low, Nat.mod_eq_of_lt]
    rw [Nat.pow_succ] at high
    omega
  rw [rest, Nat.testBit_mod_two_pow]
  rcases Nat.lt_trichotomy place n.log2 with less | rfl | more
  · simp [less, Nat.ne_of_lt less]
  · simp
  · have beyond : n < 2 ^ place :=
      Nat.lt_of_lt_of_le high (Nat.pow_le_pow_right (by decide) more)
    simp [Nat.testBit_lt_two_pow beyond]

/-- Joins what the places of a number lead to, from the highest on. -/
def joinBits (reach : Nat → Places) (n : Nat) : Places :=
  if n = 0 then none else (reach n.log2).union (joinBits reach (n - 1 <<< n.log2))
termination_by n
decreasing_by exact sub_highest_lt ‹_›

/-- Joins what places lead to. -/
def join (reach : Nat → Places) (places : Places) : Places :=
  joinBits reach places.bits

/-- Joining leads just where some place leads. -/
theorem contains_joinBits (reach : Nat → Places) (n place : Nat) :
    (joinBits reach n).contains place = true ↔
      ∃ start, n.testBit start = true ∧ (reach start).contains place = true := by
  induction n using Nat.strongRecOn with
  | _ n ih =>
    unfold joinBits
    split
    case isTrue zero => simp [zero]
    case isFalse nonzero =>
      rw [contains_union, Bool.or_eq_true, ih _ (sub_highest_lt nonzero)]
      simp only [testBit_sub_highest nonzero, Bool.and_eq_true, decide_eq_true_eq]
      constructor
      · rintro (reached | ⟨start, ⟨among, _⟩, reached⟩)
        · exact ⟨n.log2, Nat.testBit_log2 nonzero, reached⟩
        · exact ⟨start, among, reached⟩
      · rintro ⟨start, among, reached⟩
        by_cases highest : start = n.log2
        · exact .inl (highest ▸ reached)
        · exact .inr ⟨start, ⟨among, highest⟩, reached⟩

/-- Joining leads just where some of the places leads. -/
theorem contains_join (reach : Nat → Places) (places : Places) (place : Nat) :
    (places.join reach).contains place = true ↔
      ∃ start, places.contains start = true ∧ (reach start).contains place = true :=
  contains_joinBits reach places.bits place

end Places

/-- For each place of a text the places that it leads to. -/
structure Links where
  /-- What the places lead to, from the first on. -/
  rows : Array Places
  deriving DecidableEq, Repr

namespace Links

/-- What a place leads to. -/
def reached (links : Links) (place : Nat) : Places :=
  links.rows[place]?.getD .none

/-- What some places lead to. -/
def image (links : Links) (places : Places) : Places :=
  places.join links.reached

/-- The links of a step, for so many places. -/
def ofStep (size : Nat) (step : Places → Places) : Links :=
  ⟨(Array.range size).map fun place => step (.only place)⟩

/-- Links from each place to itself. -/
def identity (size : Nat) : Links :=
  ofStep size id

/-- First the one links, then the others. -/
def compose (first second : Links) : Links :=
  ⟨first.rows.map second.image⟩

@[simp]
theorem image_none (links : Links) : links.image .none = .none := by
  simp [image, Places.join, Places.joinBits, Places.none]

/-- Composed links lead where the one links after the other lead. -/
theorem reached_compose (first second : Links) (place : Nat) :
    (first.compose second).reached place = second.image (first.reached place) := by
  unfold compose reached
  rw [Array.getElem?_map]
  cases first.rows[place]? <;> simp

/-- The one links or the others. -/
def union (left right : Links) : Links :=
  ⟨left.rows.zipWith .union right.rows⟩

/-- The same links so many times. -/
def power (links : Links) (n : Nat) : Links :=
  if n = 0 then identity links.rows.size
  else
    let half := links.power (n / 2)
    let twice := half.compose half
    if n % 2 = 0 then twice else twice.compose links
termination_by n
decreasing_by omega

/--
The same links any number of times.  No place leads back, so the places further on are ready when it
is a place's turn.
-/
def closure (links : Links) : Links :=
  let last := links.rows.size - 1
  let enter (row : Places) (ready : Array Places) : Array Places :=
    let further := row.join fun place => ready[last - place]?.getD .none
    ready.push ((Places.only (last - ready.size)).union further)
  ⟨(links.rows.foldr enter #[]).reverse⟩

/-- The same links so many times at least, and at most if there is a limit. -/
def times (links : Links) (least : Nat) (most : Option Nat) : Links :=
  let further :=
    match most with
    | some most => ((identity links.rows.size).union links).power (most - least)
    | none => links.closure
  (links.power least).compose further

end Links
end KernelHost
