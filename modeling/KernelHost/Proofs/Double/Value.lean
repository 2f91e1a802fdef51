import KernelHost.Plan.Comparison
import KernelHost.Proofs.Double.Rounding
import KernelHost.Proofs.Manifest.Transcription
import Mathlib.Algebra.Order.Field.Rat
import Mathlib.Tactic.Positivity

/-!
# Values of doubles

What doubles stand for: not-a-number, an infinity, or a rational number.  Values are ordered as
doubles are, and their differences are not rounded.  The difference of two doubles is rounded, but
to a double, so it is above a third one only if the difference of the values is.
-/

namespace KernelHost.Double

/-- The value of a double. -/
inductive Value
  | nan
  | infinite (negative : Bool)
  | rational (q : ℚ)
  deriving DecidableEq

namespace Value

/-- The order of the extended line; not-a-number is below nothing and above nothing. -/
def below : Value → Value → Bool
  | .nan, _ | _, .nan => false
  | .infinite m, .infinite n => m && !n
  | .infinite m, .rational _ => m
  | .rational _, .infinite n => !n
  | .rational q, .rational r => q < r

/-- Equality of numbers; not-a-number equals nothing. -/
def same : Value → Value → Bool
  | .infinite m, .infinite n => m == n
  | .rational q, .rational r => q == r
  | _, _ => false

/-- The difference, without rounding. -/
def sub : Value → Value → Value
  | .nan, _ | _, .nan => .nan
  | .infinite m, .infinite n => if m == n then .nan else .infinite m
  | .infinite m, .rational _ => .infinite m
  | .rational _, .infinite n => .infinite !n
  | .rational q, .rational r => .rational (q - r)

instance : Measurable Value where
  below := below
  same := same
  sub := sub

@[simp]
theorem measurable_eq (x y : Value) : Measurable.below x y = x.below y ∧
    Measurable.same x y = x.same y ∧ Measurable.sub x y = x.sub y :=
  ⟨rfl, rfl, rfl⟩

@[simp]
theorem below_nan (x : Value) : x.below .nan = false ∧ nan.below x = false := by
  cases x <;> exact ⟨rfl, rfl⟩

theorem same_comm (x y : Value) : x.same y = y.same x := by
  cases x <;> cases y <;> simp [same, BEq.comm]

@[simp]
theorem same_nan (x : Value) : x.same .nan = false ∧ nan.same x = false := by
  cases x <;> exact ⟨rfl, rfl⟩

end Value

/-- The number of steps between zero and one. -/
def stepsInOne : ℚ :=
  twoTo 1074

/-- The value of a datum. -/
def Datum.value : Datum → Value
  | .nan => .nan
  | .infinite negative => .infinite negative
  | .finite negative steps => .rational (signedSteps negative steps / stepsInOne)

/-- What a double stands for. -/
def value (x : Double) : Value :=
  x.datum.value

theorem measurable_eq (x y : Double) : Measurable.below x y = x.below y ∧
    Measurable.same x y = x.same y ∧ Measurable.sub x y = x.sub y :=
  ⟨rfl, rfl, rfl⟩

/-! ## Order -/

attribute [local simp] Datum.value Value.below Value.same Value.sub

theorem stepsInOne_pos : 0 < stepsInOne :=
  Nat.cast_pos.mpr (twoTo_pos 1074)

theorem div_lt_div_iff_steps {a b : Int} :
    (a : ℚ) / stepsInOne < b / stepsInOne ↔ a < b := by
  rw [div_lt_div_iff_of_pos_right stepsInOne_pos, Int.cast_lt]

theorem div_eq_div_iff_steps {a b : Int} :
    (a : ℚ) / stepsInOne = b / stepsInOne ↔ a = b := by
  rw [div_left_inj' stepsInOne_pos.ne', Int.cast_inj]

theorem below_value (x y : Double) : x.value.below y.value = x.below y := by
  unfold value Double.below
  cases x.datum <;> cases y.datum <;>
    simp [Datum.below, div_lt_div_iff_steps]

theorem same_value (x y : Double) : x.value.same y.value = x.same y := by
  unfold value Double.same
  cases x.datum <;> cases y.datum <;>
    simp [Datum.same, div_eq_div_iff_steps]

/-! ## Differences -/

theorem nonNegative_of_value {x : Double} {q : ℚ} (held : x.value = .rational q) (nonneg : 0 ≤ q) :
    x.NonNegative := by
  rw [value] at held
  cases datum : x.datum with
  | nan => simp [datum] at held
  | infinite negative => simp [datum] at held
  | finite negative steps =>
      simp only [datum, Datum.value, Value.rational.injEq] at held
      refine ⟨negative, steps, datum, ?_⟩
      rwa [← held, le_div_iff₀ stepsInOne_pos, zero_mul, Int.cast_nonneg_iff] at nonneg

theorem exists_datum_of_isFinite {x : Double} (finite : x.isFinite) :
    ∃ negative steps, x.datum = .finite negative steps := by
  rw [isFinite] at finite
  split at finite
  · exact ⟨_, _, ‹_›⟩
  · cases finite

/-- A tolerance is a number of steps. -/
theorem NonNegative.exists_steps {tolerance : Double} (nonNegative : tolerance.NonNegative) :
    ∃ negative steps, tolerance.datum = .finite negative steps ∧
      Datum.signedSteps negative steps = steps ∧ Representable steps := by
  obtain ⟨negative, steps, datum, nonneg⟩ := nonNegative
  refine ⟨negative, steps, datum, ?_, tolerance.representable_of_datum datum⟩
  cases negative with
  | false => rfl
  | true =>
      simp only [Datum.signedSteps, if_true] at nonneg ⊢
      omega

/-- Rounding takes no number past a tolerance, but it may take one down to the tolerance. -/
theorem below_rounded {negative : Bool} {t n : Nat} (representable : Representable t)
    (positive : Datum.signedSteps negative t = t) :
    ((Datum.finite negative t).below (.rounded false n 1) → t < n) ∧
      (t < n → (Datum.finite negative t).below (.rounded false n 1) ∨
        (Datum.finite negative t).same (.rounded false n 1)) := by
  have below {k : Nat} : (Datum.finite negative t).below (.finite false k) ↔ t < k := by
    rw [Datum.below, positive]
    simp [Datum.signedSteps]
  have same {k : Nat} : (Datum.finite negative t).same (.finite false k) ↔ t = k := by
    rw [Datum.same, positive]
    simp [Datum.signedSteps]
  rw [rounded_eq]
  constructor
  · intro above
    by_contra le
    have rounded := roundedSteps_le representable (Nat.not_lt.mp le)
    rw [if_pos (rounded.trans_lt representable.bounded), below] at above
    omega
  · intro lt
    split_ifs with bounded
    · rw [below, same]
      exact (le_roundedSteps representable lt.le).lt_or_eq
    · exact .inl rfl

section Differences

variable {x y tolerance : Double}

/-- Only the difference of two finite doubles is rounded. -/
theorem value_sub (special : x.isFinite = false ∨ y.isFinite = false) :
    (x.sub y).value = x.value.sub y.value := by
  unfold value
  unfold isFinite at special
  rw [datum_sub]
  cases hx : x.datum <;> cases hy : y.datum <;> simp_all [Datum.sub]
  split_ifs <;> rfl

/-- Values are compared with a tolerance by their steps. -/
theorem below_value_sub {m n s : Bool} {a b t : Nat} (hx : x.datum = .finite m a)
    (hy : y.datum = .finite n b) (ht : tolerance.datum = .finite s t)
    (positive : Datum.signedSteps s t = t) :
    tolerance.value.below (x.value.sub y.value) ↔
      (t : Int) < Datum.signedSteps m a - Datum.signedSteps n b := by
  rw [value, value, value, hx, hy, ht, ← positive]
  simp only [Datum.value, Value.sub, Value.below, decide_eq_true_eq]
  rw [← sub_div, ← Int.cast_sub, div_lt_div_iff_steps]

/-- The difference of a double and one that is not above it is above a tolerance only if that of
their values is.  Conversely, it is then above the tolerance, or it is rounded down to it. -/
theorem below_sub (ordered : y.below x ∨ y.same x) (nonNegative : tolerance.NonNegative) :
    (tolerance.below (x.sub y) → tolerance.value.below (x.value.sub y.value)) ∧
      (tolerance.value.below (x.value.sub y.value) →
        tolerance.below (x.sub y) ∨ tolerance.same (x.sub y)) := by
  by_cases special : x.isFinite = false ∨ y.isFinite = false
  · rw [← value_sub special, below_value]
    exact ⟨id, .inl⟩
  · obtain ⟨s, t, ht, positive, representable⟩ := nonNegative.exists_steps
    simp only [not_or, Bool.not_eq_false] at special
    obtain ⟨m, a, hx⟩ := exists_datum_of_isFinite special.1
    obtain ⟨n, b, hy⟩ := exists_datum_of_isFinite special.2
    have nonneg : Datum.signedSteps n b ≤ Datum.signedSteps m a := by
      unfold Double.below Double.same at ordered
      rw [hx, hy] at ordered
      simp only [Datum.below, Datum.same, decide_eq_true_eq, beq_iff_eq] at ordered
      omega
    obtain ⟨k, difference⟩ := Int.eq_ofNat_of_zero_le (Int.sub_nonneg_of_le nonneg)
    have datum : (x.sub y).datum = if k = 0 then .finite (m && !n && a == 0) 0
        else .rounded false k 1 := by
      have sign : decide ((k : Int) < 0) = false := decide_eq_false (by omega)
      rw [datum_sub, hx, hy, Datum.sub, difference]
      simp [sign]
    rw [below_value_sub hx hy ht positive, difference, Nat.cast_lt]
    unfold Double.below Double.same
    rw [datum, ht]
    split_ifs with zero
    · have nothing : (Datum.finite s t).below (.finite (m && !n && a == 0) 0) = false := by
        rw [Datum.below, positive]
        simp [Datum.signedSteps]
      simp [nothing, zero]
    · exact below_rounded representable positive

end Differences

end KernelHost.Double
