import KernelHost.Double.Rounding
import Mathlib.Algebra.Order.Ring.Nat
import Mathlib.Tactic.Common

/-!
# Rounded differences

A number of steps that a finite double can have is a significand of 53 bits at some scale.  What is
rounded is such a number, so it is read back as it was written, and rounding does not pass over any
other one.
-/

namespace KernelHost

theorem twoTo_add (a b : Nat) : twoTo (a + b) = twoTo a * twoTo b :=
  Nat.pow_add 2 a b

theorem twoTo_le {a b : Nat} (le : a ≤ b) : twoTo a ≤ twoTo b :=
  Nat.pow_le_pow_right (by decide) le

theorem twoTo_lt_iff {a b : Nat} : twoTo a < twoTo b ↔ a < b :=
  Nat.pow_lt_pow_iff_right (by decide)

theorem log2_eq_iff {n k : Nat} (positive : n ≠ 0) :
    n.log2 = k ↔ twoTo k ≤ n ∧ n < twoTo (k + 1) :=
  Nat.log2_eq_iff positive

namespace Double

/-! ## Representable numbers -/

/-- So many steps are those of a finite double. -/
structure Representable (steps : Nat) : Prop where
  scaled : ∃ significand scale, significand < twoTo 53 ∧ steps = significand * twoTo scale
  bounded : steps < overflowSteps

namespace Representable

variable {steps : Nat}

theorem of_lt (small : steps < twoTo 53) : Representable steps where
  scaled := ⟨steps, 0, small, by simp⟩
  bounded := small.trans_le (twoTo_le (by decide))

/-- A large number is at a scale of its own size, since a significand has 53 bits. -/
theorem dvd (representable : Representable steps) {scale : Nat}
    (large : twoTo (52 + scale) ≤ steps) : twoTo scale ∣ steps := by
  obtain ⟨significand, e, small, rfl⟩ := representable.scaled
  have scaled : scale ≤ e := by
    by_contra above
    have : significand * twoTo e < twoTo (52 + scale) :=
      calc significand * twoTo e < twoTo 53 * twoTo e :=
            Nat.mul_lt_mul_of_pos_right small (twoTo_pos e)
        _ = twoTo (53 + e) := (twoTo_add 53 e).symm
        _ ≤ twoTo (52 + scale) := twoTo_le (by omega)
    omega
  exact (Nat.pow_dvd_pow 2 scaled).mul_left significand

end Representable

/-! ## Fields -/

section Fields

variable (x : Double)

theorem fractionField_lt : x.fractionField < twoTo 52 :=
  Nat.mod_lt _ (twoTo_pos 52)

theorem exponentField_lt : x.exponentField < 2048 :=
  Nat.mod_lt _ (twoTo_pos 11)

/-- A finite double has a representable number of steps. -/
theorem representable_of_datum {negative : Bool} {steps : Nat}
    (finite : x.datum = .finite negative steps) :
    Representable steps := by
  have fraction := x.fractionField_lt
  have exponent := x.exponentField_lt
  have double : twoTo 53 = twoTo 52 * 2 := rfl
  unfold datum at finite
  split_ifs at finite with special subnormal
  · cases finite
    exact .of_lt (by omega)
  · cases finite
    have significand : twoTo 52 + x.fractionField < twoTo 53 := by omega
    refine ⟨⟨_, _, significand, rfl⟩, ?_⟩
    calc _ < twoTo 53 * twoTo (x.exponentField - 1) :=
          Nat.mul_lt_mul_of_pos_right significand (twoTo_pos _)
      _ = twoTo (53 + (x.exponentField - 1)) := (twoTo_add 53 _).symm
      _ ≤ twoTo 2098 := twoTo_le (by omega)

theorem fields_ofFields (negative : Bool) {exponent fraction : Nat} (exponent_lt : exponent < 2048)
    (fraction_lt : fraction < twoTo 52) :
    (ofFields negative exponent fraction).exponentField = exponent ∧
      (ofFields negative exponent fraction).fractionField = fraction ∧
      (ofFields negative exponent fraction).signBit = negative := by
  have sign : twoTo 63 = 9223372036854775808 := rfl
  have field : twoTo 52 = 4503599627370496 := rfl
  have width : twoTo 11 = 2048 := rfl
  rw [field] at fraction_lt
  simp only [exponentField, fractionField, signBit, ofFields, Nat.toUInt64_eq,
    UInt64.toNat_ofNat', sign, field, width]
  cases negative <;> simp <;> omega

end Fields

/-! ## What is written is read back -/

theorem datum_ofDatum_finite {negative : Bool} {steps : Nat} (representable : Representable steps) :
    (ofDatum (.finite negative steps)).datum = .finite negative steps := by
  unfold ofDatum
  dsimp only
  split_ifs with small
  · obtain ⟨exponent, fraction, sign⟩ :=
      fields_ofFields negative (by decide : 0 < 2048) small
    rw [datum, exponent, fraction, sign]
    rfl
  · rw [Nat.not_lt] at small
    have positive : steps ≠ 0 := by
      have := twoTo_pos 52
      omega
    obtain ⟨shift, log⟩ : ∃ shift, steps.log2 = 52 + shift :=
      ⟨_, (Nat.add_sub_of_le ((Nat.le_log2 positive).mpr small)).symm⟩
    obtain ⟨lower, upper⟩ := (log2_eq_iff positive).mp log
    have scaled := Nat.div_mul_cancel (representable.dvd lower)
    have at_least : twoTo 52 ≤ steps / twoTo shift := by
      rwa [Nat.le_div_iff_mul_le (twoTo_pos shift), ← twoTo_add]
    have below : steps / twoTo shift < twoTo 53 := by
      rwa [Nat.div_lt_iff_lt_mul (twoTo_pos shift), ← twoTo_add, Nat.add_right_comm 52 1]
    have double : twoTo 53 = twoTo 52 * 2 := rfl
    have bounded : 52 + shift < 2098 :=
      twoTo_lt_iff.mp (lower.trans_lt representable.bounded)
    have shift_eq : steps.log2 - 52 = shift := by omega
    obtain ⟨exponent, fraction, sign⟩ :=
      fields_ofFields negative (by omega : shift + 1 < 2048)
        (by omega : steps / twoTo shift - twoTo 52 < twoTo 52)
    rw [shift_eq, datum, exponent, fraction, sign, if_neg (by omega), if_neg (by omega),
      Nat.add_sub_cancel, Nat.add_sub_cancel' at_least, scaled]

/-! ## Rounding to the nearest -/

/-- What is rounded to the nearest is not below a whole number that it is not below itself. -/
theorem le_nearestEven {num den c : Nat} (positive : 0 < den) (le : c * den ≤ num) :
    c ≤ nearestEven num den := by
  have whole : c ≤ num / den := (Nat.le_div_iff_mul_le positive).mpr le
  unfold nearestEven
  dsimp only
  split_ifs <;> omega

theorem nearestEven_le {num den c : Nat} (positive : 0 < den) (le : num ≤ c * den) :
    nearestEven num den ≤ c := by
  have split := Nat.div_add_mod num den
  have whole : num / den ≤ c := Nat.div_le_of_le_mul (by rwa [Nat.mul_comm])
  rcases Nat.lt_or_ge (num / den) c with below | above
  · unfold nearestEven
    dsimp only
    split_ifs <;> omega
  · obtain rfl : num / den = c := by omega
    have exact : num % den = 0 := by
      rw [Nat.mul_comm] at le
      omega
    unfold nearestEven
    rw [exact]
    simp [positive]

/-- Steps rounded to a significand of 53 bits. -/
def roundedSteps (steps : Nat) : Nat :=
  nearestEven steps (twoTo (steps.log2 - 52)) * twoTo (steps.log2 - 52)

theorem rounded_eq (negative : Bool) (steps : Nat) : Datum.rounded negative steps 1 =
    if roundedSteps steps < overflowSteps then .finite negative (roundedSteps steps)
    else .infinite negative := by
  simp only [Datum.rounded, Nat.div_one, Nat.one_mul]
  rfl

section Rounded

variable {steps target : Nat}

/-- Steps with at most 53 bits stay as they are, and others lose all behind the first 53. -/
theorem roundedSteps_cases (steps : Nat) :
    roundedSteps steps = steps ∧ steps < twoTo 53 ∨
      ∃ shift, twoTo (52 + shift) ≤ steps ∧ steps < twoTo (53 + shift) ∧
        roundedSteps steps = nearestEven steps (twoTo shift) * twoTo shift := by
  rcases Nat.le_total steps.log2 52 with small | large
  · have shift : steps.log2 - 52 = 0 := by omega
    refine .inl ⟨?_, Nat.lt_log2_self.trans_le (twoTo_le (by omega))⟩
    rw [roundedSteps, shift, twoTo_zero, Nat.mul_one]
    exact (nearestEven_le (by decide) (by omega)).antisymm (le_nearestEven (by decide) (by omega))
  · have positive : steps ≠ 0 := by
      rintro rfl
      simp at large
    obtain ⟨shift, log⟩ := Nat.exists_eq_add_of_le large
    obtain ⟨lower, upper⟩ := (log2_eq_iff positive).mp log
    refine .inr ⟨shift, lower, by rwa [Nat.add_right_comm 52] at upper, ?_⟩
    rw [roundedSteps, log, Nat.add_sub_cancel_left]

theorem scaled_roundedSteps (steps : Nat) :
    ∃ significand scale, significand < twoTo 53 ∧
      roundedSteps steps = significand * twoTo scale := by
  obtain ⟨same, small⟩ | ⟨shift, -, upper, rounded⟩ := roundedSteps_cases steps
  · exact ⟨steps, 0, small, by simp [same]⟩
  · have le : nearestEven steps (twoTo shift) ≤ twoTo 53 := by
      refine nearestEven_le (twoTo_pos _) ?_
      rw [← twoTo_add]
      exact upper.le
    rcases le.lt_or_eq with below | carried
    · exact ⟨_, _, below, rounded⟩
    · refine ⟨twoTo 52, shift + 1, by decide, ?_⟩
      rw [rounded, carried, ← twoTo_add, ← twoTo_add, Nat.add_right_comm 52 1, Nat.add_assoc]

/-- Rounding does not pass over a representable number on the way down. -/
theorem le_roundedSteps (representable : Representable target) (le : target ≤ steps) :
    target ≤ roundedSteps steps := by
  obtain ⟨same, -⟩ | ⟨shift, lower, -, rounded⟩ := roundedSteps_cases steps
  · rwa [same]
  · rw [rounded]
    rcases Nat.lt_or_ge target (twoTo (52 + shift)) with below | above
    · rw [twoTo_add] at lower below
      exact below.le.trans (Nat.mul_le_mul_right _ (le_nearestEven (twoTo_pos shift) lower))
    · obtain ⟨c, rfl⟩ := representable.dvd above
      rw [Nat.mul_comm] at le ⊢
      exact Nat.mul_le_mul_right _ (le_nearestEven (twoTo_pos shift) le)

/-- Nor does it on the way up. -/
theorem roundedSteps_le (representable : Representable target) (le : steps ≤ target) :
    roundedSteps steps ≤ target := by
  obtain ⟨same, -⟩ | ⟨shift, lower, -, rounded⟩ := roundedSteps_cases steps
  · rwa [same]
  · rw [rounded]
    obtain ⟨c, rfl⟩ := representable.dvd (lower.trans le)
    rw [Nat.mul_comm] at le ⊢
    exact Nat.mul_le_mul_left _ (nearestEven_le (twoTo_pos shift) le)

theorem datum_ofDatum_rounded (negative : Bool) (steps : Nat) :
    (ofDatum (.rounded negative steps 1)).datum = .rounded negative steps 1 := by
  rw [rounded_eq]
  split_ifs with bounded
  · exact datum_ofDatum_finite ⟨scaled_roundedSteps steps, bounded⟩
  · cases negative <;> decide

end Rounded

/-- A difference is what its operands stand for, rounded once. -/
theorem datum_sub (x y : Double) : (x.sub y).datum = x.datum.sub y.datum := by
  have nan : (ofDatum .nan).datum = .nan := by decide
  have infinite (negative : Bool) : (ofDatum (.infinite negative)).datum = .infinite negative := by
    cases negative <;> decide
  have zero (negative : Bool) : (ofDatum (.finite negative 0)).datum = .finite negative 0 :=
    datum_ofDatum_finite (.of_lt (twoTo_pos 53))
  rw [sub]
  cases x.datum with
  | nan => exact nan
  | infinite m =>
      cases y.datum with
      | nan => exact nan
      | infinite n =>
          simp only [Datum.sub]
          split_ifs
          · exact nan
          · exact infinite m
      | finite n b => exact infinite m
  | finite m a =>
      cases y.datum with
      | nan => exact nan
      | infinite n => exact infinite !n
      | finite n b =>
          simp only [Datum.sub]
          split_ifs
          · exact zero _
          · exact datum_ofDatum_rounded _ _

end Double
end KernelHost
