import KernelHost.Proofs.Code.Expansion
import KernelHost.Proofs.Double.Value
import Mathlib.Tactic.NormNum

/-!
# Mismatches within a tolerance

Two values do not mismatch if they are the same number or differ by no more than the tolerance.  The
comparison with a tolerance also passes over not-a-number, on either side.  The macro of the program
gives the same verdict, and so does the comparison of doubles, but for a difference that is rounded
down to the tolerance.
-/

namespace KernelHost

open Code (Expr)
open Double (Value)

namespace Double.Value

/-- Two values are one number, or numbers no farther apart than a tolerance. -/
def Near (tolerance : ℚ) (x y : Value) : Prop :=
  x.same y ∨ ∃ q r, x = .rational q ∧ y = .rational r ∧ |q - r| ≤ tolerance

theorem Near.symm {tolerance : ℚ} {x y : Value} (near : x.Near tolerance y) :
    y.Near tolerance x := by
  rcases near with same | ⟨q, r, rfl, rfl, close⟩
  · exact .inl (same_comm x y ▸ same)
  · exact .inr ⟨r, q, rfl, rfl, (abs_sub_comm r q).trans_le close⟩

end Double.Value

namespace Comparison

variable {tolerance : ℚ} {name : Expr} {text : String} {x y : Value}

theorem mismatches_within_iff {α : Type} [Measurable α] {t d e : α} :
    (within name text t).mismatches d e ↔
      Measurable.below e d ∧ Measurable.below t (Measurable.sub d e) ∨
        (Measurable.below d e ∨ Measurable.same d e) ∧
          Measurable.below t (Measurable.sub e d) := by
  simp [mismatches]

/-- Not-a-number is passed over. -/
theorem mismatches_nan : (within name text (.rational tolerance)).mismatches x .nan = false ∧
    (within name text (.rational tolerance)).mismatches .nan x = false := by
  simp [mismatches]

/-- Rational numbers mismatch if they are farther apart than the tolerance. -/
theorem mismatches_rational (nonneg : 0 ≤ tolerance) {q r : ℚ} :
    (within name text (Value.rational tolerance)).mismatches (.rational q) (.rational r) ↔
      tolerance < |q - r| := by
  have apart : (within name text (.rational tolerance)).mismatches (Value.rational q)
      (.rational r) ↔ r < q ∧ tolerance < q - r ∨ (q < r ∨ q = r) ∧ tolerance < r - q := by
    simp [mismatches_within_iff, Value.below, Value.same, Value.sub]
  rw [apart, lt_abs, neg_sub]
  constructor
  · rintro (⟨-, far⟩ | ⟨-, far⟩)
    · exact .inl far
    · exact .inr far
  · rintro (far | far)
    · exact .inl ⟨sub_pos.mp (nonneg.trans_lt far), far⟩
    · exact .inr ⟨.inl (sub_pos.mp (nonneg.trans_lt far)), far⟩

theorem mismatches_eq_false_iff (nonneg : 0 ≤ tolerance) :
    (within name text (.rational tolerance)).mismatches x y = false ↔
      x = .nan ∨ y = .nan ∨ x.Near tolerance y := by
  cases x with
  | nan => simp [mismatches_nan]
  | infinite m =>
      rw [← Bool.not_eq_true, mismatches_within_iff]
      cases y with
      | nan => simp
      | infinite n =>
          cases m <;> cases n <;> simp [Value.below, Value.same, Value.sub, Value.Near]
      | rational r => cases m <;> simp [Value.below, Value.same, Value.sub, Value.Near]
  | rational q =>
      cases y with
      | nan => simp [mismatches_nan]
      | infinite n =>
          rw [← Bool.not_eq_true, mismatches_within_iff]
          cases n <;> simp [Value.below, Value.same, Value.sub, Value.Near]
      | rational r =>
          have near : (Value.rational q).Near tolerance (.rational r) ↔ |q - r| ≤ tolerance := by
            simp only [Value.Near, Value.same, beq_iff_eq, Value.rational.injEq]
            constructor
            · rintro (rfl | ⟨_, _, rfl, rfl, close⟩)
              · simpa using nonneg
              · exact close
            · exact fun close => .inr ⟨q, r, rfl, rfl, close⟩
          rw [← Bool.not_eq_true, mismatches_rational nonneg, not_lt, near]
          simp

theorem mismatches_comm (nonneg : 0 ≤ tolerance) :
    (within name text (.rational tolerance)).mismatches y x =
      (within name text (.rational tolerance)).mismatches x y := by
  have near_comm : y.Near tolerance x ↔ x.Near tolerance y := ⟨.symm, .symm⟩
  rw [← Bool.not_inj_iff, Bool.eq_iff_iff, Bool.not_eq_true', Bool.not_eq_true',
    mismatches_eq_false_iff nonneg, mismatches_eq_false_iff nonneg, near_comm, or_left_comm]

/-- What a wider tolerance does not pass over, a narrower one does not either. -/
theorem mismatches_of_le {wider : ℚ} (nonneg : 0 ≤ tolerance) (le : tolerance ≤ wider)
    (mismatch : (within name text (.rational wider)).mismatches x y) :
    (within name text (.rational tolerance)).mismatches x y := by
  rw [← Bool.not_eq_false, mismatches_eq_false_iff (nonneg.trans le)] at mismatch
  rw [← Bool.not_eq_false, mismatches_eq_false_iff nonneg]
  refine mt (Or.imp_right (Or.imp_right ?_)) mismatch
  exact Or.imp_right fun ⟨q, r, hq, hr, close⟩ => ⟨q, r, hq, hr, close.trans le⟩

/-- A mismatch of doubles is one of their values.  Conversely, doubles whose values mismatch do so
themselves, or their difference is rounded to the tolerance. -/
theorem mismatches_value {t d e : Double} (nonNegative : t.NonNegative) :
    ((within name text t).mismatches d e →
        (within name text t.value).mismatches d.value e.value) ∧
      ((within name text t.value).mismatches d.value e.value →
        (within name text t).mismatches d e ∨ t.same (d.sub e) ∨ t.same (e.sub d)) := by
  simp only [mismatches_within_iff, Value.measurable_eq, Double.measurable_eq,
    Double.below_value, Double.same_value]
  constructor
  · rintro (⟨above, far⟩ | ⟨notAbove, far⟩)
    · exact .inl ⟨above, (Double.below_sub (.inl above) nonNegative).1 far⟩
    · exact .inr ⟨notAbove, (Double.below_sub notAbove nonNegative).1 far⟩
  · rintro (⟨above, far⟩ | ⟨notAbove, far⟩)
    · rcases (Double.below_sub (.inl above) nonNegative).2 far with below | same
      · exact .inl (.inl ⟨above, below⟩)
      · exact .inr (.inl same)
    · rcases (Double.below_sub notAbove nonNegative).2 far with below | same
      · exact .inl (.inr ⟨notAbove, below⟩)
      · exact .inr (.inr same)

end Comparison

/-- The comparison with a tolerance, over values that are not rounded.  It passes over two values
exactly if they are near or one of them is not a number; it treats them alike, and a wider tolerance
passes over more.  Where the macro of the program is invoked, the condition that it stands for gives
the same, and doubles mismatch as their values do, but for a difference that is rounded to the
tolerance. -/
theorem mismatches_within {tolerance : ℚ} (nonneg : 0 ≤ tolerance) (name : Expr) (text : String)
    (x y : Value) :
    ((Comparison.within name text (.rational tolerance)).mismatches x y = false ↔
        x = .nan ∨ y = .nan ∨ x.Near tolerance y) ∧
      (Comparison.within name text (.rational tolerance)).mismatches y x =
        (Comparison.within name text (.rational tolerance)).mismatches x y ∧
      (∀ wider, tolerance ≤ wider →
        (Comparison.within name text (.rational wider)).mismatches x y →
        (Comparison.within name text (.rational tolerance)).mismatches x y) ∧
      (∀ p, "#define TEST_EPSILON(a, b, e) " ++ Host.toleranceBody ∈ Host.header p) ∧
      (∀ expected actual : Expr,
        ((Comparison.within name text (Value.rational tolerance)).condition expected actual).text =
          "TEST_EPSILON(" ++ expected.text ++ ", " ++ actual.text ++ ", " ++ name.text ++ ")" ∧
        Code.expand
            [("a", expected.text.toList), ("b", actual.text.toList), ("e", name.text.toList)] []
            Host.toleranceBody.toList =
          (Host.tooFar expected actual name).text.toList ∧
        ∀ given, expected.number? given = some x → actual.number? given = some y →
          name.number? given = some (.rational tolerance) →
          (Host.tooFar expected actual name).holds? given =
            some ((Comparison.within name text (.rational tolerance)).mismatches x y)) ∧
      ∀ t d e : Double, t.value = .rational tolerance → d.value = x → e.value = y →
        ((Comparison.within name text t).mismatches d e →
          (Comparison.within name text (.rational tolerance)).mismatches x y) ∧
        ((Comparison.within name text (.rational tolerance)).mismatches x y →
          (Comparison.within name text t).mismatches d e ∨ t.same (d.sub e) ∨
            t.same (e.sub d)) := by
  refine ⟨Comparison.mismatches_eq_false_iff nonneg, Comparison.mismatches_comm nonneg,
    fun _ => Comparison.mismatches_of_le nonneg, Host.define_mem_header, fun _ _ =>
      ⟨rfl, Host.expand_toleranceBody .., fun _ hx hy ht => Host.holds?_tooFar hx hy ht name text⟩,
    ?_⟩
  rintro t d e held rfl rfl
  rw [← held]
  exact Comparison.mismatches_value (Double.nonNegative_of_value held nonneg)

/-- Values of a tenth and a twentieth apart, with a tolerance of a tenth. -/
theorem mismatches_within_tenth :
    (0 : ℚ) ≤ 1 / 10 ∧
      (Comparison.within (.constant "e") "0.1" (.rational (1 / 10))).mismatches
        (.rational 1) (Value.rational (21 / 20)) = false ∧
      (Comparison.within (.constant "e") "0.1" (.rational (1 / 10))).mismatches
        (.rational 1) (Value.infinite true) = true := by
  have nonneg : (0 : ℚ) ≤ 1 / 10 := by norm_num
  refine ⟨nonneg, ?_, ?_⟩
  · refine (mismatches_within nonneg (.constant "e") "0.1" _ _).1.mpr (.inr (.inr (.inr ?_)))
    exact ⟨1, 21 / 20, rfl, rfl, abs_le.mpr ⟨by norm_num, by norm_num⟩⟩
  · rw [← Bool.not_eq_false, (mismatches_within nonneg (.constant "e") "0.1" _ _).1]
    simp [Value.Near, Value.same]

/-- The comparison with a tolerance passes over not-a-number in the place of a number, which the
exact comparison does not. -/
theorem unnoticed_nan :
    ∃ t d e : Double, t.NonNegative ∧ d.value = .nan ∧ e.value ≠ .nan ∧
      (∀ tolerance, ¬ d.value.Near tolerance e.value) ∧
      (Comparison.within (.constant "e") "0.1" t).mismatches d e = false ∧
      Comparison.exact.mismatches d e = true := by
  have finite : (⟨0x3fb999999999999a⟩ : Double).isFinite = true := by decide
  have nan : (⟨0x7ff8000000000000⟩ : Double).value = .nan := by
    have datum : (⟨0x7ff8000000000000⟩ : Double).datum = .nan := by decide
    rw [Double.value, datum]
    rfl
  refine ⟨⟨0x3fb999999999999a⟩, ⟨0x7ff8000000000000⟩, ⟨0x3ff0000000000000⟩,
    Double.nonNegative_of_isFinite finite (by decide +kernel), nan, ?_, ?_, by decide,
    by decide⟩
  · have datum : (⟨0x3ff0000000000000⟩ : Double).isFinite = true := by decide
    obtain ⟨negative, steps, datum⟩ := Double.exists_datum_of_isFinite datum
    rw [Double.value, datum]
    simp [Double.Datum.value]
  · intro tolerance near
    rw [nan] at near
    simp [Value.Near] at near

end KernelHost
