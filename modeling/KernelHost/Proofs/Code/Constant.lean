import KernelHost.Double.Rounding
import KernelHost.Proofs.Text.Decimals
import Mathlib.Data.Rat.Defs
import Mathlib.Tactic.FieldSimp

/-!
# Numeric constants

What the constants of a program denote.  Digits behind a zero are octal, so that not all of them
denote the number that they are read as; a point or an exponent makes a constant decimal again.
-/

namespace KernelHost.Code

open Text (DigitSequence Exponent Sign Unsigned ofBase ofDigits)

/-- Whether a character is an octal digit. -/
def isOctalDigit (c : Char) : Bool :=
  c.isDigit && c ≤ '7'

/-- The numeric constants without prefix or suffix, since no numeral has these, and what they denote.
An integer constant has a type of 64 bits, which is signed if the constant is decimal, and a floating
one is rounded to a finite double. -/
inductive Constant : List Char → ℚ → Prop
  | decimal {cs : List Char} {n : Nat} (digits : DigitSequence cs n) (leads : cs.head? ≠ some '0')
      (typed : n < twoTo 63) : Constant cs n
  | octal {cs : List Char} (digits : ∀ c ∈ cs, isOctalDigit c) (typed : ofBase 8 cs < twoTo 64) :
      Constant ('0' :: cs) (ofBase 8 cs)
  | fraction {whole part tail : List Char} {e : Int} (inWhole : ∀ c ∈ whole, c.isDigit)
      (inPart : ∀ c ∈ part, c.isDigit) (visible : whole ++ part ≠ [])
      (scale : tail = [] ∧ e = 0 ∨ Exponent tail e)
      (typed : (Double.ofDecimal ⟨false, ofDigits (whole ++ part), e - part.length⟩).isFinite) :
      Constant (whole ++ '.' :: part ++ tail)
        ((ofDigits whole + ofDigits part / 10 ^ part.length) * 10 ^ e)
  | scientific {whole tail : List Char} {n : Nat} {e : Int} (digits : DigitSequence whole n)
      (scale : Exponent tail e) (typed : (Double.ofDecimal ⟨false, n, e⟩).isFinite) :
      Constant (whole ++ tail) (n * 10 ^ e)

/-- A constant with an optional sign, and what it denotes. -/
def SignedConstant (cs : List Char) (q : ℚ) : Prop :=
  ∃ negative rest r, Sign cs negative rest ∧ Constant rest r ∧ q = if negative then -r else r

/-- There is a point or the mark of an exponent. -/
def Marked (cs : List Char) : Prop :=
  ∃ c ∈ cs, c = '.' ∨ c = 'e' ∨ c = 'E'

/-! ## Octal digits -/

section Octal

variable {cs : List Char}

theorem isOctalDigit_iff {c : Char} :
    isOctalDigit c ↔ c.isDigit ∧ c.toNat - '0'.toNat < 8 := by
  have zero : '0'.toNat = 48 := rfl
  have seven : c ≤ '7' ↔ c.toNat ≤ 55 := by
    rw [Char.le_def, UInt32.le_iff_toNat_le]
    rfl
  rw [isOctalDigit, Bool.and_eq_true, decide_eq_true_eq, seven]
  refine and_congr_right fun _ => ?_
  omega

theorem isDigit_of_isOctalDigit (digits : ∀ c ∈ cs, isOctalDigit c) :
    ∀ c ∈ '0' :: cs, c.isDigit := by
  rw [List.forall_mem_cons]
  exact ⟨rfl, fun c mem => (isOctalDigit_iff.mp (digits c mem)).1⟩

theorem ofBase_eight_concat {c : Char} (digit : c.isDigit) :
    ofBase 8 (cs ++ [c]) = 8 * ofBase 8 cs + (c.toNat - '0'.toNat) := by
  simp [ofBase, Text.hexValue, digit]

theorem ofBase_eight_le (digits : ∀ c ∈ cs, isOctalDigit c) : ofBase 8 cs ≤ ofDigits cs := by
  induction cs using List.reverseRecOn with
  | nil => exact Nat.le_refl 0
  | append_singleton cs c ih =>
      obtain ⟨front, last⟩ := List.forall_mem_append.mp digits
      obtain ⟨digit, -⟩ := isOctalDigit_iff.mp (last c (by simp))
      rw [ofBase_eight_concat digit, Text.ofDigits_concat]
      have le := ih front
      omega

/-- Octal digits denote the same number as decimal ones only where one digit would do. -/
theorem ofBase_eight_eq_iff (digits : ∀ c ∈ cs, isOctalDigit c) :
    ofBase 8 cs = ofDigits cs ↔ ofDigits cs < 8 := by
  rcases cs.eq_nil_or_concat' with rfl | ⟨front, c, rfl⟩
  · simp [ofBase, ofDigits]
  · obtain ⟨inFront, last⟩ := List.forall_mem_append.mp digits
    obtain ⟨digit, small⟩ := isOctalDigit_iff.mp (last c (by simp))
    rw [ofBase_eight_concat digit, Text.ofDigits_concat]
    have le := ofBase_eight_le inFront
    omega

/-- Digits that denote a number below eight are octal ones. -/
theorem isOctalDigit_of_ofDigits_lt (digits : ∀ c ∈ cs, c.isDigit) (small : ofDigits cs < 8) :
    ∀ c ∈ cs, isOctalDigit c := by
  induction cs using List.reverseRecOn with
  | nil => simp
  | append_singleton cs d ih =>
      obtain ⟨front, last⟩ := List.forall_mem_append.mp digits
      rw [Text.ofDigits_concat] at small
      refine List.forall_mem_append.mpr ⟨ih front (by omega), ?_⟩
      simpa using isOctalDigit_iff.mpr ⟨last d (by simp), by omega⟩

end Octal

/-! ## Constants and the numbers that are read -/

section Meaning

variable {cs : List Char} {n : Nat} {e : Int} {q : ℚ}

theorem not_marked_of_digits (digits : ∀ c ∈ cs, c.isDigit) : ¬ Marked cs := by
  rintro ⟨c, mem, rfl | rfl | rfl⟩ <;> simpa [Char.isDigit] using digits _ mem

theorem marked_of_exponent {whole tail : List Char} (scale : Exponent tail e) :
    Marked (whole ++ tail) := by
  obtain ⟨mark, ds, rfl, marked⟩ := scale.exists_mark
  exact ⟨mark, by simp, .inr marked⟩

theorem unsigned_unique {n' : Nat} {e' : Int} (shape : Unsigned cs n e)
    (shape' : Unsigned cs n' e') : n = n' ∧ e = e' := by
  have read {n : Nat} {e : Int} (shape : Unsigned cs n e) :
      Text.unsignedDecimal? false cs = some ⟨false, n, e⟩ :=
    Text.unsignedDecimal?_eq_some_iff.mpr shape
  simpa using (read shape).symm.trans (read shape')

/-- Digits before and behind a point are a fraction of all the digits. -/
theorem fraction_eq (whole part : List Char) (e : Int) :
    ((ofDigits whole : ℚ) + ofDigits part / 10 ^ part.length) * 10 ^ e =
      ofDigits (whole ++ part) * 10 ^ (e - part.length) := by
  rw [Text.ofDigits_append, zpow_sub₀ (by norm_num), zpow_natCast]
  push_cast
  field_simp

/-- Without marks a numeral is digits alone. -/
theorem digits_of_not_marked (shape : Unsigned cs n e) (plain : ¬ Marked cs) :
    DigitSequence cs n ∧ e = 0 := by
  cases shape with
  | digits digits => exact ⟨digits, rfl⟩
  | point => exact absurd ⟨'.', by simp, .inl rfl⟩ plain
  | scientific digits scale => exact absurd (marked_of_exponent scale) plain

theorem Constant.exists_unsigned (constant : Constant cs q) : ∃ n e, Unsigned cs n e := by
  cases constant with
  | decimal digits => exact ⟨_, _, .digits digits⟩
  | octal digits => exact ⟨_, _, .digits ⟨by simp, isDigit_of_isOctalDigit digits, rfl⟩⟩
  | fraction inWhole inPart visible scale =>
      exact ⟨_, _, .point ⟨visible, List.forall_mem_append.mpr ⟨inWhole, inPart⟩, rfl⟩ scale⟩
  | scientific digits scale => exact ⟨_, _, .scientific digits scale⟩

/-- A constant with a point or an exponent denotes the number that is read. -/
theorem Constant.eq_of_marked (constant : Constant cs q) (shape : Unsigned cs n e)
    (marked : Marked cs) : q = n * 10 ^ e := by
  cases constant with
  | decimal digits => exact absurd marked (not_marked_of_digits digits.digits)
  | octal digits => exact absurd marked (not_marked_of_digits (isDigit_of_isOctalDigit digits))
  | @fraction whole part tail e' inWhole inPart visible scale =>
      have all := List.forall_mem_append.mpr ⟨inWhole, inPart⟩
      obtain ⟨rfl, rfl⟩ := unsigned_unique shape (.point ⟨visible, all, rfl⟩ scale)
      exact fraction_eq whole part e'
  | scientific digits scale =>
      obtain ⟨rfl, rfl⟩ := unsigned_unique shape (.scientific digits scale)
      rfl

theorem constant_of_marked (shape : Unsigned cs n e) (marked : Marked cs)
    (typed : (Double.ofDecimal ⟨false, n, e⟩).isFinite) : Constant cs (n * 10 ^ e) := by
  cases shape with
  | digits digits => exact absurd marked (not_marked_of_digits digits.digits)
  | @point whole part tail n e digits scale =>
      obtain ⟨visible, digits, rfl⟩ := digits
      obtain ⟨inWhole, inPart⟩ := List.forall_mem_append.mp digits
      rw [← fraction_eq]
      exact .fraction inWhole inPart visible scale typed
  | scientific digits scale => exact .scientific digits scale typed

/-- A constant of digits alone is decimal or, behind a zero, octal. -/
theorem Constant.cases_of_digits (constant : Constant cs q) (digits : DigitSequence cs n) :
    cs.head? ≠ some '0' ∧ n < twoTo 63 ∧ q = n ∨
      ∃ ds, cs = '0' :: ds ∧ (∀ c ∈ ds, isOctalDigit c) ∧ q = ofBase 8 ds := by
  have plain := not_marked_of_digits digits.digits
  cases constant with
  | decimal digits' leads typed =>
      obtain rfl : n = _ := digits.value.symm.trans digits'.value
      exact .inl ⟨leads, typed, rfl⟩
  | octal octal => exact .inr ⟨_, rfl, octal, rfl⟩
  | fraction => exact absurd ⟨'.', by simp, .inl rfl⟩ plain
  | scientific _ scale => exact absurd (marked_of_exponent scale) plain

/-- A constant denotes one number. -/
theorem Constant.unique {q' : ℚ} (constant : Constant cs q) (constant' : Constant cs q') :
    q = q' := by
  obtain ⟨n, e, shape⟩ := constant.exists_unsigned
  by_cases marked : Marked cs
  · rw [constant.eq_of_marked shape marked, constant'.eq_of_marked shape marked]
  · obtain ⟨digits, -⟩ := digits_of_not_marked shape marked
    rcases constant.cases_of_digits digits with ⟨leads, -, rfl⟩ | ⟨ds, rfl, -, rfl⟩ <;>
      rcases constant'.cases_of_digits digits with ⟨leads', -, rfl⟩ | ⟨ds', same, -, rfl⟩
    · rfl
    · exact absurd (by rw [same]; rfl) leads
    · exact absurd rfl leads'
    · cases same
      rfl

/-- Digits denote the number that is read if it is below eight, or if no zero stands in front of
them and the number has a type. -/
theorem constant_iff_of_digits (digits : DigitSequence cs n) :
    Constant cs n ↔ n < 8 ∨ cs.head? ≠ some '0' ∧ n < twoTo 63 := by
  have behind (ds : List Char) : ofDigits ('0' :: ds) = ofDigits ds := rfl
  constructor
  · intro constant
    rcases constant.cases_of_digits digits with ⟨leads, typed, -⟩ | ⟨ds, rfl, octal, same⟩
    · exact .inr ⟨leads, typed⟩
    · have value : ofDigits ds = n := digits.value
      have equal : ofBase 8 ds = ofDigits ds := by
        rw [value]
        exact_mod_cast same.symm
      exact .inl (value ▸ (ofBase_eight_eq_iff octal).mp equal)
  · intro small
    by_cases zero : cs.head? = some '0'
    · have low : n < 8 := small.resolve_right fun other => other.1 zero
      obtain ⟨ds, rfl⟩ := List.head?_eq_some_iff.mp zero
      have value : ofDigits ds = n := digits.value
      have inside := fun c mem => digits.digits c (List.mem_cons_of_mem '0' mem)
      have octal := isOctalDigit_of_ofDigits_lt inside (value.trans_lt low)
      have equal := (ofBase_eight_eq_iff octal).mpr (value.trans_lt low)
      have typed : ofBase 8 ds < twoTo 64 := by
        rw [equal, value]
        exact low.trans (by decide)
      have constant := Constant.octal octal typed
      rwa [equal, value] at constant
    · have typed : n < twoTo 63 := by
        rcases small with small | ⟨-, typed⟩
        · exact small.trans (by decide)
        · exact typed
      exact .decimal digits zero typed

/-- When a numeral is a constant that denotes the number that is read. -/
theorem constant_iff (shape : Unsigned cs n e)
    (typed : (Double.ofDecimal ⟨false, n, e⟩).isFinite) :
    Constant cs (n * 10 ^ e) ↔
      Marked cs ∨ n < 8 ∨ cs.head? ≠ some '0' ∧ n < twoTo 63 := by
  by_cases marked : Marked cs
  · simp only [marked, true_or, iff_true]
    exact constant_of_marked shape marked typed
  · obtain ⟨digits, rfl⟩ := digits_of_not_marked shape marked
    rw [zpow_zero, mul_one, constant_iff_of_digits digits]
    simp [marked]

end Meaning

/-! ## Signs -/

theorem begins_of_unsigned {cs : List Char} {n : Nat} {e : Int} (shape : Unsigned cs n e) :
    ∀ c ∈ cs.head?, c ≠ '+' ∧ c ≠ '-' := by
  intro c first
  cases shape with
  | digits digits => exact Text.ne_sign_of_isDigit (digits.digits c (List.mem_of_mem_head? first))
  | @point whole part tail n e digits =>
      cases whole with
      | nil =>
          obtain rfl : '.' = c := by simpa using first
          decide
      | cons d whole =>
          obtain rfl : d = c := by simpa using first
          exact Text.ne_sign_of_isDigit (digits.digits d (by simp))
  | @scientific whole tail n e digits =>
      obtain ⟨d, whole, rfl⟩ := List.exists_cons_of_ne_nil digits.visible
      obtain rfl : d = c := by simpa using first
      exact Text.ne_sign_of_isDigit (digits.digits d (by simp))

theorem sign_unique {cs rest rest' : List Char} {negative negative' : Bool}
    (sign : Sign cs negative rest) (sign' : Sign cs negative' rest')
    (begins : ∀ c ∈ rest.head?, c ≠ '+' ∧ c ≠ '-')
    (begins' : ∀ c ∈ rest'.head?, c ≠ '+' ∧ c ≠ '-') : negative = negative' ∧ rest = rest' := by
  cases sign <;> cases sign' <;> simp_all

/-- A sign is no mark and no digit. -/
theorem marked_iff_of_sign {cs rest : List Char} {negative : Bool} (sign : Sign cs negative rest) :
    (Marked cs ↔ Marked rest) ∧ cs.find? Char.isDigit = rest.find? Char.isDigit := by
  cases sign <;> simp [Marked, Char.isDigit]

/-- A sign in front of a numeral stands in front of the constant. -/
theorem signedConstant_iff {cs rest : List Char} {negative : Bool} {n : Nat} {e : Int} {q : ℚ}
    (sign : Sign cs negative rest) (shape : Unsigned rest n e) :
    SignedConstant cs q ↔ ∃ r, Constant rest r ∧ q = if negative then -r else r := by
  constructor
  · rintro ⟨negative', rest', r, sign', constant, value⟩
    obtain ⟨n', e', shape'⟩ := constant.exists_unsigned
    obtain ⟨rfl, rfl⟩ :=
      sign_unique sign sign' (begins_of_unsigned shape) (begins_of_unsigned shape')
    exact ⟨r, constant, value⟩
  · rintro ⟨r, constant, value⟩
    exact ⟨negative, rest, r, sign, constant, value⟩

end KernelHost.Code
