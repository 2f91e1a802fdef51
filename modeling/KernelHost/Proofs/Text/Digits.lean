import KernelHost.Text.Numeral
import Mathlib.Data.List.Induction
import Mathlib.Tactic.Ring

/-!
# Digits

Digits denote a number exactly if they are how the number is written, with or without zeros in front
of it.
-/

namespace KernelHost.Text

theorem digitChar_of_isDigit {c : Char} (digit : c.isDigit) :
    Nat.digitChar (c.toNat - '0'.toNat) = c ∧ c.toNat - '0'.toNat < 10 := by
  have range : 48 ≤ c.toNat ∧ c.toNat ≤ 57 := by
    simpa [Char.isDigit, UInt32.le_iff_toNat_le] using digit
  have zero : '0'.toNat = 48 := rfl
  refine ⟨Char.toNat_inj.mp ?_, by omega⟩
  rw [Nat.toNat_digitChar_of_lt_ten (by omega)]
  omega

theorem ne_sign_of_isDigit {c : Char} (digit : c.isDigit) : c ≠ '+' ∧ c ≠ '-' := by
  constructor <;> (rintro rfl; simp [Char.isDigit] at digit)

theorem ofDigits_concat (cs : List Char) (c : Char) :
    ofDigits (cs ++ [c]) = 10 * ofDigits cs + (c.toNat - '0'.toNat) := by
  simp [ofDigits]

theorem ofDigits_append (cs ds : List Char) :
    ofDigits (cs ++ ds) = ofDigits cs * 10 ^ ds.length + ofDigits ds := by
  induction ds using List.reverseRecOn with
  | nil => simp [ofDigits]
  | append_singleton ds d ih =>
      rw [← List.append_assoc, ofDigits_concat, ih, ofDigits_concat, List.length_append,
        List.length_singleton, Nat.pow_succ]
      ring

theorem ofDigits_replicate_append (zeros : Nat) (cs : List Char) :
    ofDigits (List.replicate zeros '0' ++ cs) = ofDigits cs := by
  induction zeros with
  | zero => rfl
  | succ zeros ih => exact ih

/-- A row that satisfies a condition is parted from what begins with another member. -/
theorem takeWhile_append_stop {α : Type} {p : α → Bool} {as bs : List α} (all : ∀ a ∈ as, p a)
    (stop : ∀ b ∈ bs.head?, p b = false) :
    (as ++ bs).takeWhile p = as ∧ (as ++ bs).dropWhile p = bs := by
  rw [List.takeWhile_append_of_pos all, List.dropWhile_append_of_pos all]
  cases bs with
  | nil => simp
  | cons b bs => simp [stop b rfl]

theorem ofDigits_toDigits (n : Nat) : ofDigits (Nat.toDigits 10 n) = n := by
  rw [ofDigits, ← Nat.ofDigitChars_eq_foldl, Nat.ofDigitChars_ten_toDigits]

/-- Digits that do not begin with a zero are how their number is written. -/
theorem toDigits_ofDigits {c : Char} {cs : List Char} (leads : c ≠ '0')
    (digits : ∀ d ∈ c :: cs, d.isDigit) :
    0 < ofDigits (c :: cs) ∧ Nat.toDigits 10 (ofDigits (c :: cs)) = c :: cs := by
  induction cs using List.reverseRecOn with
  | nil =>
      obtain ⟨same, small⟩ := digitChar_of_isDigit (digits c (by simp))
      have value : ofDigits [c] = c.toNat - '0'.toNat := by simp [ofDigits]
      rw [value, Nat.toDigits_of_lt_base small, same]
      refine ⟨Nat.pos_of_ne_zero fun zero => leads ?_, rfl⟩
      rw [← same, zero]
      rfl
  | append_singleton cs d ih =>
      obtain ⟨same, small⟩ := digitChar_of_isDigit (digits d (by simp))
      obtain ⟨pos, written⟩ := ih fun d' mem => digits d' (by
        rw [← List.cons_append]
        exact List.mem_append_left _ mem)
      have step := Nat.toDigits_append_toDigits (by decide : 1 < 10) pos small
      rw [written, Nat.toDigits_of_lt_base small, same] at step
      rw [← List.cons_append, ofDigits_concat]
      exact ⟨by omega, step.symm⟩

theorem exists_eq_replicate_append {cs : List Char} (visible : cs ≠ [])
    (digits : ∀ d ∈ cs, d.isDigit) :
    ∃ zeros, cs = List.replicate zeros '0' ++ Nat.toDigits 10 (ofDigits cs) := by
  induction cs with
  | nil => exact absurd rfl visible
  | cons c cs ih =>
      by_cases zero : c = '0'
      · subst zero
        rcases cs.eq_nil_or_concat with rfl | ⟨front, d, rfl⟩
        · exact ⟨0, rfl⟩
        · obtain ⟨zeros, written⟩ :=
            ih (by simp) fun d' mem => digits d' (List.mem_cons_of_mem _ mem)
          refine ⟨zeros + 1, ?_⟩
          conv_lhs => rw [written]
          rfl
      · exact ⟨0, (toDigits_ofDigits zero digits).2.symm⟩

/-- Digits in a row that denote a number. -/
structure DigitSequence (cs : List Char) (n : Nat) : Prop where
  visible : cs ≠ []
  digits : ∀ c ∈ cs, c.isDigit
  value : ofDigits cs = n

theorem digits?_eq_some {cs : List Char} {n : Nat} : digits? cs = some n ↔ DigitSequence cs n := by
  rw [digits?, Option.ite_none_right_eq_some, Bool.and_eq_true, List.all_eq_true]
  constructor
  · rintro ⟨⟨visible, digits⟩, value⟩
    exact ⟨by simpa using visible, digits, Option.some.inj value⟩
  · rintro ⟨visible, digits, rfl⟩
    exact ⟨⟨by simpa using visible, digits⟩, rfl⟩

theorem isDigit_of_mem_written {zeros n : Nat} {c : Char}
    (mem : c ∈ List.replicate zeros '0' ++ Nat.toDigits 10 n) : c.isDigit := by
  rcases List.mem_append.mp mem with zero | written
  · rw [List.eq_of_mem_replicate zero]
    rfl
  · exact Nat.isDigit_of_mem_toDigits (by decide) (by decide) written

/-- Digits are read as a number exactly if they are how it is written, behind zeros. -/
theorem digits?_eq_some_iff {cs : List Char} {n : Nat} :
    digits? cs = some n ↔ ∃ zeros, cs = List.replicate zeros '0' ++ Nat.toDigits 10 n := by
  rw [digits?_eq_some]
  constructor
  · rintro ⟨visible, digits, rfl⟩
    exact exists_eq_replicate_append visible digits
  · rintro ⟨zeros, rfl⟩
    refine ⟨by simp [Nat.toDigits_ne_nil], fun c mem => isDigit_of_mem_written mem, ?_⟩
    rw [ofDigits_replicate_append, ofDigits_toDigits]

end KernelHost.Text
