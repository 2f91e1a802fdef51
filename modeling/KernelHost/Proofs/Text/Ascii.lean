import Mathlib.Tactic.Common

/-!
# Texts of single bytes

A text is its bytes, and its characters are decoded from them.  A byte below 128 is a character by
itself, so where all bytes are, the characters are read off without decoding.
-/

namespace KernelHost.Text

/-- The characters of a row of bytes each of which is a character by itself. -/
def asciiChars : List UInt8 → Option (List Char)
  | [] => some []
  | b :: bs => if b < 128 then (asciiChars bs).map (Char.ofNat b.toNat :: ·) else none

/-- The characters of a text each of which is a single byte. -/
def ascii? (text : String) : Option (List Char) :=
  asciiChars text.toByteArray.data.toList

/-- A character of several bytes begins with one that is none by itself. -/
theorem utf8EncodeChar_of_lt {c : Char} (large : 127 < c.val.toNat) :
    ∃ b bs, String.utf8EncodeChar c = b :: bs ∧ ¬ b < 128 := by
  have not_lt {n : Nat} (above : 128 ≤ n) (below : n < 256) : ¬ UInt8.ofNat n < 128 := by
    rw [UInt8.lt_iff_toNat_lt, UInt8.toNat_ofNat', Nat.mod_eq_of_lt below]
    exact Nat.not_lt.mpr above
  simp only [String.utf8EncodeChar, if_neg (Nat.not_le.mpr large)]
  split_ifs <;> exact ⟨_, _, rfl, not_lt (by omega) (by omega)⟩

theorem eq_of_asciiChars {l cs : List Char}
    (ascii : asciiChars (l.flatMap String.utf8EncodeChar) = some cs) : l = cs := by
  induction l generalizing cs with
  | nil => exact Option.some.inj ascii
  | cons c l ih =>
      rw [List.flatMap_cons] at ascii
      by_cases small : c.val.toNat ≤ 127
      · have single : c.utf8Size = 1 := Char.utf8Size_eq_one_iff.mpr small
        rw [String.utf8EncodeChar_eq_singleton single] at ascii
        have byte : c.val.toUInt8.toNat = c.toNat :=
          Nat.mod_eq_of_lt (Nat.lt_of_le_of_lt small (by decide))
        simp only [List.singleton_append, asciiChars, byte, Char.ofNat_toNat] at ascii
        split at ascii
        · obtain ⟨rest, read, rfl⟩ := Option.map_eq_some_iff.mp ascii
          rw [ih read]
        · cases ascii
      · obtain ⟨b, bs, encoded, large⟩ := utf8EncodeChar_of_lt (Nat.not_le.mp small)
        rw [encoded, List.cons_append, asciiChars, if_neg large] at ascii
        cases ascii

theorem toList_of_ascii? {text : String} {cs : List Char} (ascii : ascii? text = some cs) :
    text.toList = cs := by
  rw [ascii?, ← String.ofList_toList (s := text), String.toByteArray_ofList, List.utf8Encode,
    List.data_toByteArray, List.toList_toArray] at ascii
  exact eq_of_asciiChars ascii

end KernelHost.Text
