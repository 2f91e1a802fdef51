import KernelHost.Text.Identifier
import Mathlib.Tactic.Tauto

/-!
# Words

Texts of letters, digits and underscores: identifiers, what is made from them by such a suffix, and
numbers.  No other character is in them.
-/

namespace KernelHost

/-- A text of letters, digits and underscores. -/
structure IsWord (text : String) : Prop where
  filled : text ≠ ""
  parts : ∀ c ∈ text.toList, Text.isIdentifierPart c

namespace IsWord

theorem of_isIdentifier {text : String} (identifier : Text.isIdentifier text) : IsWord text := by
  rw [Text.isIdentifier] at identifier
  split at identifier
  · simp at identifier
  · rename_i c cs split
    simp only [Bool.and_eq_true, List.all_eq_true] at identifier
    refine ⟨fun empty => by simp [empty] at split, ?_⟩
    rw [split, List.forall_mem_cons]
    refine ⟨?_, identifier.2⟩
    simp only [Text.isIdentifierStart, Bool.or_eq_true] at identifier
    simp only [Text.isIdentifierPart, Char.isAlphanum, Bool.or_eq_true]
    tauto

theorem append {text suffix : String} (word : IsWord text)
    (parts : suffix.toList.all Text.isIdentifierPart) : IsWord (text ++ suffix) where
  filled := by simp [word.filled]
  parts := by
    rw [String.toList_append]
    exact List.forall_mem_append.mpr ⟨word.parts, List.all_eq_true.mp parts⟩

theorem toString (n : Nat) : IsWord (toString n) where
  filled := by simp
  parts c mem := by
    have mem : c ∈ Nat.toDigits 10 n := by simpa using mem
    have digit := Nat.isDigit_of_mem_toDigits (by decide) (by decide) mem
    simp [Text.isIdentifierPart, Char.isAlphanum, digit]

/-- A character that is no part of identifiers is in no word. -/
theorem not_mem {text : String} (word : IsWord text) {c : Char}
    (other : Text.isIdentifierPart c = false) : c ∉ text.toList := fun mem => by
  simp [word.parts c mem] at other

end IsWord

end KernelHost
