import KernelHost.Proofs.Report.Spans
import Mathlib.Data.List.TakeWhile

/-!
# Offsets of rows and columns

The row and the column right behind a part of a text lead back to the end of that part: one more
character in front of a text moves the place by its bytes, down a row if it ends a line, and to the
right if the place is in the first row.  So the span of a row and a column is the byte behind that
part, and whatever the row and the column, it is a range of the text.
-/

namespace KernelHost

namespace Text

theorem takeWhile_length_eq_iff {p : Char → Bool} {cs : List Char} :
    (cs.takeWhile p).length = cs.length ↔ ∀ c ∈ cs, p c := by
  rw [← List.takeWhile_eq_self_iff]
  exact ⟨(List.takeWhile_prefix p).eq_of_length, congrArg List.length⟩

/-- A line feed in front moves a position down. -/
theorem Position.after_newline (cs : List Char) :
    after ('\n' :: cs) = ⟨(after cs).row + 1, (after cs).column⟩ := by
  simp only [after, List.count_cons_self, List.reverse_cons, List.takeWhile_append, mk.injEq,
    true_and]
  split
  · rename_i whole
    simpa using whole.symm
  · rfl

/-- Another character in front moves a position in the first row to the right, and no other one. -/
theorem Position.after_cons {c : Char} (other : c ≠ '\n') (cs : List Char) :
    after (c :: cs) =
      ⟨(after cs).row, if '\n' ∈ cs then (after cs).column else (after cs).column + 1⟩ := by
  have whole : (cs.reverse.takeWhile (· ≠ '\n')).length = cs.reverse.length ↔ '\n' ∉ cs := by
    rw [takeWhile_length_eq_iff]
    simp only [List.mem_reverse, decide_eq_true_eq]
    exact ⟨fun all mem => all _ mem rfl, fun apart d mem same => apart (same ▸ mem)⟩
  simp only [after, List.count_cons_of_ne other, List.reverse_cons, List.takeWhile_append, mk.injEq,
    true_and, whole]
  by_cases below : '\n' ∈ cs
  · simp [below]
  · have length := whole.mpr below
    simp [below, other] at length ⊢
    omega

end Text

namespace Span

variable {c : Char} (cs : List Char) (row column : Nat)

theorem offsetAt_newline :
    offsetAt ('\n' :: cs) (row + 2) column = 1 + offsetAt cs (row + 1) column := by
  have newline : '\n'.utf8Size = 1 := rfl
  simp only [offsetAt, Text.lines, if_true, List.getElem?_cons_succ, List.take_succ_cons]
  split <;> simp [newline, Nat.add_assoc]

theorem offsetAt_first (other : c ≠ '\n') :
    offsetAt (c :: cs) 1 (column + 2) = c.utf8Size + offsetAt cs 1 (column + 1) := by
  have flat := Text.flatten_lines cs
  simp only [offsetAt, Text.lines, if_neg other]
  cases split : Text.lines cs with
  | nil =>
      obtain rfl : cs = [] := by simpa [split] using flat.symm
      simp
  | cons line more => simp

theorem offsetAt_later (other : c ≠ '\n') :
    offsetAt (c :: cs) (row + 2) column = c.utf8Size + offsetAt cs (row + 2) column := by
  have flat := Text.flatten_lines cs
  simp only [offsetAt, Text.lines, if_neg other]
  cases split : Text.lines cs with
  | nil =>
      obtain rfl : cs = [] := by simpa [split] using flat.symm
      simp
  | cons line more =>
      simp only [List.getElem?_cons_succ, List.take_succ_cons]
      split <;> simp [Nat.add_assoc]

/-- The position behind a part of a text has the length of that part as its offset. -/
theorem offsetAt_after (front behind : List Char) :
    offsetAt (front ++ behind) (Text.Position.after front).row
        (Text.Position.after front).column = Text.byteLength front := by
  induction front with
  | nil =>
      have first : Text.Position.after [] = ⟨0 + 1, 0 + 1⟩ := rfl
      rw [first, List.nil_append, offsetAt]
      cases split : Text.lines behind with
      | nil =>
          have flat := Text.flatten_lines behind
          obtain rfl : behind = [] := by simpa [split] using flat.symm
          rfl
      | cons line more => simp
  | cons c front ih =>
      -- The row and the column of the rest, as numbers that the equations of offsets match.
      obtain ⟨row, row_eq⟩ : ∃ row, (Text.Position.after front).row = row + 1 := ⟨_, rfl⟩
      obtain ⟨column, column_eq⟩ : ∃ column, (Text.Position.after front).column = column + 1 :=
        ⟨_, rfl⟩
      rw [row_eq, column_eq] at ih
      by_cases newline : c = '\n'
      · subst newline
        rw [Text.Position.after_newline, row_eq, column_eq, List.cons_append, offsetAt_newline, ih]
        rfl
      · rw [Text.Position.after_cons newline, row_eq, column_eq, List.cons_append,
          Text.byteLength_cons]
        by_cases below : '\n' ∈ front
        · obtain ⟨above, rfl⟩ : ∃ above, row = above + 1 := by
            have count : row = front.count '\n' := Nat.succ.inj row_eq.symm
            have positive := List.count_pos_iff.mpr below
            exact ⟨row - 1, by omega⟩
          rw [if_pos below, offsetAt_later _ _ _ newline, ih]
        · obtain rfl : row = 0 := by
            have count : row = front.count '\n' := Nat.succ.inj row_eq.symm
            rw [count, List.count_eq_zero.mpr below]
          rw [if_neg below, offsetAt_first _ _ newline, ih]

/-- In a text whose offsets fit into a word, the span of the position of a character is its first
byte, or nothing at the end of the text; and the span of whatever row and column is a range of the
text that starts between two characters. -/
theorem atPosition_exact {source : String} (small : source.utf8ByteSize < UInt32.size) :
    (∀ front behind, source.toList = front ++ behind →
      let place := atPosition source (Text.Position.after front).row
        (Text.Position.after front).column
      place.start.toNat = Text.byteLength front ∧
        place.stop.toNat = min (Text.byteLength front + 1) source.utf8ByteSize) ∧
      ∀ row column, (atPosition source row column).start ≤ (atPosition source row column).stop ∧
        (atPosition source row column).stop.toNat ≤ source.utf8ByteSize ∧
        Text.Boundary source.toList (atPosition source row column).start.toNat := by
  constructor
  · intro front behind parted
    have offset := offsetAt_after front behind
    rw [← parted] at offset
    exact ⟨(toNat_start_atPosition small _ _).trans offset,
      (toNat_stop_atPosition small _ _).trans (by rw [offset])⟩
  · intro row column
    have marks := marks_atPosition small row column
    exact ⟨marks.start_le_stop, marks.stop_le, marks.boundary⟩

theorem atPosition_exact_twoLines :
    "é\n<ä/>".utf8ByteSize < UInt32.size ∧ "é\n<ä/>".toList = "é\n<".toList ++ "ä/>".toList ∧
      Text.Position.after "é\n<".toList = ⟨2, 2⟩ ∧
      (atPosition "é\n<ä/>" 2 2).start.toNat = 4 ∧ (atPosition "é\n<ä/>" 2 2).stop.toNat = 5 ∧
      (atPosition "é\n<ä/>" 3 7).start ≤ (atPosition "é\n<ä/>" 3 7).stop ∧
      (atPosition "é\n<ä/>" 3 7).stop.toNat ≤ "é\n<ä/>".utf8ByteSize ∧
      Text.Boundary "é\n<ä/>".toList (atPosition "é\n<ä/>" 3 7).start.toNat := by
  have small : "é\n<ä/>".utf8ByteSize < UInt32.size := by decide
  obtain ⟨exact, ranged⟩ := atPosition_exact small
  obtain ⟨start, stop⟩ := exact "é\n<".toList "ä/>".toList (by decide)
  exact ⟨small, by decide, by decide, start, stop, ranged 3 7⟩

end Span
end KernelHost
