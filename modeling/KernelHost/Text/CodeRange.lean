/-!
# Ranges of code points

Sets of numbers as lists of ranges.  `inRanges` tells what ranges cover; inserting a range into
ascending ranges keeps them ascending and apart, and adds just its own numbers.
-/

namespace KernelHost.Text

/-- Whether a number lies in one of the ranges, both ends included. -/
def inRanges (ranges : List (Nat × Nat)) (n : Nat) : Bool :=
  ranges.any fun (low, high) => low ≤ n && n ≤ high

/-- What lies in one of the ranges is covered. -/
theorem inRanges_of_mem {ranges : List (Nat × Nat)} {low high n : Nat}
    (h : (low, high) ∈ ranges) (above : low ≤ n) (below : n ≤ high) : inRanges ranges n = true := by
  simp only [inRanges, List.any_eq_true]
  exact ⟨(low, high), h, by simp [above, below]⟩

/-- Puts a range in front of ranges, among them or behind them, joined with those that it meets. -/
def insertRange (low high : Nat) : List (Nat × Nat) → List (Nat × Nat)
  | [] => [(low, high)]
  | (a, b) :: ranges =>
    if high + 1 < a then (low, high) :: (a, b) :: ranges
    else if b + 1 < low then (a, b) :: insertRange low high ranges
    else insertRange (min low a) (max high b) ranges

/-- Two ranges that meet cover together what reaches from the lesser start to the greater end. -/
theorem joined_iff {low high a b n : Nat} (before : a ≤ high + 1) (behind : low ≤ b + 1) :
    (min low a ≤ n ∧ n ≤ max high b) ↔ ((low ≤ n ∧ n ≤ high) ∨ (a ≤ n ∧ n ≤ b)) := by
  omega

/-- Inserting a range adds just its numbers. -/
theorem inRanges_insertRange {low high n : Nat} (ranges : List (Nat × Nat)) :
    inRanges (insertRange low high ranges) n = true ↔
      ((low ≤ n ∧ n ≤ high) ∨ inRanges ranges n = true) := by
  induction ranges generalizing low high with
  | nil => simp [insertRange, inRanges]
  | cons r ranges ih =>
    obtain ⟨a, b⟩ := r
    unfold insertRange
    split
    · simp [inRanges]
    · split
      · have := @ih low high
        simp only [inRanges, List.any_cons, Bool.or_eq_true, Bool.and_eq_true,
          decide_eq_true_eq] at this ⊢
        rw [this]
        exact or_left_comm
      · have joined := @joined_iff low high a b n
          (by omega) (by omega)
        have := @ih (min low a) (max high b)
        rw [this, joined]
        simp only [inRanges, List.any_cons, Bool.or_eq_true, Bool.and_eq_true, decide_eq_true_eq]
        exact or_assoc

/-- What ascending ranges leave free from a number to a last one. -/
def gaps (next last : Nat) : List (Nat × Nat) → List (Nat × Nat)
  | [] => if next ≤ last then [(next, last)] else []
  | (low, high) :: ranges =>
    if next < low then (next, low - 1) :: gaps (high + 1) last ranges
    else gaps (high + 1) last ranges

end KernelHost.Text
