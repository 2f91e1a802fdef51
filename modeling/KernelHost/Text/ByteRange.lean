import KernelHost.Text.CodeRange

/-!
# Ranges of characters as bytes

The UTF-8 forms of the characters of a range, as sequences of ranges of bytes: a sequence stands for
all choices of one byte from each of its ranges.
-/

namespace KernelHost.Text

/-- A range of bytes, both ends included. -/
abbrev ByteRange := UInt8 × UInt8

/-- The ranges of code points whose characters take equally many bytes. -/
def lengthRanges : List (Nat × Nat) :=
  [(0, 0x7F), (0x80, 0x7FF), (0x800, 0xD7FF), (0xE000, 0xFFFF), (0x10000, 0x10FFFF)]

/-- Cuts a range of code points where the number of bytes changes. -/
def cutAtLengths (low high : Nat) : List (Nat × Nat) :=
  (lengthRanges.map fun (a, b) => (max low a, min high b)).filter fun (a, b) => a ≤ b

/--
Where to cut a range whose bytes depend on each other: a range with several leading bytes has to
hold all the bytes that may follow them.
-/
def cut? (low high : Nat) : Option Nat :=
  [0x40, 0x1000, 0x40000].findSome? fun unit =>
    if low / unit = high / unit then none
    else if low % unit ≠ 0 then some ((low / unit + 1) * unit)
    else if high % unit ≠ unit - 1 then some (high / unit * unit)
    else none

/-- Cuts a range until the bytes of each part are independent of each other. -/
def aligned (low high : Nat) : List (Nat × Nat) :=
  match cut? low high with
  | none => [(low, high)]
  | some n =>
    if low < n ∧ n ≤ high then aligned low (n - 1) ++ aligned n high else [(low, high)]
termination_by high + 1 - low

/-- The ranges of the bytes of two characters with equally many of them. -/
def byteRanges (low high : Nat) : List ByteRange :=
  (String.utf8EncodeChar (.ofNat low)).zip (String.utf8EncodeChar (.ofNat high))

/-- The sequences of bytes of the characters of a range. -/
def byteSequences (low high : Nat) : List (List ByteRange) :=
  (cutAtLengths low high).flatMap fun (low, high) =>
    let parts := if high < 0x80 then [(low, high)] else aligned low high
    parts.map fun (low, high) => byteRanges low high

/-- Without a place to cut a range stays as it is. -/
theorem aligned_eq_self {low high : Nat} (h : cut? low high = none) :
    aligned low high = [(low, high)] := by
  unfold aligned
  rw [h]

end KernelHost.Text
