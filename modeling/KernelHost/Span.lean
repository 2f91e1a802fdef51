import KernelHost.Text.Position

/-!
# Spans

A stretch of the manifest text as a range of byte offsets.  Offsets are words of 32 bits, so a span
of a longer text keeps the low bits only.
-/

namespace KernelHost

/-- The bytes from `start` up to `stop`, `stop` excluded. -/
structure Span where
  /-- Offset of the first byte. -/
  start : UInt32
  /-- Offset behind the last byte. -/
  stop : UInt32
  deriving DecidableEq, Repr, Inhabited

namespace Span

/-- The span that stands for no place in the text. -/
def nowhere : Span := ⟨0, 0⟩

/-- Whether a span is `nowhere`. -/
def isNowhere (s : Span) : Bool :=
  s.start == 0 && s.stop == 0

@[simp]
theorem isNowhere_iff (s : Span) : s.isNowhere = true ↔ s = nowhere := by
  cases s
  simp [isNowhere, nowhere]

/-- The span between two offsets. -/
def ofRange (start stop : Nat) : Span :=
  ⟨start.toUInt32, stop.toUInt32⟩

/--
The byte offset of a row and a column.  A column behind the end of its line means that end, and a
row that the text does not have means the end of the text.
-/
def offsetAt (cs : List Char) (row column : Nat) : Nat :=
  let rows := Text.lines cs
  match row with
  | 0 => Text.byteLength cs
  | above + 1 =>
    match rows[above]? with
    | none => Text.byteLength cs
    | some line =>
      Text.byteLength (rows.take above).flatten + Text.byteLength (line.take (column - 1))

/-- The single byte at a row and a column, cut at the end of the text. -/
def atPosition (source : String) (row column : Nat) : Span :=
  let cs := source.toList
  let start := (offsetAt cs row column).toUInt32
  let next := if start + 1 = 0 then start else start + 1
  ⟨start, min next (Text.byteLength cs).toUInt32⟩

end Span
end KernelHost
