/-!
# Positions in a text

A place in a text is a byte offset of its UTF-8 form or a row and a column, both counted from one.
Columns count characters.  `Position.ofOffset` goes from the first to the second; `Span.atPosition`
goes back.
-/

namespace KernelHost.Text

/-- The number of bytes that characters take in UTF-8. -/
def byteLength : List Char → Nat
  | [] => 0
  | c :: cs => c.utf8Size + byteLength cs

@[simp]
theorem byteLength_nil : byteLength [] = 0 := rfl

@[simp]
theorem byteLength_cons (c : Char) (cs : List Char) :
    byteLength (c :: cs) = c.utf8Size + byteLength cs := rfl

@[simp]
theorem byteLength_append (cs ds : List Char) :
    byteLength (cs ++ ds) = byteLength cs + byteLength ds := by
  induction cs with
  | nil => simp
  | cons c cs ih => simp [ih, Nat.add_assoc]

theorem byteLength_ofList (cs : List Char) : byteLength cs = (String.ofList cs).utf8ByteSize := by
  induction cs with
  | nil => simp
  | cons c cs ih =>
    have parted : String.ofList (c :: cs) = String.singleton c ++ String.ofList cs := by
      rw [String.singleton_eq_ofList, ← String.ofList_append]
      rfl
    rw [byteLength_cons, ih, parted, String.utf8ByteSize_append, String.utf8ByteSize_singleton]

/-- The bytes of a text are those of its characters. -/
@[simp]
theorem byteLength_toList (s : String) : byteLength s.toList = s.utf8ByteSize := by
  rw [byteLength_ofList, String.ofList_toList]

/-- The characters that begin before a byte offset. -/
def charsBefore : Nat → List Char → List Char
  | _, [] => []
  | offset, c :: cs => if offset = 0 then [] else c :: charsBefore (offset - c.utf8Size) cs

/-- A row and a column, both from one. -/
structure Position where
  /-- One more than the line feeds in front. -/
  row : Nat
  /-- One more than the characters since the last line feed. -/
  column : Nat
  deriving DecidableEq, Repr

/-- The position right behind the given characters. -/
def Position.after (cs : List Char) : Position where
  row := cs.count '\n' + 1
  column := (cs.reverse.takeWhile (· ≠ '\n')).length + 1

/-- The position of the character that begins at a byte offset. -/
def Position.ofOffset (source : String) (offset : Nat) : Position :=
  .after (charsBefore offset source.toList)

/-- A position as messages write it. -/
def Position.text (p : Position) : String :=
  s!"{p.row}:{p.column}"

/-- The lines of a text, each with the line feed that ends it. -/
def lines : List Char → List (List Char)
  | [] => []
  | c :: cs =>
    if c = '\n' then [c] :: lines cs
    else
      match lines cs with
      | [] => [[c]]
      | line :: more => (c :: line) :: more

/-- Cutting a text into lines loses nothing. -/
theorem flatten_lines (cs : List Char) : (lines cs).flatten = cs := by
  induction cs with
  | nil => rfl
  | cons c cs ih =>
    unfold lines
    split
    · simp [ih]
    · split
      · rename_i h
        rw [h] at ih
        simp [← ih]
      · rename_i h
        rw [h] at ih
        simp [← ih]

end KernelHost.Text
