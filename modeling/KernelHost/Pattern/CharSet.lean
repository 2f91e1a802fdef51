import KernelHost.Text.CodeRange

/-!
# Sets of characters

Sets of characters as ranges of code points, and the operations on them.  The ranges of a set ascend
and leave gaps between each other, so that a set has one form only.
-/

namespace KernelHost

/-- A set of characters. -/
structure CharSet where
  /-- The ranges of code points, ascending and apart, both ends included. -/
  ranges : List (Nat × Nat)
  deriving DecidableEq, Repr

namespace CharSet

/-- The last code point. -/
def lastCode : Nat := 0x10FFFF

/-- No character. -/
def empty : CharSet := ⟨[]⟩

/-- Whether a set holds a character. -/
def contains (set : CharSet) (c : Char) : Bool :=
  Text.inRanges set.ranges c.toNat

/-- Adds the characters of a range. -/
def insert (set : CharSet) (low high : Nat) : CharSet :=
  ⟨Text.insertRange low high set.ranges⟩

/-- The set of some ranges, in any order. -/
def ofRanges (ranges : List (Nat × Nat)) : CharSet :=
  ranges.foldl (fun set (low, high) => set.insert low high) empty

/-- The characters from one to another. -/
def range (first last : Char) : CharSet :=
  ⟨[(first.toNat, last.toNat)]⟩

/-- The set with one character. -/
def single (c : Char) : CharSet :=
  range c c

/-- The characters of two sets. -/
def union (left right : CharSet) : CharSet :=
  right.ranges.foldl (fun set (low, high) => set.insert low high) left

/-- The characters outside of a set, up to a last code point. -/
def complement (set : CharSet) (last : Nat) : CharSet :=
  ⟨Text.gaps 0 last set.ranges⟩

/-- The characters that two sets share. -/
def intersection (left right : CharSet) : CharSet :=
  ofRanges (left.ranges.flatMap fun (a, b) =>
    (right.ranges.map fun (c, d) => (max a c, min b d)).filter fun (low, high) => low ≤ high)

/-- The characters of one set outside of another one. -/
def difference (left right : CharSet) : CharSet :=
  left.intersection (right.complement lastCode)

/-- Whether all characters of a set are ASCII. -/
def isAscii (set : CharSet) : Bool :=
  set.ranges.all fun (_, high) => high < 0x80

/-- A set with the other case of its ASCII letters. -/
def withBothCases (set : CharSet) : CharSet :=
  let shifted (first last : Nat) (shift : Nat → Nat) : CharSet :=
    let letters := set.intersection ⟨[(first, last)]⟩
    ofRanges (letters.ranges.map fun (low, high) => (shift low, shift high))
  (set.union (shifted 0x41 0x5A (· + 0x20))).union (shifted 0x61 0x7A (· - 0x20))

/-- The only character of a set. -/
def only? (set : CharSet) : Option Char :=
  match set.ranges with
  | [(low, high)] => if low = high then some (.ofNat low) else none
  | _ => none

/-- The classes of ASCII characters by their names. -/
def asciiClasses : List (String × List (Nat × Nat)) :=
  [("alnum", [(0x30, 0x39), (0x41, 0x5A), (0x61, 0x7A)]),
    ("alpha", [(0x41, 0x5A), (0x61, 0x7A)]), ("ascii", [(0x00, 0x7F)]),
    ("blank", [(0x09, 0x09), (0x20, 0x20)]), ("cntrl", [(0x00, 0x1F), (0x7F, 0x7F)]),
    ("digit", [(0x30, 0x39)]), ("graph", [(0x21, 0x7E)]), ("lower", [(0x61, 0x7A)]),
    ("print", [(0x20, 0x7E)]),
    ("punct", [(0x21, 0x2F), (0x3A, 0x40), (0x5B, 0x60), (0x7B, 0x7E)]),
    ("space", [(0x09, 0x0D), (0x20, 0x20)]), ("upper", [(0x41, 0x5A)]),
    ("word", [(0x30, 0x39), (0x41, 0x5A), (0x5F, 0x5F), (0x61, 0x7A)]),
    ("xdigit", [(0x30, 0x39), (0x41, 0x46), (0x61, 0x66)])]

/-- The class of ASCII characters with a name. -/
def asciiClass? (name : String) : Option CharSet :=
  (asciiClasses.lookup name).map CharSet.mk

end CharSet
end KernelHost
