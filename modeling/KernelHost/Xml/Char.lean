import KernelHost.Text.CodeRange

/-!
# Characters of XML

Which characters a document may hold, and which of them make up names.
-/

namespace KernelHost.Xml

/-- Whether a character separates the parts of a tag. -/
def isSpace (c : Char) : Bool :=
  c == ' ' || c == '\t' || c == '\r' || c == '\n'

/-- Whether a document may hold a character. -/
def isXmlChar (c : Char) : Bool :=
  if c.toNat < 0x20 then isSpace c else c.toNat != 0xFFFE && c.toNat != 0xFFFF

/-- The ranges of the characters that may begin a name, both ends included. -/
def nameStartRanges : List (Nat × Nat) :=
  [(0x41, 0x5A), (0x61, 0x7A), (0x3A, 0x3A), (0x5F, 0x5F), (0xC0, 0xD6), (0xD8, 0xF6),
    (0xF8, 0x2FF), (0x370, 0x37D), (0x37F, 0x1FFF), (0x200C, 0x200D), (0x2070, 0x218F),
    (0x2C00, 0x2FEF), (0x3001, 0xD7FF), (0xF900, 0xFDCF), (0xFDF0, 0xFFFD), (0x10000, 0xEFFFF)]

/-- The ranges of the characters that may stand inside a name only. -/
def nameInnerRanges : List (Nat × Nat) :=
  [(0x30, 0x39), (0x2D, 0x2E), (0xB7, 0xB7), (0x300, 0x36F), (0x203F, 0x2040)]

/-- Whether a character may begin a name. -/
def isNameStart (c : Char) : Bool :=
  Text.inRanges nameStartRanges c.toNat

/-- Whether a character may stand inside a name. -/
def isNameChar (c : Char) : Bool :=
  isNameStart c || Text.inRanges nameInnerRanges c.toNat

/-- The character whose number is the first byte of the UTF-8 form of `c`. -/
def leadByte (c : Char) : Char :=
  let n := c.toNat
  if n < 0x80 then c
  else if n < 0x800 then .ofNat (0xC0 + n / 0x40)
  else if n < 0x10000 then .ofNat (0xE0 + n / 0x1000)
  else .ofNat (0xF0 + n / 0x40000)

end KernelHost.Xml
