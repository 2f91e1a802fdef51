import KernelHost.Power

/-!
# Integer numerals

Decimal integers as attributes hold them: an optional sign, at least one ASCII digit and nothing
else.  A numeral outside the range that the reader asks for is refused.  Code points may be written
with hexadecimal digits.
-/

namespace KernelHost.Text

/-- The number that a list of ASCII digits denotes. -/
def ofDigits (cs : List Char) : Nat :=
  cs.foldl (fun n c => 10 * n + (c.toNat - '0'.toNat)) 0

/-- Whether a character is a hexadecimal digit. -/
def isHexDigit (c : Char) : Bool :=
  c.isDigit || ('a' ≤ c && c ≤ 'f') || ('A' ≤ c && c ≤ 'F')

/-- The value of a hexadecimal digit. -/
def hexValue (c : Char) : Nat :=
  if c.isDigit then c.toNat - '0'.toNat
  else if 'a' ≤ c then c.toNat - 'a'.toNat + 10
  else c.toNat - 'A'.toNat + 10

/-- The number that digits of the given base denote. -/
def ofBase (base : Nat) (cs : List Char) : Nat :=
  cs.foldl (fun n c => base * n + hexValue c) 0

/-- Reads a non-empty list of ASCII digits. -/
def digits? (cs : List Char) : Option Nat :=
  if !cs.isEmpty && cs.all Char.isDigit then some (ofDigits cs) else none

/-- Reads an unsigned numeral, with or without `+`, of at most `width` bits. -/
def natural? (width : Nat) (s : String) : Option Nat :=
  let magnitude :=
    match s.toList with
    | '+' :: cs => digits? cs
    | cs => digits? cs
  magnitude.filter (· < twoTo width)

/-- Reads a signed numeral of at most `width` bits in two's complement. -/
def integer? (width : Nat) (s : String) : Option Int :=
  let value : Option Int :=
    match s.toList with
    | '-' :: cs => (digits? cs).map fun n => -(n : Int)
    | '+' :: cs => (digits? cs).map (↑·)
    | cs => (digits? cs).map (↑·)
  let limit : Int := twoTo (width - 1)
  value.filter fun n => -limit ≤ n && n < limit

end KernelHost.Text
