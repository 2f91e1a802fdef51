import KernelHost.Text.Numeral

/-!
# Real numerals

Decimal numerals with an optional sign, point and exponent, and the words for infinity and
not-a-number.  Reading keeps the number exact: a coefficient and a power of ten.
-/

namespace KernelHost.Text

/-- The number `coefficient * 10 ^ exponent`, negated if `negative` holds. -/
structure Decimal where
  /-- Whether a minus sign stands in front; zero keeps it. -/
  negative : Bool
  /-- All digits before the exponent, read as one integer. -/
  coefficient : Nat
  /-- The power of ten that places the point. -/
  exponent : Int
  deriving DecidableEq, Repr

/-- What a real numeral denotes. -/
inductive RealNumeral
  /-- A finite number. -/
  | decimal (value : Decimal)
  /-- Infinity with a sign. -/
  | infinite (negative : Bool)
  | nan
  deriving DecidableEq, Repr

/-- Reads the part after the mantissa: nothing, or `e` with a signed integer. -/
def exponent? : List Char → Option Int
  | [] => some 0
  | mark :: cs =>
    if mark == 'e' || mark == 'E' then
      match cs with
      | '-' :: ds => (digits? ds).map fun n => -(n : Int)
      | '+' :: ds => (digits? ds).map (↑·)
      | ds => (digits? ds).map (↑·)
    else none

/-- Reads digits with at most one point among them, then an exponent. -/
def unsignedDecimal? (negative : Bool) (cs : List Char) : Option Decimal :=
  let whole := cs.takeWhile Char.isDigit
  let rest := cs.dropWhile Char.isDigit
  let (fraction, rest) :=
    match rest with
    | '.' :: more => (more.takeWhile Char.isDigit, more.dropWhile Char.isDigit)
    | _ => ([], rest)
  if (whole ++ fraction).isEmpty then none
  else
    (exponent? rest).map fun e =>
      { negative, coefficient := ofDigits (whole ++ fraction), exponent := e - fraction.length }

/-- Reads a real numeral; the words `inf`, `infinity` and `nan` may be in any case. -/
def realNumeral? (s : String) : Option RealNumeral :=
  let (negative, cs) :=
    match s.toList with
    | '-' :: cs => (true, cs)
    | '+' :: cs => (false, cs)
    | cs => (false, cs)
  let word := String.ofList (cs.map Char.toLower)
  if word == "inf" || word == "infinity" then some (.infinite negative)
  else if word == "nan" then some .nan
  else (unsignedDecimal? negative cs).map .decimal

end KernelHost.Text
