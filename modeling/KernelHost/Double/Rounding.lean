import KernelHost.Double.Basic
import KernelHost.Text.Decimal

/-!
# Rounding to doubles

One function, `Double.Datum.rounded`, rounds a quotient of steps to the nearest double, a tie to the
one with an even significand.  The difference of two doubles and the reading of decimal numerals
are exact up to that single rounding.
-/

namespace KernelHost.Double

/-- The quotient rounded to the nearest integer, a tie to the even one. -/
def nearestEven (num den : Nat) : Nat :=
  let q := num / den
  let r := num % den
  if 2 * r < den then q
  else if den < 2 * r then q + 1
  else if q % 2 = 0 then q else q + 1

/-- The first number of steps that is beyond every finite double. -/
def overflowSteps : Nat :=
  twoTo 2098

namespace Datum

/-- Rounds `num / den` steps to a significand of 53 bits; beyond the last double is infinity. -/
def rounded (negative : Bool) (num den : Nat) : Datum :=
  let shift := (num / den).log2 - 52
  let steps := nearestEven num (den * twoTo shift) * twoTo shift
  if steps < overflowSteps then .finite negative steps else .infinite negative

/-- The rounded difference; it has no sign when it is an exact zero of unlike operands. -/
def sub : Datum → Datum → Datum
  | .nan, _ | _, .nan => .nan
  | .infinite m, .infinite n => if m == n then .nan else .infinite m
  | .infinite m, .finite _ _ => .infinite m
  | .finite _ _, .infinite n => .infinite !n
  | .finite m a, .finite n b =>
    let difference := signedSteps m a - signedSteps n b
    if difference = 0 then .finite (m && !n && a == 0) 0
    else rounded (difference < 0) difference.natAbs 1

end Datum

/-- The difference, rounded once. -/
def sub (x y : Double) : Double :=
  ofDatum (x.datum.sub y.datum)

/-- The double nearest to a decimal number; too large is infinite and too small is zero. -/
def ofDecimal (d : Text.Decimal) : Double :=
  let magnitude := (Nat.toDigits 10 d.coefficient).length + d.exponent
  ofDatum <|
    if d.coefficient = 0 || magnitude < -330 then .finite d.negative 0
    else if 310 < magnitude then .infinite d.negative
    else if 0 ≤ d.exponent then
      .rounded d.negative (d.coefficient * tenTo d.exponent.toNat * twoTo 1074) 1
    else .rounded d.negative (d.coefficient * twoTo 1074) (tenTo (-d.exponent).toNat)

/-- The double that a real numeral denotes. -/
def ofNumeral : Text.RealNumeral → Double
  | .decimal d => ofDecimal d
  | .infinite negative => ofDatum (.infinite negative)
  | .nan => ofDatum .nan

end KernelHost.Double
