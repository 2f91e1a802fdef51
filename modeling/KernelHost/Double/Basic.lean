import KernelHost.Power

/-!
# Doubles

The IEEE binary64 format.  Every finite double is a whole number of steps of `2 ^ (-1074)`, the
smallest positive double, so order is the order of integers and a difference is exact before it is
rounded.  `Double.datum` reads a bit pattern, and `Double.ofDatum` writes one.
-/

namespace KernelHost

/-- A binary64 number, held as its bit pattern. -/
structure Double where
  /-- Sign, exponent and fraction fields. -/
  bits : UInt64
  deriving DecidableEq, Repr

namespace Double

/-- What a bit pattern stands for. -/
inductive Datum
  | nan
  /-- Infinity with a sign. -/
  | infinite (negative : Bool)
  /-- A finite number: so many steps of `2 ^ (-1074)`, negated if `negative` holds. -/
  | finite (negative : Bool) (steps : Nat)
  deriving DecidableEq, Repr

/-- The exponent field. -/
def exponentField (x : Double) : Nat :=
  x.bits.toNat / twoTo 52 % twoTo 11

/-- The fraction field. -/
def fractionField (x : Double) : Nat :=
  x.bits.toNat % twoTo 52

/-- The sign bit. -/
def signBit (x : Double) : Bool :=
  twoTo 63 ≤ x.bits.toNat

/-- Reads a bit pattern. -/
def datum (x : Double) : Datum :=
  if x.exponentField = 2047 then
    if x.fractionField = 0 then .infinite x.signBit else .nan
  else if x.exponentField = 0 then .finite x.signBit x.fractionField
  else .finite x.signBit ((twoTo 52 + x.fractionField) * twoTo (x.exponentField - 1))

/-- The pattern with the given fields. -/
def ofFields (negative : Bool) (exponent fraction : Nat) : Double where
  bits := ((if negative then twoTo 63 else 0) + exponent * twoTo 52 + fraction).toUInt64

/-- Writes a datum; the steps of a finite one are taken to be those of a double. -/
def ofDatum : Datum → Double
  | .nan => ofFields false 2047 (twoTo 51)
  | .infinite negative => ofFields negative 2047 0
  | .finite negative steps =>
    if steps < twoTo 52 then ofFields negative 0 steps
    else
      let shift := steps.log2 - 52
      ofFields negative (shift + 1) (steps / twoTo shift - twoTo 52)

/-- Whether a double is neither infinite nor not-a-number. -/
def isFinite (x : Double) : Bool :=
  match x.datum with
  | .finite _ _ => true
  | _ => false

namespace Datum

/-- The signed number of steps of a finite datum. -/
def signedSteps (negative : Bool) (steps : Nat) : Int :=
  if negative then -(steps : Int) else steps

/-- The order of the extended real line; not-a-number is below nothing and above nothing. -/
def below : Datum → Datum → Bool
  | .nan, _ | _, .nan => false
  | .infinite m, .infinite n => m && !n
  | .infinite m, .finite _ _ => m
  | .finite _ _, .infinite n => !n
  | .finite m a, .finite n b => signedSteps m a < signedSteps n b

/-- Equality of numbers: the two zeros are equal, and not-a-number equals nothing. -/
def same : Datum → Datum → Bool
  | .nan, _ | _, .nan => false
  | .infinite m, .infinite n => m == n
  | .finite m a, .finite n b => signedSteps m a == signedSteps n b
  | _, _ => false

end Datum

/-- Whether the first number is below the second. -/
def below (x y : Double) : Bool :=
  x.datum.below y.datum

/-- Whether two doubles are the same number. -/
def same (x y : Double) : Bool :=
  x.datum.same y.datum

end Double
end KernelHost
