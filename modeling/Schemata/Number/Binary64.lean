import Schemata.Number.Decimal

/-!
# Binary floating-point numbers of 64 bits

A value of the interchange format binary64, held as its bits. `=` compares bits. `==` is the
comparison of the standard: a NaN equals nothing and the two zeros are equal, so it is neither
reflexive nor lawful. `text` is the shortest positional decimal that reads back.
-/

namespace Schemata

/-- A binary64 value by its bit pattern; the payload of a NaN is kept. -/
structure Binary64 where
  bits : UInt64
  deriving DecidableEq, Repr

namespace Binary64

/-- The sign bit. -/
def isNegative (x : Binary64) : Bool := x.bits >>> 63 == 1

/-- The eleven bits of the biased exponent. -/
def biasedExponent (x : Binary64) : Nat := (x.bits >>> 52 &&& 0x7FF).toNat

/-- The fifty-two bits of the fraction. -/
def fraction (x : Binary64) : Nat := (x.bits &&& 0xFFFFFFFFFFFFF).toNat

def isNaN (x : Binary64) : Bool := x.biasedExponent == 2047 && x.fraction != 0

/-- Either zero. -/
def isZero (x : Binary64) : Bool := x.bits <<< 1 == 0

/-- Equality as the standard compares. -/
def equals (x y : Binary64) : Bool :=
  !x.isNaN && !y.isNaN && (x.bits == y.bits || (x.isZero && y.isZero))

instance : BEq Binary64 := ⟨equals⟩

/-- The bits with the two zeros identified. Unlike `equals` it identifies a NaN with itself, so it
can serve as a key. -/
def foldedBits (x : Binary64) : UInt64 :=
  if x.isZero then 0 else x.bits

/-- The magnitude of a finite value inside the interval of reals that round to it. The ends belong
to it when the significand is even. Below a power of two the next value is only half as far away as
above it, unless the exponent is the least. -/
def interval (x : Binary64) : Decimal.Interval :=
  let subnormal := x.biasedExponent == 0
  let significand := if subnormal then x.fraction else x.fraction + Nat.pow 2 52
  { low := 4 * significand - (if x.fraction == 0 && x.biasedExponent > 1 then 1 else 2)
    value := 4 * significand
    high := 4 * significand + 2
    closed := significand % 2 == 0
    exponent := (if subnormal then 1 else x.biasedExponent : Nat) - 1077 }

/-- The shortest decimal that reads back as the value, positionally and without a point if it is
whole. A NaN has no sign. -/
def text (x : Binary64) : String :=
  if x.isNaN then "NaN"
  else
    let magnitude :=
      if x.biasedExponent == 2047 then "inf"
      else if x.isZero then "0"
      else ((Decimal.shortest? x.interval 309 634).map Decimal.text).getD ""
    if x.isNegative then "-" ++ magnitude else magnitude

/-- The nearest number with at most fifty-three significant bits, the even one of two. -/
def roundSignificand (n : Nat) : Nat :=
  let shift := n.log2 - 52
  let unit := Nat.pow 2 shift
  let quotient := n / unit
  let twiceRest := 2 * (n % unit)
  let up := unit < twiceRest || (twiceRest == unit && quotient % 2 == 1)
  (if shift == 0 then n else if up then quotient + 1 else quotient) * unit

/-- Whether a whole number rounds to infinity. -/
def overflows (n : Nat) : Bool := Nat.pow 2 1024 ≤ roundSignificand n

end Binary64

end Schemata
