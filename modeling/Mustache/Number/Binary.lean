/-!
# Finite binary floating-point numbers

A finite binary64 number is a sign and a magnitude, where the magnitude is the
number's place in ascending order among those without a sign, that is, its bits
read as a natural number.  The magnitude `f * 2 ^ 52 + r` with a field `f` above
zero stands for `(2 ^ 52 + r) * 2 ^ (f - 1075)`, and the magnitude `r` with
field zero for `r * 2 ^ (-1074)`.

All arithmetic is exact: a quotient of natural numbers is rounded once, to the
nearest number of a format, and to the one with an even magnitude when two are
equally near.
-/

namespace Mustache

/-- A binary floating-point format. -/
structure BinaryFormat where
  /-- The bits of the fraction. -/
  fractionBits : Nat
  /-- The number of exponent fields of finite numbers. -/
  fields : Nat
  /-- The unit of the smallest numbers is two to the minus this. -/
  lowest : Nat
deriving DecidableEq, Repr

namespace BinaryFormat

/-- The format with 64 bits. -/
def double : BinaryFormat :=
  ⟨52, 2047, 1074⟩

/-- The format with 32 bits. -/
def single : BinaryFormat :=
  ⟨23, 255, 149⟩

/-- The smallest magnitude that is not finite. -/
def infinity (format : BinaryFormat) : Nat :=
  format.fields * Nat.pow 2 format.fractionBits

/-- The significand and the power of two that a magnitude stands for. -/
def decode (format : BinaryFormat) (magnitude : Nat) : Nat × Int :=
  let field := magnitude / Nat.pow 2 format.fractionBits
  let fraction := magnitude % Nat.pow 2 format.fractionBits
  if field = 0 then
    (fraction, -(format.lowest : Int))
  else
    (Nat.pow 2 format.fractionBits + fraction,
      (field : Int) - 1 - format.lowest)

/--
The quotient of two natural numbers, rounded to the nearest, a half to the even
one.
-/
def roundQuotient (numerator denominator : Nat) : Nat :=
  let quotient := numerator / denominator
  let remainder := numerator % denominator
  if 2 * remainder > denominator ∨
      (2 * remainder = denominator ∧ quotient % 2 = 1) then
    quotient + 1
  else
    quotient

/-- The greatest power of two that does not exceed a positive quotient. -/
def quotientLog (numerator denominator : Nat) : Int :=
  let guess : Int := (numerator.log2 : Int) - denominator.log2
  let fits :=
    if 0 ≤ guess then
      denominator * Nat.pow 2 guess.toNat ≤ numerator
    else
      denominator ≤ numerator * Nat.pow 2 (-guess).toNat
  if fits then guess else guess - 1

/--
The magnitude nearest to a quotient of natural numbers, or nothing when that is
not finite.
-/
def ofQuotient?
    (format : BinaryFormat)
    (numerator denominator : Nat) : Option Nat :=
  if numerator = 0 then
    some 0
  else
    let exponent :=
      max (quotientLog numerator denominator - format.fractionBits)
        (-(format.lowest : Int))
    let significand :=
      if 0 ≤ exponent then
        roundQuotient numerator (denominator * Nat.pow 2 exponent.toNat)
      else
        roundQuotient (numerator * Nat.pow 2 (-exponent).toNat) denominator
    let magnitude :=
      (exponent + format.lowest).toNat * Nat.pow 2 format.fractionBits +
        significand
    if magnitude < format.infinity then some magnitude else none

/-- The magnitude nearest to a significand times a power of two. -/
def ofScaled?
    (format : BinaryFormat)
    (significand : Nat)
    (exponent : Int) : Option Nat :=
  if 0 ≤ exponent then
    format.ofQuotient? (significand * Nat.pow 2 exponent.toNat) 1
  else
    format.ofQuotient? significand (Nat.pow 2 (-exponent).toNat)

end BinaryFormat

/-- A finite number of the format with 64 bits. -/
structure Binary64 where
  negative : Bool
  magnitude : Nat
deriving DecidableEq, Repr, Inhabited

namespace Binary64

/-- Is this one of the two zeros? -/
def isZero (number : Binary64) : Bool :=
  number.magnitude == 0

/-- Equality as numbers: the two zeros are equal. -/
def same (first second : Binary64) : Bool :=
  first == second || (first.isZero && second.isZero)

/-- The significand and the power of two of the number without its sign. -/
def decode (number : Binary64) : Nat × Int :=
  BinaryFormat.double.decode number.magnitude

/-- The number nearest to a natural number. -/
def ofNat? (natural : Nat) : Option Binary64 :=
  (BinaryFormat.double.ofQuotient? natural 1).map (Binary64.mk false)

/--
Times a power of ten that was itself rounded to the format, rounded again.
-/
def timesPowerOfTen? (number : Binary64) (power : Nat) : Option Binary64 := do
  let (significand, exponent) := number.decode
  let factor ← ofNat? (Nat.pow 10 power)
  let (factorSignificand, factorExponent) := factor.decode
  let magnitude ←
    BinaryFormat.double.ofScaled? (significand * factorSignificand)
      (exponent + factorExponent)
  pure ⟨number.negative, magnitude⟩

/--
Divided by a power of ten that was itself rounded to the format, rounded again.
-/
def dividedByPowerOfTen?
    (number : Binary64)
    (power : Nat) : Option Binary64 := do
  let (significand, exponent) := number.decode
  let divisor ← ofNat? (Nat.pow 10 power)
  let (divisorSignificand, divisorExponent) := divisor.decode
  let difference := exponent - divisorExponent
  let magnitude ←
    if 0 ≤ difference then
      BinaryFormat.double.ofQuotient? (significand * Nat.pow 2 difference.toNat)
        divisorSignificand
    else
      BinaryFormat.double.ofQuotient? significand
        (divisorSignificand * Nat.pow 2 (-difference).toNat)
  pure ⟨number.negative, magnitude⟩

/--
The number nearest among those of the format with 32 bits, if it is finite
there.
-/
def toSingle? (number : Binary64) : Option Binary64 := do
  let (significand, exponent) := number.decode
  let single ← BinaryFormat.single.ofScaled? significand exponent
  let (significand, exponent) := BinaryFormat.single.decode single
  let magnitude ← BinaryFormat.double.ofScaled? significand exponent
  pure ⟨number.negative, magnitude⟩

end Binary64

end Mustache
