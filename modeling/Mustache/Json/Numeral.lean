import Mustache.Json.Basic

/-!
# Decimal numerals

A numeral is a number as structured data writes it: a sign, digits, digits after
a point, and a power of ten.  It can be read as a number in two ways, which
agree on integers other than minus zero that fit 64 bits, with or without sign.

The first way takes a significand of at most 64 bits, the digits beyond it only
counted, times or divided by a power of ten.  Each of the two steps rounds once,
so the result can differ in its last bit from the nearest binary64 number.  The
second way finds that nearest number.
-/

namespace Mustache

/-- A number as it is written. -/
structure Numeral where
  negative : Bool
  /-- The digits before the point, the most significant one first. -/
  whole : List Nat
  /-- The digits after the point; a numeral without a point has none. -/
  fraction : List Nat
  exponent : Option Int
deriving DecidableEq, Repr

namespace Numeral

/-- The value of a decimal digit. -/
def digitValue? (character : Char) : Option Nat :=
  if '0' ≤ character ∧ character ≤ '9' then
    some (character.toNat - '0'.toNat)
  else
    none

/-- The digits at the head of a text, and the rest. -/
def spanDigits (text : List Char) : List Nat × List Char :=
  ((text.takeWhile fun character => (digitValue? character).isSome).filterMap
      digitValue?,
    text.dropWhile fun character => (digitValue? character).isSome)

/-- The natural number that digits stand for. -/
def ofDigits (digits : List Nat) : Nat :=
  digits.foldl (fun value digit => value * 10 + digit) 0

/-! ## The written form -/

/-- Read the digits after a point, if there is one. -/
def readFraction? (text : List Char) : Option (List Nat × List Char) :=
  match text with
  | '.' :: rest =>
    match spanDigits rest with
    | ([], _) => none
    | digitsAndRest => some digitsAndRest
  | _ => some ([], text)

/-- Read the exponent after its letter. -/
def readSignedExponent? (text : List Char) : Option (Int × List Char) :=
  let (negative, digitsAndRest) :=
    match text with
    | '+' :: rest => (false, rest)
    | '-' :: rest => (true, rest)
    | _ => (false, text)
  match spanDigits digitsAndRest with
  | ([], _) => none
  | (digits, rest) =>
    let exponent : Int := ofDigits digits
    some (if negative then -exponent else exponent, rest)

/-- Read the exponent, if there is one. -/
def readExponent? (text : List Char) : Option (Option Int × List Char) :=
  match text with
  | 'e' :: rest | 'E' :: rest =>
    (readSignedExponent? rest).map fun (exponent, rest) => (some exponent, rest)
  | _ => some (none, text)

/--
Read a numeral.  Of several digits before the point the first one is not zero.
-/
def read? (text : List Char) : Option (Numeral × List Char) :=
  let (negative, unsigned) :=
    match text with
    | '-' :: rest => (true, rest)
    | _ => (false, text)
  match spanDigits unsigned with
  | ([], _) | (0 :: _ :: _, _) => none
  | (whole, rest) => do
    let (fraction, rest) ← readFraction? rest
    let (exponent, rest) ← readExponent? rest
    pure (⟨negative, whole, fraction, exponent⟩, rest)

/-- Is there neither a point nor an exponent? -/
def isWhole (numeral : Numeral) : Bool :=
  numeral.fraction.isEmpty && numeral.exponent.isNone

/-! ## Rounded in two steps -/

/-- The greatest integer without sign that stays an integer. -/
def maxUnsigned : Nat :=
  Nat.pow 2 64 - 1

/-- The least integer that stays an integer lies this far below zero. -/
def maxNegated : Nat :=
  Nat.pow 2 63

/--
Append digits to a significand as long as it fits 64 bits.  The answer holds the
number of digits that went in and the number that did not.
-/
def appendDigits (significand taken : Nat) : List Nat → Nat × Nat × Nat
  | [] => (significand, taken, 0)
  | digit :: rest =>
    if significand * 10 + digit ≤ maxUnsigned then
      appendDigits (significand * 10 + digit) (taken + 1) rest
    else
      (significand, taken, rest.length + 1)

/--
A significand scaled by a power of ten.  The powers up to the 308th are factors
of their own; a smaller scale is reached in steps.
-/
def scale? (significand : Binary64) : Nat → Int → Option Binary64
  | 0, _ => some ⟨significand.negative, 0⟩
  | budget + 1, exponent =>
    if significand.isZero then
      some significand
    else if 0 ≤ exponent then
      if exponent ≤ 308 then
        significand.timesPowerOfTen? exponent.toNat
      else
        none
    else if -308 ≤ exponent then
      significand.dividedByPowerOfTen? (-exponent).toNat
    else do
      let smaller ← significand.dividedByPowerOfTen? 308
      scale? smaller budget (exponent + 308)

/-- An integer, or the binary64 number nearest to it where it does not fit. -/
def integer? (negative : Bool) (significand : Nat) : Option Number :=
  if negative then
    if significand = 0 ∨ maxNegated < significand then do
      let rounded ← Binary64.ofNat? significand
      pure (.float ⟨true, rounded.magnitude⟩)
    else
      some (.int (-(significand : Int)))
  else
    some (.int significand)

/--
The number that a numeral stands for, rounded in two steps where it is no
integer that fits; minus zero is a binary64 number.
-/
def scaled? (numeral : Numeral) : Option Number :=
  let (significand, _, dropped) := appendDigits 0 0 numeral.whole
  if numeral.isWhole ∧ dropped = 0 then
    integer? numeral.negative significand
  else do
    let (significand, taken, _) := appendDigits significand 0 numeral.fraction
    let exponent := numeral.exponent.getD 0 + (dropped : Int) - taken
    let scaled ← scale? (← Binary64.ofNat? significand) 4 exponent
    pure (.float ⟨numeral.negative, scaled.magnitude⟩)

/-! ## Rounded once -/

/--
The magnitude of the binary64 number nearest to digits times a power of ten.
-/
def nearestMagnitude? (digits : List Nat) (exponent : Int) : Option Nat :=
  let significand := ofDigits digits
  if significand = 0 ∨ digits.length + exponent < -400 then
    some 0
  else if 400 < exponent then
    none
  else if 0 ≤ exponent then
    BinaryFormat.double.ofQuotient? (significand * Nat.pow 10 exponent.toNat) 1
  else
    BinaryFormat.double.ofQuotient? significand (Nat.pow 10 (-exponent).toNat)

/--
The number that a numeral stands for, rounded once where it is no integer that
fits; minus zero is the integer zero.
-/
def nearest? (numeral : Numeral) : Option Number :=
  let whole := ofDigits numeral.whole
  if numeral.isWhole ∧
      whole ≤ (if numeral.negative then maxNegated else maxUnsigned) then
    some (.int (if numeral.negative then -(whole : Int) else whole))
  else do
    let magnitude ← nearestMagnitude? (numeral.whole ++ numeral.fraction)
      (numeral.exponent.getD 0 - numeral.fraction.length)
    pure (.float ⟨numeral.negative, magnitude⟩)

end Numeral

end Mustache
