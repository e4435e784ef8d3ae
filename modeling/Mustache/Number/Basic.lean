import Mustache.Number.Binary

/-!
# Numbers

A number is an integer or a finite binary64 number, and the two never equal one
another.  Zero is falsy.  An integer is written in decimal, and a binary64
number as the shortest decimal that reads back.

Every finite number other than zero is the nearest one to all decimals in a
small interval around it.  Among the decimals in that interval `shortest` finds
one on the coarsest grid of powers of ten, the nearest to the number on that
grid, and the even one when two are equally near.
-/

namespace Mustache

/-! ## The shortest decimal that reads back -/

/-- A natural number times a power of ten. -/
structure Decimal where
  digits : Nat
  exponent : Int
deriving DecidableEq, Repr

namespace Binary64

/--
The decimals that read back as a number: four times its significand as `center`,
and the ends of the interval in the same unit, which belong to it when
`closed` holds.
-/
structure Interval where
  low : Nat
  center : Nat
  high : Nat
  closed : Bool
  /-- The power of two that is the unit. -/
  exponent : Int
deriving DecidableEq, Repr

/--
The interval of a number.  Below a power of two the numbers lie twice as dense.
-/
def interval (number : Binary64) : Interval :=
  let (significand, exponent) := number.decode
  let atPower :=
    number.magnitude % Nat.pow 2 52 == 0 && number.magnitude / Nat.pow 2 52 > 1
  { low := 4 * significand - if atPower then 1 else 2
    center := 4 * significand
    high := 4 * significand + 2
    closed := significand % 2 == 0
    exponent := exponent - 2 }

/--
A power with a possibly negative exponent, as a factor above and a factor below
the line.
-/
def power (base : Nat) (exponent : Int) : Nat × Nat :=
  if 0 ≤ exponent then
    (Nat.pow base exponent.toNat, 1)
  else
    (1, Nat.pow base (-exponent).toNat)

/--
The multiple of a power of ten that stands for a number within its interval, if
any does.
-/
def onGrid? (range : Interval) (exponent : Int) : Option Nat :=
  let (unitAbove, unitBelow) := power 2 range.exponent
  let (stepAbove, stepBelow) := power 10 exponent
  let unit := unitAbove * stepBelow
  let step := stepAbove * unitBelow
  let inside (multiple : Nat) : Bool :=
    if range.closed then
      range.low * unit ≤ multiple * step && multiple * step ≤ range.high * unit
    else
      range.low * unit < multiple * step && multiple * step < range.high * unit
  let below := range.center * unit / step
  let remainder := range.center * unit % step
  let belowFits := below != 0 && inside below
  let aboveFits := inside (below + 1)
  let belowPreferred :=
    2 * remainder < step || (2 * remainder == step && below % 2 == 0)
  if belowFits && (belowPreferred || !aboveFits) then some below
  else if aboveFits then some (below + 1)
  else none

/-- Search finer and finer grids. -/
def searchGrids (range : Interval) : Nat → Int → Decimal
  | 0, exponent => ⟨0, exponent⟩
  | budget + 1, exponent =>
    match onGrid? range exponent with
    | some digits => ⟨digits, exponent⟩
    | none => searchGrids range budget (exponent - 1)

/--
The shortest decimal that reads back as the number without its sign.  The first
grid tried is coarser than the number is large, and seventeen digits always
suffice, so twenty-four grids are enough.
-/
def shortest (number : Binary64) : Decimal :=
  let range := number.interval
  let bits : Int := (range.high.log2 : Int) + 1 + range.exponent
  let found := searchGrids range 24 (bits * 30103 / 100000 + 1)
  if found.digits % 10 = 0 then
    ⟨found.digits / 10, found.exponent + 1⟩
  else
    found

/-- The number of zeros that a place asks for. -/
def zeros (count : Int) : String :=
  "".pushn '0' count.toNat

/--
The written form: positional, with at least one digit after the point, from
0.00001 up to but not including 10 to the 16th, and with an exponent outside.
-/
def text (number : Binary64) : String :=
  let sign := if number.negative then "-" else ""
  if number.isZero then
    sign ++ "0.0"
  else
    let decimal := number.shortest
    let digits := toString decimal.digits
    let count : Int := digits.length
    let point := count + decimal.exponent
    if 0 ≤ decimal.exponent ∧ point ≤ 16 then
      sign ++ digits ++ zeros decimal.exponent ++ ".0"
    else if 0 < point ∧ point ≤ 16 then
      sign ++ digits.take point.toNat ++ "." ++ digits.drop point.toNat
    else if -5 < point ∧ point ≤ 0 then
      sign ++ "0." ++ zeros (-point) ++ digits
    else
      let fraction := if count = 1 then "" else "." ++ digits.drop 1
      let exponent :=
        if 0 < point then "+" ++ toString (point - 1) else toString (point - 1)
      sign ++ digits.take 1 ++ fraction ++ "e" ++ exponent

end Binary64

/-! ## Numbers in data -/

/-- A number in data. -/
inductive Number where
  | int (value : Int)
  | float (value : Binary64)
deriving DecidableEq, Repr

namespace Number

/-- Equality as numbers, within the integers and within the binary64 numbers. -/
def same : Number → Number → Bool
  | int first, int second => first == second
  | float first, float second => first.same second
  | int _, float _ | float _, int _ => false

/-- Every number but zero is truthy. -/
def isTruthy : Number → Bool
  | int value => value != 0
  | float value => !value.isZero

/-- The nearest binary64 number. -/
def toBinary64? : Number → Option Binary64
  | int value =>
    (Binary64.ofNat? value.natAbs).map fun found => ⟨value < 0, found.magnitude⟩
  | float value => some value

/-- The written form. -/
def text : Number → String
  | int value => toString value
  | float value => value.text

end Number

end Mustache
