import BraceFormat.Number.Binary64

/-!
# Decimal digits of a number

A `Decimal` is a run of significant digits together with the power of ten of the first one.
Two of them are chosen for a number that is not negative: `rounded` gives a fixed count of
digits, correctly rounded with a half going to the even neighbour; `shortest` gives the
fewest digits that still read back as a given floating-point number, and of those the ones
nearest to it. `fixedPoint` gives a fixed count of digits after the point.

All arithmetic is exact.
-/

namespace BraceFormat

/-- Significant decimal digits, and the power of ten of the first of them. -/
structure Decimal where
  /-- The digits, most significant first. -/
  digits : List Char
  /-- The power of ten of the first digit. -/
  exponent : Int
  deriving DecidableEq, Repr

namespace Decimal

/-- The number that is written as `digits`, an integer, times a power of ten. -/
def value (d : Decimal) : Rat :=
  Nat.ofDigitChars 10 d.digits 0 * (10 : Rat) ^ (d.exponent + 1 - d.digits.length)

/-- The exponent of the power of ten at or next below a positive rational number. -/
def decimalExponent (q : Rat) : Int :=
  if 1 ≤ q then ((Nat.toDigits 10 q.floor.toNat).length : Int) - 1
  else -((Nat.toDigits 10 ((q.den - 1) / q.num.toNat)).length : Int)

/-- The power of ten, up to a given one, beyond which scaling adds nothing but zeros to the
digits of a number: a fraction over a power of two is an integer after that many tenfolds. -/
def usefulPower (q : Rat) (power : Int) : Int :=
  if q.den = 1 <<< q.den.log2 then min power q.den.log2 else power

/-- The digits of a number times a power of ten, rounded to an integer. -/
def scaledDigits (q : Rat) (power : Int) : List Char :=
  let useful := usefulPower q power
  Nat.toDigits 10 (roundHalfEven (q * (10 : Rat) ^ useful)).toNat ++
    List.replicate (power - useful).toNat '0'

/-- The `count` most significant digits of a number that is not negative, correctly rounded.
Zero has `count` digits `0`. -/
def rounded (count : Nat) (q : Rat) : Decimal :=
  if q ≤ 0 then ⟨List.replicate count '0', 0⟩
  else
    let e := decimalExponent q
    let digits := scaledDigits q ((count : Int) - 1 - e)
    if digits.length ≤ count then ⟨digits, e⟩ else ⟨digits.take count, e + 1⟩

/-- The digits of an integer times a power of ten, without the zeros at their end. -/
def ofScaled (n : Nat) (power : Int) : Decimal :=
  let digits := Nat.toDigits 10 n
  let kept := (digits.reverse.dropWhile (· = '0')).reverse
  ⟨if kept = [] then ['0'] else kept, power + digits.length - 1⟩

/-- Whether an integer times a power of ten reads back as a given magnitude. -/
def readsBack (magnitude n : Nat) (power : Int) : Bool :=
  Binary64.nearest (n * (10 : Rat) ^ power) = magnitude

/-- Of the two decimals around a number that have `count` digits, the one that reads back as
the magnitude: the nearer if both do, the upper one if they are equally near. -/
def candidate (magnitude count : Nat) : Option Decimal :=
  let q := Binary64.absolute magnitude
  let power := decimalExponent q + 1 - count
  let scaled := q / (10 : Rat) ^ power
  let low := scaled.floor.toNat
  let part := scaled - low
  match readsBack magnitude low power, readsBack magnitude (low + 1) power with
  | true, false => some (ofScaled low power)
  | false, true => some (ofScaled (low + 1) power)
  | true, true => some (ofScaled (if part < 1 / 2 then low else low + 1) power)
  | false, false => none

/-- The first candidate with `count` digits or more, within `fuel` further counts. -/
def firstCandidate (magnitude : Nat) : Nat → Nat → Decimal
  | 0, count => rounded count (Binary64.absolute magnitude)
  | fuel + 1, count =>
    match candidate magnitude count with
    | some d => d
    | none => firstCandidate magnitude fuel (count + 1)

/-- More digits than the exact value of any finite number has. -/
def exactDigits : Nat := 1400

/-- The fewest digits that read back as a finite magnitude, and of those the nearest ones. -/
def shortest (magnitude : Nat) : Decimal :=
  if magnitude = 0 then ⟨['0'], 0⟩ else firstCandidate magnitude exactDigits 1

end Decimal

/-- A number that is not negative with `places` digits after the point, correctly rounded;
there is no point when there are no places. -/
def fixedPoint (places : Nat) (q : Rat) : List Char :=
  let digits := Decimal.scaledDigits q places
  let padded := List.replicate (places + 1 - digits.length) '0' ++ digits
  let whole := padded.length - places
  if places = 0 then padded else padded.take whole ++ '.' :: padded.drop whole

end BraceFormat
