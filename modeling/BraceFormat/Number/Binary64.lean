import BraceFormat.Number.Rounding

/-!
# Binary floating-point numbers

A `Binary64` is given by its 64 bits: a sign, eleven bits of exponent and 52 of fraction.
Without its sign the pattern is its `magnitude`, and the magnitudes are ordered as the
numbers they stand for, with the infinity above the finite ones and the patterns that are
not a number above that. `absolute` is the rational number a finite magnitude stands for, and
`nearest` the magnitude nearest to a rational number.
-/

namespace BraceFormat

/-- A binary floating-point number of 64 bits. -/
structure Binary64 where
  /-- The bit pattern, the sign in the highest bit. -/
  bits : UInt64
  deriving DecidableEq, Repr

namespace Binary64

/-- The significand bit that the pattern leaves out. It is also the step of the exponent. -/
abbrev hidden : Nat := 0x10000000000000

/-- The magnitude of the infinities. -/
def infinity : Nat := 0x7FF0000000000000

/-- Whether the sign bit is set, that of a zero or of no number included. -/
def negative (v : Binary64) : Bool :=
  0x8000000000000000 ≤ v.bits.toNat

/-- The bit pattern without the sign. -/
def magnitude (v : Binary64) : Nat :=
  v.bits.toNat % 0x8000000000000000

/-- The pattern with a given sign and magnitude. -/
def ofMagnitude (negative : Bool) (magnitude : Nat) : Binary64 :=
  ⟨UInt64.ofNat ((if negative then 0x8000000000000000 else 0) + magnitude)⟩

/-- Whether the pattern stands for a number other than an infinity. -/
def isFinite (v : Binary64) : Bool :=
  v.magnitude < infinity

/-- Whether the pattern stands for no number. -/
def isNaN (v : Binary64) : Bool :=
  infinity < v.magnitude

/-- The integer significand of a finite magnitude. -/
def significand (magnitude : Nat) : Nat :=
  if magnitude < hidden then magnitude else hidden + magnitude % hidden

/-- The power of two that the significand of a finite magnitude is scaled by. -/
def scale (magnitude : Nat) : Int :=
  max 1 (magnitude / hidden : Nat) - 1075

/-- The absolute value that a finite magnitude stands for. -/
def absolute (magnitude : Nat) : Rat :=
  significand magnitude * (2 : Rat) ^ scale magnitude

/-- The exponent of the power of two at or next below a positive rational number. -/
def binaryExponent (q : Rat) : Int :=
  let guess : Int := (q.num.toNat.log2 : Int) - q.den.log2
  if (2 : Rat) ^ guess ≤ q then guess else guess - 1

/-- The magnitude nearest to a rational number that is not negative, the even one of two
equally near; numbers too large go to the infinity. -/
def nearest (q : Rat) : Nat :=
  if q ≤ 0 then 0
  else
    let e := max (binaryExponent q - 52) (-1074)
    min infinity ((e + 1074).toNat * hidden + (roundHalfEven (q / (2 : Rat) ^ e)).toNat)

end Binary64

/-- A binary floating-point number of 32 bits. -/
structure Binary32 where
  /-- The bit pattern, the sign in the highest bit. -/
  bits : UInt32
  deriving DecidableEq, Repr

namespace Binary32

/-- The significand bit that the pattern leaves out. It is also the step of the exponent. -/
abbrev hidden : Nat := 0x800000

/-- The magnitude of the infinities. -/
def infinity : Nat := 0x7F800000

/-- Whether the sign bit is set. -/
def negative (v : Binary32) : Bool :=
  0x80000000 ≤ v.bits.toNat

/-- The bit pattern without the sign. -/
def magnitude (v : Binary32) : Nat :=
  v.bits.toNat % 0x80000000

/-- The absolute value that a finite magnitude stands for. -/
def absolute (magnitude : Nat) : Rat :=
  let significand := if magnitude < hidden then magnitude else hidden + magnitude % hidden
  significand * (2 : Rat) ^ ((max 1 (magnitude / hidden : Nat) : Int) - 150)

/-- The same number with 64 bits. Infinities keep their sign; a pattern that is no number
keeps its sign and its fraction, and is a quiet one. -/
def toBinary64 (v : Binary32) : Binary64 :=
  .ofMagnitude v.negative <|
    if v.magnitude < infinity then Binary64.nearest (absolute v.magnitude)
    else if v.magnitude = infinity then Binary64.infinity
    else Binary64.infinity + ((v.magnitude % hidden) ||| 0x400000) * 0x20000000

end Binary32

end BraceFormat
