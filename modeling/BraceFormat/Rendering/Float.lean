import BraceFormat.Number.Decimal
import BraceFormat.Rendering.Integer

/-!
# Rendering floating-point numbers

The decimal digits of a number are laid out in one of three notations. `positional` puts the
digits around the point, `scientific` writes one digit before the point and then the
exponent, and `fixedPoint` has a fixed count of digits after the point.

| presentation | precision if none is given | notation                                           |
|--------------|----------------------------|----------------------------------------------------|
| none         | shortest                   | positional for exponents from -4 below 16, else `e`|
| none, `.p`   |                            | as `g`                                             |
| `e` `E`      | 6                          | scientific                                         |
| `f` `F`      | 6                          | fixed point                                        |
| `g` `G`      | 6                          | either by the exponent, without zeros at the end   |
| `%`          | 6                          | fixed point, of a hundred times the number         |
| `n`          |                            | as none, with the separators of the locale         |

Digits are generated for precisions up to `digitLimit`; asking for more cuts the call short.
-/

namespace BraceFormat

/-- The precision where none is given. -/
def defaultPrecision : Nat := 6

/-- The largest precision digits are generated for. -/
def digitLimit : Nat := 65535

namespace Decimal

/-- The digits with the point where the exponent puts it, and zeros where none are given. -/
def positional (d : Decimal) : List Char :=
  if d.exponent < 0 then
    ['0', '.'] ++ List.replicate (-d.exponent - 1).toNat '0' ++ d.digits
  else
    let whole := d.exponent.toNat + 1
    if d.digits.length ≤ whole then d.digits ++ List.replicate (whole - d.digits.length) '0'
    else d.digits.take whole ++ '.' :: d.digits.drop whole

/-- The digits with the point after the first one; a single digit is followed by `lone`. -/
def mantissa (d : Decimal) (lone : List Char) : List Char :=
  match d.digits with
  | [] => lone
  | [digit] => digit :: lone
  | digit :: rest => digit :: '.' :: rest

/-- The exponent with its letter and sign, and at least two digits. -/
def exponentMark (d : Decimal) (upper : Bool) : List Char :=
  let digits := Nat.toDigits 10 d.exponent.natAbs
  (if upper then 'E' else 'e') :: (if d.exponent < 0 then '-' else '+') ::
    (List.replicate (2 - digits.length) '0' ++ digits)

/-- The digits in scientific notation. -/
def scientific (d : Decimal) (lone : List Char) (upper : Bool) : List Char :=
  d.mantissa lone ++ d.exponentMark upper

end Decimal

/-- A numeral without the zeros at its end and without a point left there. -/
def withoutFinalZeros (numeral : List Char) : List Char :=
  let kept := numeral.reverse.dropWhile (· = '0')
  (if kept.head? = some '.' then kept.tail else kept).reverse

/-- The form of a numeral in general notation: with a point in its alternate form, otherwise
without zeros at the end of a fraction. -/
def generalDigits (alternate : Bool) (numeral : List Char) : List Char :=
  if alternate then
    if '.' ∈ numeral then numeral else numeral ++ ['.']
  else
    if '.' ∈ numeral then withoutFinalZeros numeral else numeral

/-- A number in general notation: `precision` digits, at least one, in scientific notation if
the exponent is below -4 or not below their count. -/
def generalForm (precision : Nat) (alternate upper : Bool) (q : Rat) : List Char :=
  let count := max 1 precision
  let d := Decimal.rounded count q
  if d.exponent < -4 ∨ (count : Int) ≤ d.exponent then
    generalDigits alternate (d.mantissa []) ++ d.exponentMark upper
  else generalDigits alternate d.positional

/-- A finite magnitude in its shortest form. -/
def shortestForm (alternate : Bool) (magnitude : Nat) : List Char :=
  let d := Decimal.shortest magnitude
  if -4 ≤ d.exponent ∧ d.exponent < 16 then
    let numeral := d.positional
    if alternate ∧ '.' ∉ numeral then numeral ++ ['.', '0'] else numeral
  else d.scientific (if alternate then ['.', '0'] else []) false

/-- A number with a fixed count of digits after the point; in its alternate form there is a
point also when there are none. -/
def fixedForm (precision : Nat) (alternate : Bool) (q : Rat) : List Char :=
  fixedPoint precision q ++ if alternate ∧ precision = 0 then ['.'] else []

/-- The word for a magnitude that is not finite. -/
def nonFiniteWord (nan upper : Bool) : List Char :=
  match nan, upper with
  | true, false => ['n', 'a', 'n']
  | true, true => ['N', 'A', 'N']
  | false, false => ['i', 'n', 'f']
  | false, true => ['I', 'N', 'F']

/-- A hundred times a finite magnitude, rounded to a magnitude, with a fixed count of digits
after the point. A product too large for a magnitude gives the word for infinity. -/
def percentForm (precision : Nat) (alternate : Bool) (magnitude : Nat) : List Char :=
  let product := Binary64.nearest (Binary64.absolute magnitude * 100)
  let body :=
    if product < Binary64.infinity then fixedForm precision alternate (Binary64.absolute product)
    else nonFiniteWord false false ++ if alternate ∧ precision = 0 then ['.'] else []
  body ++ ['%']

/-- Lets a text be computed only if no more digits are asked for than are generated. -/
def withinDigits (precision : Nat) (text : Unit → List Char) : Except Failure (List Char) :=
  if precision ≤ digitLimit then .ok (text ()) else .error .tooManyDigits

/-- The form of a finite magnitude where no presentation is given: shortest, or general if
there is a precision. -/
def plainForm (precision : Option Nat) (alternate : Bool) (magnitude : Nat) :
    Except Failure (List Char) :=
  match precision with
  | none => .ok (shortestForm alternate magnitude)
  | some p =>
    withinDigits (max 1 p - 1) fun _ => generalForm p alternate false (Binary64.absolute magnitude)

/-- Whether the letters of a presentation are in upper case. -/
def Presentation.isUpper : Presentation → Bool
  | .exponentUpper | .fixedUpper | .generalUpper => true
  | _ => false

/-- The text of a finite magnitude. Fails on a presentation that does not show floating-point
numbers. -/
def floatBody (d : Directive) (locale : Locale) (magnitude : Nat) : Except Failure (List Char) :=
  let q := Binary64.absolute magnitude
  let precision := d.precision.getD defaultPrecision
  match d.presentation with
  | none => plainForm d.precision d.alternate magnitude
  | some .locale => (plainForm d.precision d.alternate magnitude).map locale.localize
  | some .exponent | some .exponentUpper =>
    let upper := d.presentation.any Presentation.isUpper
    withinDigits precision fun _ =>
      (Decimal.rounded (precision + 1) q).scientific (if d.alternate then ['.'] else []) upper
  | some .fixed | some .fixedUpper =>
    withinDigits precision fun _ => fixedForm precision d.alternate q
  | some .general | some .generalUpper =>
    let upper := d.presentation.any Presentation.isUpper
    withinDigits (max 1 precision - 1) fun _ => generalForm precision d.alternate upper q
  | some .percent => withinDigits precision fun _ => percentForm precision d.alternate magnitude
  | some _ => .error (.error (.unplaced .unsupportedPresentation))

/-- The rendering of a floating-point number. The words for infinities and for no number are
never padded with zeros. -/
def Rendering.ofFloat (d : Directive) (locale : Locale) (v : Binary64) :
    Except Failure Rendering :=
  let lead := signText v.negative d.sign
  if v.isFinite then
    (floatBody d locale v.magnitude).map (ofDirective d .right lead)
  else
    let word := nonFiniteWord v.isNaN (d.presentation.any Presentation.isUpper)
    let body := if d.presentation = some .percent then word ++ ['%'] else word
    let d := if d.zeroPad then { d with fill := ' ', align := some .right } else d
    .ok (ofDirective d .right lead body)

end BraceFormat
