import BraceFormat.Rendering.Text

/-!
# Rendering integers

An integer is written as a sign, a base marker if the alternate form is asked for, and the
digits of its absolute value in the base. It may also be shown as the character whose code it
is. The digits are grouped by the locale only in the presentation that asks for it.
-/

namespace BraceFormat

/-- The sign in front of a number. -/
def signText (negative : Bool) (sign : Sign) : List Char :=
  match negative, sign with
  | true, _ => ['-']
  | false, .plus => ['+']
  | false, .space => [' ']
  | false, .minus => []

/-- The character with a given code, if there is one. -/
def charOfCode? (n : Int) : Option Char :=
  if h : 0 ≤ n ∧ n.toNat.isValidChar then some (Char.ofNatAux n.toNat h.2) else none

/-- The marker in front of the digits of a number in its alternate form. Zero has none in base
eight. -/
def baseMarker (presentation : Option Presentation) (n : Int) : List Char :=
  match presentation with
  | some .binary => ['0', 'b']
  | some .binaryUpper => ['0', 'B']
  | some .octal => if n = 0 then [] else ['0']
  | some .hex => ['0', 'x']
  | some .hexUpper => ['0', 'X']
  | _ => []

/-- The digits of a number as a presentation shows them, if it shows integers by digits. -/
def integerDigits (presentation : Option Presentation) (locale : Locale) (n : Nat) :
    Option (List Char) :=
  match presentation with
  | none | some .decimal => some (Nat.toDigits 10 n)
  | some .locale => some (locale.group (Nat.toDigits 10 n))
  | some .binary | some .binaryUpper => some (Nat.toDigits 2 n)
  | some .octal => some (Nat.toDigits 8 n)
  | some .hex => some (Nat.toDigits 16 n)
  | some .hexUpper => some ((Nat.toDigits 16 n).map Char.toUpper)
  | _ => none

/-- The rendering of an integer. Fails if it is to be shown as a character and is not the code
of one, and on a presentation that does not show integers. -/
def Rendering.ofInteger (d : Directive) (locale : Locale) (n : Int) :
    Except FormatError Rendering :=
  match d.presentation with
  | some .char =>
    match charOfCode? n with
    | some c => .ok (ofChar d c)
    | none => .error (.unplaced .invalidSpecifier)
  | presentation =>
    match integerDigits presentation locale n.natAbs with
    | some digits =>
      let marker := if d.alternate then baseMarker presentation n else []
      .ok (ofDirective d .right (signText (n < 0) d.sign ++ marker) digits)
    | none => .error (.unplaced .unsupportedPresentation)

end BraceFormat
