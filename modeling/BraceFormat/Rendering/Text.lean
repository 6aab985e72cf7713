import BraceFormat.Rendering.Basic
import BraceFormat.Text.Utf8

/-!
# Rendering text and addresses

Text is cut to the precision, which counts bytes, and aligned to the left. An address is
written with all its digits and aligned to the right.
-/

namespace BraceFormat

/-- A text cut to a precision, if there is one. -/
def truncated : Option Nat → List Char → List Char
  | none, text => text
  | some limit, text => fitting limit text

namespace Rendering

/-- The rendering of a text. -/
def ofText (d : Directive) (text : List Char) : Rendering :=
  ofDirective d .left [] (truncated d.precision text)

/-- The rendering of a character as itself. -/
def ofChar (d : Directive) (c : Char) : Rendering :=
  ofDirective d .left [] [c]

/-- The rendering of a truth value as a word. -/
def ofBool (d : Directive) (value : Bool) : Rendering :=
  ofDirective d .left [] <|
    if value then ['t', 'r', 'u', 'e'] else ['f', 'a', 'l', 's', 'e']

/-- The sixteen hexadecimal digits of an address. -/
def addressDigits (address : UInt64) : List Char :=
  let digits := Nat.toDigits 16 address.toNat
  List.replicate (16 - digits.length) '0' ++ digits

/-- The rendering of an address. -/
def ofAddress (d : Directive) (address : UInt64) : Rendering :=
  ofDirective d .right ['0', 'x'] (addressDigits address)

/-- The rendering of a text that is given by bytes, or of its address. -/
def ofByteText (d : Directive) (text : ByteText) : Rendering :=
  match d.presentation with
  | some .pointer => ofAddress d text.address
  | _ => ofText d (Utf8.decodeLossy text.bytes)

end Rendering

end BraceFormat
