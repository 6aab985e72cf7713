import BraceFormat.Argument

/-!
# Directives

A `Directive` is a specifier whose references have been looked up: it says completely how a
value is to be rendered. `Specifier.resolve` makes it, `Directive.check` tells whether it is
legal for arguments of a kind. Values of the host are not checked, their handler owns the
specifier.
-/

namespace BraceFormat

/-- What a rendering is asked to look like. Where the zero flag is in effect, the fill is the
digit zero and the alignment numeric; next to an explicit alignment the flag has no effect. -/
structure Directive where
  fill : Char := ' '
  /-- The alignment asked for; the default depends on the value. -/
  align : Option Align := none
  sign : Sign := .minus
  /-- The flag `#` is written. -/
  alternate : Bool := false
  /-- The zero flag is in effect. -/
  zeroPad : Bool := false
  /-- The least number of characters. -/
  width : Nat := 0
  precision : Option Nat := none
  presentation : Option Presentation := none
  /-- A sign mode is written. -/
  signWritten : Bool := false
  /-- The flag `0` is written. -/
  zeroWritten : Bool := false
  places : Places := {}
  deriving DecidableEq, Repr

variable {H : Host}

/-- The number that a width or precision stands for. -/
def Count.resolve (args : Arguments H) : Count → Except FormatError Nat
  | .literal n => .ok n
  | .argument reference place =>
    match args.count? reference with
    | some n => .ok n
    | none => .error (.located .invalidSpecifier place)

/-- The number that a width or precision stands for, if there is one. -/
def Count.resolve? (args : Arguments H) : Option Count → Except FormatError (Option Nat)
  | none => .ok none
  | some count => (count.resolve args).map some

/-- Looks up the references of a specifier, the width first. -/
def Specifier.resolve (spec : Specifier) (args : Arguments H) : Except FormatError Directive := do
  let zeroPad := spec.zero && spec.align.isNone
  let width ← Count.resolve? args spec.width
  let precision ← Count.resolve? args spec.precision
  return {
    fill := if zeroPad then '0' else spec.fill.getD ' '
    align := if zeroPad then some .numeric else spec.align
    sign := spec.sign.getD .minus
    alternate := spec.alternate
    zeroPad
    width := width.getD 0
    precision
    presentation := spec.presentation
    signWritten := spec.sign.isSome
    zeroWritten := spec.zero
    places := spec.places }

namespace Directive

/-- Reads a specifier that belongs to no template; there are no arguments to refer to. -/
def readStandalone (text : List Char) : Except FormatError Directive :=
  match (Specifier.read text .undecided).1 with
  | .error e => .error e
  | .ok spec => spec.resolve (Arguments.empty (H := ⟨Empty, Unit⟩))

/-- The alignment in effect, given the one that applies if none is asked for. -/
def alignOr (d : Directive) (default : Align) : Align := d.align.getD default

/-- Refuses a sign, `#`, `0` and numeric alignment, in this order. -/
def refuseNumericFlags (d : Directive) : Except FormatError Unit :=
  if d.signWritten then .error (.located .invalidSpecifier d.places.sign)
  else if d.alternate then .error (.located .invalidSpecifier d.places.alternate)
  else if d.zeroWritten then .error (.located .invalidSpecifier d.places.zero)
  else if d.align = some .numeric then .error (.located .invalidSpecifier d.places.align)
  else .ok ()

/-- Refuses a precision. -/
def refusePrecision (d : Directive) : Except FormatError Unit :=
  if d.precision.isSome then .error (.located .invalidSpecifier d.places.precision) else .ok ()

/-- The error for a presentation that is not defined for a kind. -/
def unsupported (d : Directive) : FormatError :=
  .located .unsupportedPresentation d.places.presentation

/-- What is legal for text and addresses of fixed length: neither numeric flags nor a
precision. -/
def checkPlain (d : Directive) : Except FormatError Unit := do
  d.refuseNumericFlags
  d.refusePrecision

/-- What is legal for integers: no precision, and no numeric flags if they are shown as
characters. -/
def checkInteger (d : Directive) : Except FormatError Unit :=
  match d.presentation with
  | none => d.refusePrecision
  | some .char => d.checkPlain
  | some p => if p.isInteger then d.refusePrecision else .error d.unsupported

/-- Whether the directive is legal for arguments of a kind. -/
def check (d : Directive) : Kind → Except FormatError Unit
  | .none | .custom => .ok ()
  | .int32 | .uint32 | .int64 | .uint64 => d.checkInteger
  | .bool =>
    match d.presentation with
    | none | some .string => d.checkPlain
    | some _ => d.checkInteger
  | .char =>
    match d.presentation with
    | none | some .char => d.checkPlain
    | some _ => d.checkInteger
  | .float =>
    match d.presentation with
    | none => .ok ()
    | some p => if p.isFloat then .ok () else .error d.unsupported
  | .text =>
    match d.presentation with
    | none | some .string => d.refuseNumericFlags
    | some _ => .error d.unsupported
  | .byteText =>
    match d.presentation with
    | none | some .string => d.refuseNumericFlags
    | some .pointer => d.checkPlain
    | some _ => .error d.unsupported
  | .pointer =>
    match d.presentation with
    | none | some .pointer => d.checkPlain
    | some _ => .error d.unsupported

end Directive

end BraceFormat
