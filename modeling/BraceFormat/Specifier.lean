import BraceFormat.Numbering

/-!
# Format specifiers

A specifier has the shape

    [[fill] align] [sign] ['#'] ['0'] [width] ['.' precision] [type]

where `fill` is any character but a brace, `align` one of `< > ^ =`, `sign` one of `+ - space`,
the width and the precision are each a number or a reference `{id}` to an argument, and `type`
is one letter or `%`. Every part may be missing.

`Specifier.read` reads a text as a specifier and numbers its references as it meets them, so
it gives the numbering it leaves behind also when it fails. A character in front of an
alignment is always the fill, and a `0` in front of the width always the flag.
-/

namespace BraceFormat

/-- The largest width and precision. -/
def countLimit : Nat := 2147483647

/-- Where a rendering is put within its width. -/
inductive Align where
  /-- At the start, the fill after it. -/
  | left
  /-- At the end, the fill before it. -/
  | right
  /-- In the middle, an odd fill character after it. -/
  | center
  /-- The fill between sign or base marker and digits. -/
  | numeric
  deriving DecidableEq, Repr

/-- The alignment a character stands for. -/
def Align.ofChar? : Char → Option Align
  | '<' => some .left
  | '>' => some .right
  | '^' => some .center
  | '=' => some .numeric
  | _ => none

/-- What is shown in front of a number that is not negative. -/
inductive Sign where
  /-- Nothing. -/
  | minus
  /-- A plus sign. -/
  | plus
  /-- A space. -/
  | space
  deriving DecidableEq, Repr

/-- The sign mode a character stands for. -/
def Sign.ofChar? : Char → Option Sign
  | '-' => some .minus
  | '+' => some .plus
  | ' ' => some .space
  | _ => none

/-- How a value is presented. -/
inductive Presentation where
  | string | char
  | decimal | binary | binaryUpper | octal | hex | hexUpper
  | exponent | exponentUpper | fixed | fixedUpper | general | generalUpper | percent
  | locale | pointer
  deriving DecidableEq, Repr

namespace Presentation

/-- The presentation a type character stands for. -/
def ofChar? : Char → Option Presentation
  | 's' => some .string
  | 'c' => some .char
  | 'd' => some .decimal
  | 'b' => some .binary
  | 'B' => some .binaryUpper
  | 'o' => some .octal
  | 'x' => some .hex
  | 'X' => some .hexUpper
  | 'e' => some .exponent
  | 'E' => some .exponentUpper
  | 'f' => some .fixed
  | 'F' => some .fixedUpper
  | 'g' => some .general
  | 'G' => some .generalUpper
  | '%' => some .percent
  | 'n' => some .locale
  | 'p' => some .pointer
  | _ => none

/-- Whether the presentation shows an integer. -/
def isInteger : Presentation → Bool
  | .decimal | .binary | .binaryUpper | .octal | .hex | .hexUpper | .locale => true
  | _ => false

/-- Whether the presentation shows a floating-point number. -/
def isFloat : Presentation → Bool
  | .exponent | .exponentUpper | .fixed | .fixedUpper | .general | .generalUpper
  | .percent | .locale => true
  | _ => false

end Presentation

/-- A width or precision as it is written. -/
inductive Count where
  /-- A number. -/
  | literal (n : Nat)
  /-- A reference to an argument, whose opening brace is at byte `place`. -/
  | argument (reference : Reference) (place : Nat)
  deriving DecidableEq, Repr

/-- The bytes at which the parts of a specifier are written, for errors that are found
later. A flag, precision or type that is missing has the place where it would be. -/
structure Places where
  /-- The alignment character, where a fill precedes it. -/
  align : Nat := 0
  /-- The sign, if there is one. -/
  sign : Nat := 0
  /-- The flag `#`. -/
  alternate : Nat := 0
  /-- The flag `0`. -/
  zero : Nat := 0
  /-- The point in front of the precision. -/
  precision : Nat := 0
  /-- The type. -/
  presentation : Nat := 0
  deriving DecidableEq, Repr

/-- A specifier as it is written, with its references numbered. -/
structure Specifier where
  fill : Option Char := none
  align : Option Align := none
  sign : Option Sign := none
  /-- The flag `#` is written. -/
  alternate : Bool := false
  /-- The flag `0` is written. -/
  zero : Bool := false
  width : Option Count := none
  precision : Option Count := none
  presentation : Option Presentation := none
  places : Places := {}
  deriving DecidableEq, Repr

namespace Specifier

/-- The specifier with no parts. -/
def empty : Specifier := {}

/-- Reads a fill and an alignment. A brace cannot be a fill. -/
def readAlign : List Char → Except FormatError ((Option Char × Option Align) × List Char)
  | [] => .ok ((none, none), [])
  | first :: rest =>
    match rest.head?.bind Align.ofChar? with
    | some align =>
      if first = '{' ∨ first = '}' then .error (.located .invalidSpecifier 0)
      else .ok ((some first, some align), rest.tail)
    | none =>
      match Align.ofChar? first with
      | some align => .ok ((none, some align), rest)
      | none => .ok ((none, none), first :: rest)

/-- Reads a sign mode. -/
def readSign : List Char → Option Sign × List Char
  | [] => (none, [])
  | c :: rest =>
    match Sign.ofChar? c with
    | some sign => (some sign, rest)
    | none => (none, c :: rest)

/-- Reads a flag. -/
def readFlag (flag : Char) : List Char → Bool × List Char
  | [] => (false, [])
  | c :: rest => if c = flag then (true, rest) else (false, c :: rest)

/-- Reads a width or precision that starts at byte `place`, if there is one. -/
def readCount (place : Nat) (text : List Char) (numbering : Numbering) :
    Except FormatError (Option Count × List Char) × Numbering :=
  match text with
  | [] => (.ok (none, []), numbering)
  | '{' :: rest =>
    match ArgId.readClosed rest with
    | .error inner => (.error (.located .invalidSpecifier (place + 1 + inner)), numbering)
    | .ok (id, after) =>
      match numbering.resolve id with
      | .error kind => (.error (.located kind place), numbering)
      | .ok (reference, numbering) => (.ok (some (.argument reference place), after), numbering)
  | c :: rest =>
    if c.isDigit then
      let n := Nat.ofDigitChars 10 (c :: rest.takeWhile Char.isDigit) 0
      if n ≤ countLimit then (.ok (some (.literal n), rest.dropWhile Char.isDigit), numbering)
      else (.error (.located .invalidSpecifier place), numbering)
    else (.ok (none, c :: rest), numbering)

/-- Reads a point and a precision, which start at byte `place`, if there is a point. -/
def readPrecision (place : Nat) (text : List Char) (numbering : Numbering) :
    Except FormatError (Option Count × List Char) × Numbering :=
  match text with
  | '.' :: rest =>
    match readCount (place + 1) rest numbering with
    | (.ok (none, _), numbering) => (.error (.located .invalidSpecifier place), numbering)
    | outcome => outcome
  | text => (.ok (none, text), numbering)

/-- Reads a type at byte `place`, after which nothing may follow. -/
def readPresentation (place : Nat) : List Char → Except FormatError (Option Presentation)
  | [] => .ok none
  | c :: rest =>
    if ¬(c.isAlpha || c = '%') then .error (.located .invalidSpecifier place)
    else if rest ≠ [] then .error (.located .invalidSpecifier (place + 1))
    else
      match Presentation.ofChar? c with
      | some presentation => .ok (some presentation)
      | none => .error (.located .unsupportedPresentation place)

/-- Reads a text as a specifier. -/
def read (text : List Char) (numbering : Numbering) : Except FormatError Specifier × Numbering :=
  let place (rest : List Char) := byteLength text - byteLength rest
  match readAlign text with
  | .error e => (.error e, numbering)
  | .ok ((fill, align), atSign) =>
    let (sign, atAlternate) := readSign atSign
    let (alternate, atZero) := readFlag '#' atAlternate
    let (zero, atWidth) := readFlag '0' atZero
    if zero ∧ fill.isSome then (.error (.located .invalidSpecifier (place atZero)), numbering)
    else
      match readCount (place atWidth) atWidth numbering with
      | (.error e, numbering) => (.error e, numbering)
      | (.ok (width, atPoint), numbering) =>
        match readPrecision (place atPoint) atPoint numbering with
        | (.error e, numbering) => (.error e, numbering)
        | (.ok (precision, atType), numbering) =>
          match readPresentation (place atType) atType with
          | .error e => (.error e, numbering)
          | .ok presentation =>
            let places : Places := {
              align := match fill with | some c => c.utf8Size | none => 0
              sign := if sign.isSome then place atSign else 0
              alternate := place atAlternate
              zero := place atZero
              precision := place atPoint
              presentation := place atType }
            (.ok { fill, align, sign, alternate, zero, width, precision, presentation, places },
              numbering)

end Specifier

end BraceFormat
