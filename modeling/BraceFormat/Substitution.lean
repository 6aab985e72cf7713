import BraceFormat.Argument
import BraceFormat.Specifier.Parts

/-!
# Replacing references in a specifier

Before a handler of the host reads a specifier, every reference in it is replaced by the
numeral of the width or precision that its argument supplies. A `Substitution` keeps the
parts with their replacements, so that a place in the text the handler saw can be traced back
to the specifier as it was written.
-/

namespace BraceFormat

/-- A part of a specifier with what takes its place. -/
inductive Replaced where
  /-- Text, which stays. -/
  | literal (text : List Char)
  /-- A reference, with the number that its argument supplies. -/
  | count (id : ArgId) (n : Nat)
  deriving DecidableEq, Repr

namespace Replaced

/-- The text a part was written as. -/
def source : Replaced → List Char
  | .literal text => text
  | .count id _ => (SpecPart.reference id).source

/-- The text that takes the place of a part. -/
def text : Replaced → List Char
  | .literal text => text
  | .count _ n => Nat.toDigits 10 n

end Replaced

/-- A specifier in parts, with what takes their place. -/
abbrev Substitution := List Replaced

namespace Substitution

/-- The specifier as it was written. -/
def source (parts : Substitution) : List Char := parts.flatMap Replaced.source

/-- The specifier as the handler sees it. -/
def text (parts : Substitution) : List Char := parts.flatMap Replaced.text

/-- The byte of the written specifier that a byte of the replaced one comes from. A place
within a numeral comes from the opening brace of its reference. -/
def writtenOffset : Substitution → Nat → Nat
  | [], offset => offset
  | .literal text :: parts, offset =>
    if offset < byteLength text then offset
    else byteLength text + writtenOffset parts (offset - byteLength text)
  | .count id n :: parts, offset =>
    let size := byteLength (Replaced.count id n).text
    if offset < size then 0
    else byteLength (Replaced.count id n).source + writtenOffset parts (offset - size)

/-- Traces the place of an error, if it has one, back to the written specifier. -/
def trace (parts : Substitution) (e : FormatError) : FormatError :=
  { e with offset := e.offset.map parts.writtenOffset }

variable {H : Host}

/-- Replaces the references among some parts, the first of which starts at byte `place`, from
left to right. Fails at the opening brace of the first one that is in conflict with the
numbering or whose argument supplies no number. -/
def ofParts (args : Arguments H) :
    Nat → List SpecPart → Numbering → Except FormatError Substitution × Numbering
  | _, [], numbering => (.ok [], numbering)
  | place, .literal text :: parts, numbering =>
    let (rest, numbering) := ofParts args (place + byteLength text) parts numbering
    (rest.map (.literal text :: ·), numbering)
  | place, .reference id :: parts, numbering =>
    match numbering.resolve id with
    | .error kind => (.error (.located kind place), numbering)
    | .ok (reference, numbering) =>
      match args.count? reference with
      | none => (.error (.located .invalidSpecifier place), numbering)
      | some n =>
        let size := byteLength (SpecPart.reference id).source
        let (rest, numbering) := ofParts args (place + size) parts numbering
        (rest.map (.count id n :: ·), numbering)

/-- Replaces the references of a specifier. Fails at the first one that is ill-formed, that is
in conflict with the numbering, or whose argument supplies no number. -/
def read (args : Arguments H) (spec : List Char) (numbering : Numbering) :
    Except FormatError Substitution × Numbering :=
  let ⟨parts, fault⟩ := SpecParts.read spec
  match ofParts args 0 parts numbering, fault with
  | (.ok _, numbering), some place => (.error (.located .invalidSpecifier place), numbering)
  | outcome, _ => outcome

end Substitution

end BraceFormat
