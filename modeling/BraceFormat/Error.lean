/-!
# Errors

A formatting call fails with the first `FormatError` it meets: what went wrong, and the byte
at which this was found if it is known. Offsets are relative to the text that was being
read; `rebase` moves them to a text of which it is a part. They have no bound here; where an
offset is a number of 64 bits, a handler may give one that cannot be moved.

Besides errors, a call may be cut short because a number asks for more digits than are
ever generated. `Failure` is either.
-/

namespace BraceFormat

/-- What can go wrong. -/
inductive ErrorKind where
  /-- A brace without partner, an unterminated field, or an ill-formed argument id. -/
  | malformedTemplate
  /-- Automatic and explicit argument numbers in one template. -/
  | indexingConflict
  /-- A field refers to an argument that was not supplied. -/
  | missingArgument
  /-- A specifier that is ill-formed, or illegal for its argument, or that takes its width
  or precision from an unusable argument. -/
  | invalidSpecifier
  /-- The presentation type is not defined for the argument. -/
  | unsupportedPresentation
  /-- The code that writes an argument of the host reported a failure. -/
  | formatterFailed
  deriving DecidableEq, Repr

/-- The sentence that describes a kind of error. -/
def ErrorKind.sentence : ErrorKind → String
  | .malformedTemplate => "malformed format template"
  | .indexingConflict => "cannot switch between automatic and manual argument indexing"
  | .missingArgument => "argument not supplied"
  | .invalidSpecifier => "invalid format specifier"
  | .unsupportedPresentation => "unsupported presentation type"
  | .formatterFailed => "an argument's formatting implementation failed"

/-- An error, and the byte offset at which it was found if it is known. -/
structure FormatError where
  /-- What went wrong. -/
  kind : ErrorKind
  /-- Where, in bytes from the start of the text that was being read. -/
  offset : Option Nat
  deriving DecidableEq, Repr

namespace FormatError

/-- An error of unknown place. -/
def unplaced (kind : ErrorKind) : FormatError := ⟨kind, none⟩

/-- An error found at a given byte. -/
def located (kind : ErrorKind) (offset : Nat) : FormatError := ⟨kind, some offset⟩

/-- The error as seen from a text in which the text being read starts at byte `base`. An
error of unknown place is put there. -/
def rebase (base : Nat) (e : FormatError) : FormatError :=
  ⟨e.kind, some (base + e.offset.getD 0)⟩

/-- The text of an error: the sentence of its kind, and its place if it is known. -/
def message (e : FormatError) : String :=
  match e.offset with
  | none => e.kind.sentence
  | some offset => e.kind.sentence ++ " at byte " ++ Nat.repr offset

end FormatError

/-- Why a call did not come to its end. -/
inductive Failure where
  /-- The call found an error. -/
  | error (e : FormatError)
  /-- A number asked for more digits than are ever generated. -/
  | tooManyDigits
  deriving DecidableEq, Repr

/-- Applies a change of place to an error; a call cut short has no place to change. -/
def Failure.mapError (f : FormatError → FormatError) : Failure → Failure
  | .error e => .error (f e)
  | .tooManyDigits => .tooManyDigits

end BraceFormat
