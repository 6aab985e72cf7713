import BraceFormat.Handler
import BraceFormat.Rendering
import BraceFormat.Substitution

/-!
# Fields

A field puts out one argument as its specifier says. The specifier of a value of the host is
read by its handler, after the references in it have been replaced; any other specifier is
read, resolved and checked before anything is put out. Errors count bytes from the start of
the specifier.
-/

namespace BraceFormat

variable {H : Host}

/-- The directive of a specifier for an argument of some kind, and the numbering after it. -/
def readDirective (kind : Kind) (spec : List Char) (args : Arguments H) (numbering : Numbering) :
    Except FormatError (Directive × Numbering) := do
  let (outcome, numbering) := Specifier.read spec numbering
  let d ← (← outcome).resolve args
  d.check kind
  return (d, numbering)

/-- Puts out a value of the host. -/
def formatCustom (value : H.Value) (handler : Handler H) (spec : List Char) (args : Arguments H)
    (numbering : Numbering) : Formatter H Numbering := do
  let (outcome, numbering) := Substitution.read args spec numbering
  let parts ← Formatter.ofChecked outcome
  (handler.format value parts.text).mapError parts.trace
  return numbering

/-- Puts out an argument other than a value of the host. -/
def formatBuiltin (argument : Argument H) (spec : List Char) (args : Arguments H)
    (locale : Locale) (numbering : Numbering) : Formatter H Numbering := do
  let (d, numbering) ← Formatter.ofChecked (readDirective argument.kind spec args numbering)
  let rendering ← Formatter.ofExcept (argument.rendering d locale)
  Formatter.write (rendering.spans d.width)
  return numbering

/-- Puts out an argument as a specifier says, and gives the numbering after it. -/
def formatField (argument : Argument H) (spec : List Char) (args : Arguments H)
    (locale : Locale) (numbering : Numbering) : Formatter H Numbering :=
  match argument with
  | .none => Formatter.raise (.unplaced .missingArgument)
  | .custom value handler => formatCustom value handler spec args numbering
  | argument => formatBuiltin argument spec args locale numbering

/-- Puts out an argument on its own. A specifier has nothing to refer to, and the global
locale applies. -/
def Argument.format (argument : Argument H) (spec : List Char) : Formatter H Unit := do
  let locale ← Formatter.globalLocale
  discard <| formatField argument spec Arguments.empty locale .undecided

end BraceFormat
