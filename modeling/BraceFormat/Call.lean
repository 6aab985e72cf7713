import BraceFormat.Field
import BraceFormat.Output.Sink
import BraceFormat.Template.Step

/-!
# Formatting calls

A call runs a template over some arguments. Pieces are taken in order: text is copied, and a
field is put out by the argument that its id refers to. The call ends at the first error;
what has been put out before stays. Errors count bytes from the start of the template.

`run` is the call as a formatter. The other entry points choose where its output
goes: `formatInto` any sink, `formatText` a text, `formattedSize` a counter, and
`formatBuffer` a buffer of fixed size.
-/

namespace BraceFormat

variable {H : Host}

/-- Puts out a field of a template. -/
def Field.run (field : Field) (args : Arguments H) (locale : Locale) (numbering : Numbering) :
    Formatter H Numbering :=
  match args.lookup field.argument with
  | .none => Formatter.raise (.located .missingArgument field.start)
  | argument =>
    (formatField argument field.spec args locale numbering).mapError (·.rebase field.specStart)

/-- Takes a step. -/
def Step.run (args : Arguments H) (locale : Locale) (numbering : Numbering) :
    Step → Formatter H Numbering
  | .copy text => do
    Formatter.write [.text text]
    return numbering
  | .put field => field.run args locale numbering

/-- Runs the pieces of a template, the first of which starts at byte `start`. -/
def runPieces (args : Arguments H) (locale : Locale) :
    Nat → List Piece → Numbering → Formatter H Numbering
  | _, [], numbering => return numbering
  | start, piece :: pieces, numbering => do
    let (step, numbering) ← Formatter.ofChecked (piece.step start numbering)
    let numbering ← step.run args locale numbering
    runPieces args locale (start + byteLength piece.source) pieces numbering

/-- Runs a template from some numbering on, and gives the numbering it ends with. -/
def Template.runFrom (template : Template) (args : Arguments H) (locale : Locale)
    (numbering : Numbering) : Formatter H Numbering := do
  let numbering ← runPieces args locale 0 template.pieces numbering
  match template.fault with
  | some place => Formatter.raise (.located .malformedTemplate place)
  | none => return numbering

/-- A formatting call: runs a template over some arguments, in a given locale or else the
global one, and reports that it does and how it fails. -/
def run (template : List Char) (args : Arguments H) (locale : Option Locale) :
    Formatter H Unit := do
  Formatter.report (.formatting (byteLength template) args.length)
  let global ← Formatter.globalLocale
  let locale := locale.getD global
  Formatter.reportingError do
    discard <| (Template.read template).runFrom args locale .undecided

/-- How a call ended. -/
structure Outcome (H : Host) (α : Type) where
  /-- What the call gave, or why it failed. -/
  result : Except Failure α
  /-- The events reported. -/
  events : List Event
  /-- The world afterwards. -/
  world : World H

/-- The outcome of a formatter, given what becomes of its value. -/
def Emission.outcome {α β : Type} (emission : Emission H α) (f : α → β) : Outcome H β :=
  ⟨emission.result.map f, emission.events, emission.world⟩

/-- Gives the output of a formatter to a sink. -/
def Formatter.into {α : Type} (formatter : Formatter H α) (sink : Sink) (world : World H) :
    Sink × Outcome H α :=
  let emission := formatter world
  (sink.absorb emission.spans, emission.outcome id)

/-- Formats into a sink. On failure it keeps the output that came before. -/
def formatInto (sink : Sink) (template : List Char) (args : Arguments H) (world : World H) :
    Sink × Outcome H Unit :=
  (run template args none).into sink world

/-- Formats to a text. -/
def formatText (template : List Char) (args : Arguments H) (world : World H) :
    Outcome H (List Char) :=
  let emission := run template args none world
  emission.outcome fun _ => outputText emission.spans

/-- The number of bytes of the output, which is not kept. -/
def formattedSize (template : List Char) (args : Arguments H) (world : World H) :
    Outcome H Nat :=
  let emission := run template args none world
  emission.outcome fun _ => (Sink.counter.absorb emission.spans).position

/-- What is known after formatting into a buffer. -/
structure BufferSize where
  /-- The number of bytes of the whole output. -/
  size : Nat
  /-- The number of bytes stored. -/
  written : Nat
  deriving DecidableEq, Repr

/-- Formats into a buffer with the given contents, and gives the buffer with the outcome. -/
def formatBuffer (old : List UInt8) (template : List Char) (args : Arguments H)
    (world : World H) : Buffer × Outcome H BufferSize :=
  let emission := run template args none world
  let buffer := (Buffer.ofBytes old).absorb emission.spans
  (buffer, emission.outcome fun _ => ⟨buffer.total, buffer.written⟩)

end BraceFormat
