import BraceFormat.Argument
import BraceFormat.Directive
import BraceFormat.Output.Limit
import BraceFormat.Rendering.Basic

/-!
# Handlers

The values of the host are formatted by handlers. `Handler.ofReader` makes one from a reader
of specifiers and a formatter. `Handler.display` and `Handler.inspect` are for values that
only know how to write themselves as text: they read the specifiers of text, with fill,
alignment, width and precision, and the second one takes `#` to ask for the alternate form of
the text.

A value writes its text in chunks, and may fail in between. With a width the text is written
twice, first to measure it; if it fails then, nothing has been put out.

Handlers write through a `Formatter`. What they write cannot depend on the position of the sink,
which they cannot ask for.
-/

namespace BraceFormat

variable {H : Host}

/-- What a value does when it writes itself: the chunks of text, whether it failed after them,
and the world afterwards. -/
structure Writing (H : Host) where
  chunks : List (List Char)
  failed : Bool
  world : World H

/-- The code by which a value writes itself. -/
def Writer (H : Host) := World H → Writing H

namespace Writer

/-- Runs the writer and puts its text out as far as a limit lets it through. -/
def stream (writer : Writer H) (limit : Limit) : Formatter H Unit := fun world =>
  let writing := writer world
  { spans := (limit.passAll (writing.chunks.map .text)).1
    events := []
    world := writing.world
    result :=
      if writing.failed then .error (.error (.unplaced .formatterFailed)) else .ok () }

/-- Runs the writer and counts the characters that a limit lets through. -/
def measure (writer : Writer H) (limit : Limit) : Formatter H Nat := fun world =>
  let emission := writer.stream limit world
  { emission with
    spans := []
    result := emission.result.map fun _ => (outputText emission.spans).length }

/-- Puts out the text of a writer, cut to the precision of a directive and padded to its
width. -/
def format (writer : Writer H) (d : Directive) : Formatter H Unit :=
  if d.width = 0 then writer.stream d.precision
  else do
    let length ← writer.measure d.precision
    let padding := Padding.ofAlign (d.width - length) (d.alignOr .left)
    Formatter.write [.fill d.fill padding.before]
    writer.stream d.precision
    Formatter.write [.fill d.fill padding.after]

end Writer

namespace Handler

/-- The handler that reads the specifier by one function and formats the value by another. -/
def ofReader {Spec : Type} (read : List Char → Except FormatError Spec)
    (format : H.Value → Spec → Formatter H Unit) : Handler H :=
  ⟨fun value text =>
    match read text with
    | .error e => Formatter.raise e
    | .ok spec => format value spec⟩

/-- Reads a specifier that is legal for text. -/
def readTextual (text : List Char) : Except FormatError Directive := do
  let d ← Directive.readStandalone text
  d.check .text
  return d

/-- Reads a specifier that is legal for text but for the flag `#`. -/
def readInspecting (text : List Char) : Except FormatError Directive := do
  let d ← Directive.readStandalone text
  { d with alternate := false }.check .text
  return d

/-- The handler of values that write themselves as text. -/
def display (writer : H.Value → Writer H) : Handler H :=
  ofReader readTextual fun value d => (writer value).format d

/-- The handler of values that write themselves as text in two forms, the alternate one if
`#` is written. -/
def inspect (writer : Bool → H.Value → Writer H) : Handler H :=
  ofReader readInspecting fun value d => (writer d.alternate value).format d

end Handler

/-- The ways in which a value can become an argument. -/
structure Capabilities (H : Host) where
  /-- An argument of a kind of its own. -/
  builtin : Option (Argument H) := none
  /-- A handler with specifiers of its own. -/
  formattable : Option (Handler H) := none
  /-- A handler of values that write themselves as text. -/
  display : Option (Handler H) := none
  /-- A handler of values that write themselves for inspection. -/
  inspect : Option (Handler H) := none

/-- The argument for a value: the first of the ways that the value has, in the order of their
listing. -/
def Argument.capture (value : H.Value) (ways : Capabilities H) : Option (Argument H) :=
  ways.builtin <|>
    (ways.formattable <|> ways.display <|> ways.inspect).map (.custom value ·)

end BraceFormat
