import BraceFormat.Proofs.Guarded.Attempt
import BraceFormat.Proofs.Guarded.Rendering
import BraceFormat.Proofs.Guarded.Sink
import BraceFormat.Proofs.Guarded.Specifier
import BraceFormat.Proofs.Handler.Display

/-!
# Guarded handlers of text

A value that writes itself as text is measured by a counter and cut at a limit, both of them
guarded, and its specifier is read by guarded access. A value that writes less than `2 ^ 64`
bytes breaches no guard (`TextHandler.tracks`).
-/

namespace BraceFormat.Guarded

variable {H : Host}

/-! ### Reading specifiers -/

/-- Reads a specifier that belongs to no template. -/
def readStandalone? (text : List Char) : Option (Except FormatError Directive) := do
  let (outcome, _) ← specifier? text .undecided
  match outcome with
  | .error e => return .error e
  | .ok spec => return spec.resolve (Arguments.empty (H := ⟨Empty, Unit⟩))

/-- Reads a specifier that is legal for text. -/
def readTextual? (text : List Char) : Option (Except FormatError Directive) := do
  let read ← readStandalone? text
  return do
    let d ← read
    d.check .text
    return d

/-- Reads a specifier that is legal for text but for the flag `#`. -/
def readInspecting? (text : List Char) : Option (Except FormatError Directive) := do
  let read ← readStandalone? text
  return do
    let d ← read
    { d with alternate := false }.check .text
    return d

/-! ### Writing text -/

/-- Lets chunks of text through a limit. -/
def passAll? (limit : Limit) : List (List Char) → Option (List Span × Limit)
  | [] => some ([], limit)
  | chunk :: chunks => do
    let (passed, limit) ← passText? limit chunk
    let (rest, limit) ← passAll? limit chunks
    return (.text passed :: rest, limit)

/-- Runs a writer and puts its text out as far as a limit lets it through. -/
def stream? (writer : Writer H) (limit : Limit) : Attempt H Unit := fun world => do
  let writing := writer world
  let (passed, _) ← passAll? limit writing.chunks
  return {
    spans := passed
    events := []
    world := writing.world
    result := if writing.failed then .error (.error (.unplaced .formatterFailed)) else .ok () }

/-- The number of characters of some output, as a counter counts them. -/
def length? (spans : List Span) : Option Nat := do
  match ← (Target.counting 0 0).absorb? spans with
  | .counting _ chars => some chars
  | _ => none

/-- Runs a writer and counts the characters that a limit lets through. -/
def measure? (writer : Writer H) (limit : Limit) : Attempt H Nat := fun world => do
  let emission ← stream? writer limit world
  let length ← length? emission.spans
  return { emission with
    spans := []
    result := emission.result.map fun _ => length }

/-- Puts out the text of a writer, cut to the precision of a directive and padded to its
width. The width may be less than the length of the text. -/
def format? (writer : Writer H) (d : Directive) : Attempt H Unit :=
  if d.width = 0 then stream? writer d.precision
  else do
    let length ← measure? writer d.precision
    let padding ← Attempt.ofOption (padding? (d.width - length) (d.alignOr .left))
    Attempt.ofFormatter (Formatter.write [.fill d.fill padding.before])
    stream? writer d.precision
    Attempt.ofFormatter (Formatter.write [.fill d.fill padding.after])

/-- A handler of values that write themselves as text. -/
inductive TextHandler (H : Host) where
  /-- Text in one form. -/
  | display (writer : H.Value → Writer H)
  /-- Text in two forms, the alternate one if `#` is written. -/
  | inspect (writer : Bool → H.Value → Writer H)

namespace TextHandler

/-- The handler that a handler of text is. -/
def handler : TextHandler H → Handler H
  | .display writer => Handler.display writer
  | .inspect writer => Handler.inspect writer

/-- Formats a value as a specifier says. -/
def format? (handler : TextHandler H) (value : H.Value) (text : List Char) : Attempt H Unit :=
  match handler with
  | .display writer => do
    let d ← Attempt.ofOutcome (readTextual? text)
    Guarded.format? (writer value) d
  | .inspect writer => do
    let d ← Attempt.ofOutcome (readInspecting? text)
    Guarded.format? (writer d.alternate value) d

end TextHandler

/-! ### No guard is breached in reading -/

theorem readStandalone?_eq (text : List Char) :
  readStandalone? text = some (Directive.readStandalone text)
  := by
  rw [readStandalone?, specifier?_eq, Directive.readStandalone]
  rcases Specifier.read text .undecided with ⟨e | spec, _⟩
  · rfl
  · rfl

theorem readTextual?_eq (text : List Char) :
  readTextual? text = some (Handler.readTextual text)
  := by
  rw [readTextual?, readStandalone?_eq]
  rfl

theorem readInspecting?_eq (text : List Char) :
  readInspecting? text = some (Handler.readInspecting text)
  := by
  rw [readInspecting?, readStandalone?_eq]
  rfl

/-! ### No guard is breached in writing -/

/-- A writer writes less than `2 ^ 64` bytes, whenever it is run. -/
def Bounded (writer : Writer H) : Prop :=
  ∀ world, byteLength (writer world).chunks.flatten < UInt64.size

theorem passAll?_eq (limit : Limit) (chunks : List (List Char)) :
  passAll? limit chunks = some (limit.passAll (chunks.map .text))
  := by
  induction chunks generalizing limit with
  | nil => rfl
  | cons chunk chunks ih =>
    simp only [passAll?, passText?_eq, ih, Option.bind_eq_bind, Option.bind_some]
    rfl

theorem stream?_eq (writer : Writer H) (limit : Limit) (world : World H) :
  stream? writer limit world = some (writer.stream limit world)
  := by
  rw [stream?, passAll?_eq]
  rfl

theorem length?_eq {spans : List Span} (h : byteLength (outputText spans) < UInt64.size) :
  length? spans = some (outputText spans).length
  := by
  have hfits : Fits .counter (byteLength (outputText spans)) := by
    constructor
    · rw [Nat.zero_add]
      apply h
    · rw [Nat.zero_add]
      apply h
  have habsorb : (Target.counting 0 0).absorb? spans = _ := Target.absorb?_eq hfits
  rw [length?, habsorb, Sink.absorb_eq_append]
  exact congrArg some (Nat.zero_add _)

/-- What a limit lets through of the text of a bounded writer is bounded. -/
theorem Bounded.byteLength_stream_lt {writer : Writer H} (h : Bounded writer) (limit : Limit)
    (world : World H) :
  byteLength (outputText (writer.stream limit world).spans) < UInt64.size
  := by
  apply Nat.lt_of_le_of_lt _ (h world)
  rw [Writer.stream, Writer.outputText_passAll]
  cases limit with
  | none => apply Nat.le_refl
  | some limit => apply byteLength_fitting_le_self

theorem measure?_eq {writer : Writer H} (h : Bounded writer) (limit : Limit) (world : World H) :
  measure? writer limit world = some (writer.measure limit world)
  := by
  rw [measure?, stream?_eq]
  simp only [Option.bind_eq_bind, Option.bind_some, length?_eq (h.byteLength_stream_lt limit world)]
  rfl

theorem tracks_stream? (writer : Writer H) (limit : Limit) :
  (stream? writer limit).Tracks (writer.stream limit)
  := by
  intro world
  rw [stream?_eq, eq_comm, uncut_eq_some_iff]
  exact ⟨rfl, Writer.not_cutShort_stream⟩

theorem tracks_measure? {writer : Writer H} (h : Bounded writer) (limit : Limit) :
  (measure? writer limit).Tracks (writer.measure limit)
  := by
  intro world
  rw [measure?_eq h, eq_comm, uncut_eq_some_iff]
  exact ⟨rfl, Writer.not_cutShort_measure⟩

theorem tracks_write (spans : List Span) :
  (Attempt.ofFormatter (Formatter.write spans : Formatter H Unit)).Tracks (Formatter.write spans)
  := by
  apply Attempt.Tracks.ofFormatter
  intro world
  apply Formatter.not_cutShort_write

theorem tracks_format? {writer : Writer H} (h : Bounded writer) (d : Directive) :
  (format? writer d).Tracks (writer.format d)
  := by
  rw [format?, Writer.format]
  split
  · apply tracks_stream?
  · apply (tracks_measure? h d.precision).bind
    intro length
    apply Attempt.Tracks.ofOption_bind (padding?_eq _ _)
    apply (tracks_write _).bind
    intro _
    apply (tracks_stream? writer d.precision).bind
    intro _
    apply tracks_write

/-! ### Handlers of text -/

namespace TextHandler

/-- The values write less than `2 ^ 64` bytes, whenever they write themselves. -/
def Bounded : TextHandler H → Prop
  | .display writer => ∀ value, Guarded.Bounded (writer value)
  | .inspect writer => ∀ alternate value, Guarded.Bounded (writer alternate value)

/-- No guard is breached by a handler of text. -/
theorem tracks {handler : TextHandler H} (h : handler.Bounded) (value : H.Value)
    (text : List Char) :
  (handler.format? value text).Tracks (handler.handler.format value text)
  := by
  cases handler with
  | display writer =>
    rw [format?, handler, Handler.display, Handler.format_ofReader]
    apply Attempt.Tracks.ofOutcome_bind (readTextual?_eq text)
    intro d _
    apply tracks_format? (h value)
  | inspect writer =>
    rw [format?, handler, Handler.inspect, Handler.format_ofReader]
    apply Attempt.Tracks.ofOutcome_bind (readInspecting?_eq text)
    intro d _
    apply tracks_format? (h d.alternate value)

/-- A handler of text cuts no call short. -/
theorem not_cutShort (handler : TextHandler H) {value : H.Value} {text : List Char}
    {world : World H} :
  ¬(handler.handler.format value text).CutShort world
  := by
  cases handler with
  | display writer => apply Handler.not_cutShort_display
  | inspect writer => apply Handler.not_cutShort_inspect

end TextHandler

end BraceFormat.Guarded
