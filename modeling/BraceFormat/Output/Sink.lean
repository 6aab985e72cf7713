import BraceFormat.Error
import BraceFormat.Output.Limit
import BraceFormat.Text.Utf8

/-!
# Sinks

A `Sink` is where output goes: a growing text, a pair of counters, a buffer of fixed size, a
sink that is lent, or a limit in front of another sink. Output is only ever appended. A sink
takes whatever it is given; one that is bounded drops what does not fit.

The counts of a sink have no bound here. Where they are numbers of 64 bits, a sink with greater
counts than these does not come to be.
-/

namespace BraceFormat

/-- A buffer of fixed size. Text is stored from its start on, whole characters only; after the
first one that did not fit nothing more is stored. -/
structure Buffer where
  /-- What the buffer held before; its length is the size of the buffer. -/
  old : List UInt8
  /-- The text stored. -/
  stored : List Char := []
  /-- The number of bytes the buffer was given, stored or not. -/
  total : Nat := 0
  /-- What is stored fits into the buffer. -/
  stored_le_size : byteLength stored ≤ old.length := by simp
  /-- What is stored was given. -/
  stored_le_total : byteLength stored ≤ total := by simp
  deriving DecidableEq, Repr

namespace Buffer

/-- A buffer with the given contents, to be written from its start. -/
def ofBytes (old : List UInt8) : Buffer := { old }

/-- The number of bytes stored. -/
def written (buffer : Buffer) : Nat := byteLength buffer.stored

/-- The bytes of the whole buffer: the text stored, then what it held before. -/
def contents (buffer : Buffer) : List UInt8 :=
  Utf8.encode buffer.stored ++ buffer.old.drop buffer.written

/-- Stores as much of a text as fits. -/
def append (buffer : Buffer) (text : List Char) : Buffer where
  old := buffer.old
  stored :=
    if buffer.written < buffer.total then buffer.stored
    else buffer.stored ++ fitting (buffer.old.length - buffer.written) text
  total := buffer.total + byteLength text
  stored_le_size := by
    have hsize := buffer.stored_le_size
    have hfit := byteLength_fitting_le (buffer.old.length - buffer.written) text
    split
    · apply hsize
    · rw [byteLength_append]
      unfold written at *
      omega
  stored_le_total := by
    have htotal := buffer.stored_le_total
    have hpart := byteLength_fitting_le_self (buffer.old.length - buffer.written) text
    split
    · omega
    · rw [byteLength_append]
      omega

/-- Stores as many copies of a character as fit. -/
def appendFill (buffer : Buffer) (c : Char) (count : Nat) : Buffer where
  old := buffer.old
  stored :=
    if buffer.written < buffer.total then buffer.stored
    else
      let room := (buffer.old.length - buffer.written) / c.utf8Size
      buffer.stored ++ List.replicate (min count room) c
  total := buffer.total + count * c.utf8Size
  stored_le_size := by
    have hsize := buffer.stored_le_size
    have hroom := Nat.div_mul_le_self (buffer.old.length - buffer.written) c.utf8Size
    have hmin := Nat.mul_le_mul_right c.utf8Size
      (Nat.min_le_right count ((buffer.old.length - buffer.written) / c.utf8Size))
    split
    · apply hsize
    · rw [byteLength_append, byteLength_replicate]
      unfold written at *
      omega
  stored_le_total := by
    have htotal := buffer.stored_le_total
    have hmin := Nat.mul_le_mul_right c.utf8Size
      (Nat.min_le_left count ((buffer.old.length - buffer.written) / c.utf8Size))
    split
    · omega
    · rw [byteLength_append, byteLength_replicate]
      omega

/-- Stores as much of a span as fits. -/
def appendSpan (buffer : Buffer) : Span → Buffer
  | .text chars => buffer.append chars
  | .fill c count => buffer.appendFill c count

/-- Stores as much of some output as fits. -/
def absorb (buffer : Buffer) (spans : List Span) : Buffer :=
  spans.foldl appendSpan buffer

end Buffer

/-- A destination of output. -/
inductive Sink where
  /-- Keeps the text. -/
  | text (chars : List Char)
  /-- Counts bytes and characters, and keeps nothing. -/
  | counting (bytes chars : Nat)
  /-- Writes to a buffer of fixed size. -/
  | buffer (buffer : Buffer)
  /-- Gives everything to a sink that is lent. -/
  | borrowed (inner : Sink)
  /-- Gives what passes a limit to another sink. -/
  | limited (limit : Limit) (inner : Sink)
  deriving DecidableEq, Repr

namespace Sink

/-- A counter at zero. -/
def counter : Sink := .counting 0 0

/-- A buffer with the given contents, to be written from its start. -/
def ofBytes (old : List UInt8) : Sink := .buffer (.ofBytes old)

/-- Appends a text. -/
def append : Sink → List Char → Sink
  | .text chars, more => .text (chars ++ more)
  | .counting bytes chars, more => .counting (bytes + byteLength more) (chars + more.length)
  | .buffer b, more => .buffer (b.append more)
  | .borrowed inner, more => .borrowed (inner.append more)
  | .limited limit inner, more =>
    let (passed, limit) := limit.passText more
    .limited limit (inner.append passed)

/-- Appends a character. -/
def appendChar (sink : Sink) (c : Char) : Sink := sink.append [c]

/-- Appends copies of a character. -/
def appendFill : Sink → Char → Nat → Sink
  | .text chars, c, count => .text (chars ++ List.replicate count c)
  | .counting bytes chars, c, count => .counting (bytes + count * c.utf8Size) (chars + count)
  | .buffer b, c, count => .buffer (b.appendFill c count)
  | .borrowed inner, c, count => .borrowed (inner.appendFill c count)
  | .limited limit inner, c, count =>
    let (count, limit) := limit.passFill c count
    .limited limit (inner.appendFill c count)

/-- Appends a span. -/
def appendSpan (sink : Sink) : Span → Sink
  | .text chars => sink.append chars
  | .fill c count => sink.appendFill c count

/-- Appends output. -/
def absorb (sink : Sink) (spans : List Span) : Sink :=
  spans.foldl appendSpan sink

/-- Appends the chunks of text that some formatting code writes, and reports whether the code
failed after them. -/
def appendChunks (sink : Sink) (chunks : List (List Char)) (failed : Bool) :
    Except FormatError Unit × Sink :=
  (if failed then .error (.unplaced .formatterFailed) else .ok (), chunks.foldl append sink)

/-- The sink's cursor: the bytes a text or counter holds, the bytes a buffer was given, and
for a sink that is lent or behind a limit the cursor of that sink. -/
def position : Sink → Nat
  | .text chars => byteLength chars
  | .counting bytes _ => bytes
  | .buffer b => b.total
  | .borrowed inner => inner.position
  | .limited _ inner => inner.position

/-- The sink that a chain of limits and loans ends in. -/
def innermost : Sink → Sink
  | .borrowed inner => inner.innermost
  | .limited _ inner => inner.innermost
  | sink => sink

end Sink

end BraceFormat
