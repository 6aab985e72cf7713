import BraceFormat.Proofs.Guarded.Limit
import BraceFormat.Proofs.Output.Appending

/-!
# Guarded sinks

A sink counts what it is given by numbers of 64 bits, and a buffer is written to in place,
behind what it holds already. Both are guarded: a count may not pass the greatest number, and
no byte outside of the buffer is written. No guard is breached as long as the counts stay
below `2 ^ 64` (`absorb?_eq`).
-/

namespace BraceFormat.Guarded

open Utf8

/-- A sum of 64 bits. -/
def plus? (m n : Nat) : Option Nat := if m + n < UInt64.size then some (m + n) else none

/-- A product of 64 bits. -/
def times? (m n : Nat) : Option Nat := if m * n < UInt64.size then some (m * n) else none

/-- The bytes of a buffer after writing to it from a place on, within the buffer. -/
def overwrite? (bytes : List UInt8) (place : Nat) (more : List UInt8) : Option (List UInt8) :=
  if place + more.length ≤ bytes.length then
    some (bytes.take place ++ more ++ bytes.drop (place + more.length))
  else none

/-- A buffer with the number of bytes written to it and the number of bytes it was given. -/
structure Window where
  bytes : List UInt8
  written : Nat
  total : Nat
  deriving DecidableEq, Repr

namespace Window

/-- Stores as much of a text as fits. Once something has been dropped, nothing is stored. -/
def append? (window : Window) (text : List Char) : Option Window := do
  let total ← plus? window.total (byteLength text)
  let before ← minus? total (byteLength text)
  if window.written < before then return { window with total }
  else
    let room ← minus? window.bytes.length window.written
    let kept ← truncate? (some room) text
    let bytes ← overwrite? window.bytes window.written (encode kept)
    let written ← plus? window.written (byteLength kept)
    return ⟨bytes, written, total⟩

/-- The window on a buffer. -/
def ofBuffer (buffer : Buffer) : Window := ⟨buffer.contents, buffer.written, buffer.total⟩

end Window

/-- A destination of output. -/
inductive Target where
  /-- Keeps the text. -/
  | text (chars : List Char)
  /-- Counts bytes and characters. -/
  | counting (bytes chars : Nat)
  /-- Writes to a buffer. -/
  | window (window : Window)
  /-- Gives everything to a destination that is lent. -/
  | borrowed (inner : Target)
  /-- Gives what passes a limit to another destination. -/
  | limited (limit : Limit) (inner : Target)
  deriving DecidableEq, Repr

namespace Target

/-- Appends a text. -/
def append? : Target → List Char → Option Target
  | .text chars, more => some (.text (chars ++ more))
  | .counting bytes chars, more => do
    let bytes ← plus? bytes (byteLength more)
    let chars ← plus? chars more.length
    return .counting bytes chars
  | .window w, more => (w.append? more).map .window
  | .borrowed inner, more => (inner.append? more).map .borrowed
  | .limited limit inner, more => do
    let (passed, limit) ← passText? limit more
    let inner ← inner.append? passed
    return .limited limit inner

/-- Appends a character so many times. -/
def repeat? (target : Target) (c : Char) : Nat → Option Target
  | 0 => some target
  | count + 1 => do
    let target ← target.append? [c]
    target.repeat? c count

/-- Appends copies of a character. A text makes room for all of them at first, a counter counts
them at once. -/
def appendFill? : Target → Char → Nat → Option Target
  | .text chars, c, count => do
    let _ ← times? count c.utf8Size
    return .text (chars ++ List.replicate count c)
  | .counting bytes chars, c, count => do
    let size ← times? c.utf8Size count
    let bytes ← plus? bytes size
    let chars ← plus? chars count
    return .counting bytes chars
  | .borrowed inner, c, count => (inner.appendFill? c count).map .borrowed
  | target, c, count => target.repeat? c count

/-- Appends a span. -/
def appendSpan? (target : Target) : Span → Option Target
  | .text chars => target.append? chars
  | .fill c count => target.appendFill? c count

/-- Appends output. -/
def absorb? (target : Target) : List Span → Option Target
  | [] => some target
  | span :: spans => do
    let target ← target.appendSpan? span
    target.absorb? spans

/-- The destination that a sink is. -/
def ofSink : Sink → Target
  | .text chars => .text chars
  | .counting bytes chars => .counting bytes chars
  | .buffer b => .window (Window.ofBuffer b)
  | .borrowed inner => .borrowed (ofSink inner)
  | .limited limit inner => .limited limit (ofSink inner)

end Target

theorem plus?_eq {m n : Nat} (h : m + n < UInt64.size) :
  plus? m n = some (m + n)
  := if_pos h

theorem times?_eq {m n : Nat} (h : m * n < UInt64.size) :
  times? m n = some (m * n)
  := if_pos h

/-! ### Buffers -/

theorem length_contents (buffer : Buffer) :
  buffer.contents.length = buffer.old.length
  := by
  have hsize := buffer.stored_le_size
  rw [Buffer.contents, List.length_append, length_encode, List.length_drop, Buffer.written]
  omega

/-- The bytes at the start of a buffer are those of the text stored. -/
theorem take_contents (buffer : Buffer) :
  buffer.contents.take buffer.written = encode buffer.stored
  := by
  rw [Buffer.contents, Buffer.written, ← length_encode]
  apply List.take_left

/-- What fits is written behind what is stored. -/
theorem overwrite?_contents {buffer : Buffer} {kept : List Char}
    (h : byteLength kept ≤ buffer.old.length - buffer.written) :
  overwrite? buffer.contents buffer.written (encode kept) =
    some (encode (buffer.stored ++ kept) ++
      buffer.old.drop (byteLength (buffer.stored ++ kept)))
  := by
  have hsize := buffer.stored_le_size
  have hdrop (n : Nat) :
      buffer.contents.drop (buffer.written + n) = buffer.old.drop (buffer.written + n) := by
    rw [Buffer.contents, ← List.drop_drop, Buffer.written, ← length_encode, List.drop_left,
      List.drop_drop]
  rw [overwrite?, if_pos, take_contents, hdrop, encode_append, length_encode, byteLength_append]
  · rfl
  · rw [length_contents, length_encode]
    rw [Buffer.written] at h ⊢
    omega

/-- No guard is breached at a buffer that was given less than `2 ^ 64` bytes. -/
theorem Window.append?_eq {buffer : Buffer} {text : List Char}
    (h : buffer.total + byteLength text < UInt64.size) :
  (ofBuffer buffer).append? text = some (ofBuffer (buffer.append text))
  := by
  have hsize : buffer.written ≤ buffer.old.length := buffer.stored_le_size
  have htotal := buffer.stored_le_total
  have hroom := byteLength_fitting_le (buffer.old.length - buffer.written) text
  have hpart := byteLength_fitting_le_self (buffer.old.length - buffer.written) text
  have hplus : plus? (ofBuffer buffer).total (byteLength text) = _ := plus?_eq h
  simp only [append?, Option.bind_eq_bind, Option.bind_some, hplus,
    minus?_eq (Nat.le_add_left _ _), Nat.add_sub_cancel]
  by_cases hdropped : buffer.Dropped
  · have hstored := Buffer.stored_append_of_dropped hdropped text
    rw [if_pos (show (ofBuffer buffer).written < (ofBuffer buffer).total from hdropped),
      ofBuffer, ofBuffer, Buffer.contents, Buffer.contents, Buffer.written, Buffer.written, hstored]
    rfl
  · have hstored := Buffer.stored_append_of_not_dropped hdropped text
    have hwritten : (buffer.append text).written =
        buffer.written + byteLength (fitting (buffer.old.length - buffer.written) text) := by
      rw [Buffer.written, hstored, byteLength_append]
      rfl
    have hlt : buffer.written + byteLength (fitting (buffer.old.length - buffer.written) text) <
        UInt64.size := by
      rw [Buffer.written] at hpart ⊢
      omega
    -- What a room holds of a text is what fits.
    have hkept : truncate? (some (buffer.old.length - buffer.written)) text =
        some (fitting (buffer.old.length - buffer.written) text) := by
      rw [truncate?_eq, truncated]
    rw [if_neg (show ¬(ofBuffer buffer).written < (ofBuffer buffer).total from hdropped), ofBuffer]
    simp only [length_contents, minus?_eq hsize, Option.bind_some, hkept, overwrite?_contents hroom,
      plus?_eq hlt]
    rw [ofBuffer, Buffer.contents, hwritten, hstored, byteLength_append]
    rfl

/-! ### Sinks -/

/-- The counts of a sink stay below `2 ^ 64` when it is given so many bytes more. -/
def Fits : Sink → Nat → Prop
  | .text chars, n => byteLength chars + n < UInt64.size
  | .counting bytes chars, n => bytes + n < UInt64.size ∧ chars + n < UInt64.size
  | .buffer b, n => b.total + n < UInt64.size
  | .borrowed inner, n => Fits inner n
  | .limited _ inner, n => Fits inner n

namespace Fits

variable {sink : Sink}

/-- What fits less output than some fits that one. -/
theorem mono {m n : Nat} (h : Fits sink n) (hle : m ≤ n) :
  Fits sink m
  := by
  induction sink with
  | text chars => exact Nat.lt_of_le_of_lt (Nat.add_le_add_left hle _) h
  | counting bytes chars =>
    obtain ⟨hbytes, hchars⟩ := h
    constructor
    · exact Nat.lt_of_le_of_lt (Nat.add_le_add_left hle _) hbytes
    · exact Nat.lt_of_le_of_lt (Nat.add_le_add_left hle _) hchars
  | buffer b => exact Nat.lt_of_le_of_lt (Nat.add_le_add_left hle _) h
  | borrowed inner ih => exact ih h
  | limited limit inner ih => exact ih h

/-- What is left to be given fits after a first part has been given. -/
theorem append {text : List Char} {n : Nat} (h : Fits sink (byteLength text + n)) :
  Fits (sink.append text) n
  := by
  induction sink generalizing text with
  | text chars =>
    change byteLength (chars ++ text) + n < _
    rw [byteLength_append, Nat.add_assoc]
    apply h
  | counting bytes chars =>
    obtain ⟨hbytes, hchars⟩ := h
    have hlength := length_le_byteLength text
    constructor
    · rw [Nat.add_assoc]
      apply hbytes
    · omega
  | buffer b =>
    change b.total + byteLength text + n < _
    rw [Nat.add_assoc]
    apply h
  | borrowed inner ih => exact ih h
  | limited limit inner ih =>
    apply ih
    apply h.mono
    apply Nat.add_le_add_right (limit.byteLength_passText_le text)

end Fits

namespace Target

variable {sink : Sink}

theorem append?_eq {text : List Char} (h : Fits sink (byteLength text)) :
  (ofSink sink).append? text = some (ofSink (sink.append text))
  := by
  induction sink generalizing text with
  | text chars => rfl
  | counting bytes chars =>
    obtain ⟨hbytes, hchars⟩ := h
    have hlength := length_le_byteLength text
    rw [ofSink, append?, plus?_eq hbytes, plus?_eq (by omega)]
    rfl
  | buffer b =>
    rw [ofSink, append?, Window.append?_eq h]
    rfl
  | borrowed inner ih =>
    rw [ofSink, append?, ih h]
    rfl
  | limited limit inner ih =>
    have hinner := h.mono (limit.byteLength_passText_le text)
    rw [ofSink, append?, passText?_eq]
    simp only [Option.bind_eq_bind, Option.bind_some, ih hinner]
    rfl

/-- Copies given one by one make the text of all of them. -/
theorem repeat?_eq {c : Char} {count : Nat} (h : Fits sink (count * c.utf8Size)) :
  (ofSink sink).repeat? c count = some (ofSink (sink.append (List.replicate count c)))
  := by
  induction count generalizing sink with
  | zero =>
    rw [repeat?, List.replicate_zero, Sink.append_nil]
  | succ count ih =>
    have hsum : Fits sink (byteLength [c] + count * c.utf8Size) := by
      rw [Nat.succ_mul, Nat.add_comm] at h
      apply h
    have hone := append?_eq (hsum.mono (Nat.le_add_right _ _))
    simp only [repeat?, hone, Option.bind_eq_bind, Option.bind_some]
    rw [ih hsum.append, Sink.append_append]
    rfl

theorem appendFill?_eq {c : Char} {count : Nat} (h : Fits sink (count * c.utf8Size)) :
  (ofSink sink).appendFill? c count = some (ofSink (sink.appendFill c count))
  := by
  induction sink with
  | text chars =>
    have hsize : count * c.utf8Size < UInt64.size :=
      Nat.lt_of_le_of_lt (Nat.le_add_left _ _) h
    rw [ofSink, appendFill?, times?_eq hsize]
    rfl
  | counting bytes chars =>
    obtain ⟨hbytes, hchars⟩ := h
    have hpos := Nat.le_mul_of_pos_right count c.utf8Size_pos
    rw [Nat.mul_comm] at hbytes
    rw [ofSink, appendFill?, times?_eq (Nat.lt_of_le_of_lt (Nat.le_add_left _ _) hbytes)]
    simp only [Option.bind_eq_bind, Option.bind_some]
    rw [plus?_eq hbytes, plus?_eq (by omega), Nat.mul_comm]
    rfl
  | buffer b =>
    rw [Sink.appendFill_eq_append]
    apply repeat?_eq h
  | borrowed inner ih =>
    rw [ofSink, appendFill?, ih h]
    rfl
  | limited limit inner _ =>
    rw [Sink.appendFill_eq_append]
    apply repeat?_eq h

theorem appendSpan?_eq {span : Span} (h : Fits sink (byteLength span.toList)) :
  (ofSink sink).appendSpan? span = some (ofSink (sink.appendSpan span))
  := by
  cases span with
  | text chars => apply append?_eq h
  | fill c count =>
    rw [Span.toList, byteLength_replicate] at h
    apply appendFill?_eq h

/-- No guard is breached at a sink whose counts stay below `2 ^ 64`. -/
theorem absorb?_eq {spans : List Span} (h : Fits sink (byteLength (outputText spans))) :
  (ofSink sink).absorb? spans = some (ofSink (sink.absorb spans))
  := by
  induction spans generalizing sink with
  | nil => rfl
  | cons span spans ih =>
    rw [outputText_cons, byteLength_append] at h
    have hrest : Fits (sink.appendSpan span) (byteLength (outputText spans)) := by
      rw [Sink.appendSpan_eq_append]
      apply h.append
    simp only [absorb?, appendSpan?_eq (h.mono (Nat.le_add_right _ _)), Option.bind_eq_bind,
      Option.bind_some]
    apply ih hrest

end Target

end BraceFormat.Guarded
