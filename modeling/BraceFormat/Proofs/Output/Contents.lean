import BraceFormat.Proofs.Guarded.Requests

/-!
# Contents of sinks

What a sink holds after some requests depends on their text alone. A text has grown by it, a
counter has counted it, and a buffer holds the longest beginning of it that fits. A limit has
handed on the longest beginning that it lets through, to a sink of whatever kind
(`Sink.contents_serveAll`). The counts are of 64 bits: requests whose text they cannot count
breach a guard.
-/

namespace BraceFormat

open Guarded

/-! ### The bytes of a buffer -/

namespace Buffer

/-- The text that the bytes written to a buffer are in UTF-8, or nothing if they are none. -/
def writtenText (buffer : Buffer) : String :=
  (String.fromUTF8? (buffer.contents.take buffer.written).toByteArray).getD ""

/-- The first bytes of a buffer are those of the text stored. -/
theorem take_contents (buffer : Buffer) :
  buffer.contents.take buffer.written = Utf8.encode buffer.stored
  := by
  rw [contents, written, ← Utf8.length_encode]
  apply List.take_left

/-- The bytes written are those of the text stored, and are read as this text. -/
theorem writtenText_eq (buffer : Buffer) :
  buffer.writtenText = String.ofList buffer.stored
  := by
  have hvalid : (Utf8.encode buffer.stored).toByteArray.IsValidUTF8 := .intro buffer.stored rfl
  rw [writtenText, take_contents, String.fromUTF8?, dif_pos hvalid]
  rfl

/-- A new buffer stores what fits of a text. -/
theorem stored_append_new (old : List UInt8) (text : List Char) :
  ((ofBytes old).append text).stored = fitting old.length text
  := by
  have hnew : ¬(ofBytes old).Dropped := Nat.lt_irrefl 0
  apply stored_append_of_not_dropped hnew

end Buffer

/-! ### What sinks hold -/

/-- What a sink holds after some requests depends on their text alone. A text has grown by it, and
a counter has counted its bytes and its characters, or breaches a guard if these are too many. A
buffer holds the longest beginning of it that fits, whose bytes are read back as this text, and
behind these its old bytes. A sink that is lent is served itself. A limit hands on the longest
beginning that it lets through, in texts that are the same for the sinks here and for any other
kind of sink. Where no guard is breached, all this is what becomes of the sinks themselves. -/
theorem Sink.contents_serveAll (requests : List Request) :
  let text := requestedText requests
  (∀ p, byteLength (p ++ text) < UInt64.size →
    (Target.text p).serveAll? requests = some (.text (p ++ text))) ∧
  (∀ bytes chars, bytes < UInt64.size → chars < UInt64.size →
    (Target.counting bytes chars).serveAll? requests =
      if bytes + byteLength text < UInt64.size ∧ chars + text.length < UInt64.size then
        some (.counting (bytes + byteLength text) (chars + text.length))
      else none) ∧
  (∀ old, byteLength text < UInt64.size →
    ∃ b s, (Target.ofSink (buffer (.ofBytes old))).serveAll? requests =
        some (.ofSink (.buffer b)) ∧
      IsLongestWithin (some old.length) text s ∧ b.written = byteLength s ∧
      b.contents = Utf8.encode s ++ old.drop (byteLength s) ∧
      b.writtenText = String.ofList s) ∧
  (∀ inner, (Target.borrowed inner).serveAll? requests =
    (inner.serveAll? requests).map .borrowed) ∧
  (∀ limit, ∃ (rest : Limit) (passed : List (List Char)),
    IsLongestWithin limit text passed.flatten ∧
    (∀ inner, (Target.limited limit inner).serveAll? requests =
      (passed.foldlM Target.append? inner).map (.limited rest)) ∧
    ∀ (σ : Type) (append? : σ → List Char → Option σ) (inner : σ),
      (requests.flatMap Request.texts).foldlM (handOn? append?) (limit, inner) =
        (passed.foldlM append? inner).map (rest, ·)) ∧
  ∀ sink target, (Target.ofSink sink).serveAll? requests = some target →
    target = .ofSink (sink.serveAll requests)
  := by
  intro text
  refine ⟨fun p hp => ?_, fun bytes chars hbytes hchars => ?_, fun old hold => ?_,
    fun inner => ?_, fun limit => ?_, fun sink target => Target.of_serveAll?⟩
  · have hfits : Fits (.text p) (byteLength text) := by
      rw [byteLength_append] at hp
      apply hp
    change (Target.ofSink (.text p)).serveAll? requests = _
    rw [Target.serveAll?_eq hfits, serveAll_eq_append]
    rfl
  · apply Target.serveAll?_counting hbytes hchars
  · have hfits : Fits (buffer (.ofBytes old)) (byteLength text) := by
      change 0 + byteLength text < _
      rwa [Nat.zero_add]
    have hstored := Buffer.stored_append_new old text
    refine ⟨(Buffer.ofBytes old).append text, fitting old.length text, ?_,
      isLongestWithin_truncated (some old.length) text, ?_, ?_, ?_⟩
    · rw [Target.serveAll?_eq hfits, serveAll_eq_append]
      rfl
    · rw [Buffer.written, hstored]
    · rw [Buffer.contents, Buffer.written, hstored]
      rfl
    · rw [Buffer.writtenText_eq, hstored]
  · apply foldlM_wrap Target.serve?_borrowed
  · obtain ⟨rest, passed, hpassed, hlimited, hhanded⟩ :=
      Target.exists_serveAll?_limited limit requests
    refine ⟨rest, passed, ?_, hlimited, hhanded⟩
    rw [hpassed]
    apply isLongestWithin_truncated

/-- A text that comes in parts, the last of which from code that fails behind it, is held, counted
and stored as one. Copies that take `2 ^ 65 - 2` bytes are too many for a counter. -/
theorem Sink.contents_serveAll_parts :
  let requests := [.append ['a'], .fill 'é' 2, .formatted [['b'], []] true]
  (Target.text ['-']).serveAll? requests = some (.text ['-', 'a', 'é', 'é', 'b']) ∧
  (Target.counting 0 0).serveAll? requests = some (.counting 6 4) ∧
  (∃ b s, (Target.ofSink (buffer (.ofBytes [0, 0, 0, 0]))).serveAll? requests =
      some (.ofSink (.buffer b)) ∧
    IsLongestWithin (some 4) ['a', 'é', 'é', 'b'] s ∧ b.writtenText = String.ofList s) ∧
  (Target.counting 0 0).serveAll? [.fill 'é' 18446744073709551615] = none
  := by
  intro requests
  obtain ⟨htext, hcount, hbuffer, _⟩ := contents_serveAll requests
  obtain ⟨_, hcopies, _⟩ := contents_serveAll [.fill 'é' 18446744073709551615]
  obtain ⟨b, s, hserved, hlongest, _, _, hwritten⟩ := hbuffer [0, 0, 0, 0] (by decide)
  refine ⟨htext ['-'] (by decide), hcount 0 0 (by decide) (by decide),
    ⟨b, s, hserved, hlongest, hwritten⟩, ?_⟩
  rw [hcopies 0 0 (by decide) (by decide), if_neg]
  rw [requestedText, List.flatMap_singleton, Request.text_fill, byteLength_replicate]
  rintro ⟨hbytes, _⟩
  revert hbytes
  decide

end BraceFormat
