import BraceFormat.Call
import BraceFormat.Proofs.Output.Appending
import BraceFormat.Proofs.Utf8
import Mathlib.Order.Bounds.Defs
import Mathlib.Tactic.Use

/-!
# Destinations of a call

The same call may put its output into a text, into a growing text that is given, into a
counter, or into a buffer of fixed size. The destination changes nothing about the call: all
of them succeed or fail together, and with the same error, and what each of them holds in the
end is determined by the text of the output (`destinations_agree`).

A buffer holds the longest beginning of the text that fits, that is, the text up to the
greatest of its boundaries within the buffer.
-/

namespace BraceFormat

/-- A number of bytes after which a text can be cut between two characters. -/
def IsBoundary (text : List Char) (n : Nat) : Prop :=
  ∃ s, s <+: text ∧ byteLength s = n

/-- What fits ends at the greatest boundary within the limit. -/
theorem isGreatest_fitting (limit : Nat) (text : List Char) :
  IsGreatest {n | IsBoundary text n ∧ n ≤ limit} (byteLength (fitting limit text))
  := by
  constructor
  · constructor
    · use fitting limit text, fitting_prefix_self limit text
    · apply byteLength_fitting_le
  · rintro n ⟨⟨s, hs, rfl⟩, hn⟩
    apply byteLength_le_fitting hs hn

/-- A new buffer holds what fits of the output, and counts all of it. -/
theorem Buffer.absorb_new (old : List UInt8) (spans : List Span) :
  ((ofBytes old).absorb spans).stored = fitting old.length (outputText spans) ∧
    ((ofBytes old).absorb spans).total = byteLength (outputText spans)
  := by
  have hnew : ¬(ofBytes old).Dropped := Nat.lt_irrefl 0
  rw [absorb_eq_append]
  constructor
  · apply stored_append_of_not_dropped hnew
  · rw [total_append]
    apply Nat.zero_add

/-- The contents of a new buffer after some output: the first bytes of the output, up to the
end of what fits, and then the old bytes. -/
theorem Buffer.contents_absorb_new (old : List UInt8) (spans : List Span) :
  ((ofBytes old).absorb spans).contents =
    (Utf8.encode (outputText spans)).take (byteLength (fitting old.length (outputText spans))) ++
      old.drop (byteLength (fitting old.length (outputText spans)))
  := by
  have hold : ((ofBytes old).absorb spans).old = old := by
    rw [absorb_eq_append]
    rfl
  rw [contents, written, (absorb_new old spans).1, hold, Utf8.take_encode]
  apply fitting_prefix_self

/-- The position of a counter after some output is the number of its bytes. -/
theorem Sink.position_counter_absorb (spans : List Span) :
  (counter.absorb spans).position = byteLength (outputText spans)
  := by
  rw [absorb_eq_append]
  apply Nat.zero_add

variable {H : Host}

/-- The destinations of a call agree. If formatting to a text gives `s`, then the size is that
of `s`, a given text `p` becomes `p ++ s`, and a buffer holds the bytes of `s` up to the
greatest boundary within the buffer, where its old bytes go on; both sizes are told. If it
fails, then the others fail in the same way. -/
theorem destinations_agree (template : List Char) (args : Arguments H) (world : World H)
    (p : List Char) (old : List UInt8) :
  match (formatText template args world).result with
  | .ok s =>
    (formattedSize template args world).result = .ok (byteLength s) ∧
      (formatInto (.text p) template args world).2.result = .ok () ∧
      (formatInto (.text p) template args world).1 = .text (p ++ s) ∧
      ∃ w, IsGreatest {n | IsBoundary s n ∧ n ≤ old.length} w ∧
        (formatBuffer old template args world).2.result = .ok ⟨byteLength s, w⟩ ∧
        (formatBuffer old template args world).1.contents =
          (Utf8.encode s).take w ++ old.drop w
  | .error failure =>
    (formattedSize template args world).result = .error failure ∧
      (formatInto (.text p) template args world).2.result = .error failure ∧
      (formatBuffer old template args world).2.result = .error failure
  := by
  simp only [formatText, formattedSize, formatInto, formatBuffer, Formatter.into,
    Emission.outcome]
  obtain ⟨spans, events, after, failure | value⟩ := run template args none world
  · exact ⟨rfl, rfl, rfl⟩
  · obtain ⟨hstored, htotal⟩ := Buffer.absorb_new old spans
    refine ⟨?_, rfl, ?_, byteLength (fitting old.length (outputText spans)), ?_, ?_, ?_⟩
    · exact congrArg Except.ok (Sink.position_counter_absorb spans)
    · apply Sink.absorb_eq_append
    · apply isGreatest_fitting
    · simp only [Except.map, Buffer.written, hstored, htotal]
    · apply Buffer.contents_absorb_new

end BraceFormat
