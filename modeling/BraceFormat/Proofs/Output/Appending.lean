import BraceFormat.Output.Sink

/-!
# Output in parts

What becomes of output depends on its text alone, not on the spans it comes in. A limit lets
the same text through and is left the same (`Limit.passAll_eq`), and every sink takes the
spans as it would take their text at once (`Sink.absorb_eq_append`).
-/

namespace BraceFormat

/-! ### Limits -/

namespace Limit

/-- A limit is left the same by two texts as by both at once, and lets the same text
through. -/
theorem passText_append (limit : Limit) (s t : List Char) :
  limit.passText (s ++ t) =
    ((limit.passText s).1 ++ ((limit.passText s).2.passText t).1,
      ((limit.passText s).2.passText t).2)
  := by
  cases limit with
  | none => rfl
  | some room =>
    by_cases hs : byteLength s ≤ room
    · by_cases ht : byteLength t ≤ room - byteLength s
      · have hst : byteLength s + byteLength t ≤ room := by omega
        simp only [passText, byteLength_append, if_pos hs, if_pos ht, if_pos hst, Nat.sub_sub]
      · have hst : ¬byteLength s + byteLength t ≤ room := by omega
        simp only [passText, byteLength_append, if_pos hs, if_neg ht, if_neg hst, fitting_append]
    · have hst : ¬byteLength s + byteLength t ≤ room := by omega
      -- Once something has been cut, the limit is zero and only the empty text passes.
      have hzero : passText (some 0) t = ([], some 0) := by
        rw [passText, fitting_zero, Nat.zero_sub]
        split
        · next h => rw [← fitting_of_byteLength_le h, fitting_zero]
        · rfl
      rw [passText, passText, if_neg hs, hzero, byteLength_append, if_neg hst, fitting_append,
        if_neg hs, List.append_nil]

/-- Copies of a character pass as the text they make. -/
theorem passFill_eq_passText (limit : Limit) (c : Char) (count : Nat) :
  limit.passText (List.replicate count c) =
    (List.replicate (limit.passFill c count).1 c, (limit.passFill c count).2)
  := by
  cases limit with
  | none => rfl
  | some room =>
    simp only [passText, passFill, byteLength_replicate]
    by_cases h : count * c.utf8Size ≤ room
    · simp only [if_pos h]
    · have hle : room / c.utf8Size ≤ count := by
        apply Nat.le_of_lt
        rw [Nat.div_lt_iff_lt_mul c.utf8Size_pos]
        omega
      simp only [if_neg h, fitting_replicate, Nat.min_eq_right hle]

/-- A span passes as its text. -/
theorem pass_eq_passText (limit : Limit) (span : Span) :
  limit.passText span.toList = ((limit.pass span).1.toList, (limit.pass span).2)
  := by
  cases span with
  | text chars => rfl
  | fill c count => apply passFill_eq_passText

/-- The empty text passes, and leaves the limit as it is. -/
theorem passText_nil (limit : Limit) :
  limit.passText [] = ([], limit)
  := by
  cases limit with
  | none => rfl
  | some room => simp [passText]

/-- What passes is no longer than the text. -/
theorem byteLength_passText_le (limit : Limit) (text : List Char) :
  byteLength (limit.passText text).1 ≤ byteLength text
  := by
  cases limit with
  | none => apply Nat.le_refl
  | some room =>
    rw [passText]
    split
    · apply Nat.le_refl
    · apply byteLength_fitting_le_self

/-- Output passes as its text. -/
theorem passAll_eq (limit : Limit) (spans : List Span) :
  limit.passText (outputText spans) =
    (outputText (limit.passAll spans).1, (limit.passAll spans).2)
  := by
  induction spans generalizing limit with
  | nil => apply passText_nil
  | cons span spans ih =>
    simp only [outputText_cons, passText_append, pass_eq_passText, passAll, ih]

end Limit

/-! ### Buffers -/

namespace Buffer

/-- Buffers are equal that hold the same and were given as much. -/
theorem ext_of_eq {a b : Buffer} (hold : a.old = b.old) (hstored : a.stored = b.stored)
    (htotal : a.total = b.total) :
  a = b
  := by
  obtain ⟨old, stored, total, _, _⟩ := a
  obtain ⟨old', stored', total', _, _⟩ := b
  obtain rfl := hold
  obtain rfl := hstored
  obtain rfl := htotal
  rfl

/-- Whether a buffer had to drop something. -/
def Dropped (buffer : Buffer) : Prop := buffer.written < buffer.total

theorem stored_append_of_dropped {buffer : Buffer} (h : buffer.Dropped) (text : List Char) :
  (buffer.append text).stored = buffer.stored
  := if_pos h

theorem stored_append_of_not_dropped {buffer : Buffer} (h : ¬buffer.Dropped)
    (text : List Char) :
  (buffer.append text).stored =
    buffer.stored ++ fitting (buffer.old.length - buffer.written) text
  := if_neg h

theorem total_append (buffer : Buffer) (text : List Char) :
  (buffer.append text).total = buffer.total + byteLength text
  := rfl

/-- After a text a buffer has dropped something if it had before, or if the text did not
fit. -/
theorem dropped_append_iff (buffer : Buffer) (text : List Char) :
  (buffer.append text).Dropped ↔
    buffer.Dropped ∨ buffer.old.length - buffer.written < byteLength text
  := by
  have htotal := buffer.stored_le_total
  by_cases h : buffer.Dropped
  · simp only [Dropped, written, stored_append_of_dropped h, total_append] at h ⊢
    omega
  · rw [Dropped, written, stored_append_of_not_dropped h, total_append, byteLength_append]
    simp only [Dropped, written] at h ⊢
    by_cases hfit : byteLength text ≤ buffer.old.length - byteLength buffer.stored
    · rw [fitting_of_byteLength_le hfit]
      omega
    · have := byteLength_fitting_le (buffer.old.length - byteLength buffer.stored) text
      omega

/-- A buffer takes two texts as it takes both at once. -/
theorem append_append (buffer : Buffer) (s t : List Char) :
  (buffer.append s).append t = buffer.append (s ++ t)
  := by
  apply ext_of_eq
  · rfl
  · by_cases h : buffer.Dropped
    · have hs : (buffer.append s).Dropped := (dropped_append_iff buffer s).mpr (.inl h)
      rw [stored_append_of_dropped hs, stored_append_of_dropped h, stored_append_of_dropped h]
    · rw [stored_append_of_not_dropped h, fitting_append]
      by_cases hfit : byteLength s ≤ buffer.old.length - buffer.written
      · have hs : ¬(buffer.append s).Dropped := by
          rw [dropped_append_iff]
          rintro (hd | hr)
          · apply h hd
          · omega
        have hroom : (buffer.append s).old.length - (buffer.append s).written =
            buffer.old.length - buffer.written - byteLength s := by
          rw [written, stored_append_of_not_dropped h, byteLength_append,
            fitting_of_byteLength_le hfit, ← Nat.sub_sub]
          rfl
        rw [if_pos hfit, stored_append_of_not_dropped hs, hroom, stored_append_of_not_dropped h,
          fitting_of_byteLength_le hfit, List.append_assoc]
      · have hs : (buffer.append s).Dropped := by
          rw [dropped_append_iff]
          omega
        rw [if_neg hfit, stored_append_of_dropped hs, stored_append_of_not_dropped h]
  · simp only [total_append, byteLength_append, Nat.add_assoc]

/-- A buffer takes copies of a character as the text they make. -/
theorem appendFill_eq_append (buffer : Buffer) (c : Char) (count : Nat) :
  buffer.appendFill c count = buffer.append (List.replicate count c)
  := by
  apply ext_of_eq
  · rfl
  · simp only [appendFill, append, fitting_replicate]
  · simp only [appendFill, total_append, byteLength_replicate]

/-- The empty text leaves a buffer as it is. -/
theorem append_nil (buffer : Buffer) :
  buffer.append [] = buffer
  := by
  apply ext_of_eq
  · rfl
  · simp [append, fitting]
  · rfl

/-- A buffer takes a span as its text. -/
theorem appendSpan_eq_append (buffer : Buffer) (span : Span) :
  buffer.appendSpan span = buffer.append span.toList
  := by
  cases span with
  | text chars => rfl
  | fill c count => apply appendFill_eq_append

/-- A buffer takes output as it takes its text. -/
theorem absorb_eq_append (buffer : Buffer) (spans : List Span) :
  buffer.absorb spans = buffer.append (outputText spans)
  := by
  induction spans generalizing buffer with
  | nil => rw [outputText_nil, append_nil]; rfl
  | cons span spans ih =>
    rw [outputText_cons, ← append_append, ← appendSpan_eq_append, ← ih]
    rfl

end Buffer

/-! ### Sinks -/

namespace Sink

/-- A sink takes two texts as it takes both at once. -/
theorem append_append (sink : Sink) (s t : List Char) :
  (sink.append s).append t = sink.append (s ++ t)
  := by
  induction sink generalizing s t with
  | text chars => simp only [append, List.append_assoc]
  | counting bytes chars =>
    simp only [append, byteLength_append, List.length_append, Nat.add_assoc]
  | buffer b => simp only [append, Buffer.append_append]
  | borrowed inner ih => simp only [append, ih]
  | limited limit inner ih => simp only [append, Limit.passText_append, ih]

/-- A sink takes copies of a character as the text they make. -/
theorem appendFill_eq_append (sink : Sink) (c : Char) (count : Nat) :
  sink.appendFill c count = sink.append (List.replicate count c)
  := by
  induction sink generalizing count with
  | text chars => rfl
  | counting bytes chars =>
    simp only [append, appendFill, byteLength_replicate, List.length_replicate]
  | buffer b => simp only [append, appendFill, Buffer.appendFill_eq_append]
  | borrowed inner ih => simp only [append, appendFill, ih]
  | limited limit inner ih => simp only [append, appendFill, Limit.passFill_eq_passText, ih]

/-- The empty text leaves a sink as it is. -/
theorem append_nil (sink : Sink) :
  sink.append [] = sink
  := by
  induction sink with
  | text chars => simp only [append, List.append_nil]
  | counting bytes chars => rfl
  | buffer b => simp only [append, Buffer.append_nil]
  | borrowed inner ih => simp only [append, ih]
  | limited limit inner ih => simp only [append, Limit.passText_nil, ih]

/-- A sink takes a span as its text. -/
theorem appendSpan_eq_append (sink : Sink) (span : Span) :
  sink.appendSpan span = sink.append span.toList
  := by
  cases span with
  | text chars => rfl
  | fill c count => apply appendFill_eq_append

/-- A sink takes output as it takes its text. -/
theorem absorb_eq_append (sink : Sink) (spans : List Span) :
  sink.absorb spans = sink.append (outputText spans)
  := by
  induction spans generalizing sink with
  | nil => rw [outputText_nil, append_nil]; rfl
  | cons span spans ih =>
    rw [outputText_cons, ← append_append, ← appendSpan_eq_append, ← ih]
    rfl

end Sink

end BraceFormat
