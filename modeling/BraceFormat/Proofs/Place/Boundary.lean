import BraceFormat.Proofs.Formatter
import BraceFormat.Proofs.Guarded.Bytes
import BraceFormat.Proofs.Output.Destinations

/-!
# Places of errors

The place of an error counts the bytes in front of it, and may be unknown. `FormatError.Within`
says that a place that is known lies between two characters of a text, its end included. The
errors of a computation in steps lie within a text if those of each step do.
-/

namespace BraceFormat

open Guarded

/-! ### Boundaries -/

section Boundaries

variable {s t text rest : List Char} {n : Nat}

/-- The boundaries of a text are its places between characters. -/
theorem isBoundary_iff :
  IsBoundary text n ↔ ∃ rest, At text n rest
  := by
  constructor
  · rintro ⟨front, ⟨rest, rfl⟩, rfl⟩
    exact ⟨rest, front, rfl, rfl⟩
  · rintro ⟨rest, front, rfl, rfl⟩
    exact ⟨front, List.prefix_append front rest, rfl⟩

theorem Guarded.At.isBoundary (h : At text n rest) :
  IsBoundary text n
  := isBoundary_iff.mpr ⟨rest, h⟩

theorem isBoundary_zero (text : List Char) :
  IsBoundary text 0
  := (At.zero text).isBoundary

namespace IsBoundary

theorem le (h : IsBoundary text n) :
  n ≤ byteLength text
  := by
  obtain ⟨rest, hat⟩ := isBoundary_iff.mp h
  have := hat.add_byteLength
  omega

/-- A boundary of a text is one of every text that begins with it. -/
theorem append_right (h : IsBoundary s n) (t : List Char) :
  IsBoundary (s ++ t) n
  := by
  obtain ⟨front, hfront, hn⟩ := h
  exact ⟨front, hfront.trans (List.prefix_append s t), hn⟩

/-- A boundary of a text lies further on behind another text. -/
theorem append_left (h : IsBoundary t n) (s : List Char) :
  IsBoundary (s ++ t) (byteLength s + n)
  := by
  obtain ⟨front, hfront, rfl⟩ := h
  exact ⟨s ++ front, (List.prefix_append_right_inj s).mpr hfront, byteLength_append s front⟩

/-- A boundary within the first of two texts is one of it. -/
theorem of_append_of_lt (h : IsBoundary (s ++ t) n) (hn : n < byteLength s) :
  IsBoundary s n
  := by
  obtain ⟨front, hfront, rfl⟩ := h
  rcases List.prefix_or_prefix_of_prefix hfront (List.prefix_append s t) with hs | ⟨back, rfl⟩
  · exact ⟨front, hs, rfl⟩
  · rw [byteLength_append] at hn
    omega

/-- A boundary behind the first of two texts is one of the second text. -/
theorem of_append_of_le (h : IsBoundary (s ++ t) n) (hn : byteLength s ≤ n) :
  IsBoundary t (n - byteLength s)
  := by
  obtain ⟨front, hfront, rfl⟩ := h
  rcases List.prefix_or_prefix_of_prefix hfront (List.prefix_append s t) with
    ⟨back, rfl⟩ | ⟨back, rfl⟩
  · rw [byteLength_append] at hn ⊢
    rw [Nat.sub_eq_zero_of_le (Nat.le_add_right _ _)]
    apply isBoundary_zero
  · rw [byteLength_append, Nat.add_sub_cancel_left]
    exact ⟨back, (List.prefix_append_right_inj s).mp hfront, rfl⟩

end IsBoundary

/-- A boundary of a part of a text is one of the text, counted from the place of the part. -/
theorem Guarded.At.isBoundary_add {part : List Char} (h : At text n (part ++ rest)) {m : Nat}
    (hm : IsBoundary part m) :
  IsBoundary text (n + m)
  := by
  obtain ⟨front, rfl, rfl⟩ := h
  exact (hm.append_right rest).append_left front

end Boundaries

/-! ### Errors within a text -/

/-- The place of an error, if it is known, lies between two characters of a text. -/
def FormatError.Within (text : List Char) (e : FormatError) : Prop :=
  ∀ place ∈ e.offset, IsBoundary text place

variable {text : List Char} {α β : Type}

theorem FormatError.within_located {kind : ErrorKind} {place : Nat} (h : IsBoundary text place) :
  (located kind place).Within text
  := by
  rintro _ ⟨⟩
  apply h

theorem FormatError.within_unplaced (kind : ErrorKind) (text : List Char) :
  (unplaced kind).Within text
  := by
  rintro _ ⟨⟩

/-- An error of unknown place is put at the start, which is a boundary too. -/
theorem FormatError.Within.getD {e : FormatError} (h : e.Within text) :
  IsBoundary text (e.offset.getD 0)
  := by
  rcases hoffset : e.offset with _ | place
  · apply isBoundary_zero
  · apply h place hoffset

/-- The errors of a computation lie within a text. -/
def ErrorsWithin (text : List Char) (r : Except FormatError α) : Prop :=
  ∀ e, r = .error e → e.Within text

namespace ErrorsWithin

theorem ok (a : α) :
  ErrorsWithin text (.ok a)
  := by
  rintro e ⟨⟩

theorem error {e : FormatError} (h : e.Within text) :
  ErrorsWithin text (.error e : Except FormatError α)
  := by
  rintro _ ⟨⟩
  apply h

/-- The second step need only be looked at where the first one succeeds. -/
theorem bind {r : Except FormatError α} {f : α → Except FormatError β}
    (hr : ErrorsWithin text r) (hf : ∀ a, r = .ok a → ErrorsWithin text (f a)) :
  ErrorsWithin text (r >>= f)
  := by
  cases r with
  | error e => apply error (hr e rfl)
  | ok a => apply hf a rfl

theorem map {r : Except FormatError α} (hr : ErrorsWithin text r) (f : α → β) :
  ErrorsWithin text (r.map f)
  := by
  cases r with
  | error e => apply error (hr e rfl)
  | ok a => apply ok

end ErrorsWithin

namespace Formatter

variable {H : Host}

/-- The errors a formatter fails with lie within a text. -/
def ErrorsWithin (text : List Char) (f : Formatter H α) : Prop :=
  ∀ world e, (f world).result = .error (.error e) → e.Within text

namespace ErrorsWithin

theorem pure (a : α) :
  ErrorsWithin text (Pure.pure a : Formatter H α)
  := by
  rintro _ _ ⟨⟩

theorem write (spans : List Span) :
  ErrorsWithin text (write spans : Formatter H Unit)
  := by
  rintro _ _ ⟨⟩

theorem raise {e : FormatError} (h : e.Within text) :
  ErrorsWithin text (raise e : Formatter H α)
  := by
  rintro _ _ ⟨⟩
  apply h

theorem ofChecked {r : Except FormatError α} (hr : BraceFormat.ErrorsWithin text r) :
  ErrorsWithin text (ofChecked r : Formatter H α)
  := by
  cases r with
  | error e => exact raise (hr e rfl)
  | ok a => exact pure a

theorem bind {f : Formatter H α} {g : α → Formatter H β} (hf : f.ErrorsWithin text)
    (hg : ∀ a, (g a).ErrorsWithin text) :
  ErrorsWithin text (f >>= g)
  := by
  intro world e h
  rcases result_bind_error_iff.mp h with h | ⟨a, _, h⟩
  · apply hf world e h
  · apply hg a _ e h

end ErrorsWithin

end Formatter

end BraceFormat
