import BraceFormat.Proofs.Guarded.Substitution
import BraceFormat.Proofs.Place.Template

/-!
# Places in a specifier whose references are replaced

A reference that cannot be replaced is an error within the specifier. Where all of them are
replaced, a place between two characters of the text that a handler sees is traced back to one
between two characters of the specifier, however long the numerals are
(`Substitution.isBoundary_writtenOffset`).
-/

namespace BraceFormat

open Guarded

variable {H : Host} {args : Arguments H}

/-! ### References that cannot be replaced -/

/-- A reference that cannot be replaced is an error at its opening brace, or within it. -/
theorem errorsWithin_readAt {spec rest : List Char} {place : Nat} (hat : At spec place rest)
    (numbering : Numbering) :
  ErrorsWithin spec (readAt args place rest numbering).1
  := by
  induction rest using SpecParts.induction generalizing place numbering with
  | literal rest hrest =>
    rw [readAt_literal hrest]
    exact .ok _
  | fault front rest inner hfront hid =>
    rw [readAt_fault hfront hid]
    apply ErrorsWithin.error
    apply FormatError.within_located
    have hinner := hat.advance.advance_char
    rw [← List.append_nil rest] at hinner
    exact hinner.isBoundary_add (ArgId.isBoundary_of_readClosed_error hid)
  | reference front id rest hfront hid ih =>
    have hbrace := hat.advance
    rw [readAt_reference hfront hid]
    rcases numbering.resolve id with kind | ⟨reference, next⟩
    · exact .error (FormatError.within_located hbrace.isBoundary)
    · dsimp only
      rcases args.count? reference with _ | n
      · exact .error (FormatError.within_located hbrace.isBoundary)
      · have hreference : At spec (place + byteLength front)
            ((SpecPart.reference id).source ++ rest) := by
          simpa [SpecPart.source] using hbrace
        exact (ih hreference.advance next).map _

/-- The errors in replacing the references of a specifier lie within it. -/
theorem Substitution.errorsWithin_read (args : Arguments H) (spec : List Char)
    (numbering : Numbering) :
  ErrorsWithin spec (read args spec numbering).1
  := by
  rw [← readAt_zero]
  apply errorsWithin_readAt (At.zero spec)

/-! ### Tracing places back -/

namespace Substitution

/-- A place between characters of the replaced text is traced back to one of the written
text. -/
theorem isBoundary_writtenOffset {parts : Substitution} {place : Nat}
    (h : IsBoundary parts.text place) :
  IsBoundary parts.source (parts.writtenOffset place)
  := by
  induction parts generalizing place with
  | nil => exact h
  | cons part parts ih =>
    have htext : text (part :: parts) = part.text ++ text parts := List.flatMap_cons
    have hsource : source (part :: parts) = part.source ++ source parts := List.flatMap_cons
    rw [htext] at h
    rw [hsource]
    cases part with
    | literal front =>
      rw [writtenOffset]
      split
      · next hlt => exact (h.of_append_of_lt hlt).append_right _
      · next hge => exact (ih (h.of_append_of_le (Nat.le_of_not_lt hge))).append_left _
    | count id n =>
      rw [writtenOffset]
      split
      · apply isBoundary_zero
      · next hge => exact (ih (h.of_append_of_le (Nat.le_of_not_lt hge))).append_left _

/-- An error within the replaced text is traced back to one within the written text. -/
theorem within_trace {parts : Substitution} {e : FormatError} (h : e.Within parts.text) :
  (parts.trace e).Within parts.source
  := by
  intro place hplace
  obtain ⟨inner, hinner, rfl⟩ := Option.map_eq_some_iff.mp hplace
  apply isBoundary_writtenOffset (h inner hinner)

end Substitution

end BraceFormat
