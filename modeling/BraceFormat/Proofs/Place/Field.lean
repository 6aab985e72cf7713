import BraceFormat.Proofs.Handler.Failure
import BraceFormat.Proofs.Place.Specifier
import BraceFormat.Proofs.Place.Substitution
import BraceFormat.Proofs.Reference.Conflict
import BraceFormat.Proofs.Rendering.Legal

/-!
# Places in a field

A field of a value that is built in or writes itself as text fails within its specifier. The
handlers find their errors in the text with the references replaced, from where they are traced
back; a value that cannot be rendered, or fails to write itself, is an error of unknown place.
-/

namespace BraceFormat

open Guarded

variable {H : Host}

/-! ### Values that write themselves as text -/

namespace Writer

/-- A writer does not know where it fails. -/
theorem errorsWithin_format (writer : Writer H) (d : Directive) (text : List Char) :
  (writer.format d).ErrorsWithin text
  := by
  intro world e h
  cases failure_of_format h
  apply FormatError.within_unplaced

end Writer

namespace Handler

/-- The specifiers of text are refused within them, with or without the flag `#`. -/
theorem errorsWithin_readTextual (text : List Char) :
  ErrorsWithin text (readTextual text) ∧ ErrorsWithin text (readInspecting text)
  := by
  obtain ⟨herrors, hplaces⟩ := errorsWithin_readStandalone text
  constructor
  · apply ErrorsWithin.bind herrors
    intro d hd
    apply ErrorsWithin.bind (Directive.errorsWithin_check (hplaces d hd) _)
    intro _ _
    apply ErrorsWithin.ok
  · apply ErrorsWithin.bind herrors
    intro d hd
    have hplain : { d with alternate := false }.places.Within text := hplaces d hd
    apply ErrorsWithin.bind (Directive.errorsWithin_check hplain _)
    intro _ _
    apply ErrorsWithin.ok

theorem errorsWithin_display (writer : H.Value → Writer H) (value : H.Value)
    (text : List Char) :
  ((display writer).format value text).ErrorsWithin text
  := by
  rw [display, format_ofReader]
  apply Formatter.ErrorsWithin.bind
  · exact Formatter.ErrorsWithin.ofChecked (errorsWithin_readTextual text).1
  · intro d
    apply Writer.errorsWithin_format

theorem errorsWithin_inspect (writer : Bool → H.Value → Writer H) (value : H.Value)
    (text : List Char) :
  ((inspect writer).format value text).ErrorsWithin text
  := by
  rw [inspect, format_ofReader]
  apply Formatter.ErrorsWithin.bind
  · exact Formatter.ErrorsWithin.ofChecked (errorsWithin_readTextual text).2
  · intro d
    apply Writer.errorsWithin_format

end Handler

/-! ### Fields -/

section Fields

variable {args : Arguments H} {numbering : Numbering}

theorem errorsWithin_formatBuiltin {argument : Argument H} (hargument : argument.IsBuiltin)
    (spec : List Char) (locale : Locale) :
  (formatBuiltin argument spec args locale numbering).ErrorsWithin spec
  := by
  rcases hread : readDirective argument.kind spec args numbering with e | ⟨d, after⟩
  · rw [formatBuiltin, hread]
    exact Formatter.ErrorsWithin.raise (errorsWithin_readDirective _ _ _ _ e hread)
  · obtain ⟨_, _, _, hlegal⟩ := readDirective_iff.mp hread
    rw [formatBuiltin_of_ok hread, Argument.put]
    apply Formatter.ErrorsWithin.bind
    · apply Formatter.ErrorsWithin.bind
      · rcases hrendering : argument.rendering d locale with failure | rendering
        · rintro world e ⟨⟩
          rw [((Argument.rendering_eq_error_iff hargument hlegal).mp hrendering).1]
          apply FormatError.within_unplaced
        · exact Formatter.ErrorsWithin.pure rendering
      · intro rendering
        apply Formatter.ErrorsWithin.write
    · intro _
      exact Formatter.ErrorsWithin.pure after

theorem errorsWithin_formatCustom {value : H.Value} {handler : Handler H}
    (hhandler : (Argument.custom value handler).WritesText) (spec : List Char) :
  (formatCustom value handler spec args numbering).ErrorsWithin spec
  := by
  rcases hread : Substitution.read args spec numbering with ⟨e | parts, after⟩
  · have herrors := Substitution.errorsWithin_read args spec numbering
    rw [hread] at herrors
    rw [formatCustom, hread]
    exact Formatter.ErrorsWithin.raise (herrors e rfl)
  · have hformat : (handler.format value parts.text).ErrorsWithin parts.text := by
      rcases hhandler value handler rfl with ⟨writer, rfl⟩ | ⟨writer, rfl⟩
      · apply Handler.errorsWithin_display
      · apply Handler.errorsWithin_inspect
    rw [formatCustom_of_ok hread]
    apply Formatter.ErrorsWithin.bind
    · intro world e h
      obtain ⟨inner, hinner, rfl⟩ := Formatter.result_mapError_error_iff.mp h
      rw [← source_of_read hread]
      apply Substitution.within_trace (hformat world inner hinner)
    · intro _
      exact Formatter.ErrorsWithin.pure after

/-- A field fails within its specifier. -/
theorem errorsWithin_formatField {argument : Argument H} (hargument : argument.WritesText)
    (spec : List Char) (locale : Locale) :
  (formatField argument spec args locale numbering).ErrorsWithin spec
  := by
  cases argument
  case none => exact Formatter.ErrorsWithin.raise (FormatError.within_unplaced _ _)
  case custom value handler => apply errorsWithin_formatCustom hargument
  all_goals
    apply errorsWithin_formatBuiltin
    exact ⟨nofun, nofun⟩

end Fields

end BraceFormat
