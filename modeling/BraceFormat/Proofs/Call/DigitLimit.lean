import BraceFormat.Call
import BraceFormat.Proofs.Field
import BraceFormat.Proofs.Handler.Failure
import BraceFormat.Proofs.Template.Concatenation

/-!
# Calls that are cut short

A call is cut short if it comes to a field of a finite number whose directive asks for more
digits than are ever generated, and in no other way (`run_cutShort_iff`). The handlers of
values that write themselves as text cut no call short.
-/

namespace BraceFormat

variable {H : Host} {α β : Type}

/-! ### Formatters -/

/-- A formatter is cut short in a world. -/
def Formatter.CutShort (f : Formatter H α) (world : World H) : Prop :=
  (f world).result = .error .tooManyDigits

namespace Formatter

variable {world : World H}

theorem not_cutShort_write (spans : List Span) :
  ¬CutShort (write spans : Formatter H Unit) world
  := by
  rintro ⟨⟩

theorem not_cutShort_raise (e : FormatError) :
  ¬CutShort (raise e : Formatter H α) world
  := by
  rintro ⟨⟩

/-- One formatter after another is cut short if the first one is, or the second one after it. -/
theorem cutShort_bind_iff {f : Formatter H α} {g : α → Formatter H β} :
  CutShort (f >>= g) world ↔
    CutShort f world ∨ ∃ a, (f world).result = .ok a ∧ CutShort (g a) (f world).world
  := result_bind_error_iff

theorem cutShort_mapError_iff {k : FormatError → FormatError} {f : Formatter H α} :
  CutShort (mapError k f) world ↔ CutShort f world
  := by
  rw [CutShort, CutShort]
  change (f world).result.mapError (Failure.mapError k) = _ ↔ _
  rcases (f world).result with (e | _) | a
  · constructor <;> rintro ⟨⟩
  · exact ⟨fun _ => rfl, fun _ => rfl⟩
  · constructor <;> rintro ⟨⟩

theorem cutShort_reportingError_iff {f : Formatter H α} :
  CutShort (reportingError f) world ↔ CutShort f world
  := by
  simp only [CutShort, reportingError]
  split
  · next h => simp [h]
  · rfl

theorem cutShort_globalLocale_bind_iff {g : Locale → Formatter H α} :
  CutShort (globalLocale >>= g) world ↔ CutShort (g world.globalLocale) world
  := Iff.rfl

theorem cutShort_report_bind_iff {event : Event} {f : Formatter H α} :
  CutShort (report event >>= fun _ => f) world ↔ CutShort f world
  := Iff.rfl

/-- Giving up the value of a formatter does not cut it short. -/
theorem cutShort_discard_iff {f : Formatter H α} :
  CutShort (discard f) world ↔ CutShort f world
  := by
  change CutShort (f >>= fun _ => Pure.pure ()) world ↔ _
  rw [cutShort_bind_iff]
  constructor
  · rintro (h | ⟨_, _, ⟨⟩⟩)
    apply h
  · intro h
    left
    apply h

theorem cutShort_ofChecked_bind_iff {r : Except FormatError α} {g : α → Formatter H β} :
  CutShort (ofChecked r >>= g) world ↔ ∃ a, r = .ok a ∧ CutShort (g a) world
  := by
  cases r with
  | error e =>
    constructor
    · rintro ⟨⟩
    · rintro ⟨_, ⟨⟩, _⟩
  | ok a =>
    constructor
    · intro h
      exact ⟨a, rfl, h⟩
    · rintro ⟨_, ⟨⟩, h⟩
      apply h

end Formatter

/-! ### Numbers -/

/-- The precision that digits are generated with for a finite number. The shortest form needs
none, and the general form generates one digit less than it shows. -/
def Directive.digitsAsked (d : Directive) : Nat :=
  match d.presentation with
  | none | some .locale => d.precision.elim 0 fun p => max 1 p - 1
  | some .general | some .generalUpper => max 1 (d.precision.getD defaultPrecision) - 1
  | _ => d.precision.getD defaultPrecision

theorem withinDigits_eq_tooManyDigits_iff {precision : Nat} {text : Unit → List Char} :
  withinDigits precision text = .error .tooManyDigits ↔ digitLimit < precision
  := by
  rw [withinDigits]
  split
  · next h => simp [h]
  · next h => simp [Nat.lt_of_not_le h]

theorem plainForm_eq_tooManyDigits_iff {precision : Option Nat} {alternate : Bool}
    {magnitude : Nat} :
  plainForm precision alternate magnitude = .error .tooManyDigits ↔
    digitLimit < precision.elim 0 fun p => max 1 p - 1
  := by
  cases precision with
  | none =>
    constructor
    · rintro ⟨⟩
    · intro h
      cases h
  | some p =>
    rw [plainForm, Option.elim_some]
    apply withinDigits_eq_tooManyDigits_iff

/-- A finite number is cut short just if its directive asks for too many digits. -/
theorem floatBody_eq_tooManyDigits_iff {d : Directive} (hd : d.check .float = .ok ())
    {locale : Locale} {magnitude : Nat} :
  floatBody d locale magnitude = .error .tooManyDigits ↔ digitLimit < d.digitsAsked
  := by
  have hmap (r : Except Failure (List Char)) :
      r.map locale.localize = .error .tooManyDigits ↔ r = .error .tooManyDigits := by
    cases r <;> simp [Except.map]
  rw [Directive.check] at hd
  rcases hp : d.presentation with _ | presentation
  · simp only [floatBody, Directive.digitsAsked, hp]
    apply plainForm_eq_tooManyDigits_iff
  · rw [hp] at hd
    cases presentation
    case locale =>
      simp only [floatBody, Directive.digitsAsked, hp, hmap]
      apply plainForm_eq_tooManyDigits_iff
    all_goals
      simp only [floatBody, Directive.digitsAsked, hp]
      first | apply withinDigits_eq_tooManyDigits_iff | cases hd

/-- Only a finite number is cut short. -/
theorem Argument.rendering_eq_tooManyDigits_iff {argument : Argument H} {d : Directive}
    (hd : d.check argument.kind = .ok ()) {locale : Locale} :
  argument.rendering d locale = .error .tooManyDigits ↔
    ∃ v, argument = .float v ∧ v.isFinite = true ∧ digitLimit < d.digitsAsked
  := by
  have hinteger (n : Int) :
      (Rendering.ofInteger d locale n).mapError Failure.error ≠ .error .tooManyDigits := by
    cases Rendering.ofInteger d locale n <;> rintro ⟨⟩
  cases argument
  case float v =>
    have hmap (r : Except Failure (List Char)) (f : List Char → Rendering) :
        r.map f = .error .tooManyDigits ↔ r = .error .tooManyDigits := by
      cases r <;> simp [Except.map]
    rw [rendering, Rendering.ofFloat]
    by_cases hv : v.isFinite = true
    · simp [hv, hmap, floatBody_eq_tooManyDigits_iff hd]
    · simp [hv]
  case bool value =>
    rw [rendering]
    split <;> simp [hinteger]
  case char value =>
    rw [rendering]
    split <;> simp [hinteger]
  all_goals simp [rendering, hinteger]

/-! ### Writers -/

namespace Writer

variable {writer : Writer H} {world : World H}

theorem not_cutShort_stream {limit : Limit} :
  ¬(writer.stream limit).CutShort world
  := by
  intro h
  cases (stream_fails_iff.mp h).2

theorem not_cutShort_measure {limit : Limit} :
  ¬(writer.measure limit).CutShort world
  := by
  intro h
  cases (measure_fails_iff.mp h).2

theorem not_cutShort_format {d : Directive} :
  ¬(writer.format d).CutShort world
  := by
  intro h
  cases failure_of_format h

end Writer

namespace Handler

/-- A handler is cut short only by its formatter. -/
theorem not_cutShort_ofReader {Spec : Type} {read : List Char → Except FormatError Spec}
    {format : H.Value → Spec → Formatter H Unit} {value : H.Value} {text : List Char}
    {world : World H} (h : ∀ spec, ¬(format value spec).CutShort world) :
  ¬((ofReader read format).format value text).CutShort world
  := by
  rw [format_ofReader, Formatter.cutShort_ofChecked_bind_iff]
  rintro ⟨spec, _, hspec⟩
  apply h spec hspec

theorem not_cutShort_display {writer : H.Value → Writer H} {value : H.Value}
    {text : List Char} {world : World H} :
  ¬((display writer).format value text).CutShort world
  := by
  apply not_cutShort_ofReader
  intro d
  apply Writer.not_cutShort_format

theorem not_cutShort_inspect {writer : Bool → H.Value → Writer H} {value : H.Value}
    {text : List Char} {world : World H} :
  ¬((inspect writer).format value text).CutShort world
  := by
  apply not_cutShort_ofReader
  intro d
  apply Writer.not_cutShort_format

end Handler

/-! ### Fields -/

/-- A field of a number that is cut short: the number is finite, and the directive is legal and
asks for too many digits. -/
def Argument.AsksTooManyDigits (argument : Argument H) (spec : List Char) (args : Arguments H)
    (numbering : Numbering) : Prop :=
  ∃ v d after, argument = .float v ∧ v.isFinite = true ∧
    readDirective .float spec args numbering = .ok (d, after) ∧ digitLimit < d.digitsAsked

/-- The handler of an argument, if it has one, cuts no call short. -/
def Argument.NeverCutShort (argument : Argument H) : Prop :=
  ∀ value handler, argument = .custom value handler →
    ∀ spec world, ¬(handler.format value spec).CutShort world

theorem formatBuiltin_cutShort_iff {argument : Argument H} {spec : List Char}
    {args : Arguments H} {locale : Locale} {numbering : Numbering} {world : World H} :
  (formatBuiltin argument spec args locale numbering).CutShort world ↔
    argument.AsksTooManyDigits spec args numbering
  := by
  have hexcept {r : Except Failure Rendering} {g : Rendering → Formatter H Numbering}
      (hg : ∀ a, ¬(g a).CutShort world) :
      (Formatter.ofExcept r >>= g).CutShort world ↔ r = .error .tooManyDigits := by
    rcases r with failure | a
    · exact ⟨fun h => congrArg Except.error (Except.error.inj h),
        fun h => congrArg Except.error (Except.error.inj h)⟩
    · constructor
      · intro h
        cases hg a h
      · rintro ⟨⟩
  have hwrite (after : Numbering) (d : Directive) (rendering : Rendering) :
      ¬(do
        Formatter.write (rendering.spans d.width)
        return after : Formatter H Numbering).CutShort world := by
    rintro ⟨⟩
  have hcheck {d : Directive} {after : Numbering}
      (hd : readDirective argument.kind spec args numbering = .ok (d, after)) :
      d.check argument.kind = .ok () := by
    obtain ⟨_, _, _, hlegal⟩ := readDirective_iff.mp hd
    apply hlegal
  rw [formatBuiltin, Formatter.cutShort_ofChecked_bind_iff, Argument.AsksTooManyDigits]
  constructor
  · rintro ⟨⟨d, after⟩, hd, h⟩
    rw [hexcept (hwrite after d),
      Argument.rendering_eq_tooManyDigits_iff (hcheck hd)] at h
    obtain ⟨v, rfl, hv, hdigits⟩ := h
    exact ⟨v, d, after, rfl, hv, hd, hdigits⟩
  · rintro ⟨v, d, after, rfl, hv, hd, hdigits⟩
    refine ⟨(d, after), hd, ?_⟩
    rw [hexcept (hwrite after d), Argument.rendering_eq_tooManyDigits_iff (hcheck hd)]
    exact ⟨v, rfl, hv, hdigits⟩

/-- A field is cut short just if its argument is a number that is. -/
theorem formatField_cutShort_iff {argument : Argument H} (hargument : argument.NeverCutShort)
    {spec : List Char} {args : Arguments H} {locale : Locale} {numbering : Numbering}
    {world : World H} :
  (formatField argument spec args locale numbering).CutShort world ↔
    argument.AsksTooManyDigits spec args numbering
  := by
  cases argument
  case none =>
    constructor
    · rintro ⟨⟩
    · rintro ⟨_, _, _, ⟨⟩, _⟩
  case custom value handler =>
    constructor
    · intro h
      rw [formatField, formatCustom] at h
      obtain ⟨parts, _, h⟩ := Formatter.cutShort_ofChecked_bind_iff.mp h
      rcases Formatter.cutShort_bind_iff.mp h with h | ⟨_, _, h⟩
      · rw [Formatter.cutShort_mapError_iff] at h
        cases hargument value handler rfl _ _ h
      · cases h
    · rintro ⟨_, _, _, ⟨⟩, _⟩
  all_goals exact formatBuiltin_cutShort_iff

/-! ### Calls -/

/-- No argument cuts a call short by its handler. -/
def Arguments.NeverCutShort (args : Arguments H) : Prop :=
  ∀ argument ∈ args.values, argument.NeverCutShort

theorem Arguments.NeverCutShort.lookup {args : Arguments H} (h : args.NeverCutShort)
    (reference : Reference) :
  (args.lookup reference).NeverCutShort
  := by
  rcases args.lookup_eq_none_or_mem reference with hnone | hmem
  · rw [hnone]
    rintro _ _ ⟨⟩
  · apply h _ hmem

/-- The run over some pieces comes to a field that is cut short: the pieces in front of it are
run without failure, and its id refers to a number that asks for too many digits. -/
def ComesToTooManyDigits (args : Arguments H) (locale : Locale) (pieces : List Piece)
    (numbering : Numbering) (world : World H) : Prop :=
  ∃ before id spec behind next reference after,
    pieces = before ++ .field id spec :: behind ∧
    (runPieces args locale 0 before numbering world).result = .ok next ∧
    next.resolve id = .ok (reference, after) ∧
    (args.lookup reference).AsksTooManyDigits (spec.getD []) args after

theorem Piece.cutShort_run_iff {args : Arguments H} (hargs : args.NeverCutShort)
    {locale : Locale} {start : Nat} {piece : Piece} {numbering : Numbering} {world : World H} :
  (piece.run args locale start numbering).CutShort world ↔
    ∃ id spec reference after, piece = .field id spec ∧
      numbering.resolve id = .ok (reference, after) ∧
      (args.lookup reference).AsksTooManyDigits (spec.getD []) args after
  := by
  rw [run, Formatter.cutShort_ofChecked_bind_iff]
  cases piece with
  | literal text =>
    constructor
    · rintro ⟨_, ⟨⟩, ⟨⟩⟩
    · rintro ⟨_, _, _, _, ⟨⟩, _⟩
  | brace c =>
    constructor
    · rintro ⟨_, ⟨⟩, ⟨⟩⟩
    · rintro ⟨_, _, _, _, ⟨⟩, _⟩
  | field id spec =>
    constructor
    · rintro ⟨⟨step, after⟩, hstep, h⟩
      rw [Piece.step] at hstep
      rcases hresolve : numbering.resolve id with kind | ⟨reference, after'⟩
      · rw [hresolve] at hstep
        cases hstep
      · rw [hresolve] at hstep
        cases hstep
        change (Field.run _ args locale after).CutShort world at h
        rw [Field.run_eq] at h
        split at h
        · cases h
        · rw [Formatter.cutShort_mapError_iff,
            formatField_cutShort_iff (hargs.lookup reference)] at h
          exact ⟨id, spec, reference, after, rfl, hresolve, h⟩
    · rintro ⟨_, _, reference, after, ⟨⟩, hresolve, h⟩
      refine ⟨_, by rw [Piece.step, hresolve], ?_⟩
      change (Field.run _ args locale after).CutShort world
      rw [Field.run_eq]
      split
      · next hnone =>
        obtain ⟨v, _, _, hv, _⟩ := h
        rw [hv] at hnone
        cases hnone
      · rw [Formatter.cutShort_mapError_iff, formatField_cutShort_iff (hargs.lookup reference)]
        apply h

/-- The run over a piece and the ones behind it, whose errors lie behind the piece. -/
theorem runPieces_zero_cons (args : Arguments H) (locale : Locale) (piece : Piece)
    (pieces : List Piece) (numbering : Numbering) :
  runPieces args locale 0 (piece :: pieces) numbering = (do
    let numbering ← piece.run args locale 0 numbering
    (runPieces args locale 0 pieces numbering).mapError (·.rebase (byteLength piece.source)))
  := by
  simp only [runPieces_cons, ← runPieces_add, Nat.add_zero, Nat.zero_add]

/-- The pieces of a template are cut short just if they come to a field that is. -/
theorem runPieces_cutShort_iff {args : Arguments H} (hargs : args.NeverCutShort)
    {locale : Locale} {pieces : List Piece} {numbering : Numbering} {world : World H} :
  (runPieces args locale 0 pieces numbering).CutShort world ↔
    ComesToTooManyDigits args locale pieces numbering world
  := by
  induction pieces generalizing numbering world with
  | nil =>
    constructor
    · rintro ⟨⟩
    · rintro ⟨before, _, _, _, _, _, _, hpieces, _⟩
      cases before <;> cases hpieces
  | cons piece pieces ih =>
    rw [runPieces_zero_cons, Formatter.cutShort_bind_iff, Piece.cutShort_run_iff hargs]
    simp only [Formatter.cutShort_mapError_iff, ih]
    constructor
    · rintro (⟨id, spec, reference, after, rfl, hresolve, h⟩ | ⟨next, hnext, hrest⟩)
      · exact ⟨[], id, spec, pieces, numbering, reference, after, rfl, rfl, hresolve, h⟩
      · obtain ⟨before, id, spec, behind, last, reference, after, rfl, hlast, hresolve, h⟩ := hrest
        refine ⟨piece :: before, id, spec, behind, last, reference, after, rfl, ?_, hresolve, h⟩
        rw [runPieces_zero_cons, Formatter.result_bind_iff]
        exact ⟨next, hnext, Formatter.result_mapError_iff.mpr hlast⟩
    · rintro ⟨before, id, spec, behind, last, reference, after, hpieces, hlast, hresolve, h⟩
      cases before with
      | nil =>
        cases hpieces
        cases hlast
        left
        exact ⟨id, spec, reference, after, rfl, hresolve, h⟩
      | cons _ before =>
        cases hpieces
        rw [runPieces_zero_cons, Formatter.result_bind_iff] at hlast
        obtain ⟨next, hnext, hlast⟩ := hlast
        right
        exact ⟨next, hnext, before, id, spec, behind, last, reference, after, rfl,
          Formatter.result_mapError_iff.mp hlast, hresolve, h⟩

theorem Template.runFrom_cutShort_iff {args : Arguments H} (hargs : args.NeverCutShort)
    {template : Template} {locale : Locale} {numbering : Numbering} {world : World H} :
  (template.runFrom args locale numbering).CutShort world ↔
    ComesToTooManyDigits args locale template.pieces numbering world
  := by
  rw [runFrom, Formatter.cutShort_bind_iff, runPieces_cutShort_iff hargs]
  constructor
  · rintro (h | ⟨_, _, h⟩)
    · apply h
    · cases hfault : template.fault <;> rw [hfault] at h <;> cases h
  · intro h
    left
    apply h

/-- A call is cut short just if its template comes to a field that is. -/
theorem run_cutShort_iff {args : Arguments H} (hargs : args.NeverCutShort)
    {template : List Char} {locale : Option Locale} {world : World H} :
  (run template args locale).CutShort world ↔
    ComesToTooManyDigits args (locale.getD world.globalLocale) (Template.read template).pieces
      .undecided world
  := by
  rw [run, Formatter.cutShort_report_bind_iff, Formatter.cutShort_globalLocale_bind_iff,
    Formatter.cutShort_reportingError_iff, Formatter.cutShort_discard_iff,
    Template.runFrom_cutShort_iff hargs]

end BraceFormat
