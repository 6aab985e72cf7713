import BraceFormat.Proofs.Call.Progress
import BraceFormat.Proofs.Guarded.Substitution
import BraceFormat.Proofs.Handler.Failure
import BraceFormat.Proofs.Rendering.Legal

/-!
# What a call leaves behind when it fails

A field puts out either all of its text or none, with one exception: a value that writes itself
as text, without a width, has its chunks put out as they come. With a width its text is measured
before anything is put out, and if it cannot be written, it cannot be measured. So a call that
fails has put out the texts of the pieces in front of the one it fails at, and nothing else
(`run_into_of_failure`).
-/

namespace BraceFormat

open Guarded

variable {H : Host} {α : Type}

/-! ### Formatters -/

/-- A formatter puts out nothing if it fails. -/
def Formatter.AllOrNothing (f : Formatter H α) : Prop :=
  ∀ world failure, (f world).result = .error failure → (f world).spans = []

namespace Formatter

variable {β : Type}

namespace AllOrNothing

theorem raise (e : FormatError) :
  AllOrNothing (raise e : Formatter H α)
  := fun _ _ _ => rfl

theorem write (spans : List Span) :
  AllOrNothing (write spans : Formatter H Unit)
  := nofun

theorem mapError {f : Formatter H α} (hf : f.AllOrNothing) (k : FormatError → FormatError) :
  AllOrNothing (f.mapError k)
  := by
  intro world failure h
  change (f world).result.mapError (Failure.mapError k) = _ at h
  rcases hresult : (f world).result with failure' | a
  · apply hf world failure' hresult
  · rw [hresult] at h
    cases h

/-- A formatter goes on after a computation, which puts out nothing. -/
theorem ofChecked_bind {r : Except FormatError α} {g : α → Formatter H β}
    (hg : ∀ a, r = .ok a → (g a).AllOrNothing) :
  AllOrNothing (ofChecked r >>= g)
  := by
  cases r with
  | error e => apply raise
  | ok a => exact hg a rfl

theorem ofExcept_bind {r : Except Failure α} {g : α → Formatter H β}
    (hg : ∀ a, r = .ok a → (g a).AllOrNothing) :
  AllOrNothing (ofExcept r >>= g)
  := by
  cases r with
  | error failure => exact fun _ _ _ => rfl
  | ok a => exact hg a rfl

/-- Giving another value puts out nothing more and does not fail. -/
theorem bind_return {f : Formatter H α} (hf : f.AllOrNothing) (b : β) :
  AllOrNothing (f >>= fun _ => return b)
  := by
  intro world failure h
  rcases result_bind_error_iff.mp h with hfails | ⟨_, _, ⟨⟩⟩
  rw [spans_bind_of_error hfails]
  apply hf world failure hfails

end AllOrNothing

end Formatter

/-! ### Fields -/

/-- The code of a value, run twice, fails both times or not at all. -/
def Writer.Repeats (writer : Writer H) : Prop :=
  ∀ world, (writer (writer world).world).failed = (writer world).failed

/-- A value that is written to a width is measured before it is put out. -/
theorem Writer.Repeats.allOrNothing_format {writer : Writer H} (h : writer.Repeats)
    {d : Directive} (hwidth : d.width ≠ 0) :
  (writer.format d).AllOrNothing
  := by
  intro world failure hresult
  rw [format, if_neg hwidth] at hresult ⊢
  rcases Formatter.result_bind_error_iff.mp hresult with hmeasure | ⟨length, hmeasure, hresult⟩
  · rw [Formatter.spans_bind_of_error hmeasure]
    rfl
  · rcases Formatter.result_bind_error_iff.mp hresult with ⟨⟨⟩⟩ | ⟨_, _, hresult⟩
    rcases Formatter.result_bind_error_iff.mp hresult with hagain | ⟨_, _, ⟨⟨⟩⟩⟩
    -- What fails after it was measured would have failed when it was measured.
    have hfailed : (writer world).failed = true := by
      rw [← h world]
      exact (stream_fails_iff.mp hagain).1
    cases hmeasure.symm.trans (measure_fails_iff.mpr ⟨hfailed, rfl⟩)

/-- An argument whose field is held back until nothing can fail any more. Of the values of the
host these are the ones that write themselves as text, where their handler refuses the
specifier that it sees, or finds a width in it and the code of the value repeats itself. -/
def Argument.HoldsBack (args : Arguments H) (argument : Argument H) (spec : List Char)
    (numbering : Numbering) : Prop :=
  ∀ value handler, argument = .custom value handler →
    (∃ writer, handler = Handler.display writer ∧
      ∀ parts after d, Substitution.read args spec numbering = (.ok parts, after) →
        Handler.readTextual parts.text = .ok d → d.width ≠ 0 ∧ (writer value).Repeats) ∨
    ∃ writer, handler = Handler.inspect writer ∧
      ∀ parts after d, Substitution.read args spec numbering = (.ok parts, after) →
        Handler.readInspecting parts.text = .ok d →
          d.width ≠ 0 ∧ (writer d.alternate value).Repeats

section Fields

variable {args : Arguments H} {spec : List Char} {numbering : Numbering} {locale : Locale}

/-- A builtin argument is rendered before it is put out. -/
theorem allOrNothing_formatBuiltin (argument : Argument H) :
  (formatBuiltin argument spec args locale numbering).AllOrNothing
  := by
  rw [formatBuiltin]
  apply Formatter.AllOrNothing.ofChecked_bind
  rintro ⟨d, after⟩ _
  apply Formatter.AllOrNothing.ofExcept_bind
  intro rendering _
  exact (Formatter.AllOrNothing.write _).bind_return after

theorem Argument.HoldsBack.allOrNothing_formatCustom {value : H.Value} {handler : Handler H}
    (h : (Argument.custom value handler).HoldsBack args spec numbering) :
  (formatCustom value handler spec args numbering).AllOrNothing
  := by
  rcases hread : Substitution.read args spec numbering with ⟨e | parts, after⟩
  · rw [formatCustom, hread]
    apply Formatter.AllOrNothing.raise
  · rw [formatCustom_of_ok hread]
    apply Formatter.AllOrNothing.bind_return
    apply Formatter.AllOrNothing.mapError
    rcases h value handler rfl with ⟨writer, rfl, hwriter⟩ | ⟨writer, rfl, hwriter⟩
    · rw [Handler.display, Handler.format_ofReader]
      apply Formatter.AllOrNothing.ofChecked_bind
      intro d hd
      obtain ⟨hwidth, hrepeats⟩ := hwriter parts after d hread hd
      apply hrepeats.allOrNothing_format hwidth
    · rw [Handler.inspect, Handler.format_ofReader]
      apply Formatter.AllOrNothing.ofChecked_bind
      intro d hd
      obtain ⟨hwidth, hrepeats⟩ := hwriter parts after d hread hd
      apply hrepeats.allOrNothing_format hwidth

theorem Argument.HoldsBack.allOrNothing_formatField {argument : Argument H}
    (h : argument.HoldsBack args spec numbering) :
  (formatField argument spec args locale numbering).AllOrNothing
  := by
  cases argument
  case none => apply Formatter.AllOrNothing.raise
  case custom value handler => apply h.allOrNothing_formatCustom
  all_goals apply allOrNothing_formatBuiltin

end Fields

/-! ### Calls -/

/-- A piece that is held back: it is text, or a field whose id is in conflict with the numbering
or refers to an argument that is held back. -/
def Piece.HoldsBack (args : Arguments H) (numbering : Numbering) (piece : Piece) : Prop :=
  ∀ id spec reference after, piece = .field id spec →
    numbering.resolve id = .ok (reference, after) →
    (args.lookup reference).HoldsBack args (spec.getD []) after

theorem Piece.HoldsBack.allOrNothing_run {args : Arguments H} {numbering : Numbering}
    {piece : Piece} (h : piece.HoldsBack args numbering) (locale : Locale) (start : Nat) :
  (piece.run args locale start numbering).AllOrNothing
  := by
  cases piece with
  | literal text => exact (Formatter.AllOrNothing.write _).bind_return numbering
  | brace c => exact (Formatter.AllOrNothing.write _).bind_return numbering
  | field id spec =>
    rcases hresolve : numbering.resolve id with kind | ⟨reference, after⟩
    · rw [run, step, hresolve]
      apply Formatter.AllOrNothing.raise
    · rw [run_field hresolve, Field.run_eq]
      split
      · apply Formatter.AllOrNothing.raise
      · apply Formatter.AllOrNothing.mapError
        apply (h id spec reference after rfl hresolve).allOrNothing_formatField

/-- A call that fails comes to the fault of its template, or to a piece that fails. In the first
case, and in the second one if the piece is held back, its destination then holds what it held
before, followed by the texts of the pieces in front, and nothing else.

Once the specifier of a builtin argument is read, looked up and found legal, this is rendered:
only an integer that is to be shown as a character and is not the code of one is an error, and
only a finite number that asks for too many digits cuts the call short. -/
theorem run_into_of_failure (args : Arguments H) :
  (∀ text locale world sink failure,
    ((run text args locale).into sink world).2.result = .error failure →
    ∃ progress : Progress H,
      progress.Reached args (locale.getD world.globalLocale) world ∧
      ((progress.FailsAtFault (Template.read text) failure ∧
          ((run text args locale).into sink world).1 = sink.append progress.texts.flatten) ∨
        ∃ piece,
          progress.FailsAt args (locale.getD world.globalLocale) (Template.read text) piece
            failure ∧
          (piece.HoldsBack args progress.numbering →
            ((run text args locale).into sink world).1 =
              sink.append progress.texts.flatten))) ∧
  ∀ argument : Argument H, argument.IsBuiltin → ∀ spec numbering d after locale failure,
    readDirective argument.kind spec args numbering = .ok (d, after) →
    (argument.rendering d locale = .error failure ↔
      (failure = .error (.unplaced .invalidSpecifier) ∧ d.presentation = some .char ∧
        ∃ n, argument.integer? = some n ∧ ∀ c : Char, (c.toNat : Int) ≠ n) ∨
      (failure = .tooManyDigits ∧
        ∃ v, argument = .float v ∧ v.isFinite = true ∧ digitLimit < d.digitsAsked))
  := by
  constructor
  · intro text locale world sink failure h
    have hresult : (run text args locale world).result = .error failure := map_eq_error_iff.mp h
    have hinto : ((run text args locale).into sink world).1 =
        sink.append (outputText (run text args locale world).spans) :=
      Sink.absorb_eq_append sink _
    rw [hinto]
    obtain ⟨progress, hreached, ⟨hfault, htext⟩ | ⟨piece, hfails, htext⟩⟩ := failure_run hresult
    · exact ⟨progress, hreached, .inl ⟨hfault, by rw [htext]⟩⟩
    · refine ⟨progress, hreached, .inr ⟨piece, hfails, fun hpiece => ?_⟩⟩
      have hnothing := hpiece.allOrNothing_run _ _ _ _ hfails.failed
      rw [htext, Progress.run, hnothing, outputText_nil, List.append_nil]
  · intro argument hargument spec numbering d after locale failure hread
    obtain ⟨_, _, _, hlegal⟩ := readDirective_iff.mp hread
    cases failure with
    | error e => simp [Argument.rendering_eq_error_iff hargument hlegal]
    | tooManyDigits => simp [Argument.rendering_eq_tooManyDigits_iff hlegal]

/-- A text, and a value that fails to write itself to a width of three; and a negative number
that is to be shown as a character. -/
theorem run_into_of_failure_measured :
  let writer : Unit → Writer ⟨Unit, Unit⟩ := fun _ world => ⟨[['b']], true, world⟩
  let args : Arguments ⟨Unit, Unit⟩ := .ofList [.custom () (Handler.display writer), .int32 (-1)]
  let text := ['a', '{', ':', '3', '}']
  let sunk := (run text args none).into (.text ['x']) ⟨none, ()⟩
  sunk.2.result = .error (.error (.located .formatterFailed 3)) ∧ sunk.1 = .text ['x', 'a'] ∧
    (∃ progress : Progress ⟨Unit, Unit⟩, progress.Reached args .c ⟨none, ()⟩ ∧ ∃ piece,
      progress.FailsAt args .c (Template.read text) piece
        (.error (.located .formatterFailed 3)) ∧
      piece.HoldsBack args progress.numbering ∧
      sunk.1 = (Sink.text ['x']).append progress.texts.flatten) ∧
    readDirective .int32 ['c'] args .undecided =
      .ok ({ presentation := some .char }, .undecided) ∧
    (Argument.int32 (-1) : Argument ⟨Unit, Unit⟩).rendering { presentation := some .char } .c =
      .error (.error (.unplaced .invalidSpecifier))
  := by
  intro writer args text sunk
  have hread : Template.read text = ⟨[.literal ['a'], .field .auto (some ['3'])], none⟩ := by
    have hliteral : Piece.read text = .ok (.literal ['a'], ['{', ':', '3', '}']) := rfl
    have hfield : Piece.read ['{', ':', '3', '}'] = .ok (.field .auto (some ['3']), []) := rfl
    rw [Template.read_of_ok (List.cons_ne_nil _ _) hliteral,
      Template.read_of_ok (List.cons_ne_nil _ _) hfield, Template.read_nil]
    rfl
  have hsubstitution (numbering : Numbering) :
      Substitution.read args ['3'] numbering = (.ok [.literal ['3']], numbering) := by
    rw [← readAt_zero, readAt_literal (by simp [ReferenceFree])]
  have hfield : (Piece.field .auto (some ['3'])).run args .c 1 .undecided ⟨none, ()⟩ =
      ⟨[], [], ⟨none, ()⟩, .error (.error (.located .formatterFailed 3))⟩ := by
    rw [Piece.run_field rfl, Field.run_eq]
    change (formatCustom () (Handler.display writer) ['3'] args (.automatic 1)).mapError _ _ = _
    rw [formatCustom_of_ok (hsubstitution _)]
    rfl
  have hfront : Progress.Reached args .c ⟨none, ()⟩
      ⟨[.literal ['a']], [['a']], .undecided, ⟨none, ()⟩⟩ := .step .start rfl
  have hstop : Progress.FailsAt args .c (Template.read text)
      ⟨[.literal ['a']], [['a']], .undecided, ⟨none, ()⟩⟩ (.field .auto (some ['3']))
      (.error (.located .formatterFailed 3)) :=
    ⟨⟨[], by rw [hread]; rfl⟩, congrArg Emission.result hfield⟩
  have hrun : (run text args none ⟨none, ()⟩).result =
        .error (.error (.located .formatterFailed 3)) ∧
      outputText (run text args none ⟨none, ()⟩).spans = ['a'] ++ outputText
        ((Piece.field .auto (some ['3'])).run args .c 1 .undecided ⟨none, ()⟩).spans :=
    failure_run_of_failsAt text args none ⟨none, ()⟩ hfront hstop
  rw [hfield] at hrun
  have hfails : sunk.2.result = .error (.error (.located .formatterFailed 3)) :=
    map_eq_error_iff.mpr hrun.1
  obtain ⟨progress, hreached, ⟨hfault, _⟩ | ⟨piece, hpiece, hsunk⟩⟩ :=
    (run_into_of_failure args).1 text none ⟨none, ()⟩ (.text ['x']) _ hfails
  · obtain ⟨_, _, hkind⟩ := hfault.failed
    cases congrArg FormatError.kind (Failure.error.inj hkind)
  · have hheld : piece.HoldsBack args progress.numbering := by
      rintro id spec reference after rfl _ value handler hargument
      left
      obtain ⟨behind, hahead⟩ := hpiece.ahead
      rw [hread] at hahead
      have hmem : Piece.field id spec ∈ [.literal ['a'], .field .auto (some ['3'])] := by
        rw [show ([.literal ['a'], .field .auto (some ['3'])] : List Piece) = _ from hahead]
        exact List.mem_append_right _ (.head _)
      rcases hmem with _ | ⟨_, _ | ⟨_, ⟨⟩⟩⟩
      have hhandler : handler = Handler.display writer := by
        rcases args.lookup_eq_none_or_mem reference with hnone | hmem
        · rw [hnone] at hargument
          cases hargument
        · rw [hargument] at hmem
          rcases hmem with _ | ⟨_, _ | ⟨_, ⟨⟩⟩⟩
          rfl
      refine ⟨writer, hhandler, ?_⟩
      intro parts next d hparts hd
      change Substitution.read args ['3'] after = _ at hparts
      rw [hsubstitution] at hparts
      cases hparts
      cases hd
      exact ⟨by decide, fun _ => rfl⟩
    refine ⟨hfails, ?_, ⟨progress, hreached, piece, hpiece, hheld, hsunk hheld⟩, rfl, ?_⟩
    · change (Sink.text ['x']).absorb (run text args none ⟨none, ()⟩).spans = _
      rw [Sink.absorb_eq_append, hrun.2]
      rfl
    · apply ((run_into_of_failure args).2 (.int32 (-1)) ⟨by rintro ⟨⟩, by rintro ⟨⟩⟩
        ['c'] .undecided _ _ .c _
        rfl).mpr
      left
      refine ⟨rfl, rfl, -1, rfl, ?_⟩
      intro c hc
      have := Int.natCast_nonneg c.toNat
      omega

end BraceFormat
