import BraceFormat.Proofs.Call.Progress
import BraceFormat.Proofs.Place.Field
import BraceFormat.Proofs.Template.Partition

/-!
# Where a call fails

The error of a call lies within the piece that the call fails at. At a field this reaches from
the opening brace to the brace that closes it: a conflict and a missing argument are found at
the first one, everything else within the specifier in between (`Piece.place_of_run_error`).
Where the text stops being a template, the error lies behind the brace of the piece at fault
(`run_error_place`).
-/

namespace BraceFormat

open Guarded

variable {H : Host} {args : Arguments H}

/-- Only a field fails, at a place between its two braces. -/
theorem Piece.place_of_run_error (hargs : args.WriteText) {text rest : List Char} {piece : Piece}
    (hpiece : piece.WellFormed) {start : Nat} (hat : At text start (piece.source ++ rest))
    {locale : Locale} {numbering : Numbering} {world : World H} {e : FormatError}
    (h : (piece.run args locale start numbering world).result = .error (.error e)) :
  ∃ id spec closing place, piece = .field id spec ∧ BracesMatch text start closing ∧
    e.offset = some place ∧ IsBoundary text place ∧ start ≤ place ∧ place ≤ closing ∧
    closing < byteLength text
  := by
  cases piece with
  | literal text => cases h
  | brace c => cases h
  | field id spec =>
    obtain ⟨closing, hmatch, hclosing, hspec⟩ := exists_bracesMatch hpiece.1 hpiece.2 hat
    obtain ⟨behind, hatSpec, hend⟩ := slice?_eq_some_iff.mp hspec
    have hstop : closing < byteLength text := by
      have := hat.advance.add_byteLength
      omega
    have hopening (he : e.offset = some start) :
        ∃ id' spec' closing place, field id spec = .field id' spec' ∧
          BracesMatch text start closing ∧ e.offset = some place ∧ IsBoundary text place ∧
          start ≤ place ∧ place ≤ closing ∧ closing < byteLength text :=
      ⟨id, spec, closing, start, rfl, hmatch, he, hat.isBoundary, Nat.le_refl _, by omega, hstop⟩
    rcases hresolve : numbering.resolve id with kind | ⟨reference, next⟩
    · rw [run, step, hresolve] at h
      cases h
      exact hopening rfl
    · rw [run_field hresolve, Field.run_eq] at h
      dsimp only at h
      split at h
      · cases h
        exact hopening rfl
      · obtain ⟨inner, hinner, rfl⟩ := Formatter.result_mapError_error_iff.mp h
        have hwithin := (errorsWithin_formatField (hargs.lookup reference) _ locale world inner
          hinner).getD
        have hle := hwithin.le
        exact ⟨id, spec, closing, _, rfl, hmatch, rfl, hatSpec.isBoundary_add hwithin, by omega,
          by omega, hstop⟩

/-- Where the values of the host write themselves as text: a call that fails does so at a place
between two characters of its template, in front of the end of it. If the call fails at a field,
then the place is not in front of its opening brace and not behind the one that closes this. If
it fails where the text stops being a template, then the place is not in front of the brace that
stands behind the last piece. -/
theorem run_error_place (hargs : args.WriteText) {text : List Char} {locale : Option Locale}
    {world : World H} {e : FormatError}
    (h : (run text args locale world).result = .error (.error e)) :
  ∃ place, e.offset = some place ∧ place < byteLength text ∧ IsBoundary text place ∧
    ∃ progress : Progress H,
      progress.Reached args (locale.getD world.globalLocale) world ∧ progress.place ≤ place ∧
      ((∃ id spec closing,
          progress.FailsAt args (locale.getD world.globalLocale) (Template.read text)
            (.field id spec) (.error e) ∧
          BracesMatch text progress.place closing ∧ place ≤ closing) ∨
        (progress.FailsAtFault (Template.read text) (.error e) ∧
          ∃ c rest, At text progress.place (c :: rest) ∧ Piece.isBrace c = true))
  := by
  obtain ⟨hpieces, rest, htext, _⟩ := Template.read_pieces text
  obtain ⟨progress, hreached, ⟨hfault, _⟩ | ⟨piece, hfails, _⟩⟩ := failure_run h
  · obtain ⟨place, hplace, he⟩ := hfault.failed
    cases he
    obtain ⟨hboundary, hlt, start, c, behind, hat, hc, hstart, hle⟩ := Template.fault_place hplace
    rw [← hfault.pieces] at hstart
    obtain rfl : start = progress.place := hstart
    exact ⟨place, rfl, hlt, hboundary, progress, hreached, hle, .inr ⟨hfault, c, behind, hat, hc⟩⟩
  · obtain ⟨behind, hahead⟩ := hfails.ahead
    have hpiece : piece.WellFormed := by
      apply hpieces piece
      rw [hahead]
      exact List.mem_append_right _ (.head _)
    have hat : At text progress.place (piece.source ++ (behind.flatMap Piece.source ++ rest)) := by
      refine ⟨progress.pieces.flatMap Piece.source, ?_, rfl⟩
      rw [htext, hahead]
      simp only [List.flatMap_append, List.flatMap_cons, List.append_assoc]
    obtain ⟨id, spec, closing, place, rfl, hmatch, hoffset, hboundary, hstart, hstop, hend⟩ :=
      piece.place_of_run_error hargs hpiece hat hfails.failed
    exact ⟨place, hoffset, Nat.lt_of_le_of_lt hstop hend, hboundary, progress, hreached, hstart,
      .inl ⟨id, spec, closing, hfails, hmatch, hstop⟩⟩

/-- A field behind a character of two bytes, whose width is a reference that is replaced by a
longer numeral. -/
theorem run_error_place_behind_reference :
  let writer : Unit → Writer ⟨Unit, Unit⟩ := fun _ world => ⟨[['a']], false, world⟩
  let args : Arguments ⟨Unit, Unit⟩ :=
    .ofList [.custom () (Handler.display writer), .int32 1000]
  let text := ['é', '{', '0', ':', '{', '1', '}', '!', '}']
  let e : FormatError := .located .invalidSpecifier 8
  args.WriteText ∧ (run text args none ⟨none, ()⟩).result = .error (.error e) ∧
    8 < byteLength text ∧ IsBoundary text 8 ∧
    ∃ progress : Progress ⟨Unit, Unit⟩, progress.Reached args .c ⟨none, ()⟩ ∧
      progress.place ≤ 8 ∧ ∃ id spec closing,
        progress.FailsAt args .c (Template.read text) (.field id spec) (.error e) ∧
        BracesMatch text progress.place closing ∧ 8 ≤ closing
  := by
  intro writer args text e
  have hargs : args.WriteText := by
    rintro argument (_ | ⟨_, _ | ⟨_, ⟨⟩⟩⟩)
    · rintro _ _ ⟨⟩
      exact .inl ⟨writer, rfl⟩
    · rintro _ _ ⟨⟩
  have hread : Template.read text =
      ⟨[.literal ['é'], .field (.index 0) (some ['{', '1', '}', '!'])], none⟩ := by
    have hliteral : Piece.read text =
      .ok (.literal ['é'], ['{', '0', ':', '{', '1', '}', '!', '}']) := rfl
    have hfield : Piece.read ['{', '0', ':', '{', '1', '}', '!', '}'] =
      .ok (.field (.index 0) (some ['{', '1', '}', '!']), []) := rfl
    rw [Template.read_of_ok (List.cons_ne_nil _ _) hliteral,
      Template.read_of_ok (List.cons_ne_nil _ _) hfield, Template.read_nil]
    rfl
  have hsubstitution : Substitution.read args ['{', '1', '}', '!'] .explicit =
      (.ok [.literal [], .count (.index 1) 1000, .literal ['!']], .explicit) := by
    have hbehind : readAt args 3 ['!'] .explicit = (.ok [.literal ['!']], .explicit) :=
      readAt_literal (by simp [ReferenceFree])
    have hid : (ArgId.index 1).WellFormed := by
      change 1 < indexLimit
      decide
    rw [← readAt_zero]
    change readAt args 0 ([] ++ '{' :: ((ArgId.index 1).source ++ ['}', '!'])) .explicit = _
    rw [readAt_reference referenceFree_nil hid]
    change mapOutcome _ (readAt args 3 ['!'] .explicit) = _
    rw [hbehind]
    rfl
  have hfield : ((Piece.field (.index 0) (some ['{', '1', '}', '!'])).run args .c 2 .undecided
      ⟨none, ()⟩).result = .error (.error e) := by
    rw [Piece.run_field rfl, Field.run_eq]
    change ((formatCustom () (Handler.display writer) ['{', '1', '}', '!'] args
      .explicit).mapError _ _).result = _
    rw [formatCustom_of_ok hsubstitution]
    rfl
  have hfront : Progress.Reached args .c ⟨none, ()⟩
      ⟨[.literal ['é']], [['é']], .undecided, ⟨none, ()⟩⟩ := .step .start rfl
  have hstop : Progress.FailsAt args .c (Template.read text)
      ⟨[.literal ['é']], [['é']], .undecided, ⟨none, ()⟩⟩
      (.field (.index 0) (some ['{', '1', '}', '!'])) (.error e) :=
    ⟨⟨[], by rw [hread]; rfl⟩, hfield⟩
  have hfails : (run text args none ⟨none, ()⟩).result = .error (.error e) :=
    (failure_run_of_failsAt text args none ⟨none, ()⟩ hfront hstop).1
  obtain ⟨place, hplace, hlt, hboundary, progress, hreached, hle, hfield | ⟨hfault, _⟩⟩ :=
    run_error_place hargs hfails
  · cases hplace
    obtain ⟨id, spec, closing, hfield⟩ := hfield
    exact ⟨hargs, hfails, hlt, hboundary, progress, hreached, hle, id, spec, closing, hfield⟩
  · obtain ⟨_, _, hkind⟩ := hfault.failed
    cases congrArg FormatError.kind (Failure.error.inj hkind)

end BraceFormat
