import BraceFormat.Proofs.Except
import BraceFormat.Proofs.Template.Concatenation

/-!
# How far a call comes

A call runs the pieces of its template one after another. Its `Progress` in front of a piece is
what has been run so far: the pieces, the text that each of them put out, and the numbering and
the world that they leave. A call that fails comes to a piece that does, or behind the last
piece to the fault of its template, and has put out the texts of the pieces in front
(`failure_run`).
-/

namespace BraceFormat

variable {H : Host}

/-- What a call has run. -/
structure Progress (H : Host) where
  /-- The pieces. -/
  pieces : List Piece
  /-- The text that each of them put out. -/
  texts : List (List Char)
  /-- The numbering after them. -/
  numbering : Numbering
  /-- The world after them. -/
  world : World H

namespace Progress

/-- The byte of the template that has been reached. -/
def place (progress : Progress H) : Nat := byteLength (progress.pieces.flatMap Piece.source)

variable (args : Arguments H) (locale : Locale)

/-- Runs the piece ahead. -/
def run (progress : Progress H) (piece : Piece) : Emission H Numbering :=
  piece.run args locale progress.place progress.numbering progress.world

/-- The progress of a call that starts in a world, at each of its pieces. -/
inductive Reached (world : World H) : Progress H → Prop
  /-- Nothing has been run. -/
  | start : Reached world ⟨[], [], .undecided, world⟩
  /-- One more piece runs and does not fail. -/
  | step {progress : Progress H} {piece : Piece} {after : Numbering}
      (reached : progress.Reached world)
      (ok : (progress.run args locale piece).result = .ok after) :
      Reached world
        ⟨progress.pieces ++ [piece],
          progress.texts ++ [outputText (progress.run args locale piece).spans], after,
          (progress.run args locale piece).world⟩

/-- A piece of a template is ahead, and fails. -/
structure FailsAt (template : Template) (progress : Progress H) (piece : Piece)
    (failure : Failure) : Prop where
  ahead : ∃ behind, template.pieces = progress.pieces ++ piece :: behind
  failed : (progress.run args locale piece).result = .error failure

/-- All pieces of a template have been run, and there the text stops being one. -/
structure FailsAtFault (template : Template) (progress : Progress H) (failure : Failure) :
    Prop where
  pieces : progress.pieces = template.pieces
  failed : ∃ place, template.fault = some place ∧
    failure = .error (.located .malformedTemplate place)

variable {args locale} {world : World H}

/-- The piece ahead is run, and then the ones behind it. -/
theorem runPieces_cons (progress : Progress H) (piece : Piece) (behind : List Piece) :
  runPieces args locale progress.place (piece :: behind) progress.numbering progress.world =
    (progress.run args locale piece).andThen
      (runPieces args locale (progress.place + byteLength piece.source) behind)
  := by
  rw [BraceFormat.runPieces_cons]
  rfl

theorem place_append (pieces : List Piece) (piece : Piece) :
  byteLength ((pieces ++ [piece]).flatMap Piece.source) =
    byteLength (pieces.flatMap Piece.source) + byteLength piece.source
  := by
  rw [List.flatMap_append, byteLength_append, List.flatMap_singleton]

/-- The pieces ahead run to their end, or up to one of them that fails. -/
theorem Reached.runPieces {progress : Progress H} (h : progress.Reached args locale world)
    (ahead : List Piece) :
  let emission :=
    runPieces args locale progress.place ahead progress.numbering progress.world
  ∃ later : Progress H, later.Reached args locale world ∧
    ((later.pieces = progress.pieces ++ ahead ∧ emission.result = .ok later.numbering ∧
        progress.texts.flatten ++ outputText emission.spans = later.texts.flatten) ∨
      ∃ piece behind failure, progress.pieces ++ ahead = later.pieces ++ piece :: behind ∧
        (later.run args locale piece).result = .error failure ∧
        emission.result = .error failure ∧
        progress.texts.flatten ++ outputText emission.spans =
          later.texts.flatten ++ outputText (later.run args locale piece).spans)
  := by
  induction ahead generalizing progress with
  | nil => exact ⟨progress, h, .inl ⟨(List.append_nil _).symm, rfl, List.append_nil _⟩⟩
  | cons piece ahead ih =>
    rw [runPieces_cons, Emission.andThen]
    rcases hresult : (progress.run args locale piece).result with failure | after
    · exact ⟨progress, h, .inr ⟨piece, ahead, failure, rfl, hresult, rfl, rfl⟩⟩
    · have hplace : progress.place + byteLength piece.source =
          byteLength ((progress.pieces ++ [piece]).flatMap Piece.source) :=
        (place_append _ _).symm
      obtain ⟨later, hlater, hoption⟩ := ih (h.step hresult)
      refine ⟨later, hlater, ?_⟩
      simp only [List.flatten_append, List.flatten_singleton, List.append_assoc,
        List.singleton_append] at hoption
      simp only [outputText_append, hplace]
      exact hoption

/-- What has been run is the front of every run over pieces that start with it. -/
theorem Reached.runPieces_append {progress : Progress H} (h : progress.Reached args locale world)
    (ahead : List Piece) :
  let emission := BraceFormat.runPieces args locale 0 (progress.pieces ++ ahead) .undecided world
  let rest :=
    BraceFormat.runPieces args locale progress.place ahead progress.numbering progress.world
  emission.result = rest.result ∧
    outputText emission.spans = progress.texts.flatten ++ outputText rest.spans
  := by
  induction h generalizing ahead with
  | start => exact ⟨rfl, rfl⟩
  | @step progress piece after _ hresult ih =>
    obtain ⟨hrest, htext⟩ := ih (piece :: ahead)
    rw [runPieces_cons, Emission.andThen, hresult, place, ← place_append] at hrest htext
    rw [List.append_assoc, List.singleton_append]
    refine ⟨hrest, htext.trans ?_⟩
    rw [outputText_append, List.flatten_append, List.flatten_singleton, List.append_assoc]
    rfl

end Progress

/-- A call that fails comes to a piece that does, or to the fault of its template. It has put
out the texts of the pieces in front, and whatever the failing piece puts out. -/
theorem Template.failure_runFrom {template : Template} {args : Arguments H} {locale : Locale}
    {world : World H} {failure : Failure}
    (h : (template.runFrom args locale .undecided world).result = .error failure) :
  ∃ progress : Progress H, progress.Reached args locale world ∧
    ((progress.FailsAtFault template failure ∧
        outputText (template.runFrom args locale .undecided world).spans =
          progress.texts.flatten) ∨
      ∃ piece, progress.FailsAt args locale template piece failure ∧
        outputText (template.runFrom args locale .undecided world).spans =
          progress.texts.flatten ++ outputText (progress.run args locale piece).spans)
  := by
  have hplace : (⟨[], [], .undecided, world⟩ : Progress H).place = 0 := rfl
  have hstart : Progress.Reached args locale world ⟨[], [], .undecided, world⟩ := .start
  obtain ⟨progress, hprogress, hoption⟩ := hstart.runPieces template.pieces
  simp only [hplace, List.flatten_nil, List.nil_append] at hoption
  refine ⟨progress, hprogress, ?_⟩
  rw [runFrom] at h ⊢
  rcases hoption with ⟨hpieces, hresult, htext⟩ | ⟨piece, behind, failure', hpieces, hfails,
    hresult, htext⟩
  · left
    rcases Formatter.result_bind_error_iff.mp h with h | ⟨_, _, h⟩
    · rw [hresult] at h
      cases h
    · rw [Formatter.spans_bind_of_ok hresult]
      rcases hfault : template.fault with _ | place
      · rw [hfault] at h
        cases h
      · rw [hfault] at h
        cases h
        refine ⟨⟨hpieces, place, hfault, rfl⟩, ?_⟩
        rw [outputText_append, htext]
        apply List.append_nil
  · right
    rw [Formatter.spans_bind_of_error hresult]
    rcases Formatter.result_bind_error_iff.mp h with h | ⟨_, h, _⟩
    · rw [hresult] at h
      cases h
      exact ⟨piece, ⟨⟨behind, hpieces⟩, hfails⟩, htext⟩
    · rw [hresult] at h
      cases h

theorem failure_run {text : List Char} {args : Arguments H} {locale : Option Locale}
    {world : World H} {failure : Failure}
    (h : (run text args locale world).result = .error failure) :
  let inForce := locale.getD world.globalLocale
  ∃ progress : Progress H, progress.Reached args inForce world ∧
    ((progress.FailsAtFault (Template.read text) failure ∧
        outputText (run text args locale world).spans = progress.texts.flatten) ∨
      ∃ piece, progress.FailsAt args inForce (Template.read text) piece failure ∧
        outputText (run text args locale world).spans =
          progress.texts.flatten ++ outputText (progress.run args inForce piece).spans)
  := by
  obtain ⟨hspans, _, hresult⟩ := run_eq text args locale world
  rw [hspans]
  apply Template.failure_runFrom
  rw [hresult] at h
  exact map_eq_error_iff.mp h

/-- Conversely, a call that comes to a piece that fails does so itself, and has put out as much. -/
theorem failure_run_of_failsAt (text : List Char) (args : Arguments H) (locale : Option Locale)
    (world : World H) {progress : Progress H} {piece : Piece} {failure : Failure}
    (hreached : progress.Reached args (locale.getD world.globalLocale) world)
    (hfails : progress.FailsAt args (locale.getD world.globalLocale) (Template.read text) piece
      failure) :
  (run text args locale world).result = .error failure ∧
    outputText (run text args locale world).spans =
      progress.texts.flatten ++
        outputText (progress.run args (locale.getD world.globalLocale) piece).spans
  := by
  obtain ⟨behind, hpieces⟩ := hfails.ahead
  obtain ⟨hrest, htext⟩ := hreached.runPieces_append (piece :: behind)
  rw [Progress.runPieces_cons, Emission.andThen, hfails.failed, ← hpieces] at hrest htext
  obtain ⟨hspans, _, hresult⟩ := run_eq text args locale world
  rw [hspans, hresult, Template.runFrom, Formatter.spans_bind_of_error hrest, htext]
  constructor
  · apply map_eq_error_iff.mpr
    exact Formatter.result_bind_error_iff.mpr (.inl hrest)
  · rfl

end BraceFormat
