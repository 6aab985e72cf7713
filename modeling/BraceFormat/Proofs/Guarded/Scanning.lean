import BraceFormat.Proofs.Template.Partition

/-!
# Scanning in stages

A scanner holds a place of a text and a numbering, and changes them as it goes. It reads a field
in stages: it looks for the id, for the brace that closes the field, and for the argument that the
id refers to, and then it moves on. Most stages can fail, and a stage that fails puts nothing back
that was changed before it. Still, a scanner that fails has changed nothing (`atomic_scan`): what
comes before the argument is numbered changes nothing, and what comes after it does not fail.

Whatever the text is, no guard is breached, and the scanner takes the steps of a cursor over the
text (`Cursor.next_of_reached`).
-/

namespace BraceFormat

namespace Guarded

/-! ### Stages -/

/-- What a scanner holds. -/
structure Scan where
  /-- The byte that is read next. -/
  place : Nat
  numbering : Numbering
  deriving DecidableEq, Repr

/-- A stage of scanning with its guards. It may change what is held, even if it fails. -/
def Stage (α : Type) := Scan → Option (Except FormatError α × Scan)

variable {α β : Type}

namespace Stage

/-- The stage that gives a value. -/
def pure (a : α) : Stage α := fun held => some (.ok a, held)

/-- One stage after another. A failure leaves what is held as it is by then. -/
def bind (stage : Stage α) (next : α → Stage β) : Stage β := fun held => do
  match ← stage held with
  | (.error e, held) => return (.error e, held)
  | (.ok a, held) => next a held

instance : Monad Stage where
  pure := pure
  bind := bind

/-- The stage that fails. -/
def fail (e : FormatError) : Stage α := fun held => some (.error e, held)

/-- Gives a value that is guarded. -/
def ofOption (value : Option α) : Stage α := fun held => value.map fun a => (.ok a, held)

/-- Gives what is read of the template, or fails with the place at which it is ill-formed. -/
def reading (outcome : Option (Except Nat α)) : Stage α := fun held =>
  outcome.map fun outcome => (outcome.mapError (.located .malformedTemplate), held)

/-- Gives the place that is held. -/
def place : Stage Nat := fun held => some (.ok held.place, held)

/-- Moves to a place. -/
def moveTo (place : Nat) : Stage Unit := fun held => some (.ok (), { held with place })

/-- Numbers the argument of the field that starts at a place. -/
def number (start : Nat) (id : ArgId) : Stage Reference := fun held =>
  match held.numbering.resolve id with
  | .error kind => some (.error (.located kind start), held)
  | .ok (argument, numbering) => some (.ok argument, { held with numbering })

end Stage

open Stage

/-- The places between which the specifier lies of the field that starts at a place and whose id
stops at another. Fails with the place at which the field is ill-formed. -/
def bounds? (text : List Char) (start stop : Nat) : Option (Except Nat (Nat × Nat)) :=
  if peek text stop = some '}' then some (.ok (stop, stop))
  else if peek text stop = some ':' then do
    let bytes ← bytesFrom? text (stop + 1)
    match ← closing? 0 bytes with
    | some size => return .ok (stop + 1, stop + 1 + size)
    | none => return .error start
  else if (peek text stop).isSome then some (.error stop)
  else some (.error start)

/-- Takes the step at the field that starts at a place. -/
def scanField (text : List Char) (start : Nat) : Stage Step := do
  let (id, stop) ← reading (argId? text (start + 1))
  let (specStart, specStop) ← reading (bounds? text start stop)
  let argument ← number start id
  moveTo (specStop + 1)
  let spec ← ofOption (slice? text specStart specStop)
  return .put ⟨argument, spec, start, specStart⟩

/-- Copies the text between two places, and moves on. -/
def scanCopy (text : List Char) (start stop after : Nat) : Stage Step := do
  moveTo after
  let copied ← ofOption (slice? text start stop)
  return .copy copied

/-- Takes the step at the piece that starts at a place. -/
def scanPiece (text : List Char) (start : Nat) : Stage Step :=
  if peek text start = some '{' then
    if peek text (start + 1) = some '{' then scanCopy text start (start + 1) (start + 2)
    else scanField text start
  else if peek text start = some '}' then
    if peek text (start + 1) = some '}' then scanCopy text start (start + 1) (start + 2)
    else fail (.located .malformedTemplate start)
  else do
    let stop ← ofOption (stopFrom? Piece.isBrace text start)
    scanCopy text start stop stop

/-- Takes the next step, if there is one. -/
def scan (text : List Char) : Stage (Option Step) := do
  let start ← place
  if peek text start = none then return none
  else do
    let step ← scanPiece text start
    return some step

/-! ### What stages change -/

namespace Stage

variable {stage : Stage α} {next : α → Stage β} {held held' : Scan} {a : α} {e : FormatError}

theorem bind_of_ok (h : stage held = some (.ok a, held')) :
  (stage >>= next) held = next a held'
  := by
  change stage.bind next held = _
  rw [bind, h]
  rfl

theorem bind_of_error (h : stage held = some (.error e, held')) :
  (stage >>= next) held = some (.error e, held')
  := by
  change stage.bind next held = _
  rw [bind, h]
  rfl

theorem ofOption_eq {value : Option α} (h : value = some a) (held : Scan) :
  ofOption value held = some (.ok a, held)
  := by
  rw [h]
  rfl

theorem place_eq (held : Scan) :
  place held = some (.ok held.place, held)
  := rfl

theorem reading_bind_of_ok {outcome : Option (Except Nat α)} (h : outcome = some (.ok a)) :
  (reading outcome >>= next) held = next a held
  := by
  rw [h]
  rfl

theorem reading_bind_of_error {outcome : Option (Except Nat α)} {fault : Nat}
    (h : outcome = some (.error fault)) :
  (reading outcome >>= next) held = some (.error (.located .malformedTemplate fault), held)
  := by
  rw [h]
  rfl

section

variable {next : Reference → Stage β} {start : Nat} {id : ArgId}

theorem number_bind_of_ok {argument : Reference} {after : Numbering}
    (h : held.numbering.resolve id = .ok (argument, after)) :
  (number start id >>= next) held = next argument { held with numbering := after }
  := by
  apply bind_of_ok
  rw [number, h]

theorem number_bind_of_error {kind : ErrorKind} (h : held.numbering.resolve id = .error kind) :
  (number start id >>= next) held = some (.error (.located kind start), held)
  := by
  apply bind_of_error
  rw [number, h]

end

/-- Stages in a row fail if the first one does, or the others after it. -/
theorem bind_eq_error (h : (stage >>= next) held = some (.error e, held')) :
  stage held = some (.error e, held') ∨
    ∃ a between, stage held = some (.ok a, between) ∧ next a between = some (.error e, held')
  := by
  rcases hstage : stage held with _ | ⟨e | a, between⟩
  · change stage.bind next held = _ at h
    rw [bind, hstage] at h
    cases h
  · rw [bind_of_error hstage] at h
    cases h
    exact .inl rfl
  · rw [bind_of_ok hstage] at h
    exact .inr ⟨a, between, rfl, h⟩

/-- What is held stays as it is. -/
def Steady (stage : Stage α) : Prop :=
  ∀ held outcome held', stage held = some (outcome, held') → held' = held

/-- There is no failure. -/
def Sure (stage : Stage α) : Prop :=
  ∀ held e held', stage held ≠ some (.error e, held')

/-- A failure leaves what is held as it was at the start. -/
def Atomic (stage : Stage α) : Prop :=
  ∀ held e held', stage held = some (.error e, held') → held' = held

theorem Steady.atomic (h : stage.Steady) :
  stage.Atomic
  := fun held e held' hstage => h held (.error e) held' hstage

theorem Sure.atomic (h : stage.Sure) :
  stage.Atomic
  := fun held e held' hstage => absurd hstage (h held e held')

theorem Sure.bind (h : stage.Sure) (hnext : ∀ a, (next a).Sure) :
  (stage >>= next).Sure
  := by
  intro held e held' hbind
  obtain hstage | ⟨a, between, _, hbetween⟩ := bind_eq_error hbind
  · apply h _ _ _ hstage
  · apply hnext a _ _ _ hbetween

/-- Nothing has changed before the failure. -/
theorem Steady.bind_atomic (h : stage.Steady) (hnext : ∀ a, (next a).Atomic) :
  (stage >>= next).Atomic
  := by
  intro held e held' hbind
  obtain hstage | ⟨a, between, hstage, hbetween⟩ := bind_eq_error hbind
  · apply h _ _ _ hstage
  · rw [hnext a _ _ _ hbetween, h _ _ _ hstage]

/-- Nothing fails after the change. -/
theorem Atomic.bind_sure (h : stage.Atomic) (hnext : ∀ a, (next a).Sure) :
  (stage >>= next).Atomic
  := by
  intro held e held' hbind
  obtain hstage | ⟨a, between, _, hbetween⟩ := bind_eq_error hbind
  · apply h _ _ _ hstage
  · cases hnext a _ _ _ hbetween

/-! The stages that others are made of. -/

theorem sure_pure (a : α) :
  Sure (Pure.pure a : Stage α)
  := by
  rintro held e held' ⟨⟩

theorem steady_fail (e : FormatError) :
  Steady (fail e : Stage α)
  := by
  rintro held outcome held' ⟨⟩
  rfl

theorem steady_place :
  place.Steady
  := by
  rintro held outcome held' ⟨⟩
  rfl

theorem steady_ofOption (value : Option α) :
  (ofOption value).Steady
  := by
  intro held outcome held' h
  cases value with
  | none => cases h
  | some a =>
    cases h
    rfl

theorem sure_ofOption (value : Option α) :
  (ofOption value).Sure
  := by
  intro held e held' h
  cases value with
  | none => cases h
  | some a => cases h

/-- Nothing has changed when something ill-formed is found. -/
theorem steady_reading (outcome : Option (Except Nat α)) :
  (reading outcome).Steady
  := by
  intro held outcome' held' h
  cases outcome with
  | none => cases h
  | some outcome =>
    cases h
    rfl

theorem sure_moveTo (place : Nat) :
  (moveTo place).Sure
  := by
  rintro held e held' ⟨⟩

/-- An id in conflict with the numbering does not change it. -/
theorem atomic_number (start : Nat) (id : ArgId) :
  (number start id).Atomic
  := by
  intro held e held' h
  rw [number] at h
  split at h <;> cases h
  rfl

end Stage

variable (text : List Char) (start : Nat)

theorem sure_scanCopy (stop after : Nat) :
  (scanCopy text start stop after).Sure
  := by
  apply (sure_moveTo _).bind
  intro _
  apply (sure_ofOption _).bind
  intro copied
  apply sure_pure

/-- Whatever of a field is ill-formed is found before its argument is numbered. -/
theorem atomic_scanField :
  (scanField text start).Atomic
  := by
  apply (steady_reading _).bind_atomic
  rintro ⟨id, stop⟩
  apply (steady_reading _).bind_atomic
  rintro ⟨specStart, specStop⟩
  apply (atomic_number start id).bind_sure
  intro argument
  apply (sure_moveTo _).bind
  intro _
  apply (sure_ofOption _).bind
  intro spec
  apply sure_pure

theorem atomic_scanPiece :
  (scanPiece text start).Atomic
  := by
  rw [scanPiece]
  split
  · split
    · apply (sure_scanCopy text start _ _).atomic
    · apply atomic_scanField
  · split
    · split
      · apply (sure_scanCopy text start _ _).atomic
      · apply (steady_fail _).atomic
    · apply (steady_ofOption _).bind_atomic
      intro stop
      apply (sure_scanCopy text start _ _).atomic

/-- A scanner that fails has changed nothing, at any place of a text. -/
theorem atomic_scan :
  (scan text).Atomic
  := by
  apply steady_place.bind_atomic
  intro start
  split
  · apply (sure_pure _).atomic
  · apply (atomic_scanPiece text start).bind_sure
    intro step
    apply sure_pure

/-! ### What a scanner reads -/

section

variable {text : List Char} {start : Nat} {numbering : Numbering}

/-- What taking the step at a piece comes to, if reading the piece gives an outcome. -/
def stepOutcome (start : Nat) (numbering : Numbering) :
    Except Nat (Piece × Nat) → Except FormatError Step × Scan
  | .error place => (.error (.located .malformedTemplate place), ⟨start, numbering⟩)
  | .ok (piece, stop) =>
    match piece.step start numbering with
    | .error e => (.error e, ⟨start, numbering⟩)
    | .ok (step, after) => (.ok step, ⟨stop, after⟩)

/-- A field that is read has a specifier within its bounds, or none. -/
theorem bounds?_of_field? {id : ArgId} {stop : Nat} {rest : List Char} (h : At text stop rest)
    (hid : argId? text (start + 1) = some (.ok (id, stop))) {outcome : Except Nat (Piece × Nat)}
    (hfield : field? text start = some outcome) :
  (∃ place, outcome = .error place ∧ bounds? text start stop = some (.error place)) ∨
    ∃ spec specStop, outcome = .ok (.field id spec, specStop + 1) ∧
      let specStart := stop + if spec.isSome then 1 else 0
      bounds? text start stop = some (.ok (specStart, specStop)) ∧
        slice? text specStart specStop = some (spec.getD [])
  := by
  rw [field?, hid] at hfield
  simp only [Option.bind_eq_bind, Option.bind_some] at hfield
  rw [bounds?]
  split at hfield
  · next hclose =>
    rw [h.slice?_nil] at hfield
    cases hfield
    rw [if_pos hclose]
    exact .inr ⟨none, stop, rfl, rfl, h.slice?_nil⟩
  · next hclose =>
    rw [if_neg hclose]
    split at hfield
    · next hcolon =>
      obtain ⟨bytes, hbytes, hfield⟩ := Option.bind_eq_some_iff.mp hfield
      obtain ⟨size, hclosing, hfield⟩ := Option.bind_eq_some_iff.mp hfield
      rw [if_pos hcolon, hbytes, Option.bind_eq_bind, Option.bind_some, hclosing]
      cases size with
      | none =>
        cases hfield
        exact .inl ⟨start, rfl, rfl⟩
      | some size =>
        obtain ⟨spec, hslice, houtcome⟩ := Option.bind_eq_some_iff.mp hfield
        cases houtcome
        exact .inr ⟨some spec, _, rfl, rfl, hslice⟩
    · next hcolon =>
      rw [if_neg hcolon]
      split at hfield
      · next hsome =>
        cases hfield
        exact .inl ⟨stop, rfl, if_pos hsome⟩
      · next hsome =>
        cases hfield
        exact .inl ⟨start, rfl, if_neg hsome⟩

/-- A field that is read is the one at which the step is taken. -/
theorem scanField_of_field? {rest : List Char} (h : At text (start + 1) rest)
    {outcome : Except Nat (Piece × Nat)} (hfield : field? text start = some outcome) :
  scanField text start ⟨start, numbering⟩ = some (stepOutcome start numbering outcome)
  := by
  have hid := argId?_eq h
  rw [scanField]
  rcases hread : ArgId.read rest with inner | ⟨id, after⟩
  · rw [hread] at hid
    rw [field?, hid] at hfield
    cases hfield
    rw [reading_bind_of_error hid]
    rfl
  · rw [hread] at hid
    obtain ⟨rfl, _⟩ := ArgId.source_of_read hread
    rw [reading_bind_of_ok hid]
    dsimp only
    obtain ⟨place, rfl, hbounds⟩ | ⟨spec, specStop, rfl, hbounds, hslice⟩ :=
      bounds?_of_field? h.advance hid hfield
    · rw [reading_bind_of_error hbounds]
      rfl
    · rw [reading_bind_of_ok hbounds, stepOutcome, Piece.step]
      dsimp only
      rcases hresolve : numbering.resolve id with kind | ⟨argument, after⟩
      · rw [number_bind_of_error hresolve]
      · rw [number_bind_of_ok hresolve, hslice]
        simp only [Piece.specOffset, ← Nat.add_assoc]
        rfl

theorem scanCopy_of_slice? {stop after : Nat} {copied : List Char}
    (hslice : slice? text start stop = some copied) (held : Scan) :
  scanCopy text start stop after held = some (.ok (.copy copied), { held with place := after })
  := by
  rw [scanCopy, hslice]
  rfl

/-- One brace is copied of two. -/
theorem scanCopy_brace {c : Char} (hc : Piece.isBrace c = true) {rest : List Char}
    (h : At text start rest) (hpeek : peek text start = some c) :
  scanCopy text start (start + 1) (start + 2) ⟨start, numbering⟩ =
    some (stepOutcome start numbering (.ok (.brace c, start + 2)))
  := by
  have hslice : slice? text start (start + 1) = some [c] := by
    obtain rfl | rfl := Piece.isBrace_iff.mp hc
    all_goals
      obtain ⟨behind, rfl⟩ :=
        List.head?_eq_some_iff.mp ((h.peek_eq_some_iff (by decide)).mp hpeek)
      change At text start ([_] ++ behind) at h
      exact h.slice?_eq
  rw [scanCopy_of_slice? hslice]
  rfl

/-- A piece that is read is the one at which the step is taken. -/
theorem scanPiece_of_piece? {rest : List Char} (h : At text start rest)
    {outcome : Except Nat (Piece × Nat)} (hpiece : piece? text start = some outcome) :
  scanPiece text start ⟨start, numbering⟩ = some (stepOutcome start numbering outcome)
  := by
  rw [piece?] at hpiece
  rw [scanPiece]
  split at hpiece
  · next hopen =>
    rw [if_pos hopen]
    split at hpiece
    · next hdouble =>
      obtain ⟨_, _, houtcome⟩ := Option.bind_eq_some_iff.mp hpiece
      cases houtcome
      rw [if_pos hdouble, scanCopy_brace rfl h hopen]
    · next hdouble =>
      rw [if_neg hdouble]
      obtain ⟨rest, rfl⟩ :=
        List.head?_eq_some_iff.mp ((h.peek_eq_some_iff (by decide)).mp hopen)
      apply scanField_of_field? h.advance_char hpiece
  · next hopen =>
    rw [if_neg hopen]
    split at hpiece
    · next hclose =>
      rw [if_pos hclose]
      split at hpiece
      · next hdouble =>
        obtain ⟨_, _, houtcome⟩ := Option.bind_eq_some_iff.mp hpiece
        cases houtcome
        rw [if_pos hdouble, scanCopy_brace rfl h hclose]
      · next hdouble =>
        cases hpiece
        rw [if_neg hdouble]
        rfl
    · next hclose =>
      obtain ⟨stop, hstop, hpiece⟩ := Option.bind_eq_some_iff.mp hpiece
      obtain ⟨copied, hslice, houtcome⟩ := Option.bind_eq_some_iff.mp hpiece
      cases houtcome
      rw [if_neg hclose, bind_of_ok (ofOption_eq hstop _), scanCopy_of_slice? hslice]
      rfl

end

end Guarded

/-! ### Cursors -/

open Guarded Guarded.Stage

namespace Cursor

/-- The cursor at a place of a text, in front of the rest. -/
def inFrontOf (position : Nat) (rest : List Char) : Cursor :=
  ⟨(Template.read rest).pieces, (Template.read rest).fault.map (position + ·), position⟩

/-- The cursors over a text that are reached by steps, whatever the numbering is at each of
them. -/
inductive Reached (text : List Char) : Cursor → Prop where
  | start : Reached text (ofTemplate (Template.read text))
  | next {cursor cursor' : Cursor} {numbering after : Numbering} {step : Step}
      (h : Reached text cursor)
      (hnext : cursor.next numbering = (.ok (some step), cursor', after)) : Reached text cursor'

/-- What a scanner comes to if a cursor does. -/
def scanned : Except FormatError (Option Step) × Cursor × Numbering →
    Except FormatError (Option Step) × Scan :=
  fun (outcome, cursor, numbering) => (outcome, ⟨cursor.position, numbering⟩)

theorem inFrontOf_nil (position : Nat) :
  inFrontOf position [] = ⟨[], none, position⟩
  := by
  rw [inFrontOf, Template.read_nil]
  rfl

theorem inFrontOf_of_error {position inner : Nat} {rest : List Char} (hne : rest ≠ [])
    (hread : Piece.read rest = .error inner) :
  inFrontOf position rest = ⟨[], some (position + inner), position⟩
  := by
  rw [inFrontOf, Template.read_of_error hne hread]
  rfl

theorem inFrontOf_of_ok {position : Nat} {rest behind : List Char} {piece : Piece}
    (hne : rest ≠ []) (hread : Piece.read rest = .ok (piece, behind)) :
  inFrontOf position rest =
    ⟨piece :: (Template.read behind).pieces,
      (inFrontOf (position + byteLength piece.source) behind).fault, position⟩
  := by
  rw [inFrontOf, Template.read_of_ok hne hread, Template.cons, inFrontOf, Option.map_map]
  simp only [Function.comp_def, Nat.add_assoc]

/-- A step takes a cursor over a piece. -/
theorem next_of_ok {position : Nat} {rest behind : List Char} {piece : Piece} (hne : rest ≠ [])
    (hread : Piece.read rest = .ok (piece, behind)) (numbering : Numbering) :
  (inFrontOf position rest).next numbering =
    match piece.step position numbering with
    | .error e => (.error e, inFrontOf position rest, numbering)
    | .ok (step, after) =>
      (.ok (some step), inFrontOf (position + byteLength piece.source) behind, after)
  := by
  rw [inFrontOf_of_ok hne hread]
  rfl

/-- A scanner takes the steps of the cursor at its place. -/
theorem scan_eq {text rest : List Char} {position : Nat} (h : At text position rest)
    (numbering : Numbering) :
  scan text ⟨position, numbering⟩ = some (scanned ((inFrontOf position rest).next numbering))
  := by
  by_cases hne : rest = []
  · obtain rfl := hne
    have hend := h.peek_nil
    rw [scan, bind_of_ok (place_eq _), if_pos hend, inFrontOf_nil]
    rfl
  · have hpeek : peek text position ≠ none := by
      obtain ⟨c, rest, rfl⟩ := List.exists_cons_of_ne_nil hne
      rw [← Option.isSome_iff_ne_none]
      apply h.isSome_peek_cons
    have hpiece : scanPiece text position ⟨position, numbering⟩ = _ :=
      scanPiece_of_piece? h (piece?_eq hne h)
    rw [scan, bind_of_ok (place_eq _), if_neg hpeek]
    rcases hread : Piece.read rest with inner | ⟨piece, behind⟩
    · rw [hread] at hpiece
      rw [bind_of_error hpiece, inFrontOf_of_error hne hread]
      rfl
    · rw [hread] at hpiece
      rw [next_of_ok hne hread]
      rw [pieceOutcome, stepOutcome] at hpiece
      rcases hstep : piece.step position numbering with e | ⟨step, after⟩
      · rw [hstep] at hpiece
        rw [bind_of_error hpiece]
        rfl
      · rw [hstep] at hpiece
        rw [bind_of_ok hpiece]
        rfl

/-- A cursor that is reached stands between two characters, in front of the rest of the text. -/
theorem Reached.exists_rest {text : List Char} {cursor : Cursor} (h : Reached text cursor) :
  ∃ rest, At text cursor.position rest ∧ cursor = inFrontOf cursor.position rest
  := by
  induction h with
  | start =>
    refine ⟨text, At.zero text, ?_⟩
    simp only [inFrontOf, ofTemplate, Nat.zero_add, Option.map_id']
  | @next cursor cursor' numbering after step _ hnext ih =>
    obtain ⟨rest, hat, hcursor⟩ := ih
    rw [hcursor] at hnext
    by_cases hne : rest = []
    · rw [hne, inFrontOf_nil] at hnext
      cases hnext
    · rcases hread : Piece.read rest with inner | ⟨piece, behind⟩
      · rw [inFrontOf_of_error hne hread] at hnext
        cases hnext
      · obtain rfl := Piece.source_of_read hread
        rw [next_of_ok hne hread] at hnext
        split at hnext <;> cases hnext
        exact ⟨behind, hat.advance, rfl⟩

/-- What a step changes of the numbering is told by the piece at which it is taken. -/
theorem numbers_of_step {piece : Piece} {start : Nat} {numbering after : Numbering} {step : Step}
    (h : piece.step start numbering = .ok (step, after)) :
  match step with
  | .copy _ => after = numbering
  | .put field =>
    ∃ id spec, piece = .field id spec ∧ field.spec = spec.getD [] ∧
      numbering.Numbers id field.argument after
  := by
  cases piece with
  | literal text =>
    cases h
    rfl
  | brace c =>
    cases h
    rfl
  | field id spec =>
    rw [Piece.step] at h
    split at h <;> cases h
    next hresolve => exact ⟨id, spec, rfl, rfl, Numbering.resolve_iff.mp hresolve⟩

/-- A cursor over a text takes its steps as the scanner does, and neither changes anything if it
fails, whether the template is ill-formed or a field is in conflict with the numbering. Copying
text leaves the numbering as it is, and a field changes it by the id that is written there. -/
theorem next_of_reached (text : List Char) :
  (scan text).Atomic ∧
  ∀ cursor, Reached text cursor → ∀ numbering outcome ahead after,
    cursor.next numbering = (outcome, ahead, after) →
    scan text ⟨cursor.position, numbering⟩ = some (outcome, ⟨ahead.position, after⟩) ∧
    match outcome with
    | .error e =>
      (e.kind = .malformedTemplate ∨ e.kind = .indexingConflict) ∧
        ahead = cursor ∧ after = numbering
    | .ok none => ahead = cursor ∧ after = numbering
    | .ok (some (.copy _)) => after = numbering
    | .ok (some (.put field)) =>
      ∃ id spec rest, (Piece.field id spec).WellFormed ∧
        At text cursor.position ((Piece.field id spec).source ++ rest) ∧
        field.spec = spec.getD [] ∧ numbering.Numbers id field.argument after
  := by
  refine ⟨atomic_scan text, ?_⟩
  intro cursor hreached numbering outcome ahead after hnext
  obtain ⟨rest, hat, hcursor⟩ := hreached.exists_rest
  have hscan := scan_eq hat numbering
  rw [← hcursor, hnext] at hscan
  refine ⟨hscan, ?_⟩
  by_cases hne : rest = []
  · rw [hcursor, hne, inFrontOf_nil] at hnext
    cases hnext
    rw [hcursor, hne, inFrontOf_nil]
    exact ⟨rfl, rfl⟩
  · rcases hread : Piece.read rest with inner | ⟨piece, behind⟩
    · rw [hcursor, inFrontOf_of_error hne hread] at hnext
      cases hnext
      rw [hcursor, inFrontOf_of_error hne hread]
      exact ⟨.inl rfl, rfl, rfl⟩
    · obtain rfl := Piece.source_of_read hread
      rw [hcursor, next_of_ok hne hread] at hnext
      split at hnext
      · next hstep =>
        cases hnext
        obtain rfl := Piece.eq_indexingConflict_of_step hstep
        exact ⟨.inr rfl, hcursor.symm, rfl⟩
      · next step _ hstep =>
        cases hnext
        have hnumbers := numbers_of_step hstep
        cases step with
        | copy copied => apply hnumbers
        | put field =>
          obtain ⟨id, spec, rfl, hspec, hid⟩ := hnumbers
          have hpiece := Piece.wellFormed_of_read hne hread
          exact ⟨id, spec, behind, hpiece, hat, hspec, hid⟩

/-- An automatic field with a nested one, and behind it a field with a number, which is in
conflict. -/
theorem next_of_reached_nested :
  let text := ['{', ':', '{', '}', '}', '{', '0', '}']
  let field : Field := ⟨.index 3, ['{', '}'], 0, 2⟩
  let start := ofTemplate (Template.read text)
  let behind : Cursor := ⟨[.field (.index 0) none], none, 5⟩
  Reached text start ∧
    start.next (.automatic 3) = (.ok (some (.put field)), behind, .automatic 4) ∧
    scan text ⟨0, .automatic 3⟩ = some (.ok (some (.put field)), ⟨5, .automatic 4⟩) ∧
    Reached text behind ∧
    behind.next (.automatic 4) =
      (.error (.located .indexingConflict 5), behind, .automatic 4) ∧
    scan text ⟨5, .automatic 4⟩ =
      some (.error (.located .indexingConflict 5), ⟨5, .automatic 4⟩)
  := by
  intro text field start behind
  have hread : Template.read text =
      ⟨[.field .auto (some ['{', '}']), .field (.index 0) none], none⟩ := by
    rw [Template.read_of_ok (List.cons_ne_nil _ _) rfl,
      Template.read_of_last (List.cons_ne_nil _ _) rfl]
    rfl
  have hnext : start.next (.automatic 3) = (.ok (some (.put field)), behind, .automatic 4) := by
    change (ofTemplate (Template.read text)).next _ = _
    rw [hread]
    rfl
  have hbehind : Reached text behind := .next .start hnext
  obtain ⟨_, hsteps⟩ := next_of_reached text
  have hfirst := (hsteps start .start _ _ _ _ hnext).1
  have hsecond := (hsteps behind hbehind (.automatic 4) _ _ _ rfl).1
  exact ⟨.start, hnext, hfirst, hbehind, rfl, hsecond⟩

end Cursor

end BraceFormat
