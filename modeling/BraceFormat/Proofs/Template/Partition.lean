import BraceFormat.Proofs.Guarded.Template
import BraceFormat.Proofs.Numbering
import BraceFormat.Proofs.Template.Acceptance
import BraceFormat.Template.Step
import Mathlib.Tactic.Use

/-!
# What a cursor goes over

A cursor that is driven over a text comes to its end just if the text is a template, unless a
field is in conflict with the numbering. It has then gone over the whole text: the steps it has
taken lie one behind the other from the first byte to the last, each of them shows what is
written there, and every cut is one between two characters. The fields are numbered in this
order by the ids that are written in them (`Cursor.drive_ofTemplate`).
-/

namespace BraceFormat

open Guarded

/-! ### Driving a cursor -/

/-- A step that a cursor has taken, with the bytes between which its piece lies. -/
structure Visit where
  start : Nat
  step : Step
  stop : Nat
  deriving DecidableEq, Repr

namespace Cursor

/-- Every step leaves less ahead. -/
theorem length_ahead_lt_of_next {cursor cursor' : Cursor} {numbering after : Numbering}
    {step : Step} (h : cursor.next numbering = (.ok (some step), cursor', after)) :
  cursor'.ahead.length < cursor.ahead.length
  := by
  obtain ⟨_ | ⟨piece, ahead⟩, fault, position⟩ := cursor
  · simp only [next] at h
    split at h <;> cases h
  · simp only [next] at h
    split at h <;> cases h
    apply Nat.lt_succ_self

/-- Takes steps until the end or the first error. Gives the steps, and the numbering at the
end or the error. -/
def drive (cursor : Cursor) (numbering : Numbering) :
    List Visit × Except FormatError Numbering :=
  match _h : cursor.next numbering with
  | (.error e, _) => ([], .error e)
  | (.ok none, _, numbering) => ([], .ok numbering)
  | (.ok (some step), ahead, numbering) =>
    let (visits, outcome) := ahead.drive numbering
    (⟨cursor.position, step, ahead.position⟩ :: visits, outcome)
termination_by cursor.ahead.length
decreasing_by exact length_ahead_lt_of_next _h

/-- A cursor takes the next step, and goes on from there. -/
theorem drive_eq (cursor : Cursor) (numbering : Numbering) :
  cursor.drive numbering =
    match cursor.next numbering with
    | (.error e, _) => ([], .error e)
    | (.ok none, _, numbering) => ([], .ok numbering)
    | (.ok (some step), ahead, numbering) =>
      let (visits, outcome) := ahead.drive numbering
      (⟨cursor.position, step, ahead.position⟩ :: visits, outcome)
  := by
  rw [drive]
  split
  · next h => rw [h]
  · next h => rw [h]
  · next h => rw [h]

variable {piece : Piece} {pieces : List Piece} {fault : Option Nat} {position : Nat}
  {numbering : Numbering}

theorem drive_end :
  drive ⟨[], none, position⟩ numbering = ([], .ok numbering)
  := by
  rw [drive_eq]
  rfl

theorem drive_fault {place : Nat} :
  drive ⟨[], some place, position⟩ numbering =
    ([], .error (.located .malformedTemplate place))
  := by
  rw [drive_eq]
  rfl

theorem drive_of_error {e : FormatError} (h : piece.step position numbering = .error e) :
  drive ⟨piece :: pieces, fault, position⟩ numbering = ([], .error e)
  := by
  rw [drive_eq]
  simp only [next, h]

theorem drive_of_step {step : Step} {after : Numbering}
    (h : piece.step position numbering = .ok (step, after)) :
  drive ⟨piece :: pieces, fault, position⟩ numbering =
    let (visits, outcome) := drive ⟨pieces, fault, position + byteLength piece.source⟩ after
    (⟨position, step, position + byteLength piece.source⟩ :: visits, outcome)
  := by
  rw [drive_eq]
  simp only [next, h]

end Cursor

/-- A step that cannot be taken is in conflict with the numbering. -/
theorem Piece.eq_indexingConflict_of_step {piece : Piece} {start : Nat} {numbering : Numbering}
    {e : FormatError} (h : piece.step start numbering = .error e) :
  e = .located .indexingConflict start
  := by
  cases piece with
  | literal text => cases h
  | brace c => cases h
  | field id spec =>
    rw [step] at h
    split at h <;> cases h
    next hid => rw [Numbering.eq_indexingConflict_of_resolve hid]

/-- A cursor comes to the end if there is no fault, or to the fault, or to a conflict. -/
theorem Cursor.drive_outcome (pieces : List Piece) (fault : Option Nat) (position : Nat)
    (numbering : Numbering) :
  (fault = none ∧ ∃ after, (drive ⟨pieces, fault, position⟩ numbering).2 = .ok after) ∨
    (∃ place, fault = some place ∧ (drive ⟨pieces, fault, position⟩ numbering).2 =
      .error (.located .malformedTemplate place)) ∨
    ∃ place, (drive ⟨pieces, fault, position⟩ numbering).2 =
      .error (.located .indexingConflict place)
  := by
  induction pieces generalizing position numbering with
  | nil =>
    cases fault with
    | none =>
      rw [drive_end]
      exact .inl ⟨rfl, numbering, rfl⟩
    | some place =>
      rw [drive_fault]
      exact .inr (.inl ⟨place, rfl, rfl⟩)
  | cons piece pieces ih =>
    rcases hstep : piece.step position numbering with e | ⟨step, after⟩
    · rw [drive_of_error hstep]
      obtain rfl := Piece.eq_indexingConflict_of_step hstep
      exact .inr (.inr ⟨position, rfl⟩)
    · rw [drive_of_step hstep]
      apply ih

/-! ### What a step shows -/

/-- The brace at byte `closing` of a text closes the one at byte `opening`: between the two of
them braces come in pairs. -/
def BracesMatch (text : List Char) (opening closing : Nat) : Prop :=
  ∃ inner behind, At text opening ('{' :: inner ++ '}' :: behind) ∧ Balanced inner ∧
    closing = opening + 1 + byteLength inner

/-- A brace is closed by one brace only. -/
theorem BracesMatch.unique {text : List Char} {opening closing closing' : Nat}
    (h : BracesMatch text opening closing) (h' : BracesMatch text opening closing') :
  closing = closing'
  := by
  obtain ⟨inner, behind, hat, hinner, rfl⟩ := h
  obtain ⟨inner', behind', hat', hinner', rfl⟩ := h'
  have hrest := hat.textFrom?_eq
  rw [hat'.textFrom?_eq, Option.some.injEq, List.cons_append, List.cons_append,
    List.cons.injEq] at hrest
  have hsplit := Piece.splitClosing_closed hinner behind
  rw [← hrest.2, Piece.splitClosing_closed hinner'] at hsplit
  cases hsplit
  rfl

/-- The brace that closes a field is its last character, and its specifier stands in front of
this. -/
theorem Piece.exists_bracesMatch {text rest : List Char} {start : Nat} {id : ArgId}
    {spec : Option (List Char)} (hid : id.WellFormed) (hspec : ∀ s ∈ spec, Balanced s)
    (hat : At text start ((field id spec).source ++ rest)) :
  ∃ closing, BracesMatch text start closing ∧
    closing + 1 = start + byteLength (field id spec).source ∧
    slice? text (start + specOffset id spec) closing = some (spec.getD [])
  := by
  cases spec with
  | none =>
    have hinner : Balanced (id.source ++ []) := Balanced.literal_append hid.not_isBrace .nil
    rw [List.append_nil] at hinner
    rw [source, List.append_assoc] at hat
    refine ⟨start + 1 + byteLength id.source, ⟨_, rest, hat, hinner, rfl⟩, ?_, ?_⟩
    · rw [byteLength_field_none]
      omega
    · have hend := hat.advance.slice?_nil
      rw [byteLength_cons, ← Nat.add_assoc] at hend
      change slice? text (start + (1 + byteLength id.source + 0)) _ = some []
      rw [Nat.add_zero, ← Nat.add_assoc]
      exact hend
  | some s =>
    have hinner : Balanced (id.source ++ ':' :: s) :=
      Balanced.literal_append hid.not_isBrace (.char (by decide) (hspec s rfl))
    have hmatch : At text start ('{' :: (id.source ++ ':' :: s) ++ '}' :: rest) := by
      simpa [source] using hat
    have hsize : byteLength (id.source ++ ':' :: s) =
        byteLength id.source + (1 + byteLength s) := by
      rw [byteLength_append, byteLength_cons]
      rfl
    refine ⟨start + 1 + byteLength (id.source ++ ':' :: s), ⟨_, rest, hmatch, hinner, rfl⟩,
      ?_, ?_⟩
    · rw [byteLength_field_some, hsize]
      omega
    · have hfront : At text start (('{' :: id.source ++ [':']) ++ (s ++ '}' :: rest)) := by
        simpa using hmatch
      have hoffset : byteLength ('{' :: id.source ++ [':']) = specOffset id (some s) := by
        rw [byteLength_append, byteLength_cons]
        rfl
      have hclosing : start + 1 + byteLength (id.source ++ ':' :: s) =
          start + specOffset id (some s) + byteLength s := by
        rw [hsize, specOffset]
        simp only [Option.isSome_some, if_true]
        omega
      have hend := hfront.advance.slice?_eq
      rw [hoffset] at hend
      rw [hclosing]
      exact hend

namespace Visit

/-- A visit shows what is written where it lies. Copied text is written there without braces,
or it is one brace that is written twice, and the numbering stays as it is. At a field, a
well-formed id stands behind the opening brace and its argument is numbered by this id. Its
specifier is the one that is written, it lies behind the id, and it ends at the brace that
closes the opening one, which is the last character. -/
def Shows (text : List Char) (before : Numbering) (visit : Visit) (after : Numbering) : Prop :=
  match visit.step with
  | .copy s =>
    after = before ∧
    ((slice? text visit.start visit.stop = some s ∧ ∀ c ∈ s, Piece.isBrace c = false) ∨
      ∃ c, Piece.isBrace c = true ∧ s = [c] ∧ slice? text visit.start visit.stop = some [c, c])
  | .put field =>
    field.start = visit.start ∧
    (∃ id spec, id.WellFormed ∧
      slice? text visit.start visit.stop = some (Piece.field id spec).source ∧
      field.spec = spec.getD [] ∧ field.specStart = visit.start + Piece.specOffset id spec ∧
      before.Numbers id field.argument after) ∧
    ∃ closing, BracesMatch text visit.start closing ∧ closing + 1 = visit.stop ∧
      slice? text field.specStart closing = some field.spec

/-- A step shows the piece at which it is taken. -/
theorem shows_of_step {text rest : List Char} {piece : Piece} {start : Nat}
    {before after : Numbering} {step : Step} (hpiece : piece.WellFormed)
    (hat : At text start (piece.source ++ rest))
    (hstep : piece.step start before = .ok (step, after)) :
  Shows text before ⟨start, step, start + byteLength piece.source⟩ after
  := by
  have hslice := hat.slice?_eq
  cases piece with
  | literal s =>
    cases hstep
    exact ⟨rfl, .inl ⟨hslice, hpiece.2⟩⟩
  | brace c =>
    cases hstep
    exact ⟨rfl, .inr ⟨c, hpiece, rfl, hslice⟩⟩
  | field id spec =>
    obtain ⟨hid, hspec⟩ := hpiece
    rw [Piece.step] at hstep
    split at hstep <;> cases hstep
    next hresolve =>
    have hnumbers := Numbering.resolve_iff.mp hresolve
    exact ⟨rfl, ⟨id, spec, hid, hslice, rfl, rfl, hnumbers⟩,
      Piece.exists_bracesMatch hid hspec hat⟩

end Visit

/-- Visits lie one behind the other between two bytes of a text, and take one numbering to
another. Each of them takes something, and shows what is written there. -/
def Tiles (text : List Char) : Nat → Numbering → List Visit → Nat → Numbering → Prop
  | start, before, [], stop, after => start = stop ∧ before = after
  | start, before, visit :: visits, stop, after =>
    visit.start = start ∧ visit.start < visit.stop ∧
      ∃ between, visit.Shows text before between ∧
        Tiles text visit.stop between visits stop after

/-- A cursor that comes to the end has gone over the sources of all pieces. -/
theorem Cursor.tiles_drive {text rest : List Char} {pieces : List Piece} {position : Nat}
    {numbering after : Numbering} (hpieces : ∀ piece ∈ pieces, piece.WellFormed)
    (hat : At text position (pieces.flatMap Piece.source ++ rest))
    (hend : (drive ⟨pieces, none, position⟩ numbering).2 = .ok after) :
  Tiles text position numbering (drive ⟨pieces, none, position⟩ numbering).1
    (position + byteLength (pieces.flatMap Piece.source)) after
  := by
  induction pieces generalizing position numbering with
  | nil =>
    rw [drive_end] at hend ⊢
    cases hend
    exact ⟨rfl, rfl⟩
  | cons piece pieces ih =>
    have hpiece := hpieces piece (.head _)
    rw [List.flatMap_cons, List.append_assoc] at hat
    rcases hstep : piece.step position numbering with e | ⟨step, next⟩
    · rw [drive_of_error hstep] at hend
      cases hend
    · rw [drive_of_step hstep] at hend ⊢
      have htiles := ih (fun piece hmem => hpieces piece (.tail _ hmem)) hat.advance hend
      rw [List.flatMap_cons, byteLength_append, ← Nat.add_assoc]
      refine ⟨rfl, ?_, next, Visit.shows_of_step hpiece hat hstep, htiles⟩
      obtain ⟨c, source, hsource⟩ := List.exists_cons_of_ne_nil hpiece.source_ne_nil
      have := c.utf8Size_pos
      simp only [hsource, byteLength_cons]
      omega

/-- Unless a field is in conflict with the numbering, a cursor over a text comes to its end if
the text is a template, and to a fault if it is none. If it comes to the end, then its steps
tile the text, from the first byte to the last, and the ids that are written in it take the
numbering to the one that the cursor ends with. -/
theorem Cursor.drive_ofTemplate (text : List Char) (numbering : Numbering) :
  let run := (ofTemplate (Template.read text)).drive numbering
  ((∀ place, run.2 ≠ .error (.located .indexingConflict place)) →
    ((∃ after, run.2 = .ok after) ↔ IsTemplate text) ∧
      ((∃ place, run.2 = .error (.located .malformedTemplate place)) ↔ ¬IsTemplate text)) ∧
  ∀ after, run.2 = .ok after → Tiles text 0 numbering run.1 (byteLength text) after
  := by
  obtain ⟨hpieces, rest, htext, hrest⟩ := Template.read_pieces text
  rw [isTemplate_iff]
  refine ⟨fun hconflict => ?_, fun after hend => ?_⟩
  · rcases drive_outcome (Template.read text).pieces (Template.read text).fault 0 numbering with
      ⟨hfault, after, hend⟩ | ⟨place, hfault, hend⟩ | ⟨place, hend⟩
    · rw [ofTemplate, hend]
      exact ⟨⟨fun _ => hfault, fun _ => ⟨after, rfl⟩⟩, ⟨nofun, fun h => absurd hfault h⟩⟩
    · rw [ofTemplate, hend]
      have hne : (Template.read text).fault ≠ none := by simp [hfault]
      exact ⟨⟨nofun, fun h => absurd h hne⟩, ⟨fun _ => hne, fun _ => ⟨place, rfl⟩⟩⟩
    · cases hconflict place hend
  · rw [ofTemplate] at hend ⊢
    have hfault : (Template.read text).fault = none := by
      rcases drive_outcome (Template.read text).pieces (Template.read text).fault 0 numbering
        with ⟨hfault, _⟩ | ⟨place, _, hend'⟩ | ⟨place, hend'⟩
      · exact hfault
      · cases hend'.symm.trans hend
      · cases hend'.symm.trans hend
    rw [hfault] at hend ⊢
    rw [hrest hfault, List.append_nil] at htext
    have hat : At text 0 ((Template.read text).pieces.flatMap Piece.source ++ []) := by
      rw [List.append_nil, ← htext]
      apply At.zero
    have htiles := tiles_drive hpieces hat hend
    rw [← htext, Nat.zero_add] at htiles
    exact htiles

/-- A field with braces in its specifier, between a character of two bytes and a doubled
brace. -/
theorem Cursor.drive_nested :
  let text := ['é', '{', '0', ':', '>', '{', '1', '}', '}', '}', '}']
  let run := (ofTemplate (Template.read text)).drive .undecided
  run.2 = .ok .explicit ∧ IsTemplate text ∧ Tiles text 0 .undecided run.1 12 .explicit
  := by
  intro text run
  have hread : Template.read text =
      ⟨[.literal ['é'], .field (.index 0) (some ['>', '{', '1', '}']), .brace '}'], none⟩ := by
    have hliteral : Piece.read text =
      .ok (.literal ['é'], ['{', '0', ':', '>', '{', '1', '}', '}', '}', '}']) := rfl
    have hfield : Piece.read ['{', '0', ':', '>', '{', '1', '}', '}', '}', '}'] =
      .ok (.field (.index 0) (some ['>', '{', '1', '}']), ['}', '}']) := rfl
    have hbrace : Piece.read ['}', '}'] = .ok (.brace '}', []) := rfl
    rw [Template.read_of_ok (List.cons_ne_nil _ _) hliteral,
      Template.read_of_ok (List.cons_ne_nil _ _) hfield,
      Template.read_of_ok (List.cons_ne_nil _ _) hbrace, Template.read_nil]
    rfl
  have hend : run.2 = .ok .explicit := by
    change ((ofTemplate (Template.read text)).drive .undecided).2 = _
    rw [hread, ofTemplate, drive_of_step rfl, drive_of_step rfl, drive_of_step rfl, drive_end]
  have hconflict : ∀ place, run.2 ≠ .error (.located .indexingConflict place) := by
    intro place h
    cases hend.symm.trans h
  obtain ⟨haccepts, htiles⟩ := Cursor.drive_ofTemplate text .undecided
  exact ⟨hend, (haccepts hconflict).1.mp ⟨_, hend⟩, htiles _ hend⟩

end BraceFormat
