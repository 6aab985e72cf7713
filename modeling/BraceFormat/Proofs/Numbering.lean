import BraceFormat.Numbering

/-!
# Styles of numbering

An id is in one of two styles, automatic or numbered, or it is a name and in neither. A
numbering takes the style of the first id that has one and keeps it; from then on exactly the
ids of the other style are in conflict with it.
-/

namespace BraceFormat

/-- The ways to number arguments. -/
inductive Style where
  | automatic
  | numbered
  deriving DecidableEq, Repr

/-- The style of an id; names have none. -/
def ArgId.style? : ArgId → Option Style
  | .auto => some .automatic
  | .index _ => some .numbered
  | .name _ => none

namespace Numbering

/-- The style of the ids that have occurred, if one of them has a style. -/
def style? : Numbering → Option Style
  | .undecided => none
  | .automatic _ => some .automatic
  | .explicit => some .numbered

variable {numbering after : Numbering} {id : ArgId} {reference : Reference} {kind : ErrorKind}

/-- The only error of numbering is a conflict. -/
theorem eq_indexingConflict_of_resolve (h : numbering.resolve id = .error kind) :
  kind = .indexingConflict
  := by
  cases numbering <;> cases id <;> cases h <;> rfl

/-- An id is in conflict with a numbering of the other style. -/
theorem style?_ne_of_resolve_error (h : numbering.resolve id = .error kind) :
  ∃ style style', numbering.style? = some style ∧ id.style? = some style' ∧ style ≠ style'
  := by
  cases numbering <;> cases id <;> cases h <;> exact ⟨_, _, rfl, rfl, nofun⟩

/-- A numbering keeps its style, and otherwise takes the one of the id. -/
theorem style?_of_resolve (h : numbering.resolve id = .ok (reference, after)) :
  after.style? = numbering.style?.or id.style?
  := by
  cases numbering <;> cases id <;> cases h <;> rfl

/-- An id that is numbered has the style of the numbering after it. -/
theorem style?_eq_of_resolve (h : numbering.resolve id = .ok (reference, after)) {style : Style}
    (hid : id.style? = some style) :
  after.style? = some style
  := by
  cases numbering <;> cases id <;> cases h <;> cases hid <;> rfl

/-- The position of the next automatic id. -/
def nextPosition : Numbering → Nat
  | .automatic next => next
  | .undecided | .explicit => 0

/-- Only an automatic id moves a numbering on, and by one position. -/
theorem nextPosition_resolve_le (h : numbering.resolve id = .ok (reference, after)) :
  after.nextPosition ≤ numbering.nextPosition + 1
  := by
  cases numbering <;> cases id <;> cases h <;> simp [nextPosition]

/-- What numbering an id changes. An automatic id has the next position, and the one after it is
next. A numbered id only decides the style, and a name nothing at all. -/
def Numbers (numbering : Numbering) : ArgId → Reference → Numbering → Prop
  | .auto, reference, after =>
    numbering.style? ≠ some .numbered ∧ reference = .index numbering.nextPosition ∧
      after.style? = some .automatic ∧ after.nextPosition = numbering.nextPosition + 1
  | .index n, reference, after =>
    numbering.style? ≠ some .automatic ∧ reference = .index n ∧
      after.style? = some .numbered ∧ after.nextPosition = numbering.nextPosition
  | .name text, reference, after => reference = .name text ∧ after = numbering

/-- An id is numbered unless it is in conflict, and nothing more changes than has to. -/
theorem resolve_iff :
  numbering.resolve id = .ok (reference, after) ↔ numbering.Numbers id reference after
  := by
  constructor
  · intro h
    cases numbering <;> cases id <;> cases h <;> simp [Numbers, style?, nextPosition]
  · intro h
    cases id with
    | auto =>
      obtain ⟨hstyle, rfl, hafter, hnext⟩ := h
      cases after <;> cases hafter
      cases hnext
      cases numbering with
      | undecided => rfl
      | automatic n => rfl
      | explicit => cases hstyle rfl
    | index n =>
      obtain ⟨hstyle, rfl, hafter, -⟩ := h
      cases after <;> cases hafter
      cases numbering with
      | undecided => rfl
      | automatic n => cases hstyle rfl
      | explicit => rfl
    | name text =>
      obtain ⟨rfl, rfl⟩ := h
      rfl

end Numbering

end BraceFormat
