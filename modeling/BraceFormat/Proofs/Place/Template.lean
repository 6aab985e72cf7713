import BraceFormat.Proofs.ArgId
import BraceFormat.Proofs.Guarded.Template
import BraceFormat.Proofs.Place.Boundary
import BraceFormat.Proofs.Template.Acceptance

/-!
# Where a text stops being a template

An ill-formed id, and an ill-formed piece, are found at a place between two characters of what
is being read, in front of its end. So the fault of a text lies within it, and not in front of
the brace at which the piece at fault begins (`Template.fault_place`).
-/

namespace BraceFormat

open Guarded

variable {text : List Char} {inner : Nat}

/-! ### Ids -/

/-- An ill-formed id is found in front of a character. -/
theorem ArgId.place_of_read_error (h : read text = .error inner) :
  IsBoundary text inner ∧ inner < byteLength text
  := by
  have hcons (c : Char) (rest : List Char) : 0 < byteLength (c :: rest) := by
    have := c.utf8Size_pos
    rw [byteLength_cons]
    omega
  rw [read.eq_def] at h
  split at h
  · cases h
  · next rest =>
    split at h
    · next hdigit =>
      cases h
      obtain ⟨d, rest, rfl⟩ : ∃ d rest', rest = d :: rest' := by
        cases rest with
        | nil => cases hdigit
        | cons d rest => exact ⟨d, rest, rfl⟩
      refine ⟨(At.zero _).advance_char.isBoundary, ?_⟩
      rw [byteLength_cons]
      exact Nat.lt_add_of_pos_right (hcons d rest)
    · cases h
  · next c rest _ =>
    split at h
    · dsimp only at h
      split at h <;> cases h
      exact ⟨isBoundary_zero _, hcons c rest⟩
    · split at h <;> cases h

/-- An ill-formed id, or the end of an id without a closing brace, lies between characters. -/
theorem ArgId.isBoundary_of_readClosed_error (h : readClosed text = .error inner) :
  IsBoundary text inner
  := by
  rw [readClosed] at h
  split at h
  · next hread =>
    cases h
    apply (place_of_read_error hread).1
  · cases h
  · next hread =>
    cases h
    obtain ⟨rfl, _⟩ := source_of_read hread
    exact ⟨_, List.prefix_append _ _, rfl⟩

/-! ### Pieces -/

namespace Piece

/-- An ill-formed field is found at its opening brace, or behind it and in front of a
character. -/
theorem place_of_readField_error (h : readField text = .error inner) :
  IsBoundary ('{' :: text) inner ∧ inner < byteLength ('{' :: text)
  := by
  have hbrace : At ('{' :: text) 1 text := (At.zero _).advance_char
  have hstart : IsBoundary ('{' :: text) 0 ∧ 0 < byteLength ('{' :: text) :=
    ⟨isBoundary_zero _, Nat.lt_add_right _ Nat.one_pos⟩
  rw [readField.eq_def] at h
  split at h
  · next hread =>
    cases h
    obtain ⟨hplace, hlt⟩ := ArgId.place_of_read_error hread
    refine ⟨hplace.append_left ['{'], ?_⟩
    rw [byteLength_cons]
    exact Nat.add_lt_add_left hlt 1
  · cases h
    apply hstart
  · cases h
  · split at h <;> cases h
    apply hstart
  · next id rest hnil _ _ hread =>
    cases h
    obtain ⟨rfl, _⟩ := ArgId.source_of_read hread
    refine ⟨hbrace.advance.isBoundary, ?_⟩
    obtain ⟨c, rest, rfl⟩ := List.exists_cons_of_ne_nil fun hrest => hnil hrest
    have hpos := c.utf8Size_pos
    have hone : ('{' : Char).utf8Size = 1 := rfl
    rw [byteLength_cons, byteLength_append, byteLength_cons, hone]
    omega

/-- An ill-formed piece begins with a brace, and is found there, or behind it and in front of a
character. -/
theorem place_of_read_error (h : read text = .error inner) :
  (∃ c rest, text = c :: rest ∧ isBrace c = true) ∧ IsBoundary text inner ∧
    inner < byteLength text
  := by
  rw [read.eq_def] at h
  split at h
  · cases h
  · cases h
  · cases h
    exact ⟨⟨_, _, rfl, rfl⟩, isBoundary_zero _, Nat.lt_add_right _ Nat.one_pos⟩
  · exact ⟨⟨_, _, rfl, rfl⟩, place_of_readField_error h⟩
  · cases h

end Piece

/-! ### Templates -/

/-- The fault of a text lies between two of its characters. Behind the pieces that are read in
front of it stands a brace, and the fault does not lie in front of this. -/
theorem Template.fault_place {place : Nat} (h : (read text).fault = some place) :
  IsBoundary text place ∧ place < byteLength text ∧
    ∃ start c rest, At text start (c :: rest) ∧ Piece.isBrace c = true ∧
      start = byteLength ((read text).pieces.flatMap Piece.source) ∧ start ≤ place
  := by
  induction text using Template.induction generalizing place with
  | nil =>
    rw [read_nil] at h
    cases h
  | fault text inner hne hread =>
    rw [read_of_error hne hread] at h ⊢
    cases h
    obtain ⟨⟨c, rest, rfl, hc⟩, hplace, hlt⟩ := Piece.place_of_read_error hread
    exact ⟨hplace, hlt, 0, c, rest, At.zero _, hc, rfl, Nat.zero_le _⟩
  | piece text piece rest hne hread ih =>
    rw [read_of_ok hne hread, cons] at h ⊢
    obtain rfl := Piece.source_of_read hread
    obtain ⟨inner, hinner, rfl⟩ := Option.map_eq_some_iff.mp h
    obtain ⟨hplace, hlt, start, c, behind, hat, hc, hstart, hle⟩ := ih hinner
    obtain ⟨front, rfl, rfl⟩ := hat
    refine ⟨hplace.append_left _, ?_, byteLength piece.source + byteLength front, c, behind,
      ⟨piece.source ++ front, by rw [List.append_assoc], byteLength_append _ _⟩, hc, ?_,
      Nat.add_le_add_left hle _⟩
    · rw [byteLength_append]
      exact Nat.add_lt_add_left hlt _
    · rw [List.flatMap_cons, byteLength_append, ← hstart]

end BraceFormat
