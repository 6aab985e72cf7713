import BraceFormat.Proofs.Guarded.Template
import BraceFormat.Proofs.Numbering
import BraceFormat.Proofs.Substitution.Pasting
import BraceFormat.Proofs.Template.Acceptance
import Mathlib.Data.List.Perm.Subperm
import Mathlib.Order.Bounds.Defs
import Mathlib.Tactic.Use

/-!
# References as they are written

A `Mention` is a reference where it is written: the id of a field, or of a reference within
the specifier of a field, and the byte of its opening brace. A template mentions its references
in the order of their places (`Mention.pairwise_ofText`).

`Numbering.through` numbers some mentions one after the other. It fails at the first one whose
style is not that of an earlier one (`Numbering.isLeast_of_through_error`).
-/

namespace BraceFormat

open Guarded

/-- A reference that is written somewhere, with the byte of its opening brace. -/
structure Mention where
  place : Nat
  id : ArgId
  deriving DecidableEq, Repr

namespace Mention

/-! ### The mentions of a text -/

/-- The mentions among some parts of a specifier, the first of which starts at byte `place`. -/
def ofParts : Nat → List SpecPart → List Mention
  | _, [] => []
  | place, .literal text :: parts => ofParts (place + byteLength text) parts
  | place, .reference id :: parts =>
    ⟨place, id⟩ :: ofParts (place + byteLength (SpecPart.reference id).source) parts

/-- The mentions in a specifier that starts at byte `place`. -/
def ofSpec (place : Nat) (spec : List Char) : List Mention :=
  ofParts place (SpecParts.read spec).parts

/-- The mentions of a piece that starts at byte `start`: the id of a field, and then those in
its specifier. -/
def ofPiece (start : Nat) : Piece → List Mention
  | .field id spec => ⟨start, id⟩ :: ofSpec (start + Piece.specOffset id spec) (spec.getD [])
  | _ => []

/-- The mentions of some pieces, the first of which starts at byte `start`. -/
def ofPieces : Nat → List Piece → List Mention
  | _, [] => []
  | start, piece :: pieces =>
    ofPiece start piece ++ ofPieces (start + byteLength piece.source) pieces

/-- The mentions of a template. -/
def ofText (text : List Char) : List Mention := ofPieces 0 (Template.read text).pieces

/-- The mention in a text in which the text being read starts at byte `base`. -/
def shift (base : Nat) (m : Mention) : Mention := ⟨base + m.place, m.id⟩

theorem ofParts_add (base place : Nat) (parts : List SpecPart) :
  ofParts (base + place) parts = (ofParts place parts).map (shift base)
  := by
  induction parts generalizing place with
  | nil => rfl
  | cons part parts ih =>
    cases part with
    | literal text => simp only [ofParts, Nat.add_assoc, ih]
    | reference id => simp only [ofParts, Nat.add_assoc, ih, List.map_cons, shift]

theorem ofSpec_add (base place : Nat) (spec : List Char) :
  ofSpec (base + place) spec = (ofSpec place spec).map (shift base)
  := ofParts_add base place _

theorem ofSpec_nil (place : Nat) :
  ofSpec place [] = []
  := by
  rw [ofSpec, SpecParts.read_nil]
  rfl

/-- A character that is no opening brace mentions nothing. -/
theorem ofSpec_char {c : Char} (hc : c ≠ '{') (place : Nat) (spec : List Char) :
  ofSpec place (c :: spec) = ofSpec (place + c.utf8Size) spec
  := by
  obtain ⟨first, parts, fault, h⟩ := SpecParts.read_eq_literal spec
  rw [ofSpec, ofSpec, SpecParts.read_char hc, h, SpecParts.prepend]
  simp only [ofParts, byteLength_cons, Nat.add_assoc]

/-- Text without opening braces mentions nothing. -/
theorem ofSpec_append {front : List Char} (hfront : ∀ c ∈ front, c ≠ '{') (place : Nat)
    (spec : List Char) :
  ofSpec place (front ++ spec) = ofSpec (place + byteLength front) spec
  := by
  induction front generalizing place with
  | nil => rfl
  | cons c front ih =>
    rw [List.cons_append, ofSpec_char (hfront c (.head _)),
      ih fun d hd => hfront d (.tail _ hd), byteLength_cons, Nat.add_assoc]

/-- A reference is mentioned at its opening brace. -/
theorem ofSpec_reference {id : ArgId} (hid : id.WellFormed) (place : Nat) (spec : List Char) :
  ofSpec place ('{' :: id.source ++ '}' :: spec) =
    ⟨place, id⟩ :: ofSpec (place + byteLength (SpecPart.reference id).source) spec
  := by
  rw [ofSpec, SpecParts.read_reference hid]
  rfl

/-! ### Where mentions lie -/

variable {m : Mention} {place start : Nat} {parts : List SpecPart} {pieces : List Piece}

theorem le_place_of_mem_ofParts (hm : m ∈ ofParts place parts) :
  place ≤ m.place
  := by
  induction parts generalizing place with
  | nil => cases hm
  | cons part parts ih =>
    cases part with
    | literal text => exact Nat.le_trans (Nat.le_add_right _ _) (ih hm)
    | reference id =>
      rcases List.mem_cons.mp hm with rfl | hm
      · apply Nat.le_refl
      · exact Nat.le_trans (Nat.le_add_right _ _) (ih hm)

theorem byteLength_reference_pos (id : ArgId) :
  0 < byteLength (SpecPart.reference id).source
  := by
  rw [SpecPart.source, List.cons_append, byteLength_cons]
  apply Nat.add_pos_left
  apply Char.utf8Size_pos

theorem place_lt_of_mem_ofParts (hm : m ∈ ofParts place parts) :
  m.place < place + byteLength (parts.flatMap SpecPart.source)
  := by
  induction parts generalizing place with
  | nil => cases hm
  | cons part parts ih =>
    rw [List.flatMap_cons, byteLength_append, ← Nat.add_assoc]
    cases part with
    | literal text => apply ih hm
    | reference id =>
      rcases List.mem_cons.mp hm with rfl | hm
      · have := byteLength_reference_pos id
        change place < _
        omega
      · apply ih hm

theorem pairwise_ofParts (place : Nat) (parts : List SpecPart) :
  (ofParts place parts).Pairwise fun m m' => m.place < m'.place
  := by
  induction parts generalizing place with
  | nil => apply List.Pairwise.nil
  | cons part parts ih =>
    cases part with
    | literal text => apply ih
    | reference id =>
      apply List.Pairwise.cons _ (ih _)
      intro m hm
      have hpos := byteLength_reference_pos id
      have hle := le_place_of_mem_ofParts hm
      change place < m.place
      omega

/-- Each mention is at an opening brace with its id behind. -/
theorem at_of_mem_ofParts {text rest : List Char}
    (hat : At text place (parts.flatMap SpecPart.source ++ rest)) (hm : m ∈ ofParts place parts) :
  ∃ behind, At text m.place ('{' :: m.id.source ++ behind)
  := by
  induction parts generalizing place with
  | nil => cases hm
  | cons part parts ih =>
    rw [List.flatMap_cons, List.append_assoc] at hat
    cases part with
    | literal text => apply ih hat.advance hm
    | reference id =>
      rcases List.mem_cons.mp hm with rfl | hm
      · rw [SpecPart.source, List.append_assoc] at hat
        exact ⟨_, hat⟩
      · apply ih hat.advance hm

end Mention

/-- A specifier begins with the sources of its parts. -/
theorem SpecParts.source_prefix (spec : List Char) :
  (read spec).parts.flatMap SpecPart.source <+: spec
  := by
  induction spec using SpecParts.induction with
  | literal text htext =>
    rw [read_literal htext, List.flatMap_singleton]
    apply List.prefix_rfl
  | fault front rest inner hfront hid =>
    rw [read_fault hfront hid, cons, List.flatMap_singleton]
    apply List.prefix_append
  | reference front id rest hfront hid ih =>
    rw [read_append_reference hfront hid]
    simp only [cons, List.flatMap_cons, SpecPart.source, List.append_assoc, List.cons_append,
      List.nil_append]
    apply (List.prefix_append_right_inj _).mpr
    apply List.cons_prefix_cons.mpr ⟨rfl, ?_⟩
    apply (List.prefix_append_right_inj _).mpr
    apply List.cons_prefix_cons.mpr ⟨rfl, ih⟩

namespace Mention

variable {m : Mention} {place start : Nat} {pieces : List Piece}

theorem le_place_of_mem_ofSpec {spec : List Char} (hm : m ∈ ofSpec place spec) :
  place ≤ m.place
  := le_place_of_mem_ofParts hm

theorem place_lt_of_mem_ofSpec {spec : List Char} (hm : m ∈ ofSpec place spec) :
  m.place < place + byteLength spec
  := by
  obtain ⟨rest, hrest⟩ := SpecParts.source_prefix spec
  have hlt := place_lt_of_mem_ofParts hm
  rw [← hrest, byteLength_append]
  omega

/-- A specifier lies within its field. -/
theorem specOffset_add_byteLength_lt (id : ArgId) (spec : Option (List Char)) :
  Piece.specOffset id spec + byteLength (spec.getD []) < byteLength (Piece.field id spec).source
  := by
  rw [Piece.specOffset]
  cases spec with
  | none =>
    rw [byteLength_field_none]
    simp
  | some spec =>
    rw [byteLength_field_some]
    simp
    omega

theorem place_lt_of_mem_ofPiece {piece : Piece} (hm : m ∈ ofPiece start piece) :
  m.place < start + byteLength piece.source
  := by
  cases piece with
  | literal text => cases hm
  | brace c => cases hm
  | field id spec =>
    have hfield := specOffset_add_byteLength_lt id spec
    rcases List.mem_cons.mp hm with rfl | hm
    · change start < _
      omega
    · have hlt := place_lt_of_mem_ofSpec hm
      omega

theorem le_place_of_mem_ofPieces (hm : m ∈ ofPieces start pieces) :
  start ≤ m.place
  := by
  induction pieces generalizing start with
  | nil => cases hm
  | cons piece pieces ih =>
    rcases List.mem_append.mp hm with hm | hm
    · cases piece with
      | literal text => cases hm
      | brace c => cases hm
      | field id spec =>
        rcases List.mem_cons.mp hm with rfl | hm
        · apply Nat.le_refl
        · exact Nat.le_trans (Nat.le_add_right _ _) (le_place_of_mem_ofSpec hm)
    · exact Nat.le_trans (Nat.le_add_right _ _) (ih hm)

theorem pairwise_ofPiece (start : Nat) (piece : Piece) :
  (ofPiece start piece).Pairwise fun m m' => m.place < m'.place
  := by
  cases piece with
  | literal text => apply List.Pairwise.nil
  | brace c => apply List.Pairwise.nil
  | field id spec =>
    apply List.Pairwise.cons _ (pairwise_ofParts _ _)
    intro m hm
    have hle := le_place_of_mem_ofSpec hm
    rw [Piece.specOffset] at hle
    change start < m.place
    omega

theorem pairwise_ofPieces (start : Nat) (pieces : List Piece) :
  (ofPieces start pieces).Pairwise fun m m' => m.place < m'.place
  := by
  induction pieces generalizing start with
  | nil => apply List.Pairwise.nil
  | cons piece pieces ih =>
    apply List.pairwise_append.mpr ⟨pairwise_ofPiece start piece, ih _, ?_⟩
    intro m hm m' hm'
    exact Nat.lt_of_lt_of_le (place_lt_of_mem_ofPiece hm) (le_place_of_mem_ofPieces hm')

/-- The mentions of a template are in the order of their places. -/
theorem pairwise_ofText (text : List Char) :
  (ofText text).Pairwise fun m m' => m.place < m'.place
  := pairwise_ofPieces 0 _

theorem at_of_mem_ofPiece {text rest : List Char} {piece : Piece}
    (hat : At text start (piece.source ++ rest)) (hm : m ∈ ofPiece start piece) :
  ∃ behind, At text m.place ('{' :: m.id.source ++ behind)
  := by
  cases piece with
  | literal text => cases hm
  | brace c => cases hm
  | field id spec =>
    rcases List.mem_cons.mp hm with rfl | hm
    · cases spec with
      | none =>
        rw [Piece.source, List.append_assoc] at hat
        exact ⟨_, hat⟩
      | some spec =>
        rw [Piece.source, List.append_assoc, List.append_assoc] at hat
        exact ⟨_, hat⟩
    · cases spec with
      | none =>
        rw [Option.getD_none, ofSpec_nil] at hm
        cases hm
      | some spec =>
        obtain ⟨behind, hspec⟩ := SpecParts.source_prefix spec
        have hfront : At text start (('{' :: id.source ++ [':']) ++ (spec ++ '}' :: rest)) := by
          simpa [Piece.source] using hat
        have hadvance := hfront.advance
        rw [byteLength_append, ← hspec, List.append_assoc] at hadvance
        apply at_of_mem_ofParts hadvance hm

/-- Each mention of a template is at an opening brace with its id behind. -/
theorem at_of_mem_ofText {text : List Char} (hm : m ∈ ofText text) :
  ∃ behind, At text m.place ('{' :: m.id.source ++ behind)
  := by
  obtain ⟨_, rest, htext, _⟩ := Template.read_pieces text
  have hat : At text 0 ((Template.read text).pieces.flatMap Piece.source ++ rest) := by
    rw [← htext]
    apply At.zero
  rw [ofText] at hm
  generalize (Template.read text).pieces = pieces at hat hm
  generalize 0 = start at hat hm
  induction pieces generalizing start with
  | nil => cases hm
  | cons piece pieces ih =>
    rw [List.flatMap_cons, List.append_assoc] at hat
    rcases List.mem_append.mp hm with hm | hm
    · apply at_of_mem_ofPiece hat hm
    · apply ih _ hat.advance hm

theorem place_lt_of_mem_ofText {text : List Char} (hm : m ∈ ofText text) :
  m.place < byteLength text
  := by
  obtain ⟨behind, front, htext, hfront⟩ := at_of_mem_ofText hm
  have hpos := Char.utf8Size_pos '{'
  rw [htext, byteLength_append, hfront, List.cons_append, byteLength_cons]
  omega

/-- A template mentions no more references than it has bytes. -/
theorem length_ofText_le (text : List Char) :
  (ofText text).length ≤ byteLength text
  := by
  have hplaces : ((ofText text).map place).Nodup :=
    List.pairwise_map.mpr ((pairwise_ofText text).imp Nat.ne_of_lt)
  have hrange : (ofText text).map place ⊆ List.range (byteLength text) := by
    intro place hplace
    obtain ⟨m, hm, rfl⟩ := List.mem_map.mp hplace
    apply List.mem_range.mpr (place_lt_of_mem_ofText hm)
  have hle := (List.subperm_of_subset hplaces hrange).length_le
  rwa [List.length_map, List.length_range] at hle

/-! ### Clashes -/

/-- Two mentions are of different styles. -/
def Clash (m m' : Mention) : Prop :=
  ∃ style style', m.id.style? = some style ∧ m'.id.style? = some style' ∧ style ≠ style'

/-- The places of the mentions that clash with an earlier one. -/
def clashes (ms : List Mention) : Set Nat :=
  {place | ∃ m ∈ ms, ∃ m' ∈ ms, m.place < m'.place ∧ m.Clash m' ∧ m'.place = place}

end Mention

namespace Numbering

variable {numbering after : Numbering} {ms : List Mention}

/-- Numbers some mentions one after the other, and gives the numbering after them. A conflict
is an error at the opening brace. -/
def through (numbering : Numbering) : List Mention → Except FormatError Numbering
  | [] => .ok numbering
  | m :: ms =>
    match numbering.resolve m.id with
    | .error kind => .error (.located kind m.place)
    | .ok (_, after) => after.through ms

theorem through_append (numbering : Numbering) (ms ms' : List Mention) :
  numbering.through (ms ++ ms') = numbering.through ms >>= (·.through ms')
  := by
  induction ms generalizing numbering with
  | nil => rfl
  | cons m ms ih =>
    rw [List.cons_append, through, through]
    cases numbering.resolve m.id with
    | error kind => rfl
    | ok resolved => apply ih

/-- Mentions that lie further on have their conflict further on. -/
theorem through_map_shift (numbering : Numbering) (base : Nat) (ms : List Mention) :
  numbering.through (ms.map (Mention.shift base)) =
    (numbering.through ms).mapError (·.rebase base)
  := by
  induction ms generalizing numbering with
  | nil => rfl
  | cons m ms ih =>
    rw [List.map_cons, through, through, Mention.shift]
    cases numbering.resolve m.id with
    | error kind => rfl
    | ok resolved => apply ih

/-- A numbering moves on by one position for a mention at most. -/
theorem nextPosition_through_le (h : numbering.through ms = .ok after) :
  after.nextPosition ≤ numbering.nextPosition + ms.length
  := by
  induction ms generalizing numbering with
  | nil =>
    cases h
    apply Nat.le_refl
  | cons m ms ih =>
    rw [through] at h
    split at h
    · cases h
    · next hresolve =>
      have hrest := ih h
      have hone := nextPosition_resolve_le hresolve
      rw [List.length_cons]
      omega

/-- A numbering never gets to a position that is further on than the template is long. -/
theorem nextPosition_through_ofText_le {text : List Char}
    (h : undecided.through (Mention.ofText text) = .ok after) :
  after.nextPosition ≤ byteLength text
  := by
  have hle := nextPosition_through_le h
  rw [nextPosition, Nat.zero_add] at hle
  exact Nat.le_trans hle (Mention.length_ofText_le text)

/-- A numbering keeps its style. -/
theorem style?_of_through_of_some (h : numbering.through ms = .ok after) {style : Style}
    (hstyle : numbering.style? = some style) :
  after.style? = some style
  := by
  induction ms generalizing numbering with
  | nil =>
    cases h
    apply hstyle
  | cons m ms ih =>
    rw [through] at h
    split at h
    · cases h
    · next hresolve =>
      apply ih h
      rw [style?_of_resolve hresolve, hstyle]
      rfl

/-- The style of a mention that is numbered is that of the numbering in the end. -/
theorem style?_of_through_of_mem (h : numbering.through ms = .ok after) {m : Mention}
    (hm : m ∈ ms) {style : Style} (hstyle : m.id.style? = some style) :
  after.style? = some style
  := by
  induction ms generalizing numbering with
  | nil => cases hm
  | cons m' ms ih =>
    rw [through] at h
    split at h
    · cases h
    · next hresolve =>
      rcases List.mem_cons.mp hm with rfl | hm
      · apply style?_of_through_of_some h
        apply style?_eq_of_resolve hresolve hstyle
      · apply ih h hm

/-- The style of the numbering in the end is that at the start, or that of a mention. -/
theorem exists_of_style?_through (h : numbering.through ms = .ok after) {style : Style}
    (hstyle : after.style? = some style) :
  numbering.style? = some style ∨ ∃ m ∈ ms, m.id.style? = some style
  := by
  induction ms generalizing numbering with
  | nil =>
    cases h
    exact .inl hstyle
  | cons m ms ih =>
    rw [through] at h
    split at h
    · cases h
    · next hresolve =>
      rcases ih h with hnext | ⟨m', hm', hstyle'⟩
      · rw [style?_of_resolve hresolve, Option.or_eq_some_iff] at hnext
        rcases hnext with hnumbering | ⟨_, hm⟩
        · exact .inl hnumbering
        · exact .inr ⟨m, .head _, hm⟩
      · exact .inr ⟨m', .tail _ hm', hstyle'⟩

/-- Mentions that can be numbered do not clash. -/
theorem not_clash_of_through (h : numbering.through ms = .ok after) {m m' : Mention}
    (hm : m ∈ ms) (hm' : m' ∈ ms) :
  ¬m.Clash m'
  := by
  rintro ⟨style, style', hstyle, hstyle', hne⟩
  apply hne
  apply Option.some.inj
  rw [← style?_of_through_of_mem h hm hstyle, ← style?_of_through_of_mem h hm' hstyle']

/-- The mentions in front of the one that cannot be numbered can be. -/
theorem exists_of_through_error {e : FormatError} (h : numbering.through ms = .error e) :
  ∃ front m rest next kind, ms = front ++ m :: rest ∧ numbering.through front = .ok next ∧
    next.resolve m.id = .error kind ∧ e = .located kind m.place
  := by
  induction ms generalizing numbering with
  | nil => cases h
  | cons m ms ih =>
    rcases hresolve : numbering.resolve m.id with kind | ⟨reference, next⟩
    · rw [through, hresolve] at h
      cases h
      exact ⟨[], m, ms, numbering, kind, rfl, rfl, hresolve, rfl⟩
    · rw [through, hresolve] at h
      obtain ⟨front, m', rest, last, kind, rfl, hfront, hkind, he⟩ := ih h
      refine ⟨m :: front, m', rest, last, kind, rfl, ?_, hkind, he⟩
      rw [through, hresolve]
      apply hfront

/-- Where mentions in the order of their places cannot be numbered, the first one fails that
clashes with an earlier one. -/
theorem isLeast_of_through_error {e : FormatError}
    (hms : ms.Pairwise fun m m' => m.place < m'.place)
    (h : undecided.through ms = .error e) :
  ∃ place, e = .located .indexingConflict place ∧ IsLeast (Mention.clashes ms) place
  := by
  obtain ⟨front, m, rest, next, kind, rfl, hfront, hkind, rfl⟩ := exists_of_through_error h
  obtain rfl := eq_indexingConflict_of_resolve hkind
  obtain ⟨_, hrest, hlt⟩ := List.pairwise_append.mp hms
  refine ⟨m.place, rfl, ?_, ?_⟩
  · obtain ⟨style, style', hstyle, hstyle', hne⟩ := style?_ne_of_resolve_error hkind
    rcases exists_of_style?_through hfront hstyle with hundecided | ⟨m', hm', hstyle''⟩
    · cases hundecided
    · exact ⟨m', List.mem_append_left _ hm', m, List.mem_append_right _ (.head _),
        hlt m' hm' m (.head _), ⟨style, style', hstyle'', hstyle', hne⟩, rfl⟩
  · rintro _ ⟨m₁, hm₁, m₂, hm₂, hlt₁₂, hclash, rfl⟩
    -- A clash in front of the mention would be one among mentions that are numbered.
    have hle {m' : Mention} (hm' : m' ∈ m :: rest) : m.place ≤ m'.place := by
      rcases List.mem_cons.mp hm' with rfl | hm'
      · apply Nat.le_refl
      · apply Nat.le_of_lt ((List.pairwise_cons.mp hrest).1 m' hm')
    rcases List.mem_append.mp hm₂ with hm₂ | hm₂
    · rcases List.mem_append.mp hm₁ with hm₁ | hm₁
      · cases not_clash_of_through hfront hm₁ hm₂ hclash
      · exact Nat.le_trans (hle hm₁) (Nat.le_of_lt hlt₁₂)
    · exact hle hm₂

end Numbering

end BraceFormat
