import BraceFormat.Proofs.Specifier.Adjacency
import BraceFormat.Proofs.Template.Grammar
import Mathlib.Data.List.Chain

/-!
# Which texts are templates

A text is read without a fault just if it is a template (`isTemplate_iff`). The pieces that are
read are well-formed, and their sources are what the text begins with, all of it if there is
no fault.

A specifier is cut off at the first brace that closes more than was opened. That its braces
come in pairs is shown for any number of pairs that are open in front of it: such a text
`Closes` them.

A literal takes all text up to the next brace, so there are never two of them in a row. Any
other well-formed pieces are those of a template (`Template.read_flatMap_source`).
-/

namespace BraceFormat

/-! ### Closing braces -/

/-- Texts in which braces come in pairs, but for a number of closing ones. -/
inductive Closes : Nat → List Char → Prop where
  | balanced {s : List Char} (hs : Balanced s) : Closes 0 s
  | closing {depth : Nat} {s t : List Char} (hs : Balanced s) (ht : Closes depth t) :
    Closes (depth + 1) (s ++ '}' :: t)

namespace Closes

variable {depth : Nat} {s : List Char}

theorem char {c : Char} (hc : Piece.isBrace c = false) (h : Closes depth s) :
  Closes depth (c :: s)
  := by
  cases h with
  | balanced hs => exact balanced (hs.char hc)
  | closing hs ht => exact closing (hs.char hc) ht

/-- An opening brace makes a pair with the first closing one that has none. -/
theorem opening (h : Closes (depth + 1) s) :
  Closes depth ('{' :: s)
  := by
  obtain _ | ⟨hs, ht⟩ := h
  cases ht with
  | balanced ht => exact balanced (hs.pair ht)
  | @closing _ u v hu hv =>
    have h := closing (hs.pair hu) hv
    rw [List.append_assoc, List.cons_append] at h
    apply h

/-- What is cut off in search of the closing brace closes what was open. -/
theorem of_splitClosing {text spec rest : List Char}
    (h : Piece.splitClosing depth text = some (spec, rest)) :
  Closes depth spec
  := by
  induction text generalizing depth spec with
  | nil => cases h
  | cons c text ih =>
    rw [Piece.splitClosing] at h
    split at h
    · next hc =>
      cases h
      rw [hc.2]
      exact balanced .nil
    · next hc =>
      obtain ⟨⟨spec, rest⟩, hsplit, heq⟩ := Option.map_eq_some_iff.mp h
      cases heq
      have hspec := ih hsplit
      by_cases hopen : c = '{'
      · rw [Piece.nesting, if_pos hopen] at hspec
        rw [hopen]
        apply hspec.opening
      · by_cases hclose : c = '}'
        · obtain ⟨depth, rfl⟩ := Nat.exists_eq_succ_of_ne_zero fun h0 => hc ⟨hclose, h0⟩
          rw [Piece.nesting, if_neg hopen, if_pos hclose] at hspec
          rw [hclose]
          exact closing .nil hspec
        · rw [Piece.nesting, if_neg hopen, if_neg hclose] at hspec
          apply hspec.char (Piece.not_isBrace_iff.mpr ⟨hopen, hclose⟩)

end Closes

/-- The braces of a specifier that is cut off come in pairs. -/
theorem Balanced.of_splitClosing {text spec rest : List Char}
    (h : Piece.splitClosing 0 text = some (spec, rest)) :
  Balanced spec
  := by
  obtain ⟨hspec⟩ := Closes.of_splitClosing h
  apply hspec

/-- Text without braces in front of braces that come in pairs. -/
theorem Balanced.literal_append {front s : List Char}
    (hfront : ∀ c ∈ front, Piece.isBrace c = false) (hs : Balanced s) :
  Balanced (front ++ s)
  := by
  induction front with
  | nil => apply hs
  | cons c front ih =>
    apply char (hfront c (.head _))
    apply ih fun d hd => hfront d (.tail _ hd)

/-- There is no brace in an id. -/
theorem ArgId.WellFormed.not_isBrace {id : ArgId} (hid : id.WellFormed) :
  ∀ c ∈ id.source, Piece.isBrace c = false
  := by
  intro c hc
  obtain ⟨hclose, hopen⟩ := not_brace_of_isNameRest (isNameRest_of_mem_source hid hc)
  apply Piece.not_isBrace_iff.mpr ⟨hopen, hclose⟩

/-! ### Well-formed pieces -/

namespace Piece

/-- The pieces that can be written: text without braces, doubled braces, and fields with a
well-formed id and a specifier whose braces come in pairs. -/
def WellFormed : Piece → Prop
  | .literal text => text ≠ [] ∧ ∀ c ∈ text, isBrace c = false
  | .brace c => isBrace c = true
  | .field id spec => id.WellFormed ∧ ∀ s ∈ spec, Balanced s

variable {text rest : List Char} {piece : Piece}

theorem wellFormed_of_readField (h : readField text = .ok (piece, rest)) :
  piece.WellFormed
  := by
  rw [readField] at h
  split at h
  · cases h
  · cases h
  · next hid =>
    cases h
    refine ⟨(ArgId.source_of_read hid).2, ?_⟩
    rintro _ ⟨⟩
  · next hid =>
    split at h <;> cases h
    next hsplit =>
    refine ⟨(ArgId.source_of_read hid).2, ?_⟩
    rintro _ ⟨⟩
    apply Balanced.of_splitClosing hsplit
  · cases h

/-- A piece that is read is well-formed. -/
theorem wellFormed_of_read (hne : text ≠ []) (h : read text = .ok (piece, rest)) :
  piece.WellFormed
  := by
  obtain ⟨c, text, rfl⟩ := List.exists_cons_of_ne_nil hne
  by_cases hc : isBrace c = true
  · rw [read.eq_def] at h
    split at h
    · cases h
      rfl
    · cases h
      rfl
    · cases h
    · apply wellFormed_of_readField h
    · next hclose hopen =>
      obtain rfl | rfl := isBrace_iff.mp hc
      · cases hopen _ rfl
      · cases hclose _ rfl
  · rw [Bool.not_eq_true] at hc
    rw [read_char hc] at h
    cases h
    refine ⟨List.cons_ne_nil _ _, ?_⟩
    rintro d (_ | ⟨_, hd⟩)
    · apply hc
    · simpa using mem_takeWhile hd

/-- A well-formed piece takes something. -/
theorem WellFormed.source_ne_nil (h : piece.WellFormed) :
  piece.source ≠ []
  := by
  cases piece with
  | literal text => apply h.1
  | brace c => apply List.cons_ne_nil
  | field id spec => cases spec <;> apply List.cons_ne_nil

end Piece

/-! ### Templates -/

namespace IsTemplate

variable {text rest : List Char}

/-- Text without braces in front of a template. -/
theorem literal_append {front : List Char} (hfront : ∀ c ∈ front, Piece.isBrace c = false)
    (h : IsTemplate rest) :
  IsTemplate (front ++ rest)
  := by
  induction front with
  | nil => apply h
  | cons c front ih =>
    apply char (hfront c (.head _))
    apply ih fun d hd => hfront d (.tail _ hd)

/-- A well-formed piece in front of a template. -/
theorem piece_append {piece : Piece} (hpiece : piece.WellFormed) (h : IsTemplate rest) :
  IsTemplate (piece.source ++ rest)
  := by
  cases piece with
  | literal text => apply literal_append hpiece.2 h
  | brace c => exact brace hpiece h
  | field id spec => exact field hpiece.1 hpiece.2 h

/-- What follows text without braces is a template. -/
theorem dropWhile (h : IsTemplate text) :
  IsTemplate (text.dropWhile (!Piece.isBrace ·))
  := by
  induction h with
  | nil => exact nil
  | @char c text hc _ ih =>
    rw [List.dropWhile_cons_of_pos (by simp [hc])]
    apply ih
  | @brace c text hc ht _ =>
    rw [List.dropWhile_cons_of_neg (by simp [hc])]
    exact brace hc ht
  | @field id spec text hid hspec ht _ =>
    have h := field hid hspec ht
    have hopen : ∃ after, (Piece.field id spec).source ++ text = '{' :: after := by
      cases spec <;> exact ⟨_, rfl⟩
    obtain ⟨after, hafter⟩ := hopen
    rw [hafter] at h ⊢
    rw [List.dropWhile_cons_of_neg (by simp [Piece.isBrace])]
    apply h

/-- A template begins with a piece, and goes on with a template. -/
theorem exists_read (h : IsTemplate text) (hne : text ≠ []) :
  ∃ piece rest, Piece.read text = .ok (piece, rest) ∧ IsTemplate rest
  := by
  cases h with
  | nil => cases hne rfl
  | char hc ht => exact ⟨_, _, Piece.read_char hc _, ht.dropWhile⟩
  | brace hc ht => exact ⟨_, _, Piece.read_brace hc _, ht⟩
  | field hid hspec ht => exact ⟨_, _, Piece.read_field hid hspec _, ht⟩

end IsTemplate

/-- The texts that are read without a fault are the templates. -/
theorem isTemplate_iff {text : List Char} :
  IsTemplate text ↔ (Template.read text).fault = none
  := by
  induction text using Template.induction with
  | nil =>
    rw [Template.read_nil]
    exact ⟨fun _ => rfl, fun _ => .nil⟩
  | fault text place hne hread =>
    rw [Template.read_of_error hne hread]
    constructor
    · intro h
      obtain ⟨_, _, hok, _⟩ := h.exists_read hne
      rw [hread] at hok
      cases hok
    · rintro ⟨⟩
  | piece text piece rest hne hread ih =>
    rw [Template.read_of_ok hne hread, Template.cons, Option.map_eq_none_iff, ← ih]
    constructor
    · intro h
      obtain ⟨_, _, hok, hrest⟩ := h.exists_read hne
      rw [hread] at hok
      cases hok
      apply hrest
    · intro h
      rw [Piece.source_of_read hread]
      apply IsTemplate.piece_append (Piece.wellFormed_of_read hne hread) h

namespace Template

/-- The pieces of a template are well-formed, and a text begins with their sources, up to its
fault. -/
theorem read_pieces (text : List Char) :
  (∀ piece ∈ (read text).pieces, piece.WellFormed) ∧
    ∃ rest, text = (read text).pieces.flatMap Piece.source ++ rest ∧
      ((read text).fault = none → rest = [])
  := by
  induction text using Template.induction with
  | nil =>
    rw [read_nil]
    exact ⟨by rintro _ ⟨⟩, [], rfl, fun _ => rfl⟩
  | fault text place hne hread =>
    rw [read_of_error hne hread]
    exact ⟨by rintro _ ⟨⟩, text, rfl, by rintro ⟨⟩⟩
  | piece text piece rest hne hread ih =>
    obtain ⟨hpieces, behind, hrest, hbehind⟩ := ih
    rw [read_of_ok hne hread, cons]
    refine ⟨?_, behind, ?_, ?_⟩
    · rintro _ (_ | ⟨_, hmem⟩)
      · apply Piece.wellFormed_of_read hne hread
      · apply hpieces _ hmem
    · rw [List.flatMap_cons, List.append_assoc, ← hrest]
      apply Piece.source_of_read hread
    · intro hfault
      apply hbehind (Option.map_eq_none_iff.mp hfault)

end Template

/-! ### Pieces in a row -/

namespace Piece

/-- Whether a piece is text without braces. -/
def isLiteral : Piece → Bool
  | .literal _ => true
  | _ => false

/-- Of two pieces in a row one is no literal. -/
def Apart (piece piece' : Piece) : Prop := piece.isLiteral = true → piece'.isLiteral = false

variable {text rest : List Char} {piece : Piece}

theorem isLiteral_of_readField (h : readField text = .ok (piece, rest)) :
  piece.isLiteral = false
  := by
  rw [readField] at h
  split at h
  · cases h
  · cases h
  · cases h
    rfl
  · split at h <;> cases h
    rfl
  · cases h

/-- A brace is not read as a literal. -/
theorem isLiteral_of_read {c : Char} (hc : isBrace c = true)
    (h : read (c :: text) = .ok (piece, rest)) :
  piece.isLiteral = false
  := by
  rw [read.eq_def] at h
  split at h
  · cases h
    rfl
  · cases h
    rfl
  · cases h
  · apply isLiteral_of_readField h
  · next hclose hopen =>
    obtain rfl | rfl := isBrace_iff.mp hc
    · cases hopen _ rfl
    · cases hclose _ rfl

/-- A literal goes on up to a brace. -/
theorem stops_of_read (hne : text ≠ []) (h : read text = .ok (piece, rest))
    (hliteral : piece.isLiteral = true) :
  Stops (!isBrace ·) rest
  := by
  obtain ⟨c, text, rfl⟩ := List.exists_cons_of_ne_nil hne
  by_cases hc : isBrace c = true
  · rw [isLiteral_of_read hc h] at hliteral
    cases hliteral
  · rw [Bool.not_eq_true] at hc
    rw [read_char hc] at h
    cases h
    apply stops_dropWhile

/-- Every piece but a literal begins with a brace. -/
theorem stops_source (hpiece : piece.WellFormed) (hliteral : piece.isLiteral = false)
    (rest : List Char) :
  Stops (!isBrace ·) (piece.source ++ rest)
  := by
  cases piece with
  | literal text => cases hliteral
  | brace c =>
    have hc : isBrace c = true := hpiece
    apply Stops.cons
    rw [hc]
    rfl
  | field id spec => cases spec <;> exact Stops.cons rfl

/-- The source of a piece is read as the piece, unless it is a literal that goes on. -/
theorem WellFormed.read_source (hpiece : piece.WellFormed)
    (hrest : piece.isLiteral = true → Stops (!isBrace ·) rest) :
  read (piece.source ++ rest) = .ok (piece, rest)
  := by
  cases piece with
  | literal text =>
    obtain ⟨hne, htext⟩ := hpiece
    obtain ⟨c, text, rfl⟩ := List.exists_cons_of_ne_nil hne
    have htail : ∀ d ∈ text, (!isBrace d) = true := by
      intro d hd
      rw [htext d (.tail _ hd)]
      rfl
    rw [source, List.cons_append, read_char (htext c (.head _)),
      takeWhile_append_of_stops htail (hrest rfl), dropWhile_append_of_stops htail (hrest rfl)]
  | brace c => apply read_brace hpiece
  | field id spec => apply read_field hpiece.1 hpiece.2

end Piece

namespace Template

/-- There are never two literals in a row. -/
theorem apart_read (text : List Char) :
  (read text).pieces.IsChain Piece.Apart
  := by
  induction text using Template.induction with
  | nil =>
    rw [read_nil]
    apply List.IsChain.nil
  | fault text place hne hread =>
    rw [read_of_error hne hread]
    apply List.IsChain.nil
  | piece text piece rest hne hread ih =>
    rw [read_of_ok hne hread]
    apply List.isChain_cons.mpr ⟨?_, ih⟩
    intro next hnext hliteral
    have hstops := Piece.stops_of_read hne hread hliteral
    cases rest with
    | nil =>
      rw [read_nil] at hnext
      cases hnext
    | cons c rest =>
      have hc : Piece.isBrace c = true := by simpa using hstops c rfl
      rcases hread' : Piece.read (c :: rest) with place | ⟨piece', rest'⟩
      · rw [read_of_error (List.cons_ne_nil _ _) hread'] at hnext
        cases hnext
      · rw [read_of_ok (List.cons_ne_nil _ _) hread'] at hnext
        cases hnext
        apply Piece.isLiteral_of_read hc hread'

/-- Well-formed pieces are read from their sources, unless there are two literals in a row. -/
theorem read_flatMap_source {pieces : List Piece} (hpieces : ∀ piece ∈ pieces, piece.WellFormed)
    (hapart : pieces.IsChain Piece.Apart) :
  read (pieces.flatMap Piece.source) = ⟨pieces, none⟩
  := by
  induction pieces with
  | nil => apply read_nil
  | cons piece pieces ih =>
    obtain ⟨hpiece, hpieces⟩ := List.forall_mem_cons.mp hpieces
    obtain ⟨hhead, hapart⟩ := List.isChain_cons.mp hapart
    have hrest : piece.isLiteral = true → Stops (!Piece.isBrace ·) (pieces.flatMap Piece.source) := by
      intro hliteral
      cases pieces with
      | nil => apply Stops.nil
      | cons next pieces =>
        apply Piece.stops_source (hpieces next (.head _)) (hhead next rfl hliteral)
    have hne : piece.source ++ pieces.flatMap Piece.source ≠ [] := by
      intro hnil
      apply hpiece.source_ne_nil (List.append_eq_nil_iff.mp hnil).1
    rw [List.flatMap_cons, read_of_ok hne (hpiece.read_source hrest), ih hpieces hapart]
    rfl

end Template

end BraceFormat
