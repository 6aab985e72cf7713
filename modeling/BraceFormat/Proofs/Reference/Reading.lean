import BraceFormat.Proofs.Guarded.Specifier
import BraceFormat.Proofs.Reference.Mention
import BraceFormat.Proofs.Specifier.Adjacency
import BraceFormat.Proofs.Specifier.Reading

/-!
# References as they are read

A specifier is read in one of two ways, by its grammar or for its references only. Both pass
over the mentions in it from left to right: a reading that succeeds leaves the numbering that
the mentions leave, and a conflict that it finds is the one among them
(`Specifier.passes_read`, `Substitution.passes_read`).
-/

namespace BraceFormat

open Guarded

/-- A reading passes over some mentions: if it succeeds, it leaves their numbering, and if it
finds a conflict, then it is theirs. -/
def Numbering.Passes {α : Type} (numbering : Numbering) (ms : List Mention) :
    Except FormatError α × Numbering → Prop
  | (.ok _, after) => numbering.through ms = .ok after
  | (.error e, _) => e.kind = .indexingConflict → numbering.through ms = .error e

namespace Specifier

variable {spec rest : List Char} {start numbering after : Numbering}

/-- A reading of a specifier has come to what is left of it, with some numbering. -/
def Reaches (spec : List Char) (start : Numbering) (rest : List Char) (numbering : Numbering) :
    Prop :=
  ∃ place, At spec place rest ∧
    start.through (Mention.ofSpec 0 spec) = numbering.through (Mention.ofSpec place rest)

/-- What comes of reading a part of a specifier: either more of it is read, or it is an error,
and then a conflict is that of the whole. -/
def Continues {α : Type} (spec : List Char) (start : Numbering) :
    Except FormatError (α × List Char) × Numbering → Prop
  | (.ok (_, rest), numbering) => Reaches spec start rest numbering
  | (.error e, _) =>
    e.kind = .indexingConflict → start.through (Mention.ofSpec 0 spec) = .error e

namespace Reaches

theorem refl (spec : List Char) (numbering : Numbering) :
  Reaches spec numbering spec numbering
  := ⟨0, At.zero spec, rfl⟩

/-- Text without references is passed over. -/
theorem append {front : List Char} (h : Reaches spec start (front ++ rest) numbering)
    (hfront : ∀ c ∈ front, c ≠ '{') :
  Reaches spec start rest numbering
  := by
  obtain ⟨place, hat, hthrough⟩ := h
  refine ⟨place + byteLength front, hat.advance, ?_⟩
  rw [hthrough, Mention.ofSpec_append hfront]

/-- A character that begins no reference is passed over. -/
theorem char {c : Char} (h : Reaches spec start (c :: rest) numbering) (hc : c ≠ '{') :
  Reaches spec start rest numbering
  := by
  change Reaches spec start ([c] ++ rest) numbering at h
  apply h.append
  intro d hd
  rw [List.mem_singleton.mp hd]
  apply hc

/-- A count is passed over with its reference. -/
theorem readCount (h : Reaches spec start rest numbering) :
  Continues spec start
    (Specifier.readCount (byteLength spec - byteLength rest) rest numbering)
  := by
  obtain ⟨place, hat, hthrough⟩ := h
  rw [hat.place_eq, readCount.eq_def]
  split
  · exact ⟨place, hat, hthrough⟩
  · next text =>
    split
    · rintro ⟨⟩
    · next id behind hread =>
      obtain ⟨rfl, hid⟩ := ArgId.source_of_readClosed hread
      rw [← List.cons_append] at hat hthrough
      rw [Mention.ofSpec_reference hid, Numbering.through] at hthrough
      split
      · next kind hresolve =>
        intro _
        rw [hthrough, hresolve]
      · next reference next hresolve =>
        rw [hresolve] at hthrough
        have hat' : At spec place ((SpecPart.reference id).source ++ behind) := by
          simpa [SpecPart.source] using hat
        exact ⟨_, hat'.advance, hthrough⟩
  · next c text _ =>
    split
    · next hc =>
      dsimp only
      split
      · have hreach : Reaches spec start
            ((c :: text.takeWhile Char.isDigit) ++ text.dropWhile Char.isDigit) numbering :=
          ⟨place, hat.run_cons, by
            rw [List.cons_append, List.takeWhile_append_dropWhile]
            exact hthrough⟩
        apply hreach.append
        rintro d (_ | ⟨_, hd⟩)
        · apply (not_brace_of_isNameRest (ArgId.isNameRest_of_isDigit hc)).2
        · apply (not_brace_of_isNameRest (ArgId.isNameRest_of_isDigit (mem_takeWhile hd))).2
      · rintro ⟨⟩
    · exact ⟨place, hat, hthrough⟩

/-- A precision is passed over with its reference. -/
theorem readPrecision (h : Reaches spec start rest numbering) :
  Continues spec start
    (Specifier.readPrecision (byteLength spec - byteLength rest) rest numbering)
  := by
  rw [readPrecision.eq_def]
  split
  · next text =>
    have hplace : byteLength spec - byteLength ('.' :: text) + 1 =
        byteLength spec - byteLength text := by
      obtain ⟨place, hat, _⟩ := h
      rw [hat.place_eq, hat.advance_char.place_eq]
      rfl
    have hcount := (h.char (by decide)).readCount
    rw [hplace]
    rcases hread : Specifier.readCount (byteLength spec - byteLength text) text numbering with
      ⟨e | ⟨_ | count, behind⟩, after⟩
    · rw [hread] at hcount
      apply hcount
    · rintro ⟨⟩
    · rw [hread] at hcount
      apply hcount
  · apply h

end Reaches

/-- The parts of a specifier in front of the width hold no reference. -/
theorem reaches_width {fill : Option Char} {align : Option Align} {sign : Option Sign}
    {alternate zero : Bool} {atSign atAlternate atZero atWidth : List Char}
    (halign : readAlign spec = .ok ((fill, align), atSign))
    (hsign : readSign atSign = (sign, atAlternate))
    (halternate : readFlag '#' atAlternate = (alternate, atZero))
    (hzero : readFlag '0' atZero = (zero, atWidth)) (numbering : Numbering) :
  Reaches spec numbering atWidth numbering
  := by
  obtain ⟨htext, hbrace⟩ := source_of_readAlign halign
  have hstart := Reaches.refl spec numbering
  nth_rewrite 2 [htext] at hstart
  have hatSign := hstart.append (by
    intro c hc
    rw [List.mem_append, Option.mem_toList, Option.mem_toList, Option.map_eq_some_iff] at hc
    rcases hc with hc | ⟨align, _, rfl⟩
    · apply (hbrace c hc).1
    · cases align <;> decide)
  rw [source_of_readSign hsign] at hatSign
  have hatAlternate := hatSign.append (by
    intro c hc
    rw [Option.mem_toList, Option.map_eq_some_iff] at hc
    obtain ⟨sign, _, rfl⟩ := hc
    cases sign <;> decide)
  rw [(source_of_readFlag halternate).1] at hatAlternate
  have hatZero := hatAlternate.append (by cases alternate <;> simp)
  rw [(source_of_readFlag hzero).1] at hatZero
  exact hatZero.append (by cases zero <;> simp)

/-- Neither the alignment nor the type of a specifier is in conflict with a numbering. -/
theorem kind_of_readAlign {e : FormatError} (h : readAlign spec = .error e) :
  e.kind = .invalidSpecifier
  := by
  cases spec with
  | nil => cases h
  | cons c text =>
    rw [readAlign] at h
    split at h
    · split at h <;> cases h
      rfl
    · split at h <;> cases h

theorem kind_of_readPresentation {place : Nat} {e : FormatError}
    (h : readPresentation place spec = .error e) :
  e.kind ≠ .indexingConflict
  := by
  cases spec with
  | nil => cases h
  | cons c text =>
    rw [readPresentation] at h
    split at h
    · cases h
      rintro ⟨⟩
    · split at h
      · cases h
        rintro ⟨⟩
      · split at h <;> cases h
        rintro ⟨⟩

/-- Reading a specifier passes over the mentions in it. -/
theorem passes_read (spec : List Char) (numbering : Numbering) :
  numbering.Passes (Mention.ofSpec 0 spec) (read spec numbering)
  := by
  rcases halign : readAlign spec with e | ⟨⟨fill, align⟩, atSign⟩
  · simp only [read, halign]
    intro hconflict
    rw [kind_of_readAlign halign] at hconflict
    cases hconflict
  rcases hsign : readSign atSign with ⟨sign, atAlternate⟩
  rcases halternate : readFlag '#' atAlternate with ⟨alternate, atZero⟩
  rcases hzero : readFlag '0' atZero with ⟨zero, atWidth⟩
  have hcount := (reaches_width halign hsign halternate hzero numbering).readCount
  simp only [read, halign, hsign, halternate, hzero]
  split
  · rintro ⟨⟩
  split
  · next hwidth =>
    rw [hwidth] at hcount
    apply hcount
  next width atPoint next hwidth =>
  rw [hwidth] at hcount
  have hpoint := Reaches.readPrecision hcount
  split
  · next hprecision =>
    rw [hprecision] at hpoint
    apply hpoint
  next precision atType after hprecision =>
  rw [hprecision] at hpoint
  split
  · next hpresentation =>
    intro hconflict
    cases kind_of_readPresentation hpresentation hconflict
  · next presentation hpresentation =>
    obtain ⟨place, _, hthrough⟩ := hpoint
    have htype : ∀ c ∈ atType, c ≠ '{' := by
      rw [source_of_readPresentation hpresentation]
      intro c hc
      rw [Option.mem_toList, Option.map_eq_some_iff] at hc
      obtain ⟨presentation, _, rfl⟩ := hc
      cases presentation <;> decide
    have hnone := Mention.ofSpec_append htype place []
    rw [List.append_nil, Mention.ofSpec_nil] at hnone
    rw [hnone] at hthrough
    apply hthrough

end Specifier

namespace Substitution

variable {H : Host} {args : Arguments H}

/-- Replacing the references among some parts passes over their mentions. -/
theorem passes_ofParts (place : Nat) (parts : List SpecPart) (numbering : Numbering) :
  numbering.Passes (Mention.ofParts place parts) (ofParts args place parts numbering)
  := by
  induction parts generalizing place numbering with
  | nil => rfl
  | cons part parts ih =>
    cases part with
    | literal text =>
      have hparts := ih (place + byteLength text) numbering
      rw [ofParts, Mention.ofParts]
      rcases hrest : ofParts args (place + byteLength text) parts numbering with ⟨e | rest, after⟩
      · rw [hrest] at hparts
        apply hparts
      · rw [hrest] at hparts
        apply hparts
    | reference id =>
      rw [ofParts, Mention.ofParts]
      rcases hresolve : numbering.resolve id with kind | ⟨reference, next⟩
      · intro _
        rw [Numbering.through, hresolve]
      · dsimp only
        split
        · rintro ⟨⟩
        · have hparts := ih (place + byteLength (SpecPart.reference id).source) next
          rcases hrest : ofParts args (place + byteLength (SpecPart.reference id).source) parts next
            with ⟨e | rest, after⟩
          · rw [hrest] at hparts
            intro hconflict
            rw [Numbering.through, hresolve]
            apply hparts hconflict
          · rw [hrest] at hparts
            change Numbering.through _ _ = _
            rw [Numbering.through, hresolve]
            apply hparts

/-- Replacing the references in a specifier passes over the mentions in it. -/
theorem passes_read (spec : List Char) (numbering : Numbering) :
  numbering.Passes (Mention.ofSpec 0 spec) (read args spec numbering)
  := by
  have hparts : numbering.Passes (Mention.ofParts 0 (SpecParts.read spec).parts)
    (ofParts args 0 (SpecParts.read spec).parts numbering) := passes_ofParts _ _ _
  rw [read, Mention.ofSpec]
  rcases hread : SpecParts.read spec with ⟨parts, fault⟩
  rw [hread] at hparts
  dsimp only at hparts ⊢
  rcases houtcome : ofParts args 0 parts numbering with ⟨e | rest, after⟩
  · rw [houtcome] at hparts
    cases fault <;> apply hparts
  · rw [houtcome] at hparts
    cases fault with
    | none => apply hparts
    | some place => rintro ⟨⟩

end Substitution

end BraceFormat
