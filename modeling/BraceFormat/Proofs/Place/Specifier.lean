import BraceFormat.Proofs.Field
import BraceFormat.Proofs.Guarded.Specifier
import BraceFormat.Proofs.Place.Template

/-!
# Places in a specifier

The errors in reading a specifier lie within it, and so do the places at which its parts are
written, which are kept for later. Hence the errors that are found in looking up its references
and in checking it lie within it as well (`errorsWithin_readDirective`).
-/

namespace BraceFormat

open Guarded

/-! ### Specifiers -/

/-- The places of the parts of a specifier lie within a text. -/
structure Places.Within (text : List Char) (places : Places) : Prop where
  align : IsBoundary text places.align
  sign : IsBoundary text places.sign
  alternate : IsBoundary text places.alternate
  zero : IsBoundary text places.zero
  precision : IsBoundary text places.precision
  presentation : IsBoundary text places.presentation

/-- The place of a reference lies within a text. -/
def Count.Within (text : List Char) : Count → Prop
  | .literal _ => True
  | .argument _ place => IsBoundary text place

/-- All places of a specifier lie within a text. -/
structure Specifier.Within (text : List Char) (spec : Specifier) : Prop where
  width : ∀ count ∈ spec.width, count.Within text
  precision : ∀ count ∈ spec.precision, count.Within text
  places : spec.places.Within text

namespace Specifier

variable {text rest : List Char} {place : Nat} {numbering after : Numbering}

/-- An alignment that cannot be read is an error at the start. -/
theorem errorsWithin_readAlign (text : List Char) :
  ErrorsWithin text (readAlign text)
  := by
  cases text with
  | nil => exact .ok _
  | cons c rest =>
    rw [readAlign]
    split
    · split
      · exact .error (FormatError.within_located (isBoundary_zero _))
      · exact .ok _
    · split <;> exact .ok _

/-- What comes of reading a width or precision: it is followed by more of the text, and has its
place in it, or it is an error there. -/
def CountPlaced (text : List Char) :
    Except FormatError (Option Count × List Char) × Numbering → Prop
  | (.ok (count, rest), _) =>
    At text (byteLength text - byteLength rest) rest ∧ ∀ c ∈ count, c.Within text
  | (.error e, _) => e.Within text

theorem countPlaced_readCount (hat : At text place rest) (numbering : Numbering) :
  CountPlaced text (readCount place rest numbering)
  := by
  have hnone (h : At text place rest) :
      At text (byteLength text - byteLength rest) rest := by
    rw [h.place_eq]
    exact h
  rw [readCount.eq_def]
  split
  · exact ⟨hnone hat, by rintro _ ⟨⟩⟩
  · next behind =>
    have hinner : At text (place + 1) behind := hat.advance_char
    split
    · next hread =>
      apply FormatError.within_located
      rw [← List.append_nil behind] at hinner
      exact hinner.isBoundary_add (ArgId.isBoundary_of_readClosed_error hread)
    · next hread =>
      split
      · exact FormatError.within_located hat.isBoundary
      · obtain ⟨rfl, _⟩ := ArgId.source_of_readClosed hread
        have hafter := hinner.advance.advance_char
        refine ⟨by rw [hafter.place_eq]; exact hafter, ?_⟩
        rintro _ ⟨⟩
        exact hat.isBoundary
  · split
    · dsimp only
      split
      · exact ⟨hat.run_cons.of_append, by rintro _ ⟨⟩; trivial⟩
      · exact FormatError.within_located hat.isBoundary
    · exact ⟨hnone hat, by rintro _ ⟨⟩⟩

theorem countPlaced_readPrecision (hat : At text place rest) (numbering : Numbering) :
  CountPlaced text (readPrecision place rest numbering)
  := by
  rw [readPrecision.eq_def]
  split
  · next behind =>
    have hbehind : At text (place + 1) behind := hat.advance_char
    have hcount := countPlaced_readCount hbehind numbering
    rcases hread : readCount (place + 1) behind numbering with ⟨e | ⟨_ | count, after⟩, next⟩
    · rw [hread] at hcount
      exact hcount
    · exact FormatError.within_located hat.isBoundary
    · rw [hread] at hcount
      exact hcount
  · refine ⟨?_, by rintro _ ⟨⟩⟩
    rw [hat.place_eq]
    exact hat

theorem errorsWithin_readPresentation (hat : At text place rest) :
  ErrorsWithin text (readPresentation place rest)
  := by
  cases rest with
  | nil => exact .ok _
  | cons c rest =>
    rw [readPresentation]
    split
    · exact .error (FormatError.within_located hat.isBoundary)
    · next hc =>
      split
      · apply ErrorsWithin.error
        apply FormatError.within_located
        rw [← utf8Size_of_isAlpha_or_percent (not_not.mp hc)]
        exact hat.advance_char.isBoundary
      · split
        · exact .ok _
        · exact .error (FormatError.within_located hat.isBoundary)

/-- The errors in reading a specifier lie within it, and so do the places of its parts. -/
theorem errorsWithin_read (text : List Char) (numbering : Numbering) :
  ErrorsWithin text (read text numbering).1 ∧
    ∀ spec, (read text numbering).1 = .ok spec → spec.Within text
  := by
  rcases halign : readAlign text with e | ⟨⟨fill, align⟩, atSign⟩
  · simp only [read, halign]
    exact ⟨.error (errorsWithin_readAlign text e halign), by rintro _ ⟨⟩⟩
  rcases hsign : readSign atSign with ⟨sign, atAlternate⟩
  rcases halternate : readFlag '#' atAlternate with ⟨alternate, atZero⟩
  rcases hzero : readFlag '0' atZero with ⟨zero, atWidth⟩
  have hatSign := at_alignStop halign
  have hatAlternate := (sign_eq hatSign hsign).2
  obtain ⟨_, hatZero⟩ := eat?_eq hatAlternate halternate
  obtain ⟨_, hatWidth⟩ := eat?_eq hatZero hzero
  have hwidth := countPlaced_readCount hatWidth numbering
  simp only [read, halign, hsign, halternate, hzero]
  split
  · exact ⟨.error (FormatError.within_located hatZero.isBoundary), by rintro _ ⟨⟩⟩
  split
  · next hread =>
    rw [hread] at hwidth
    exact ⟨.error hwidth, by rintro _ ⟨⟩⟩
  next width atPoint next hread =>
  rw [hread] at hwidth
  obtain ⟨hatPoint, hwidth⟩ := hwidth
  have hprecision := countPlaced_readPrecision hatPoint next
  split
  · next hread =>
    rw [hread] at hprecision
    exact ⟨.error hprecision, by rintro _ ⟨⟩⟩
  next precision atType after hread =>
  rw [hread] at hprecision
  obtain ⟨hatType, hprecision⟩ := hprecision
  split
  · next hread => exact ⟨.error (errorsWithin_readPresentation hatType _ hread), by rintro _ ⟨⟩⟩
  · refine ⟨.ok _, ?_⟩
    rintro _ ⟨⟩
    refine ⟨hwidth, hprecision, ?_, ?_, ?_, hatZero.isBoundary, hatPoint.isBoundary,
      hatType.isBoundary⟩
    · obtain ⟨htext, _⟩ := source_of_readAlign halign
      cases fill with
      | none => apply isBoundary_zero
      | some c =>
        rw [htext]
        exact ⟨[c], by simp, rfl⟩
    · dsimp only
      split
      · rw [hatSign.place_eq]
        exact hatSign.isBoundary
      · apply isBoundary_zero
    · rw [← hatAlternate.place_eq] at hatAlternate
      exact hatAlternate.isBoundary

end Specifier

/-! ### Directives -/

section Directives

variable {H : Host} {text : List Char}

theorem Count.errorsWithin_resolve? (args : Arguments H) {count : Option Count}
    (h : ∀ c ∈ count, c.Within text) :
  ErrorsWithin text (resolve? args count)
  := by
  rcases count with _ | (n | ⟨reference, place⟩)
  · exact .ok _
  · exact .ok _
  · rw [resolve?, resolve]
    split
    · exact .ok _
    · exact .error (FormatError.within_located (h _ rfl))

/-- A count that no argument supplies is an error at its reference, and the places of the parts
are kept. -/
theorem Specifier.Within.errorsWithin_resolve {spec : Specifier} (h : spec.Within text)
    (args : Arguments H) :
  ErrorsWithin text (spec.resolve args) ∧
    ∀ d, spec.resolve args = .ok d → d.places.Within text
  := by
  constructor
  · apply ErrorsWithin.bind (Count.errorsWithin_resolve? args h.width)
    intro width _
    apply ErrorsWithin.bind (Count.errorsWithin_resolve? args h.precision)
    intro precision _
    exact .ok _
  · intro d hd
    obtain ⟨width, _, hd⟩ := bind_eq_ok_iff.mp hd
    obtain ⟨precision, _, hd⟩ := bind_eq_ok_iff.mp hd
    cases hd
    apply h.places

namespace Directive

variable {d : Directive}

theorem errorsWithin_refuseNumericFlags (h : d.places.Within text) :
  ErrorsWithin text d.refuseNumericFlags
  := by
  rw [refuseNumericFlags]
  split
  · exact .error (FormatError.within_located h.sign)
  · split
    · exact .error (FormatError.within_located h.alternate)
    · split
      · exact .error (FormatError.within_located h.zero)
      · split
        · exact .error (FormatError.within_located h.align)
        · exact .ok _

theorem errorsWithin_refusePrecision (h : d.places.Within text) :
  ErrorsWithin text d.refusePrecision
  := by
  rw [refusePrecision]
  split
  · exact .error (FormatError.within_located h.precision)
  · exact .ok _

theorem within_unsupported (h : d.places.Within text) :
  d.unsupported.Within text
  := FormatError.within_located h.presentation

theorem errorsWithin_checkPlain (h : d.places.Within text) :
  ErrorsWithin text d.checkPlain
  := by
  apply ErrorsWithin.bind (errorsWithin_refuseNumericFlags h)
  intro _ _
  apply errorsWithin_refusePrecision h

theorem errorsWithin_checkInteger (h : d.places.Within text) :
  ErrorsWithin text d.checkInteger
  := by
  rw [checkInteger]
  split
  · apply errorsWithin_refusePrecision h
  · apply errorsWithin_checkPlain h
  · split
    · apply errorsWithin_refusePrecision h
    · exact .error (within_unsupported h)

/-- What is illegal is an error at the place of a part. -/
theorem errorsWithin_check (h : d.places.Within text) (kind : Kind) :
  ErrorsWithin text (d.check kind)
  := by
  cases kind
  all_goals
    rw [check]
    repeat' split
  all_goals first
    | exact .ok _
    | apply errorsWithin_refuseNumericFlags h
    | apply errorsWithin_checkPlain h
    | apply errorsWithin_checkInteger h
    | exact .error (within_unsupported h)

end Directive

/-- The errors in reading the directive of a field lie within its specifier. -/
theorem errorsWithin_readDirective (kind : Kind) (spec : List Char) (args : Arguments H)
    (numbering : Numbering) :
  ErrorsWithin spec (readDirective kind spec args numbering)
  := by
  obtain ⟨herrors, hspec⟩ := Specifier.errorsWithin_read spec numbering
  apply ErrorsWithin.bind herrors
  intro read hread
  obtain ⟨hresolve, hplaces⟩ := (hspec read hread).errorsWithin_resolve args
  apply ErrorsWithin.bind hresolve
  intro d hd
  apply ErrorsWithin.bind (Directive.errorsWithin_check (hplaces d hd) kind)
  intro _ _
  exact .ok _

/-- The errors in reading a specifier on its own lie within it, and so do the places of the
directive. -/
theorem errorsWithin_readStandalone (text : List Char) :
  ErrorsWithin text (Directive.readStandalone text) ∧
    ∀ d, Directive.readStandalone text = .ok d → d.places.Within text
  := by
  obtain ⟨herrors, hspec⟩ := Specifier.errorsWithin_read text .undecided
  rw [Directive.readStandalone]
  split
  · next e hread => exact ⟨.error (herrors e hread), by rintro _ ⟨⟩⟩
  · next spec hread => exact (hspec spec hread).errorsWithin_resolve _

end Directives

end BraceFormat
