import BraceFormat.Proofs.Specifier.Reading
import Mathlib.Data.List.Chain

/-!
# What stands beside a reference

The numeral that takes the place of a reference may be read as something else if the reference
stands beside a digit or another reference, or in front of an alignment. A specifier whose
references stand apart from these has none of the two; so does every specifier that is read, if
the flag `0` is not written in it (`WrittenSpecifier.standsApart_source`).
-/

namespace BraceFormat

/-- Whether a numeral for the reference that ends or begins between two characters would be
read together with the other character. -/
def adjoins (a b : Char) : Bool :=
  a = '}' && (b = '{' || b.isDigit || isAlign b) || a.isDigit && b = '{'

/-- The references of a specifier stand apart from digits, from each other and from an
alignment behind them. -/
def StandsApart (spec : List Char) : Prop := spec.IsChain fun a b => adjoins a b = false

instance (spec : List Char) : Decidable (StandsApart spec) :=
  inferInstanceAs (Decidable (spec.IsChain fun a b => adjoins a b = false))

namespace StandsApart

variable {c : Char} {spec : List Char}

theorem nil :
  StandsApart []
  := List.IsChain.nil

theorem cons_iff :
  StandsApart (c :: spec) ↔ Stops (adjoins c) spec ∧ StandsApart spec
  := List.isChain_cons

/-- What is behind some text stands apart if the whole does. -/
theorem of_append {front : List Char} (h : StandsApart (front ++ spec)) :
  StandsApart spec
  := List.IsChain.right_of_append h

/-- A character that is neither a digit nor a closing brace may stand in front of everything. -/
theorem cons (hclose : c ≠ '}') (hdigit : c.isDigit = false) (h : StandsApart spec) :
  StandsApart (c :: spec)
  := by
  apply cons_iff.mpr ⟨?_, h⟩
  intro b _
  simp [adjoins, hclose, hdigit]

/-- Everything but closing braces may stand in front of a text that begins with no reference. -/
theorem append {front : List Char} (hfront : ∀ c ∈ front, c ≠ '}' ∧ c ≠ '{')
    (hopen : Stops (· = '{') spec) (h : StandsApart spec) :
  StandsApart (front ++ spec) ∧ Stops (· = '{') (front ++ spec)
  := by
  induction front with
  | nil => exact ⟨h, hopen⟩
  | cons c front ih =>
    obtain ⟨hclose, hc⟩ := hfront c (.head _)
    obtain ⟨hapart, hstops⟩ := ih fun d hd => hfront d (.tail _ hd)
    constructor
    · apply cons_iff.mpr ⟨?_, hapart⟩
      intro b hb
      have hb : b ≠ '{' := by simpa using hstops b hb
      simp [adjoins, hclose, hb]
    · apply Stops.cons
      simpa using hc

end StandsApart

/-- The characters of numerals and ids are no braces. -/
theorem not_brace_of_isNameRest {c : Char} (h : ArgId.isNameRest c = true) :
  c ≠ '}' ∧ c ≠ '{'
  := by
  constructor
  · rintro rfl
    cases h
  · rintro rfl
    cases h

/-- A count stands apart from what follows it, unless that begins with a digit, an alignment or
another reference. -/
theorem WrittenCount.standsApart_source {count : WrittenCount} (h : count.WellFormed)
    {rest : List Char} (hopen : Stops (· = '{') rest) (hclose : Stops (adjoins '}') rest)
    (hrest : StandsApart rest) :
  StandsApart (count.source ++ rest)
  := by
  cases count with
  | digits text =>
    apply (StandsApart.append _ hopen hrest).1
    intro c hc
    apply not_brace_of_isNameRest (ArgId.isNameRest_of_isDigit (h.2.1 c hc))
  | reference id =>
    have hid : StandsApart (id.source ++ '}' :: rest) := by
      apply (StandsApart.append _ (Stops.cons rfl) _).1
      · intro c hc
        apply not_brace_of_isNameRest (ArgId.isNameRest_of_mem_source h hc)
      · apply StandsApart.cons_iff.mpr ⟨hclose, hrest⟩
    rw [source, List.cons_append, List.cons_append, List.append_assoc]
    apply StandsApart.cons (by decide) rfl hid

namespace WrittenSpecifier

variable {s : WrittenSpecifier}

/-- The parts behind the width stand apart from each other, and do not go on with a count. -/
theorem standsApart_tail (hs : s.WellFormed) :
  StandsApart (s.precisionSource ++ s.typeSource)
  := by
  have hprecision := hs.precision
  have htype : StandsApart s.typeSource := by
    rw [typeSource]
    cases s.presentation with
    | none => apply StandsApart.nil
    | some presentation =>
      apply StandsApart.cons_iff.mpr ⟨Stops.nil, StandsApart.nil⟩
  rw [precisionSource]
  rcases h : s.precision with _ | count
  · apply htype
  · apply StandsApart.cons (by decide) rfl
    apply WrittenCount.standsApart_source (hprecision count h)
    · apply stops_typeSource
      intro presentation
      cases presentation <;> rfl
    · apply stops_typeSource
      intro presentation
      cases presentation <;> rfl
    · apply htype

/-- The references of a specifier that is read stand apart, if the flag `0` is not written. -/
theorem standsApart_source (hs : s.WellFormed) (hzero : s.zero = false) :
  StandsApart s.source
  := by
  have hwidth : StandsApart (s.widthSource ++ (s.precisionSource ++ s.typeSource)) := by
    have hcount := hs.width
    have htail := standsApart_tail hs
    rw [widthSource]
    rcases h : s.width with _ | count
    · apply htail
    · apply WrittenCount.standsApart_source (hcount count h) _ _ htail
      · apply (stops_precisionSource rfl).append
        apply stops_typeSource
        intro presentation
        cases presentation <;> rfl
      · apply (stops_precisionSource rfl).append
        apply stops_typeSource
        intro presentation
        cases presentation <;> rfl
  have hflags : StandsApart (s.signSource ++ (s.alternateSource ++ (s.widthSource ++
      (s.precisionSource ++ s.typeSource)))) := by
    have halternate : StandsApart (s.alternateSource ++ (s.widthSource ++ (s.precisionSource ++
        s.typeSource))) := by
      rw [alternateSource]
      split
      · apply StandsApart.cons (by decide) rfl hwidth
      · apply hwidth
    rw [signSource]
    cases s.sign with
    | none => apply halternate
    | some sign => cases sign <;> apply StandsApart.cons (by decide) rfl halternate
  have hfill := hs.fill_align
  rw [source, zeroSource, hzero, if_neg Bool.false_ne_true, List.nil_append, alignSource]
  rcases h : s.fill with _ | fill
  · rcases s.align with _ | align
    · apply hflags
    · cases align <;> apply StandsApart.cons (by decide) rfl hflags
  · obtain ⟨_, hclose, halign, _⟩ := hfill fill h
    obtain ⟨align, ha⟩ := Option.ne_none_iff_exists'.mp halign
    rw [ha]
    apply StandsApart.cons_iff.mpr
    constructor
    · apply Stops.cons
      cases align <;> simp [adjoins, hclose, Align.letter]
    · cases align <;> apply StandsApart.cons (by decide) rfl hflags

end WrittenSpecifier

end BraceFormat
