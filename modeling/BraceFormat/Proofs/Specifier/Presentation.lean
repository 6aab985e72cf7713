import BraceFormat.Proofs.Field
import BraceFormat.Proofs.Specifier.Supplied

/-!
# Presentations of specifiers

The presentation is the last part of a specifier, and the other parts are read without regard to
it: with another presentation a specifier has the same directive but for the presentation
(`WrittenSpecifier.readDirective_withPresentation_eq`). If two presentations are legal for an
argument alike and render it alike, then the fields with them are the same
(`WrittenSpecifier.formatBuiltin_withPresentation`).
-/

namespace BraceFormat

variable {H : Host}

/-- A directive has the presentation that is written. -/
theorem presentation_of_readDirective {kind : Kind} {s : WrittenSpecifier} (hs : s.WellFormed)
    {args : Arguments H} {numbering after : Numbering} {d : Directive}
    (h : readDirective kind s.source args numbering = .ok (d, after)) :
  d.presentation = s.presentation
  := by
  obtain ⟨read, hread, hresolve, _⟩ := readDirective_iff.mp h
  obtain ⟨v, hsupplied, rfl⟩ := (WrittenSpecifier.resolve_iff hs).mp ⟨read, hread, hresolve⟩
  obtain ⟨_, _, _, _, _, rfl⟩ := hsupplied
  rfl

namespace WrittenSpecifier

variable {args : Arguments H} {s : WrittenSpecifier}

/-- The counts of a specifier, numbered and looked up, and the numbering after them. -/
def resolveCounts (s : WrittenSpecifier) (args : Arguments H) (numbering : Numbering) :
    Except FormatError ((Option Nat × Option Nat) × Numbering) := do
  let (outcome, after) := s.numbered numbering
  let read ← outcome
  let width ← Count.resolve? args read.width
  let precision ← Count.resolve? args read.precision
  return ((width, precision), after)

/-- The specifier with another presentation. -/
def withPresentation (s : WrittenSpecifier) (presentation : Option Presentation) :
    WrittenSpecifier :=
  { s with presentation }

theorem wellFormed_withPresentation (hs : s.WellFormed) (presentation : Option Presentation) :
  (s.withPresentation presentation).WellFormed
  := ⟨hs.fill_align, hs.width, hs.width_zero, hs.precision⟩

theorem numbered_withPresentation (presentation : Option Presentation) (numbering : Numbering) :
  (s.withPresentation presentation).numbered numbering =
    ((s.numbered numbering).1.map fun spec => { spec with presentation },
      (s.numbered numbering).2)
  := by
  have hwidthPlace : (s.withPresentation presentation).widthPlace = s.widthPlace := rfl
  have hprecisionPlace : (s.withPresentation presentation).precisionPlace = s.precisionPlace := rfl
  have hwidth : (s.withPresentation presentation).width = s.width := rfl
  have hprecision : (s.withPresentation presentation).precision = s.precision := rfl
  rw [numbered, numbered, hwidthPlace, hprecisionPlace, hwidth, hprecision]
  rcases WrittenCount.number? s.widthPlace numbering s.width with kind | ⟨width, next⟩
  · rfl
  · dsimp only
    rcases WrittenCount.number? (s.precisionPlace + 1) next s.precision with
      kind | ⟨precision, after⟩
    · rfl
    · rfl

/-- The presentation has no part in looking up the counts. -/
theorem readDirective_withPresentation (hs : s.WellFormed) (presentation : Option Presentation)
    (kind : Kind) (numbering : Numbering) :
  readDirective kind (s.withPresentation presentation).source args numbering = do
    let ((width, precision), after) ← s.resolveCounts args numbering
    let d := { s.directive width precision with presentation }
    d.check kind
    return (d, after)
  := by
  have hs' := wellFormed_withPresentation hs presentation
  rw [readDirective, read_source hs', numbered_withPresentation, resolveCounts]
  rcases hnumbered : s.numbered numbering with ⟨e | read, after⟩
  · rfl
  · obtain ⟨width, precision, _, _, _, rfl⟩ := numbered_iff.mp hnumbered
    change (Specifier.resolve { s.specifier width precision with presentation } args >>= fun d =>
      d.check kind >>= fun _ => pure (d, after)) = (do
        let m ← Count.resolve? args width
        let n ← Count.resolve? args precision
        return ((m, n), after)) >>= _
    rw [Specifier.resolve]
    change ((Count.resolve? args width >>= fun m => Count.resolve? args precision >>= fun n =>
      pure { s.directive m n with presentation }) >>= fun d =>
        d.check kind >>= fun _ => pure (d, after)) = _
    rcases Count.resolve? args width with e | m
    · rfl
    · rcases Count.resolve? args precision with e | n
      · rfl
      · rfl

/-- A specifier with another presentation has the same directive, but for the presentation, if
both are legal for arguments of a kind alike. -/
theorem readDirective_withPresentation_eq (hs : s.WellFormed) {kind : Kind}
    {presentation presentation' : Option Presentation}
    (hcheck : ∀ d : Directive, { d with presentation := presentation' }.check kind =
      { d with presentation }.check kind)
    (args : Arguments H) (numbering : Numbering) :
  readDirective kind (s.withPresentation presentation').source args numbering =
    (readDirective kind (s.withPresentation presentation).source args numbering).map
      fun (d, after) => ({ d with presentation := presentation' }, after)
  := by
  rw [readDirective_withPresentation hs, readDirective_withPresentation hs]
  rcases s.resolveCounts args numbering with e | ⟨⟨width, precision⟩, after⟩
  · rfl
  · have hcheck := hcheck (s.directive width precision)
    change ({ s.directive width precision with presentation := presentation' }.check kind >>=
      fun _ => pure ({ s.directive width precision with presentation := presentation' }, after)) =
        ({ s.directive width precision with presentation }.check kind >>= fun _ =>
          pure ({ s.directive width precision with presentation }, after)).map _
    rw [hcheck]
    cases { s.directive width precision with presentation }.check kind <;> rfl

/-- Two presentations that are legal for an argument alike, and in which it is rendered alike, make
no difference. -/
theorem formatBuiltin_withPresentation {argument : Argument H} {locale : Locale}
    (hs : s.WellFormed) {presentation presentation' : Option Presentation}
    (hcheck : ∀ d : Directive, { d with presentation := presentation' }.check argument.kind =
      { d with presentation }.check argument.kind)
    (hrendering : ∀ d : Directive, argument.rendering { d with presentation } locale =
      argument.rendering { d with presentation := presentation' } locale)
    (numbering : Numbering) :
  formatBuiltin argument (s.withPresentation presentation).source args locale numbering =
    formatBuiltin argument (s.withPresentation presentation').source args locale numbering
  := by
  have hread := readDirective_withPresentation_eq hs hcheck args numbering
  rcases hd : readDirective argument.kind (s.withPresentation presentation).source args numbering
    with e | ⟨d, after⟩
  · rw [hd] at hread
    rw [formatBuiltin, formatBuiltin, hd, hread]
    rfl
  · rw [hd] at hread
    obtain rfl : d.presentation = presentation :=
      presentation_of_readDirective (wellFormed_withPresentation hs _) hd
    have hrendering : argument.rendering d locale =
      argument.rendering { d with presentation := presentation' } locale := hrendering d
    rw [formatBuiltin_of_ok hd, formatBuiltin_of_ok hread, Argument.put, Argument.put, hrendering]

end WrittenSpecifier

end BraceFormat
