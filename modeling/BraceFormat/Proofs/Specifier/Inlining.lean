import BraceFormat.Proofs.Formatter
import BraceFormat.Proofs.Specifier.ReferenceFree
import BraceFormat.Proofs.Substitution.Unpasting

/-!
# Counts written out

A specifier with references does what the specifier does that has the numerals of the arguments in
their place. No numeral is read together with what stands around it: the grammar has a
reference and a numeral in the same places, except that a zero for the width would be the flag
where this is not written. So the two have the same directive, and every argument other than
a value of the host comes out in the same way (`exists_inlined`).
-/

namespace BraceFormat

variable {H : Host}

/-- An error of which only the kind is known. -/
def FormatError.withoutPlace (e : FormatError) : FormatError := .unplaced e.kind

/-- Changing the error of a computation changes that of the formatter. -/
theorem Formatter.mapError_ofChecked {α : Type} (k : FormatError → FormatError)
    (r : Except FormatError α) :
  (ofChecked r : Formatter H α).mapError k = ofChecked (r.mapError k)
  := by
  cases r <;> rfl

/-- Except for the places of its errors, what an argument puts out depends on its directive
alone. -/
theorem mapError_formatBuiltin_of_resolve {spec : List Char} {args : Arguments H}
    {numbering after : Numbering} {read : Specifier} {d : Directive}
    (hread : Specifier.read spec numbering = (.ok read, after))
    (hresolve : read.resolve args = .ok d) (argument : Argument H) (locale : Locale) :
  (discard (formatBuiltin argument spec args locale numbering)).mapError .withoutPlace =
    Formatter.ofChecked (((d.check argument.kind).mapError FormatError.kind).mapError .unplaced)
      >>= fun _ => (argument.put d locale).mapError .withoutPlace
  := by
  have hcheck : (d.check argument.kind).mapError FormatError.withoutPlace =
      ((d.check argument.kind).mapError FormatError.kind).mapError FormatError.unplaced := by
    cases d.check argument.kind <;> rfl
  rw [formatBuiltin_of_resolve hread hresolve, ← hcheck, ← Formatter.mapError_ofChecked,
    ← Formatter.mapError_bind]
  congr 1
  change ((Formatter.ofChecked (d.check argument.kind) >>= fun _ =>
    argument.put d locale >>= fun _ => return after) >>= fun _ => Pure.pure ()) = _
  simp only [bind_assoc, pure_bind]
  congr 1
  funext _
  apply bind_pure

/-- A specifier that is read and whose references are looked up can be written with numerals in
the place of the references, unless the width is the reference to a zero and the zero flag is not
written. What is pasted is a specifier without references; whatever the arguments and the
numbering are, its directive differs in nothing but the places of its parts. It is legal for the
same kinds of arguments, with the same kind of error for the others, and every argument other
than a value of the host is put out by both specifiers in the same way. -/
theorem exists_inlined {text : List Char} {args : Arguments H} {numbering after : Numbering}
    {read : Specifier} {d : Directive}
    (hread : Specifier.read text numbering = (.ok read, after))
    (hresolve : read.resolve args = .ok d)
    (hwidth : read.zero = true ∨ ¬∃ reference place,
      read.width = some (.argument reference place) ∧ args.count? reference = some 0) :
  ∃ (inlined : List Char) (places : Places),
    (∀ other next, Pastes args numbering text other next ↔ other = inlined ∧ next = after) ∧
    (∀ kind, ({ d with places }.check kind).mapError FormatError.kind =
      (d.check kind).mapError FormatError.kind) ∧
    ∀ (args' : Arguments H) (numbering' : Numbering),
      (∃ read', Specifier.read inlined numbering' = (.ok read', numbering') ∧
        read'.resolve args' = .ok { d with places }) ∧
      ∀ argument : Argument H, argument.IsBuiltin → ∀ locale,
        (discard (formatField argument inlined args' locale numbering')).mapError .withoutPlace =
          (discard (formatField argument text args locale numbering)).mapError .withoutPlace
  := by
  obtain ⟨s, hs, rfl⟩ := Specifier.source_of_read hread
  obtain ⟨v, hsupplied, hd⟩ := (WrittenSpecifier.resolve_iff hs).mp ⟨read, hread, hresolve⟩
  have hv : v.WellFormed := by
    apply hsupplied.wellFormed hs
    intro hflag hzero
    obtain ⟨read', reference, place, hread', hreference, hcount⟩ :=
      (WrittenSpecifier.takesZeroWidth_iff hs hsupplied).mpr hzero
    rw [hread] at hread'
    cases hread'
    rcases hwidth with hwritten | hwidth
    · rw [WrittenSpecifier.read_source hs] at hread
      obtain ⟨_, _, _, _, _, rfl⟩ := WrittenSpecifier.numbered_iff.mp hread
      have hwritten : s.zero = true := hwritten
      rw [hflag] at hwritten
      cases hwritten
    · apply hwidth ⟨reference, place, hreference, hcount⟩
  have hplaces : v.ownDirective = { d with places := v.places } := by
    rw [hd]
    apply hsupplied.directive_eq
  have hpastes := hsupplied.pastes hs
  refine ⟨v.source, v.places, fun _ _ => hpastes.iff, fun kind => ?_, fun args' numbering' => ?_⟩
  · apply Directive.mapError_check_of_places
  · obtain ⟨read', hread', hresolve'⟩ :=
      WrittenSpecifier.exists_read_source hv hsupplied.withoutReferences args' numbering'
    rw [hplaces] at hresolve'
    refine ⟨⟨read', hread', hresolve'⟩, fun argument hargument locale => ?_⟩
    rw [formatField_of_isBuiltin hargument, formatField_of_isBuiltin hargument,
      mapError_formatBuiltin_of_resolve hread' hresolve',
      mapError_formatBuiltin_of_resolve hread hresolve, Directive.mapError_check_of_places,
      Argument.put_of_places]

/-- Behind the zero flag the width may be the reference to a zero. -/
theorem exists_inlined_zero :
  let args : Arguments ⟨Unit, Unit⟩ := .ofList [.int32 0, .int32 3]
  let text := ['0', '{', '}', '.', '{', '}', 'f']
  let inlined := ['0', '0', '.', '3', 'f']
  let read : Specifier :=
    { zero := true, width := some (.argument (.index 0) 1),
      precision := some (.argument (.index 1) 4), presentation := some .fixed,
      places := { precision := 3, presentation := 6 } }
  let d : Directive :=
    { fill := '0', align := some .numeric, zeroPad := true, precision := some 3,
      presentation := some .fixed, zeroWritten := true,
      places := { precision := 3, presentation := 6 } }
  Specifier.read text .undecided = (.ok read, .automatic 2) ∧ read.resolve args = .ok d ∧
    read.zero = true ∧ Pastes args .undecided text inlined (.automatic 2) ∧
    ∃ read' places, Specifier.read inlined .explicit = (.ok read', .explicit) ∧
      read'.resolve args = .ok { d with places }
  := by
  intro args text inlined read d
  have hread : Specifier.read text .undecided = (.ok read, .automatic 2) := rfl
  have hresolve : read.resolve args = .ok d := rfl
  have hauto : ArgId.auto.WellFormed := trivial
  have htype : Pastes args (.automatic 2) ['f'] ['f'] (.automatic 2) := .char (by decide) .nil
  have hprecision : Pastes args (.automatic 1) ['{', '}', 'f'] ['3', 'f'] (.automatic 2) :=
    .count (n := 3) hauto rfl rfl htype
  have hrest : Pastes args .undecided ['{', '}', '.', '{', '}', 'f'] ['0', '.', '3', 'f']
      (.automatic 2) :=
    .count (n := 0) hauto rfl rfl (.char (by decide) hprecision)
  have hpastes : Pastes args .undecided text inlined (.automatic 2) := .char (by decide) hrest
  obtain ⟨written, places, hunique, _, hwritten⟩ := exists_inlined hread hresolve (.inl rfl)
  obtain ⟨rfl, _⟩ := (hunique inlined _).mp hpastes
  obtain ⟨⟨read', hread', hresolve'⟩, _⟩ := hwritten args .explicit
  exact ⟨hread, hresolve, rfl, hpastes, read', places, hread', hresolve'⟩

end BraceFormat
