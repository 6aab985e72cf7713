import BraceFormat.Proofs.Handler.Display
import BraceFormat.Proofs.Substitution.Unpasting
import Mathlib.Tactic.ByContra

/-!
# Counts given by reference

A text looks up the counts of its specifier once the specifier is read. A value that writes
itself as text gets numerals pasted into the specifier, which its handler then reads. The two
agree but for two cases (`formatField_display_eq_text_iff`): a width of zero is read as the
flag `0`, and a numeral beside a digit, another numeral or an alignment is read together with it.
-/

namespace BraceFormat

variable {H : Host} {args : Arguments H} {numbering after : Numbering} {spec : List Char}

/-! ### Specifiers that are read for text -/

/-- A specifier is read for text if it is the source of parts whose references can be supplied,
and these are legal. -/
theorem readDirective_text_iff_supplied {d : Directive} :
  readDirective .text spec args numbering = .ok (d, after) ↔
    ∃ s v : WrittenSpecifier, s.WellFormed ∧ spec = s.source ∧
      s.Supplied args numbering v after ∧
      d = s.directive (WrittenCount.numeral? v.width) (WrittenCount.numeral? v.precision) ∧
      d.check .text = .ok ()
  := by
  rw [readDirective_iff]
  constructor
  · rintro ⟨read, hread, hresolve, hcheck⟩
    obtain ⟨s, hs, rfl⟩ := Specifier.source_of_read hread
    obtain ⟨v, hv, hd⟩ := (WrittenSpecifier.resolve_iff hs).mp ⟨read, hread, hresolve⟩
    exact ⟨s, v, hs, rfl, hv, hd, hcheck⟩
  · rintro ⟨s, v, hs, rfl, hv, hd, hcheck⟩
    obtain ⟨read, hread, hresolve⟩ := (WrittenSpecifier.resolve_iff hs).mpr ⟨v, hv, hd⟩
    exact ⟨read, hread, hresolve, hcheck⟩

/-- A handler of values that write themselves reads the source of legal parts without
references. -/
theorem readTextual_iff_source {text : List Char} {d : Directive} :
  Handler.readTextual text = .ok d ↔
    ∃ v : WrittenSpecifier, v.WellFormed ∧ text = v.source ∧ v.WithoutReferences ∧
      d = v.directive (WrittenCount.numeral? v.width) (WrittenCount.numeral? v.precision) ∧
      d.check .text = .ok ()
  := by
  simp only [readTextual_iff, readDirective_text_iff_supplied,
    WrittenSpecifier.supplied_empty_iff]
  constructor
  · rintro ⟨_, s, _, hs, htext, ⟨rfl, rfl, hreferences⟩, hd, hcheck⟩
    exact ⟨_, hs, htext, hreferences, hd, hcheck⟩
  · rintro ⟨v, hv, htext, hreferences, hd, hcheck⟩
    exact ⟨_, v, v, hv, htext, ⟨rfl, rfl, hreferences⟩, hd, hcheck⟩

/-- A specifier that is legal for text has no sign and no flags. -/
theorem WrittenSpecifier.of_check_text {s : WrittenSpecifier} {width precision : Option Nat}
    (h : (s.directive width precision).check .text = .ok ()) :
  s.sign = none ∧ s.alternate = false ∧ s.zero = false
  := by
  obtain ⟨_, hsign, halternate, hzero, _⟩ := Directive.check_text_iff.mp h
  exact ⟨Option.isSome_eq_false_iff.mp hsign |> Option.isNone_iff_eq_none.mp, halternate, hzero⟩

/-! ### The two cases -/

/-- A zero that is read where the flag may stand is the flag. -/
theorem Specifier.zero_of_read {text rest : List Char} {parts : Option Char × Option Align}
    {read : Specifier} (halign : readAlign text = .ok (parts, '0' :: rest))
    (hread : Specifier.read text numbering = (.ok read, after)) :
  read.zero = true
  := by
  have hsign : readSign ('0' :: rest) = (none, '0' :: rest) := rfl
  have halternate : readFlag '#' ('0' :: rest) = (false, '0' :: rest) := rfl
  have hzero : readFlag '0' ('0' :: rest) = (true, rest) := rfl
  simp only [Specifier.read, halign, hsign, halternate, hzero] at hread
  split at hread
  · cases hread
  split at hread
  · cases hread
  split at hread
  · cases hread
  split at hread
  · cases hread
  cases hread
  rfl

/-- Looking up references leaves the flag `0` as it is written. -/
theorem Specifier.zeroWritten_of_resolve {read : Specifier} {d : Directive}
    (h : read.resolve args = .ok d) :
  d.zeroWritten = read.zero
  := by
  simp only [Specifier.resolve, bind_eq_ok_iff] at h
  obtain ⟨_, _, _, _, ⟨⟩⟩ := h
  rfl

/-- A zero supplied as the width is refused, as it is read as the flag. -/
theorem readTextual_of_zeroWidthSupplied {s v : WrittenSpecifier} {d : Directive}
    (hs : s.WellFormed) (hsupplied : s.Supplied args numbering v after)
    (hcheck : (s.directive (WrittenCount.numeral? v.width)
      (WrittenCount.numeral? v.precision)).check .text = .ok ())
    (hzero : s.ZeroWidthSupplied v) :
  Handler.readTextual v.source ≠ .ok d
  := by
  intro hread
  obtain ⟨hsign, halternate, hflag⟩ := WrittenSpecifier.of_check_text hcheck
  obtain ⟨id, _, hwidth⟩ := hzero
  have hprecision : ∀ count ∈ v.precision, count.WellFormed := by
    obtain ⟨_, _, _, _, hp, rfl⟩ := hsupplied
    apply hp.wellFormed hs.precision
  -- The rest of the text is that of a specifier with the flag and without width.
  have htail : ∀ c ∈ '0' :: (v.precisionSource ++ v.typeSource), isAlign c = false := by
    let flagged : WrittenSpecifier :=
      { zero := true, precision := v.precision, presentation := v.presentation }
    have hflagged : flagged.WellFormed := by
      constructor
      · rintro _ ⟨⟩
      · rintro _ ⟨⟩
      · rintro ⟨⟩
      · apply hprecision
    intro c hc
    apply WrittenSpecifier.isAlign_of_mem_tail hflagged hc
  have hsource : v.source = s.alignSource ++ '0' :: (v.precisionSource ++ v.typeSource) := by
    obtain ⟨_, _, _, _, _, rfl⟩ := hsupplied
    rw [WrittenSpecifier.source, WrittenSpecifier.signSource, hsign,
      WrittenSpecifier.alternateSource, halternate, WrittenSpecifier.zeroSource, hflag,
      WrittenSpecifier.widthSource, hwidth]
    rfl
  have halign := WrittenSpecifier.readAlign_append hs htail
  rw [← hsource] at halign
  obtain ⟨_, hdirective⟩ := readTextual_iff.mp hread
  obtain ⟨read, hspec, hresolve, hlegal⟩ := readDirective_iff.mp hdirective
  have hwritten := (Directive.check_text_iff.mp hlegal).2.2.2.1
  rw [Specifier.zeroWritten_of_resolve hresolve, Specifier.zero_of_read halign hspec] at hwritten
  cases hwritten

/-- A specifier that is legal for text, and whose width is no zero supplied by an argument, is
read by the handler as the field reads it. -/
theorem readTextual_of_readDirective {d : Directive}
    (h : readDirective .text spec args numbering = .ok (d, after))
    (hzero : ¬TakesZeroWidth spec args numbering) :
  ∃ parts places, Substitution.read args spec numbering = (.ok parts, after) ∧
    Handler.readTextual parts.text = .ok { d with places }
  := by
  obtain ⟨s, v, hs, rfl, hsupplied, rfl, hcheck⟩ := readDirective_text_iff_supplied.mp h
  rw [WrittenSpecifier.takesZeroWidth_iff hs hsupplied] at hzero
  obtain ⟨parts, hread, htext⟩ := Substitution.exists_read_iff.mpr (hsupplied.pastes hs)
  refine ⟨parts, v.places, hread, ?_⟩
  rw [htext, readTextual_iff_source]
  refine ⟨v, hsupplied.wellFormed hs fun _ => hzero, rfl, hsupplied.withoutReferences,
    (hsupplied.directive_eq _ _).symm, Directive.check_of_places _ hcheck⟩

/-- A zero supplied as the width is not read by the handler. -/
theorem takesZeroWidth_not_readTextual {d d' : Directive} {parts : Substitution}
    {after' : Numbering} (h : readDirective .text spec args numbering = .ok (d, after))
    (hzero : TakesZeroWidth spec args numbering)
    (hread : Substitution.read args spec numbering = (.ok parts, after')) :
  Handler.readTextual parts.text ≠ .ok d'
  := by
  obtain ⟨s, v, hs, rfl, hsupplied, rfl, hcheck⟩ := readDirective_text_iff_supplied.mp h
  rw [WrittenSpecifier.takesZeroWidth_iff hs hsupplied] at hzero
  obtain ⟨parts', hread', htext⟩ := Substitution.exists_read_iff.mpr (hsupplied.pastes hs)
  rw [hread] at hread'
  cases hread'
  rw [htext]
  apply readTextual_of_zeroWidthSupplied hs hsupplied hcheck hzero

/-- The references of a specifier that is legal for text stand apart. -/
theorem standsApart_of_readDirective {d : Directive}
    (h : readDirective .text spec args numbering = .ok (d, after)) :
  StandsApart spec
  := by
  obtain ⟨s, v, hs, rfl, _, rfl, hcheck⟩ := readDirective_text_iff_supplied.mp h
  apply WrittenSpecifier.standsApart_source hs
  apply (WrittenSpecifier.of_check_text hcheck).2.2

/-- What the handler reads is legal for text with the references looked up, if these stand
apart. -/
theorem readDirective_of_readTextual {d : Directive} {parts : Substitution}
    (hread : Substitution.read args spec numbering = (.ok parts, after))
    (h : Handler.readTextual parts.text = .ok d) (hapart : StandsApart spec) :
  ∃ places, readDirective .text spec args numbering = .ok ({ d with places }, after)
  := by
  obtain ⟨v, hv, htext, hreferences, rfl, hcheck⟩ := readTextual_iff_source.mp h
  have hpastes : Pastes args numbering spec v.source after :=
    Substitution.exists_read_iff.mp ⟨parts, hread, htext⟩
  obtain ⟨s, hs, rfl, hsupplied⟩ := WrittenSpecifier.exists_supplied_of_pastes hv hreferences
    (WrittenSpecifier.of_check_text hcheck).2.2 hapart hpastes
  refine ⟨s.places, ?_⟩
  rw [hsupplied.directive_eq] at hcheck ⊢
  apply readDirective_text_iff_supplied.mpr
  exact ⟨s, v, hs, rfl, hsupplied, rfl, Directive.check_of_places s.places hcheck⟩

/-! ### Fields -/

/-- The specifier is legal for text, and its width is a zero that an argument supplies. -/
def MistakesWidth (spec : List Char) (args : Arguments H) (numbering : Numbering) : Prop :=
  (∃ d after, readDirective .text spec args numbering = .ok (d, after)) ∧
    TakesZeroWidth spec args numbering

/-- The text that numerals are pasted into is legal for a value that writes itself, and a numeral
stands beside a character that it is read together with. -/
def MistakesNumeral (spec : List Char) (args : Arguments H) (numbering : Numbering) : Prop :=
  (∃ parts d after, Substitution.read args spec numbering = (.ok parts, after) ∧
    Handler.readTextual parts.text = .ok d) ∧ ¬StandsApart spec

/-- A field of a value that writes a text, in whatever chunks, and a field of the text with the
same specifier succeed together, with the same output and the same numbering, unless a width of
zero is mistaken for the flag `0` or a numeral for a fill or a part of another number. -/
theorem formatField_display_eq_text_iff {value : H.Value} {writer : H.Value → Writer H}
    {text : List Char} (hwriter : (writer value).Writes text) (spec : List Char)
    (args : Arguments H) (locale : Locale) (numbering : Numbering) (world : World H) :
  (formatField (.custom value (Handler.display writer)) spec args locale numbering
      world).success? =
    (formatField (.text text) spec args locale numbering world).success? ↔
  ¬MistakesWidth spec args numbering ∧ ¬MistakesNumeral spec args numbering
  := by
  constructor
  · intro h
    constructor
    · rintro ⟨⟨d, after, hd⟩, hzero⟩
      have hsuccess : (formatField (.text text) spec args locale numbering world).success? =
          some _ := success?_formatField_text_iff.mpr ⟨d, after, hd, rfl⟩
      rw [← h] at hsuccess
      obtain ⟨parts, d', after', hread, htextual, _⟩ :=
        (success?_formatField_display_iff hwriter).mp hsuccess
      apply takesZeroWidth_not_readTextual hd hzero hread htextual
    · rintro ⟨⟨parts, d, after, hread, htextual⟩, hapart⟩
      have hsuccess : (formatField (.custom value (Handler.display writer)) spec args locale
          numbering world).success? = some _ :=
        (success?_formatField_display_iff hwriter).mpr ⟨parts, d, after, hread, htextual, rfl⟩
      rw [h] at hsuccess
      obtain ⟨d', after', hd, _⟩ := success?_formatField_text_iff.mp hsuccess
      apply hapart (standsApart_of_readDirective hd)
  · rintro ⟨hwidth, hnumeral⟩
    apply Option.ext
    intro result
    rw [success?_formatField_display_iff hwriter, success?_formatField_text_iff]
    constructor
    · rintro ⟨parts, d, after, hread, htextual, rfl⟩
      have hapart : StandsApart spec := by
        by_contra hapart
        apply hnumeral ⟨⟨parts, d, after, hread, htextual⟩, hapart⟩
      obtain ⟨places, hd⟩ := readDirective_of_readTextual hread htextual hapart
      exact ⟨_, after, hd, rfl⟩
    · rintro ⟨d, after, hd, rfl⟩
      have hzero : ¬TakesZeroWidth spec args numbering := by
        intro hzero
        apply hwidth ⟨⟨d, after, hd⟩, hzero⟩
      obtain ⟨parts, places, hread, htextual⟩ := readTextual_of_readDirective hd hzero
      exact ⟨parts, _, after, hread, htextual, rfl⟩

/-- A width of three for a text written in two chunks. -/
theorem formatField_display_width_three :
  let writer : Unit → Writer ⟨Unit, Unit⟩ := fun _ world => ⟨[['a'], ['b']], false, world⟩
  let args : Arguments ⟨Unit, Unit⟩ := .ofList [.custom () (Handler.display writer), .int32 3]
  (writer ()).Writes ['a', 'b'] ∧
    (formatField (.custom () (Handler.display writer)) ['{', '}'] args .c (.automatic 1)
        ⟨none, ()⟩).success? =
      (formatField (.text ['a', 'b']) ['{', '}'] args .c (.automatic 1) ⟨none, ()⟩).success?
  := by
  intro writer args
  have hwriter : (writer ()).Writes ['a', 'b'] := fun _ => ⟨rfl, rfl⟩
  refine ⟨hwriter, (formatField_display_eq_text_iff hwriter _ _ _ _ _).mpr ⟨?_, ?_⟩⟩
  · rintro ⟨_, read, reference, place, hread, hwidth, hzero⟩
    have hspec : (Specifier.read ['{', '}'] (.automatic 1)).1 =
      .ok { width := some (.argument (.index 1) 0), places := ⟨0, 0, 0, 0, 2, 2⟩ } := rfl
    rw [hspec] at hread
    cases hread
    cases hwidth
    have hthree : args.count? (.index 1) = some 3 := rfl
    rw [hthree] at hzero
    cases hzero
  · rintro ⟨_, hapart⟩
    apply hapart
    decide

/-- A width of zero for the same text. -/
theorem formatField_display_ne_text :
  let writer : Unit → Writer ⟨Unit, Unit⟩ := fun _ world => ⟨[['a'], ['b']], false, world⟩
  let args : Arguments ⟨Unit, Unit⟩ := .ofList [.custom () (Handler.display writer), .int32 0]
  (writer ()).Writes ['a', 'b'] ∧
    (formatField (.custom () (Handler.display writer)) ['{', '}'] args .c (.automatic 1)
        ⟨none, ()⟩).success? ≠
      (formatField (.text ['a', 'b']) ['{', '}'] args .c (.automatic 1) ⟨none, ()⟩).success?
  := by
  intro writer args
  have hwriter : (writer ()).Writes ['a', 'b'] := fun _ => ⟨rfl, rfl⟩
  refine ⟨hwriter, fun h => ?_⟩
  have hdirective : readDirective .text ['{', '}'] args (.automatic 1) = .ok (_, _) := rfl
  have htext : (formatField (.text ['a', 'b']) ['{', '}'] args .c (.automatic 1)
      ⟨none, ()⟩).success? = some _ :=
    success?_formatField_text_iff.mpr ⟨_, _, hdirective, rfl⟩
  rw [← h] at htext
  obtain ⟨parts, d, after, hread, htextual, _⟩ :=
    (success?_formatField_display_iff hwriter).mp htext
  apply takesZeroWidth_not_readTextual hdirective _ hread htextual
  exact ⟨_, _, _, rfl, rfl, rfl⟩

end BraceFormat
