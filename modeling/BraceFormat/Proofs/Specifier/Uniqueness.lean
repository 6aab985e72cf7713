import BraceFormat.Proofs.Numbering
import BraceFormat.Proofs.Specifier.Supplied
import Mathlib.Tactic.Use

/-!
# The language of specifiers

A text is read as a specifier just if it is written as one, and it is written in one way only
(`Specifier.read_iff_wellFormed`). That the parts of a text are determined by it is seen by
reading them one after another: each part is what its reader finds in front of the rest, and
the rest is what is left to the next one.
-/

namespace BraceFormat

/-! ### Counts -/

namespace WrittenCount

/-- A number, written without leading zeros. -/
def ofNat (n : Nat) : WrittenCount := .digits (Nat.toDigits 10 n)

/-- A number can be written up to the limit. -/
theorem wellFormed_ofNat_iff {n : Nat} :
  (ofNat n).WellFormed ↔ n ≤ countLimit
  := by
  obtain ⟨c, digits, hn, _⟩ := numeral_eq_cons n
  have hne : Nat.toDigits 10 n ≠ [] := by
    rw [hn]
    apply List.cons_ne_nil
  rw [ofNat, WellFormed, Nat.ofDigitChars_ten_toDigits]
  constructor
  · rintro ⟨_, _, hlimit⟩
    apply hlimit
  · intro hlimit
    exact ⟨hne, fun _ => isDigit_of_mem_numeral, hlimit⟩

/-- Only the numeral of zero begins with a zero. -/
theorem stops_ofNat_iff {n : Nat} :
  Stops (· = '0') (ofNat n).source ↔ n ≠ 0
  := by
  obtain ⟨c, digits, hn, _, hzero⟩ := numeral_eq_cons n
  rw [ofNat, source, hn]
  constructor
  · rintro hstops rfl
    rw [Nat.toDigits_zero, List.cons.injEq] at hn
    have := hstops c rfl
    rw [← hn.1] at this
    cases this
  · intro hne
    apply Stops.cons
    apply decide_eq_false
    intro hc
    apply hne (hzero hc)

/-- A number stands for itself. -/
theorem number_ofNat (place n : Nat) (numbering : Numbering) :
  (ofNat n).number place numbering = .ok (.literal n, numbering)
  := by
  rw [ofNat, number, Nat.ofDigitChars_ten_toDigits]

/-- Only a reference in conflict with the numbering cannot be numbered. -/
theorem eq_indexingConflict_of_number? {place : Nat} {numbering : Numbering}
    {count : Option WrittenCount} {kind : ErrorKind}
    (h : number? place numbering count = .error kind) :
  kind = .indexingConflict
  := by
  rcases count with _ | (text | id)
  · cases h
  · cases h
  · rw [number?, number] at h
    rcases hid : numbering.resolve id with kind' | _
    · rw [hid] at h
      cases h
      apply Numbering.eq_indexingConflict_of_resolve hid
    · rw [hid] at h
      cases h

/-- Where nothing has been numbered yet, every count can be. -/
theorem exists_number?_undecided (place : Nat) (count : Option WrittenCount) :
  ∃ numbered, number? place .undecided count = .ok numbered
  := by
  rcases count with _ | (text | id)
  · exact ⟨_, rfl⟩
  · exact ⟨_, rfl⟩
  · cases id <;> exact ⟨_, rfl⟩

/-- A count is determined by its text. -/
theorem source?_injective {w w' : Option WrittenCount} (hw : ∀ count ∈ w, count.WellFormed)
    (hw' : ∀ count ∈ w', count.WellFormed) (h : source? w = source? w') :
  w = w'
  := by
  have hdigits {text : List Char} (htext : (digits text).WellFormed) (id : ArgId) :
      text ≠ '{' :: id.source ++ ['}'] := by
    rintro rfl
    have := htext.2.1 '{' (.head _)
    cases this
  rcases w with _ | (text | id)
  · rcases w' with _ | (text' | id')
    · rfl
    · cases (hw' _ rfl).1 h.symm
    · cases h
  · rcases w' with _ | (text' | id')
    · cases (hw _ rfl).1 h
    · rw [show text = text' from h]
    · cases hdigits (hw _ rfl) id' h
  · rcases w' with _ | (text' | id')
    · cases h
    · cases hdigits (hw' _ rfl) id h.symm
    · have hsource : id.source ++ ['}'] = id'.source ++ ['}'] := (List.cons.inj h).2
      have hread := ArgId.readClosed_source (hw _ rfl) []
      rw [hsource, ArgId.readClosed_source (hw' _ rfl)] at hread
      cases hread
      rfl

end WrittenCount

namespace WrittenSpecifier

variable {s s' : WrittenSpecifier}

open Specifier

/-- What follows a count is determined by the whole text. -/
theorem rest_eq_of_countOutcome {place : Nat} {w w' : Option WrittenCount}
    {rest rest' : List Char}
    (h : countOutcome place w rest .undecided = countOutcome place w' rest' .undecided) :
  rest = rest'
  := by
  obtain ⟨⟨count, after⟩, hw⟩ := WrittenCount.exists_number?_undecided place w
  obtain ⟨⟨count', after'⟩, hw'⟩ := WrittenCount.exists_number?_undecided place w'
  rw [countOutcome, countOutcome, hw, hw'] at h
  cases h
  rfl

/-- The width, and what follows it, is determined by the text of both. -/
theorem width_eq_of_append (hs : s.WellFormed) (hs' : s'.WellFormed)
    (h : s.widthSource ++ (s.precisionSource ++ s.typeSource) =
      s'.widthSource ++ (s'.precisionSource ++ s'.typeSource)) :
  s.width = s'.width ∧ s.precisionSource ++ s.typeSource = s'.precisionSource ++ s'.typeSource
  := by
  have hread := readWidth_source hs 0 .undecided
  rw [h, readWidth_source hs'] at hread
  have hrest := rest_eq_of_countOutcome hread.symm
  rw [hrest] at h
  exact ⟨WrittenCount.source?_injective hs.width hs'.width (List.append_cancel_right h), hrest⟩

/-- The precision, and the type behind it, is determined by the text of both. -/
theorem precision_eq_of_append (hs : s.WellFormed) (hs' : s'.WellFormed)
    (h : s.precisionSource ++ s.typeSource = s'.precisionSource ++ s'.typeSource) :
  s.precision = s'.precision ∧ s.presentation = s'.presentation
  := by
  have hread := WrittenSpecifier.readPrecision_source hs 0 .undecided
  rw [h, WrittenSpecifier.readPrecision_source hs'] at hread
  have htype := rest_eq_of_countOutcome hread.symm
  rw [htype] at h
  have hprecision := List.append_cancel_right h
  constructor
  · apply WrittenCount.source?_injective hs.precision hs'.precision
    rw [precisionSource, precisionSource] at hprecision
    generalize s.precision = count at hprecision ⊢
    generalize s'.precision = count' at hprecision ⊢
    rcases count with _ | count
    · rcases count' with _ | count'
      · rfl
      · cases hprecision
    · rcases count' with _ | count'
      · cases hprecision
      · apply (List.cons.inj hprecision).2
  · have hpresentation := readPresentation_source (s := s) 0
    rw [htype, readPresentation_source, Except.ok.injEq] at hpresentation
    apply hpresentation.symm

/-- The parts of a specifier are determined by its text. -/
theorem eq_of_source_eq (hs : s.WellFormed) (hs' : s'.WellFormed) (h : s.source = s'.source) :
  s = s'
  := by
  have halign := readAlign_source hs
  rw [h, readAlign_source hs', Except.ok.injEq, Prod.mk.injEq, Prod.mk.injEq] at halign
  obtain ⟨⟨hfill, halign⟩, hsign⟩ := halign
  have hread := readSign_source hs
  rw [← hsign, readSign_source hs', Prod.mk.injEq] at hread
  obtain ⟨hsign, halternate⟩ := hread
  have hread := readAlternate_source hs
  rw [← halternate, readAlternate_source hs', Prod.mk.injEq] at hread
  obtain ⟨halternate, hzero⟩ := hread
  have hread := readZero_source hs
  rw [← hzero, readZero_source hs', Prod.mk.injEq] at hread
  obtain ⟨hzero, hwidth⟩ := hread
  obtain ⟨hwidth, hprecision⟩ := width_eq_of_append hs hs' hwidth.symm
  obtain ⟨hprecision, hpresentation⟩ := precision_eq_of_append hs hs' hprecision
  rw [WrittenSpecifier.mk.injEq]
  exact ⟨hfill.symm, halign.symm, hsign.symm, halternate.symm, hzero.symm, hwidth, hprecision,
    hpresentation⟩

/-- A character in front of an alignment is the fill. -/
theorem fill_eq_of_source (hs : s.WellFormed) {c : Char} {align : Align} {rest : List Char}
    (h : s.source = c :: align.letter :: rest) :
  s.fill = some c ∧ s.align = some align
  := by
  have hletter : Align.ofChar? align.letter = some align := Align.ofChar?_eq_some_iff.mpr rfl
  have hread := readAlign_source hs
  rw [h] at hread
  simp only [readAlign, List.head?_cons, Option.bind_some, hletter] at hread
  split at hread
  · cases hread
  · simp only [Except.ok.injEq, Prod.mk.injEq] at hread
    exact ⟨hread.1.1.symm, hread.1.2.symm⟩

/-- A zero where the flag may stand is the flag. -/
theorem zero_eq_of_source (hs : s.WellFormed) {rest : List Char}
    (h : s.source = s.alignSource ++ (s.signSource ++ (s.alternateSource ++ '0' :: rest))) :
  s.zero = true
  := by
  rw [source, List.append_cancel_left_eq, List.append_cancel_left_eq,
    List.append_cancel_left_eq] at h
  have hread := readZero_source hs
  rw [h, readFlag_self, Prod.mk.injEq] at hread
  exact hread.1.symm

/-- The specifier that the parts stand for when their references are numbered, the width
first. -/
def NumberedAs (s : WrittenSpecifier) (numbering : Numbering) (spec : Specifier)
    (after : Numbering) : Prop :=
  ∃ width precision next,
    WrittenCount.number? s.widthPlace numbering s.width = .ok (width, next) ∧
    WrittenCount.number? (s.precisionPlace + 1) next s.precision = .ok (precision, after) ∧
    spec = s.specifier width precision

/-- Parts that cannot be numbered have a reference in conflict with the numbering. -/
theorem exists_numberedAs (numbering : Numbering)
    (h : ∀ place, (s.numbered numbering).1 ≠ .error (.located .indexingConflict place)) :
  ∃ spec after, s.NumberedAs numbering spec after
  := by
  rcases hnumbered : s.numbered numbering with ⟨e | spec, after⟩
  · rw [hnumbered] at h
    rw [numbered] at hnumbered
    split at hnumbered
    · next hwidth =>
      cases hnumbered
      cases h _ (by rw [WrittenCount.eq_indexingConflict_of_number? hwidth])
    · split at hnumbered
      · next hprecision =>
        cases hnumbered
        cases h _ (by rw [WrittenCount.eq_indexingConflict_of_number? hprecision])
      · cases hnumbered
  · exact ⟨spec, after, numbered_iff.mp hnumbered⟩

end WrittenSpecifier

/-! ### Texts -/

/-- Unless a reference is in conflict with the numbering, a text is read as a specifier just
if it is the text of parts that can stand together. The parts are then determined by the text:
a character in front of an alignment is the fill, and a zero where the flag may stand is the
flag. What is read has these parts, with the references numbered from left to right, and
whatever such parts are written, they are read back. A number is written by its numeral, which
begins with a zero for zero only. -/
theorem Specifier.read_iff_wellFormed (text : List Char) (numbering : Numbering) :
  ((∀ place, (read text numbering).1 ≠ .error (.located .indexingConflict place)) →
    ((∃ spec, (read text numbering).1 = .ok spec) ↔
      ∃ s : WrittenSpecifier, s.WellFormed ∧ text = s.source)) ∧
  (∀ s : WrittenSpecifier, s.WellFormed → text = s.source →
    (∀ s' : WrittenSpecifier, s'.WellFormed → text = s'.source → s' = s) ∧
    (∀ c align rest, text = c :: Align.letter align :: rest →
      s.fill = some c ∧ s.align = some align) ∧
    (∀ rest, text = s.alignSource ++ (s.signSource ++ (s.alternateSource ++ '0' :: rest)) →
      s.zero = true) ∧
    ∀ spec after, read text numbering = (.ok spec, after) ↔ s.NumberedAs numbering spec after) ∧
  (∀ n place, ((WrittenCount.ofNat n).WellFormed ↔ n ≤ countLimit) ∧
    (Stops (· = '0') (WrittenCount.ofNat n).source ↔ n ≠ 0) ∧
    (WrittenCount.ofNat n).number place numbering = .ok (.literal n, numbering))
  := by
  refine ⟨fun hconflict => ⟨?_, ?_⟩, fun s hs htext => ⟨?_, ?_, ?_, ?_⟩, fun n place => ?_⟩
  · rintro ⟨spec, hspec⟩
    apply source_of_read (Prod.ext hspec rfl)
  · rintro ⟨s, hs, rfl⟩
    rw [WrittenSpecifier.read_source hs] at hconflict ⊢
    obtain ⟨spec, after, hnumbered⟩ := WrittenSpecifier.exists_numberedAs numbering hconflict
    use spec
    rw [WrittenSpecifier.numbered_iff.mpr hnumbered]
  · intro s' hs' htext'
    apply WrittenSpecifier.eq_of_source_eq hs' hs
    rw [← htext, htext']
  · intro c align rest h
    apply WrittenSpecifier.fill_eq_of_source hs (htext.symm.trans h)
  · intro rest h
    apply WrittenSpecifier.zero_eq_of_source hs (htext.symm.trans h)
  · intro spec after
    rw [htext, WrittenSpecifier.read_source hs]
    apply WrittenSpecifier.numbered_iff
  · exact ⟨WrittenCount.wellFormed_ofNat_iff, WrittenCount.stops_ofNat_iff,
      WrittenCount.number_ofNat place n numbering⟩

/-- An asterisk in front of an alignment, a width that is the next argument and a precision
that is a number. -/
theorem Specifier.read_iff_wellFormed_center :
  let text := ['*', '^', '{', '}', '.', '3', 'x']
  let s : WrittenSpecifier :=
    { fill := some '*', align := some .center, width := some (.reference .auto),
      precision := some (.digits ['3']), presentation := some .hex }
  s.WellFormed ∧ text = s.source ∧ (∃ spec, (read text (.automatic 1)).1 = .ok spec) ∧
    (∀ s' : WrittenSpecifier, s'.WellFormed → text = s'.source → s' = s) ∧
    s.NumberedAs (.automatic 1)
      (s.specifier (some (.argument (.index 1) 2)) (some (.literal 3))) (.automatic 2)
  := by
  intro text s
  have hs : s.WellFormed := by
    refine ⟨?_, ?_, ?_, ?_⟩
    · rintro _ ⟨⟩
      exact ⟨by decide, by decide, nofun, rfl⟩
    · rintro _ ⟨⟩
      trivial
    · rintro _ _ ⟨⟩
      rfl
    · rintro _ ⟨⟩
      exact ⟨List.cons_ne_nil _ _, List.forall_mem_singleton.mpr rfl, by decide⟩
  have hread : read text (.automatic 1) =
    (.ok (s.specifier (some (.argument (.index 1) 2)) (some (.literal 3))), .automatic 2) := rfl
  have hconflict : ∀ place,
      (read text (.automatic 1)).1 ≠ .error (.located .indexingConflict place) := by
    intro place h
    rw [hread] at h
    cases h
  obtain ⟨haccepts, hparts, _⟩ := Specifier.read_iff_wellFormed text (.automatic 1)
  obtain ⟨hunique, _, _, hnumbered⟩ := hparts s hs rfl
  exact ⟨hs, rfl, (haccepts hconflict).mpr ⟨s, hs, rfl⟩, hunique, (hnumbered _ _).mp hread⟩

end BraceFormat
