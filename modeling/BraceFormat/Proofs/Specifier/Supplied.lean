import BraceFormat.Directive
import BraceFormat.Proofs.Specifier.Reading
import Mathlib.Tactic.Use

/-!
# Supplying the counts of a specifier

Looking up the references of a specifier comes to writing it anew, with the numerals of their
arguments in the place of the references: the directive is the one that the specifier without
references stands for, but for the places (`WrittenSpecifier.resolve_iff`).
-/

namespace BraceFormat

variable {H : Host}

namespace WrittenCount

/-- A count becomes another one when its reference, read from one numbering, is replaced by the
numeral of its argument; it leaves another numbering. -/
inductive Supplied (args : Arguments H) :
    Numbering → Option WrittenCount → Option WrittenCount → Numbering → Prop
  | none {numbering : Numbering} : Supplied args numbering none none numbering
  | digits {text : List Char} {numbering : Numbering} :
      Supplied args numbering (some (.digits text)) (some (.digits text)) numbering
  | reference {id : ArgId} {reference : Reference} {n : Nat} {numbering after : Numbering}
      (hresolve : numbering.resolve id = .ok (reference, after))
      (hcount : args.count? reference = some n) :
      Supplied args numbering (some (.reference id)) (some (.digits (Nat.toDigits 10 n))) after

/-- The number of a count that is written in digits. -/
def numeral? : Option WrittenCount → Option Nat
  | some (.digits text) => some (Nat.ofDigitChars 10 text 0)
  | _ => none

/-- What is supplied is no reference. -/
theorem Supplied.ne_reference {args : Arguments H} {numbering after : Numbering}
    {written supplied : Option WrittenCount} (h : Supplied args numbering written supplied after)
    (id : ArgId) :
  supplied ≠ some (.reference id)
  := by
  cases h <;> rintro ⟨⟩

/-- A count that is no reference remains as it is. -/
theorem Supplied.of_ne_reference {args : Arguments H} {numbering : Numbering}
    {count : Option WrittenCount} (h : ∀ id, count ≠ some (.reference id)) :
  Supplied args numbering count count numbering
  := by
  rcases count with _ | (text | id)
  · apply none
  · apply digits
  · cases h id rfl

/-- Where there is no argument, nothing can be supplied for a reference. -/
theorem Supplied.eq_of_empty {numbering after : Numbering} {written supplied : Option WrittenCount}
    (h : Supplied (Arguments.empty (H := H)) numbering written supplied after) :
  supplied = written ∧ after = numbering
  := by
  cases h with
  | none => exact ⟨rfl, rfl⟩
  | digits => exact ⟨rfl, rfl⟩
  | @reference _ reference _ _ _ _ hcount => cases reference <;> cases hcount

/-- A numeral that is supplied can be written. -/
theorem Supplied.wellFormed {args : Arguments H} {numbering after : Numbering}
    {written supplied : Option WrittenCount} (h : Supplied args numbering written supplied after)
    (hwritten : ∀ count ∈ written, count.WellFormed) :
  ∀ count ∈ supplied, count.WellFormed
  := by
  cases h with
  | none => apply hwritten
  | digits => apply hwritten
  | @reference _ _ n _ _ _ hcount =>
    obtain ⟨c, digits, hn, _⟩ := numeral_eq_cons n
    obtain ⟨_, hlimit⟩ := Option.filter_eq_some_iff.mp hcount
    rintro _ ⟨⟩
    refine ⟨?_, fun c hc => isDigit_of_mem_numeral hc, ?_⟩
    · rw [hn]
      apply List.cons_ne_nil
    · rw [Nat.ofDigitChars_ten_toDigits]
      simpa using hlimit

/-- A count is numbered and looked up just if a numeral can be supplied for it. -/
theorem exists_number_iff {args : Arguments H} {place : Nat} {numbering after : Numbering}
    {written : Option WrittenCount} {n : Option Nat} :
  (∃ count, number? place numbering written = .ok (count, after) ∧
      Count.resolve? args count = .ok n) ↔
    ∃ supplied, Supplied args numbering written supplied after ∧ n = numeral? supplied
  := by
  constructor
  · rintro ⟨count, hnumber, hresolve⟩
    rcases written with _ | (text | id)
    · cases hnumber
      cases hresolve
      exact ⟨none, .none, rfl⟩
    · cases hnumber
      cases hresolve
      exact ⟨_, .digits, rfl⟩
    · rcases hid : numbering.resolve id with kind | ⟨reference, next⟩
      · rw [number?, number, hid] at hnumber
        cases hnumber
      · rw [number?, number, hid] at hnumber
        cases hnumber
        rw [Count.resolve?, Count.resolve] at hresolve
        rcases hcount : args.count? reference with _ | m
        · rw [hcount] at hresolve
          cases hresolve
        · rw [hcount] at hresolve
          cases hresolve
          refine ⟨_, .reference hid hcount, ?_⟩
          rw [numeral?, Nat.ofDigitChars_ten_toDigits]
  · rintro ⟨supplied, hsupplied, rfl⟩
    cases hsupplied with
    | none => exact ⟨none, rfl, rfl⟩
    | digits => exact ⟨_, rfl, rfl⟩
    | @reference id reference n numbering after hid hcount =>
      refine ⟨some (.argument reference place), ?_, ?_⟩
      · rw [number?, number, hid]
        rfl
      · rw [Count.resolve?, Count.resolve, hcount, numeral?, Nat.ofDigitChars_ten_toDigits]
        rfl

end WrittenCount

namespace WrittenSpecifier

variable {args : Arguments H} {s v : WrittenSpecifier} {numbering after : Numbering}

/-- A specifier becomes another one when its references are replaced by the numerals of their
arguments, the width first. -/
def Supplied (args : Arguments H) (numbering : Numbering) (s v : WrittenSpecifier)
    (after : Numbering) : Prop :=
  ∃ width precision next, WrittenCount.Supplied args numbering s.width width next ∧
    WrittenCount.Supplied args next s.precision precision after ∧
    v = { s with width, precision }

/-- The directive of a specifier with given counts. -/
def directive (s : WrittenSpecifier) (width precision : Option Nat) : Directive :=
  let zeroPad := s.zero && s.align.isNone
  { fill := if zeroPad then '0' else s.fill.getD ' '
    align := if zeroPad then some .numeric else s.align
    sign := s.sign.getD .minus
    alternate := s.alternate
    zeroPad
    width := width.getD 0
    precision
    presentation := s.presentation
    signWritten := s.sign.isSome
    zeroWritten := s.zero
    places := s.places }

theorem numbered_iff {spec : Specifier} :
  s.numbered numbering = (.ok spec, after) ↔
    ∃ width precision next,
      WrittenCount.number? s.widthPlace numbering s.width = .ok (width, next) ∧
      WrittenCount.number? (s.precisionPlace + 1) next s.precision = .ok (precision, after) ∧
      spec = s.specifier width precision
  := by
  rw [numbered]
  constructor
  · intro h
    split at h
    · cases h
    next width next hwidth =>
    split at h
    · cases h
    next precision after hprecision =>
    cases h
    exact ⟨width, precision, next, hwidth, hprecision, rfl⟩
  · rintro ⟨width, precision, next, hwidth, hprecision, rfl⟩
    simp only [hwidth, hprecision]

theorem resolve_specifier_iff {width precision : Option Count} {d : Directive} :
  (s.specifier width precision).resolve args = .ok d ↔
    ∃ m n, Count.resolve? args width = .ok m ∧ Count.resolve? args precision = .ok n ∧
      d = s.directive m n
  := by
  rw [Specifier.resolve]
  change (do
    let m ← Count.resolve? args width
    let n ← Count.resolve? args precision
    Except.ok (s.directive m n)) = Except.ok d ↔ _
  rcases Count.resolve? args width with e | m
  · constructor
    · rintro ⟨⟩
    · rintro ⟨_, _, ⟨⟩, _⟩
  · rcases Count.resolve? args precision with e | n
    · constructor
      · rintro ⟨⟩
      · rintro ⟨_, _, _, ⟨⟩, _⟩
    · constructor
      · rintro ⟨⟩
        exact ⟨m, n, rfl, rfl, rfl⟩
      · rintro ⟨_, _, ⟨⟩, ⟨⟩, rfl⟩
        rfl

/-- Well-formed parts are read, numbered and looked up just if numerals can be supplied for
their references; the directive is that of the parts with the numerals. -/
theorem resolve_iff (hs : s.WellFormed) {d : Directive} :
  (∃ spec, Specifier.read s.source numbering = (.ok spec, after) ∧
      spec.resolve args = .ok d) ↔
    ∃ v, s.Supplied args numbering v after ∧
      d = s.directive (WrittenCount.numeral? v.width) (WrittenCount.numeral? v.precision)
  := by
  simp only [read_source hs, numbered_iff]
  constructor
  · rintro ⟨_, ⟨width, precision, next, hwidth, hprecision, rfl⟩, hresolve⟩
    obtain ⟨m, n, hm, hn, rfl⟩ := resolve_specifier_iff.mp hresolve
    obtain ⟨width', hwidth', rfl⟩ := WrittenCount.exists_number_iff.mp ⟨_, hwidth, hm⟩
    obtain ⟨precision', hprecision', rfl⟩ :=
      WrittenCount.exists_number_iff.mp ⟨_, hprecision, hn⟩
    exact ⟨_, ⟨width', precision', next, hwidth', hprecision', rfl⟩, rfl⟩
  · rintro ⟨_, ⟨width', precision', next, hwidth', hprecision', rfl⟩, rfl⟩
    obtain ⟨width, hwidth, hm⟩ := WrittenCount.exists_number_iff.mpr ⟨_, hwidth', rfl⟩
    obtain ⟨precision, hprecision, hn⟩ :=
      WrittenCount.exists_number_iff.mpr ⟨_, hprecision', rfl⟩
    refine ⟨_, ⟨width, precision, next, hwidth, hprecision, rfl⟩, ?_⟩
    exact resolve_specifier_iff.mpr ⟨_, _, hm, hn, rfl⟩

/-- No count of a specifier is a reference. -/
structure WithoutReferences (v : WrittenSpecifier) : Prop where
  width : ∀ id, v.width ≠ some (.reference id)
  precision : ∀ id, v.precision ≠ some (.reference id)

/-- What is supplied has no references. -/
theorem Supplied.withoutReferences (h : s.Supplied args numbering v after) :
  v.WithoutReferences
  := by
  obtain ⟨width, precision, _, hwidth, hprecision, rfl⟩ := h
  exact ⟨hwidth.ne_reference, hprecision.ne_reference⟩

/-- Where there is no argument, only a specifier without references can be supplied, and it
remains as it is. -/
theorem supplied_empty_iff :
  s.Supplied (Arguments.empty (H := H)) numbering v after ↔
    v = s ∧ after = numbering ∧ s.WithoutReferences
  := by
  constructor
  · intro h
    have hreferences := h.withoutReferences
    obtain ⟨width, precision, next, hwidth, hprecision, rfl⟩ := h
    obtain ⟨rfl, rfl⟩ := hwidth.eq_of_empty
    obtain ⟨rfl, rfl⟩ := hprecision.eq_of_empty
    exact ⟨rfl, rfl, hreferences⟩
  · rintro ⟨rfl, rfl, hreferences⟩
    exact ⟨v.width, v.precision, after, .of_ne_reference hreferences.width,
      .of_ne_reference hreferences.precision, rfl⟩

/-- Specifiers that differ in counts only have directives that differ in the places only. -/
theorem Supplied.directive_eq (h : s.Supplied args numbering v after)
    (width precision : Option Nat) :
  v.directive width precision = { s.directive width precision with places := v.places }
  := by
  obtain ⟨_, _, _, _, _, rfl⟩ := h
  rfl

/-- The width is a reference whose argument supplies zero. -/
def ZeroWidthSupplied (s v : WrittenSpecifier) : Prop :=
  ∃ id, s.width = some (.reference id) ∧ v.width = some (.digits ['0'])

/-- What is supplied can be written, but for a zero that is then read as the flag. Behind a flag that
is written, a zero is the width. -/
theorem Supplied.wellFormed (h : s.Supplied args numbering v after) (hs : s.WellFormed)
    (hzero : s.zero = false → ¬s.ZeroWidthSupplied v) :
  v.WellFormed
  := by
  obtain ⟨width, precision, _, hwidth, hprecision, rfl⟩ := h
  constructor
  · apply hs.fill_align
  · apply hwidth.wellFormed hs.width
  · intro hz
    have hstops := hs.width_zero hz
    have hzero := hzero hz
    rw [widthSource] at hstops ⊢
    rw [ZeroWidthSupplied] at hzero
    generalize s.width = written at hwidth hstops hzero
    cases hwidth with
    | none => apply Stops.nil
    | digits => apply hstops
    | @reference id _ n =>
      obtain ⟨c, digits, hn, _, hc⟩ := numeral_eq_cons n
      rw [WrittenCount.source?, WrittenCount.source, hn]
      apply Stops.cons
      apply decide_eq_false
      intro h0
      apply hzero
      use id, rfl
      rw [hc h0]
      rfl
  · apply hprecision.wellFormed hs.precision

end WrittenSpecifier

/-- The width of a specifier is a reference whose argument supplies zero. -/
def TakesZeroWidth (spec : List Char) (args : Arguments H) (numbering : Numbering) : Prop :=
  ∃ read reference place, (Specifier.read spec numbering).1 = .ok read ∧
    read.width = some (.argument reference place) ∧ args.count? reference = some 0

theorem WrittenSpecifier.takesZeroWidth_iff {args : Arguments H} {s v : WrittenSpecifier}
    {numbering after : Numbering} (hs : s.WellFormed)
    (h : s.Supplied args numbering v after) :
  TakesZeroWidth s.source args numbering ↔ s.ZeroWidthSupplied v
  := by
  obtain ⟨width, precision, next, hwidth, hprecision, rfl⟩ := h
  obtain ⟨spec, hspec, hresolve⟩ := (resolve_iff hs).mpr
    ⟨_, ⟨width, precision, next, hwidth, hprecision, rfl⟩, rfl⟩
  rw [read_source hs] at hspec
  obtain ⟨count, _, _, hcount, _, hread⟩ := numbered_iff.mp hspec
  rw [TakesZeroWidth, read_source hs, hspec, ZeroWidthSupplied]
  constructor
  · rintro ⟨_, reference, place, ⟨⟩, hargument, hzero⟩
    rw [hread] at hargument
    change count = _ at hargument
    rw [hargument] at hcount
    generalize s.width = written at hwidth hcount
    cases hwidth with
    | none => cases hcount
    | digits => cases hcount
    | @reference id _ n _ _ hid hn =>
      rw [WrittenCount.number?, WrittenCount.number, hid] at hcount
      cases hcount
      rw [hn] at hzero
      cases hzero
      exact ⟨id, rfl, rfl⟩
  · rintro ⟨id, hid, hzero⟩
    rw [hid] at hwidth hcount
    change width = _ at hzero
    cases hwidth with
    | @reference _ reference n _ _ hresolve hn =>
      rw [WrittenCount.number?, WrittenCount.number, hresolve] at hcount
      cases hcount
      have hdigits : Nat.toDigits 10 n = ['0'] :=
        WrittenCount.digits.inj (Option.some.inj hzero)
      have hn0 : n = 0 := by
        rw [← Nat.ofDigitChars_ten_toDigits (n := n), hdigits]
        rfl
      refine ⟨spec, reference, s.widthPlace, rfl, ?_, ?_⟩
      · rw [hread]
        rfl
      · rw [hn, hn0]

end BraceFormat
