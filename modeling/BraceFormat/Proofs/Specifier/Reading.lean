import BraceFormat.Proofs.Specifier.Grammar
import Mathlib.Tactic.Use

/-!
# Reading specifiers

Each part of a specifier is read back from its text, in front of whatever the later parts may
begin with, and was written if it is read. So well-formed parts are read back from their
source (`WrittenSpecifier.read_source`), and a text that is read as a specifier is the source
of some (`Specifier.source_of_read`).
-/

namespace BraceFormat

/-! ### Sorts of characters -/

theorem Stops.append {sort : Char → Bool} {s t : List Char} (hs : Stops sort s)
    (ht : Stops sort t) :
  Stops sort (s ++ t)
  := by
  cases s with
  | nil => apply ht
  | cons c s => exact hs

theorem isAlign_iff {c : Char} :
  isAlign c = true ↔ ∃ align : Align, c = align.letter
  := by
  rw [isAlign, Option.isSome_iff_exists]
  simp only [Align.ofChar?_eq_some_iff]

theorem isSign_iff {c : Char} :
  isSign c = true ↔ ∃ sign : Sign, c = sign.letter
  := by
  rw [isSign, Option.isSome_iff_exists]
  simp only [Sign.ofChar?_eq_some_iff]

theorem isAlign_eq_false_iff {c : Char} :
  isAlign c = false ↔ Align.ofChar? c = none
  := by
  rw [isAlign, Option.isSome_eq_false_iff, Option.isNone_iff_eq_none]

/-- Letters, digits and underscores are no alignments. -/
theorem isAlign_of_isNameRest {c : Char} (h : ArgId.isNameRest c = true) :
  isAlign c = false
  := by
  rw [← Bool.not_eq_true, isAlign_iff]
  rintro ⟨align, rfl⟩
  cases align <;> revert h <;> decide

theorem isSign_of_isDigit {c : Char} (h : c.isDigit = true) :
  isSign c = false
  := by
  rw [← Bool.not_eq_true, isSign_iff]
  rintro ⟨sign, rfl⟩
  cases sign <;> revert h <;> decide

theorem ne_of_isDigit {c d : Char} (h : c.isDigit = true) (hd : d.isDigit = false) :
  decide (c = d) = false
  := by
  rw [decide_eq_false_iff_not]
  rintro rfl
  rw [h] at hd
  cases hd

/-- The type is a letter or `%`. -/
theorem Presentation.letter_isType (presentation : Presentation) :
  (presentation.letter.isAlpha || presentation.letter = '%') = true
  := by
  cases presentation <;> rfl

/-- The characters of a well-formed id are letters, digits and underscores. -/
theorem ArgId.isNameRest_of_mem_source {id : ArgId} (hid : id.WellFormed) {c : Char}
    (hc : c ∈ id.source) :
  isNameRest c = true
  := by
  cases id with
  | auto => cases hc
  | index n => apply isNameRest_of_isDigit (isDigit_of_mem_numeral hc)
  | name text =>
    obtain _ | ⟨d, name⟩ := text
    · cases hid
    · obtain ⟨hstart, hname⟩ := hid
      obtain _ | ⟨_, hc⟩ := hc
      · apply isNameRest_of_isNameStart hstart
      · apply hname c hc

namespace WrittenSpecifier

variable {s : WrittenSpecifier}

/-! ### What the parts begin with -/

theorem stops_alternateSource {sort : Char → Bool} (h : sort '#' = false) :
  Stops sort s.alternateSource
  := by
  rw [alternateSource]
  split
  · apply Stops.cons h
  · apply Stops.nil

theorem stops_zeroSource {sort : Char → Bool} (h : sort '0' = false) :
  Stops sort s.zeroSource
  := by
  rw [zeroSource]
  split
  · apply Stops.cons h
  · apply Stops.nil

theorem stops_widthSource (hs : s.WellFormed) {sort : Char → Bool}
    (hdigit : ∀ c, c.isDigit = true → sort c = false) (hbrace : sort '{' = false) :
  Stops sort s.widthSource
  := by
  have hwidth := hs.width
  rw [widthSource]
  rcases h : s.width with _ | (text | id)
  · apply Stops.nil
  · obtain ⟨hne, hdigits, _⟩ := hwidth _ h
    obtain ⟨c, text, rfl⟩ := List.exists_cons_of_ne_nil hne
    apply Stops.cons (hdigit c (hdigits c (.head _)))
  · apply Stops.cons hbrace

theorem stops_precisionSource {sort : Char → Bool} (h : sort '.' = false) :
  Stops sort s.precisionSource
  := by
  rw [precisionSource]
  split
  · apply Stops.nil
  · apply Stops.cons h

theorem stops_typeSource {sort : Char → Bool}
    (h : ∀ presentation : Presentation, sort presentation.letter = false) :
  Stops sort s.typeSource
  := by
  rw [typeSource]
  cases s.presentation with
  | none => apply Stops.nil
  | some presentation => apply Stops.cons (h presentation)

/-! ### Fill and alignment -/

theorem isAlign_of_mem_source {count : WrittenCount} (h : count.WellFormed) {c : Char}
    (hc : c ∈ count.source) :
  isAlign c = false
  := by
  cases count with
  | digits text => apply isAlign_of_isNameRest (ArgId.isNameRest_of_isDigit (h.2.1 c hc))
  | reference id =>
    rw [WrittenCount.source, List.cons_append, List.mem_cons, List.mem_append,
      List.mem_singleton] at hc
    rcases hc with rfl | hc | rfl
    · rfl
    · apply isAlign_of_isNameRest (ArgId.isNameRest_of_mem_source h hc)
    · rfl

/-- No part behind the alignment contains an alignment character. -/
theorem isAlign_of_mem_tail (hs : s.WellFormed) {c : Char}
    (hc : c ∈ s.signSource ++ (s.alternateSource ++ (s.zeroSource ++
      (s.widthSource ++ (s.precisionSource ++ s.typeSource))))) :
  isAlign c = false
  := by
  simp only [List.mem_append] at hc
  rcases hc with hc | hc | hc | hc | hc | hc
  · rw [signSource, Option.mem_toList, Option.map_eq_some_iff] at hc
    obtain ⟨sign, _, rfl⟩ := hc
    cases sign <;> rfl
  · rw [alternateSource] at hc
    split at hc
    · rw [List.mem_singleton.mp hc]
      rfl
    · cases hc
  · rw [zeroSource] at hc
    split at hc
    · rw [List.mem_singleton.mp hc]
      rfl
    · cases hc
  · rw [widthSource] at hc
    rcases h : s.width with _ | count
    · rw [h] at hc
      cases hc
    · rw [h] at hc
      apply isAlign_of_mem_source (hs.width count h) hc
  · rw [precisionSource] at hc
    split at hc
    · cases hc
    · next count h =>
      obtain _ | ⟨_, hc⟩ := hc
      · rfl
      · apply isAlign_of_mem_source (hs.precision count h) hc
  · rw [typeSource, Option.mem_toList, Option.map_eq_some_iff] at hc
    obtain ⟨presentation, _, rfl⟩ := hc
    cases presentation <;> rfl

end WrittenSpecifier

namespace Specifier

/-- Without an alignment in front, nothing is read as one. -/
theorem readAlign_none {rest : List Char} (h : ∀ c ∈ rest, isAlign c = false) :
  readAlign rest = .ok ((none, none), rest)
  := by
  cases rest with
  | nil => rfl
  | cons first rest =>
    have hfirst : Align.ofChar? first = none := isAlign_eq_false_iff.mp (h first (.head _))
    have hsecond : rest.head?.bind Align.ofChar? = none := by
      cases rest with
      | nil => rfl
      | cons second rest => exact isAlign_eq_false_iff.mp (h second (.tail _ (.head _)))
    simp only [readAlign, hfirst, hsecond]

/-- An alignment without a fill is read, in front of a text that does not begin with one. -/
theorem readAlign_letter (align : Align) {rest : List Char} (h : Stops isAlign rest) :
  readAlign (align.letter :: rest) = .ok ((none, some align), rest)
  := by
  have hfirst : Align.ofChar? align.letter = some align := Align.ofChar?_eq_some_iff.mpr rfl
  have hsecond : rest.head?.bind Align.ofChar? = none := by
    cases rest with
    | nil => rfl
    | cons second rest => exact isAlign_eq_false_iff.mp (h second rfl)
  simp only [readAlign, hfirst, hsecond]

/-- A character in front of an alignment is the fill. -/
theorem readAlign_fill {fill : Char} (align : Align) (hfill : fill ≠ '{' ∧ fill ≠ '}')
    (rest : List Char) :
  readAlign (fill :: align.letter :: rest) = .ok ((some fill, some align), rest)
  := by
  have hsecond : Align.ofChar? align.letter = some align := Align.ofChar?_eq_some_iff.mpr rfl
  simp only [readAlign, List.head?_cons, Option.bind_some, hsecond]
  rw [if_neg (not_or.mpr hfill), List.tail_cons]

/-- A fill and an alignment that are read were written. -/
theorem source_of_readAlign {text rest : List Char} {fill : Option Char} {align : Option Align}
    (h : readAlign text = .ok ((fill, align), rest)) :
  text = fill.toList ++ (align.map Align.letter).toList ++ rest ∧
    ∀ c ∈ fill, c ≠ '{' ∧ c ≠ '}' ∧ align ≠ none
  := by
  cases text with
  | nil =>
    cases h
    exact ⟨rfl, by rintro c ⟨⟩⟩
  | cons first text =>
    rw [readAlign] at h
    split at h
    · next a hsecond =>
      split at h <;> cases h
      next hbrace =>
      obtain ⟨second, hhead, hletter⟩ := Option.bind_eq_some_iff.mp hsecond
      obtain ⟨text, rfl⟩ : ∃ rest, text = second :: rest := by
        cases text <;> cases hhead
        exact ⟨_, rfl⟩
      rw [Align.ofChar?_eq_some_iff.mp hletter]
      refine ⟨rfl, ?_⟩
      rintro c ⟨⟩
      exact ⟨(not_or.mp hbrace).1, (not_or.mp hbrace).2, Option.some_ne_none a⟩
    · next hsecond =>
      clear hsecond
      split at h <;> cases h
      · next a hfirst =>
        rw [Align.ofChar?_eq_some_iff.mp hfirst]
        exact ⟨rfl, by rintro c ⟨⟩⟩
      · exact ⟨rfl, by rintro c ⟨⟩⟩

/-! ### Sign and flags -/

theorem readSign_letter (sign : Sign) (rest : List Char) :
  readSign (sign.letter :: rest) = (some sign, rest)
  := by
  have h : Sign.ofChar? sign.letter = some sign := Sign.ofChar?_eq_some_iff.mpr rfl
  simp only [readSign, h]

theorem readSign_none {rest : List Char} (h : Stops isSign rest) :
  readSign rest = (none, rest)
  := by
  cases rest with
  | nil => rfl
  | cons c rest =>
    have hc : Sign.ofChar? c = none := by
      rw [← Option.isNone_iff_eq_none, ← Option.isSome_eq_false_iff]
      apply h c rfl
    simp only [readSign, hc]

theorem source_of_readSign {text rest : List Char} {sign : Option Sign}
    (h : readSign text = (sign, rest)) :
  text = (sign.map Sign.letter).toList ++ rest
  := by
  cases text with
  | nil =>
    cases h
    rfl
  | cons c text =>
    rw [readSign] at h
    split at h <;> cases h
    · next sign hc =>
      rw [Sign.ofChar?_eq_some_iff.mp hc]
      rfl
    · rfl

theorem readFlag_self (flag : Char) (rest : List Char) :
  readFlag flag (flag :: rest) = (true, rest)
  := by
  rw [readFlag, if_pos rfl]

theorem readFlag_of_stops {flag : Char} {rest : List Char} (h : Stops (· = flag) rest) :
  readFlag flag rest = (false, rest)
  := by
  cases rest with
  | nil => rfl
  | cons c rest =>
    have hc : c ≠ flag := by simpa using h c rfl
    rw [readFlag, if_neg hc]

theorem source_of_readFlag {flag : Char} {text rest : List Char} {set : Bool}
    (h : readFlag flag text = (set, rest)) :
  text = (if set then [flag] else []) ++ rest ∧ (set = false → Stops (· = flag) rest)
  := by
  cases text with
  | nil =>
    cases h
    exact ⟨rfl, fun _ => Stops.nil⟩
  | cons c text =>
    rw [readFlag] at h
    split at h
    · next hc =>
      cases h
      rw [hc]
      exact ⟨rfl, by rintro ⟨⟩⟩
    · next hc =>
      cases h
      exact ⟨rfl, fun _ => Stops.cons (by simpa using hc)⟩

/-! ### Counts -/

/-- What reading a count at byte `place` comes to, in front of a text that follows it. -/
def countOutcome (place : Nat) (count : Option WrittenCount) (rest : List Char)
    (numbering : Numbering) : Except FormatError (Option Count × List Char) × Numbering :=
  match WrittenCount.number? place numbering count with
  | .error kind => (.error (.located kind place), numbering)
  | .ok (count, numbering) => (.ok (count, rest), numbering)

theorem readCount_none (place : Nat) {rest : List Char} (numbering : Numbering)
    (hbrace : Stops (· = '{') rest) (hdigit : Stops Char.isDigit rest) :
  readCount place rest numbering = (.ok (none, rest), numbering)
  := by
  cases rest with
  | nil => rfl
  | cons c rest =>
    have hc : c ≠ '{' := by simpa using hbrace c rfl
    rw [readCount, if_neg]
    · rw [hdigit c rfl]
      apply Bool.false_ne_true
    · apply hc

theorem readCount_digits (place : Nat) {text rest : List Char} (numbering : Numbering)
    (h : (WrittenCount.digits text).WellFormed) (hrest : Stops Char.isDigit rest) :
  readCount place (text ++ rest) numbering =
    (.ok (some (.literal (Nat.ofDigitChars 10 text 0)), rest), numbering)
  := by
  obtain ⟨hne, hdigits, hlimit⟩ := h
  obtain ⟨c, text, rfl⟩ := List.exists_cons_of_ne_nil hne
  have hc : c.isDigit = true := hdigits c (.head _)
  have htext : ∀ d ∈ text, d.isDigit = true := fun d hd => hdigits d (.tail _ hd)
  rw [List.cons_append, readCount, if_pos hc, takeWhile_append_of_stops htext hrest,
    dropWhile_append_of_stops htext hrest, if_pos hlimit]
  rintro rfl
  cases hc

theorem readCount_reference (place : Nat) {id : ArgId} (hid : id.WellFormed) (rest : List Char)
    (numbering : Numbering) :
  readCount place ((WrittenCount.reference id).source ++ rest) numbering =
    countOutcome place (some (.reference id)) rest numbering
  := by
  have hread : ArgId.readClosed (id.source ++ '}' :: rest) = .ok (id, rest) :=
    ArgId.readClosed_source hid rest
  rw [WrittenCount.source, List.cons_append, List.cons_append, List.append_assoc,
    List.singleton_append, readCount, hread, countOutcome, WrittenCount.number?,
    WrittenCount.number]
  dsimp only
  cases numbering.resolve id <;> rfl

/-- A count that may be written is read back, in front of a text that does not go on with it. -/
theorem readCount_source (place : Nat) {count : Option WrittenCount} {rest : List Char}
    (numbering : Numbering) (hcount : ∀ c ∈ count, c.WellFormed)
    (hbrace : Stops (· = '{') rest) (hdigit : Stops Char.isDigit rest) :
  readCount place (WrittenCount.source? count ++ rest) numbering =
    countOutcome place count rest numbering
  := by
  rcases count with _ | (text | id)
  · apply readCount_none place numbering hbrace hdigit
  · apply readCount_digits place numbering (hcount _ rfl) hdigit
  · apply readCount_reference place (hcount _ rfl)

/-- A count that is read was written. -/
theorem source_of_readCount {place : Nat} {text rest : List Char} {count : Option Count}
    {numbering after : Numbering}
    (h : readCount place text numbering = (.ok (count, rest), after)) :
  ∃ written : Option WrittenCount, (∀ c ∈ written, c.WellFormed) ∧
    text = WrittenCount.source? written ++ rest ∧ (written = none → count = none)
  := by
  rw [readCount.eq_def] at h
  split at h
  · cases h
    exact ⟨none, by rintro _ ⟨⟩, rfl, fun _ => rfl⟩
  · split at h
    · cases h
    · next id _ hread =>
      split at h <;> cases h
      obtain ⟨htext, hid⟩ := ArgId.source_of_readClosed hread
      refine ⟨some (.reference id), ?_, ?_, by rintro ⟨⟩⟩
      · rintro _ ⟨⟩
        apply hid
      · rw [htext]
        simp [WrittenCount.source?, WrittenCount.source]
  · next c text _ =>
    split at h
    · next hc =>
      dsimp only at h
      split at h <;> cases h
      next hlimit =>
      refine ⟨some (.digits (c :: text.takeWhile Char.isDigit)), ?_, ?_, by rintro ⟨⟩⟩
      · rintro _ ⟨⟩
        refine ⟨List.cons_ne_nil _ _, ?_, hlimit⟩
        rintro d (_ | ⟨_, hd⟩)
        · apply hc
        · apply mem_takeWhile hd
      · rw [WrittenCount.source?, WrittenCount.source, List.cons_append,
          List.takeWhile_append_dropWhile]
    · cases h
      exact ⟨none, by rintro _ ⟨⟩, rfl, fun _ => rfl⟩

/-! ### The precision and the type -/

theorem readPrecision_none (place : Nat) {rest : List Char} (numbering : Numbering)
    (h : Stops (· = '.') rest) :
  readPrecision place rest numbering = (.ok (none, rest), numbering)
  := by
  rw [readPrecision.eq_def]
  split
  · next rest =>
    have := h '.' rfl
    cases this
  · rfl

/-- A precision is read back with the point in front of it. -/
theorem readPrecision_source (place : Nat) {count : WrittenCount} {rest : List Char}
    (numbering : Numbering) (hcount : count.WellFormed) (hbrace : Stops (· = '{') rest)
    (hdigit : Stops Char.isDigit rest) :
  readPrecision place ('.' :: count.source ++ rest) numbering =
    countOutcome (place + 1) (some count) rest numbering
  := by
  have hsome : ∀ c ∈ some count, c.WellFormed := by
    rintro _ ⟨⟩
    apply hcount
  have h : readCount (place + 1) (count.source ++ rest) numbering = _ :=
    readCount_source (place + 1) numbering hsome hbrace hdigit
  rw [List.cons_append, readPrecision, h, countOutcome, WrittenCount.number?]
  cases count.number (place + 1) numbering <;> rfl

theorem source_of_readPrecision {place : Nat} {text rest : List Char} {count : Option Count}
    {numbering after : Numbering}
    (h : readPrecision place text numbering = (.ok (count, rest), after)) :
  ∃ written : Option WrittenCount, (∀ c ∈ written, c.WellFormed) ∧
    text = (match written with | none => [] | some c => '.' :: c.source) ++ rest
  := by
  rw [readPrecision.eq_def] at h
  split at h
  · next text =>
    rcases hcount : readCount (place + 1) text numbering with ⟨e | ⟨_ | c, after'⟩, numbering'⟩
    all_goals
      rw [hcount] at h
      cases h
    obtain ⟨written, hwritten, htext, hnone⟩ := source_of_readCount hcount
    cases written with
    | none => cases hnone rfl
    | some w =>
      refine ⟨some w, hwritten, ?_⟩
      rw [htext]
      rfl
  · cases h
    exact ⟨none, by rintro _ ⟨⟩, rfl⟩

theorem readPresentation_letter (place : Nat) (presentation : Presentation) :
  readPresentation place [presentation.letter] = .ok (some presentation)
  := by
  have htype := presentation.letter_isType
  have hread : Presentation.ofChar? presentation.letter = some presentation :=
    Presentation.ofChar?_eq_some_iff.mpr rfl
  rw [readPresentation, if_neg (not_not_intro htype), if_neg (not_not_intro rfl), hread]

theorem source_of_readPresentation {place : Nat} {text : List Char}
    {presentation : Option Presentation} (h : readPresentation place text = .ok presentation) :
  text = (presentation.map Presentation.letter).toList
  := by
  cases text with
  | nil =>
    cases h
    rfl
  | cons c text =>
    rw [readPresentation] at h
    split at h
    · cases h
    · split at h
      · cases h
      · next hnil =>
        split at h <;> cases h
        next hc =>
        rw [Presentation.ofChar?_eq_some_iff.mp hc, Decidable.not_not.mp hnil]
        rfl

end Specifier

/-! ### Specifiers -/

/-- What is in front of the rest of a text is as long as the place of the rest. -/
theorem place_of_append {text front rest : List Char} (h : text = front ++ rest) :
  byteLength text - byteLength rest = byteLength front
  := by
  rw [h, byteLength_append, Nat.add_sub_cancel]

namespace WrittenSpecifier

variable {s : WrittenSpecifier}

open Specifier

theorem readAlign_append (hs : s.WellFormed) {rest : List Char}
    (hrest : ∀ c ∈ rest, isAlign c = false) :
  readAlign (s.alignSource ++ rest) = .ok ((s.fill, s.align), rest)
  := by
  have hfill := hs.fill_align
  rw [alignSource]
  rcases h : s.fill with _ | fill
  · rcases s.align with _ | align
    · apply readAlign_none hrest
    · apply readAlign_letter
      intro c hc
      apply hrest c (List.mem_of_mem_head? hc)
  · obtain ⟨hopen, hclose, halign, _⟩ := hfill fill h
    obtain ⟨align, ha⟩ := Option.ne_none_iff_exists'.mp halign
    rw [ha]
    apply readAlign_fill align ⟨hopen, hclose⟩

theorem readAlign_source (hs : s.WellFormed) :
  readAlign s.source = .ok ((s.fill, s.align), s.signSource ++ (s.alternateSource ++
    (s.zeroSource ++ (s.widthSource ++ (s.precisionSource ++ s.typeSource)))))
  := readAlign_append hs fun _ => isAlign_of_mem_tail hs

theorem readSign_source (hs : s.WellFormed) :
  readSign (s.signSource ++ (s.alternateSource ++ (s.zeroSource ++ (s.widthSource ++
    (s.precisionSource ++ s.typeSource))))) = (s.sign, s.alternateSource ++ (s.zeroSource ++
      (s.widthSource ++ (s.precisionSource ++ s.typeSource))))
  := by
  rw [signSource]
  rcases s.sign with _ | sign
  · apply readSign_none
    apply (stops_alternateSource rfl).append
    apply (stops_zeroSource rfl).append
    apply (stops_widthSource hs (fun c => isSign_of_isDigit) rfl).append
    apply (stops_precisionSource rfl).append
    apply stops_typeSource
    intro presentation
    cases presentation <;> rfl
  · apply readSign_letter

theorem readAlternate_source (hs : s.WellFormed) :
  readFlag '#' (s.alternateSource ++ (s.zeroSource ++ (s.widthSource ++ (s.precisionSource ++
    s.typeSource)))) = (s.alternate, s.zeroSource ++ (s.widthSource ++ (s.precisionSource ++
      s.typeSource)))
  := by
  rw [alternateSource]
  cases s.alternate with
  | false =>
    apply readFlag_of_stops
    apply (stops_zeroSource rfl).append
    apply (stops_widthSource hs (fun c hc => ne_of_isDigit hc rfl) rfl).append
    apply (stops_precisionSource rfl).append
    apply stops_typeSource
    intro presentation
    cases presentation <;> rfl
  | true => apply readFlag_self

theorem readZero_source (hs : s.WellFormed) :
  readFlag '0' (s.zeroSource ++ (s.widthSource ++ (s.precisionSource ++ s.typeSource))) =
    (s.zero, s.widthSource ++ (s.precisionSource ++ s.typeSource))
  := by
  rw [zeroSource]
  cases h : s.zero with
  | false =>
    apply readFlag_of_stops
    apply (hs.width_zero h).append
    apply (stops_precisionSource rfl).append
    apply stops_typeSource
    intro presentation
    cases presentation <;> rfl
  | true => apply readFlag_self

theorem readWidth_source (hs : s.WellFormed) (place : Nat) (numbering : Numbering) :
  readCount place (s.widthSource ++ (s.precisionSource ++ s.typeSource)) numbering =
    countOutcome place s.width (s.precisionSource ++ s.typeSource) numbering
  := by
  apply readCount_source place numbering hs.width
  · apply (stops_precisionSource rfl).append
    apply stops_typeSource
    intro presentation
    cases presentation <;> rfl
  · apply (stops_precisionSource rfl).append
    apply stops_typeSource
    intro presentation
    cases presentation <;> rfl

theorem readPrecision_source (hs : s.WellFormed) (place : Nat) (numbering : Numbering) :
  readPrecision place (s.precisionSource ++ s.typeSource) numbering =
    countOutcome (place + 1) s.precision s.typeSource numbering
  := by
  have hprecision := hs.precision
  rw [precisionSource]
  rcases h : s.precision with _ | count
  · apply readPrecision_none
    apply stops_typeSource
    intro presentation
    cases presentation <;> rfl
  · apply Specifier.readPrecision_source place numbering (hprecision count h)
    · apply stops_typeSource
      intro presentation
      cases presentation <;> rfl
    · apply stops_typeSource
      intro presentation
      cases presentation <;> rfl

theorem readPresentation_source (place : Nat) :
  readPresentation place s.typeSource = .ok s.presentation
  := by
  rw [typeSource]
  cases s.presentation with
  | none => rfl
  | some presentation => apply readPresentation_letter

/-- Well-formed parts are read back from their source, with their counts numbered. -/
theorem read_source (hs : s.WellFormed) (numbering : Numbering) :
  Specifier.read s.source numbering = s.numbered numbering
  := by
  have hsign : byteLength s.source - byteLength (s.signSource ++ (s.alternateSource ++
      (s.zeroSource ++ (s.widthSource ++ (s.precisionSource ++ s.typeSource))))) =
      byteLength s.alignSource := place_of_append rfl
  have halternate : byteLength s.source - byteLength (s.alternateSource ++ (s.zeroSource ++
      (s.widthSource ++ (s.precisionSource ++ s.typeSource)))) =
      byteLength (s.alignSource ++ s.signSource) :=
    place_of_append (by simp only [source, List.append_assoc])
  have hzero : byteLength s.source - byteLength (s.zeroSource ++ (s.widthSource ++
      (s.precisionSource ++ s.typeSource))) =
      byteLength (s.alignSource ++ (s.signSource ++ s.alternateSource)) :=
    place_of_append (by simp only [source, List.append_assoc])
  have hwidth : byteLength s.source - byteLength (s.widthSource ++ (s.precisionSource ++
      s.typeSource)) = s.widthPlace :=
    place_of_append (by simp only [source, List.append_assoc])
  have hprecision : byteLength s.source - byteLength (s.precisionSource ++ s.typeSource) =
      s.precisionPlace := by
    rw [precisionPlace, widthPlace, ← byteLength_append]
    apply place_of_append
    simp only [source, List.append_assoc]
  have htype : byteLength s.source - byteLength s.typeSource =
      s.precisionPlace + byteLength s.precisionSource := by
    rw [precisionPlace, widthPlace, ← byteLength_append, ← byteLength_append]
    apply place_of_append
    simp only [source, List.append_assoc]
  have hfill : ¬(s.zero = true ∧ s.fill.isSome = true) := by
    rintro ⟨hz, hf⟩
    obtain ⟨fill, hfill⟩ := Option.isSome_iff_exists.mp hf
    rw [(hs.fill_align fill hfill).2.2.2] at hz
    cases hz
  simp only [Specifier.read, readAlign_source hs, readSign_source hs, readAlternate_source hs,
    readZero_source hs, hsign, halternate, hzero, hwidth, if_neg hfill, readWidth_source hs,
    numbered, countOutcome]
  rcases WrittenCount.number? s.widthPlace numbering s.width with kind | ⟨width, numbering⟩
  · rfl
  · simp only [hprecision, readPrecision_source hs, countOutcome]
    rcases WrittenCount.number? (s.precisionPlace + 1) numbering s.precision with
      kind | ⟨precision, numbering⟩
    · rfl
    · simp only [readPresentation_source, htype, specifier, places]
      rcases s.fill with _ | fill
      · rfl
      · rfl

end WrittenSpecifier

theorem Stops.of_append {sort : Char → Bool} {s t : List Char} (h : Stops sort (s ++ t)) :
  Stops sort s
  := by
  cases s with
  | nil => apply Stops.nil
  | cons c s => exact h

/-- A text that is read as a specifier is the source of well-formed parts. -/
theorem Specifier.source_of_read {text : List Char} {spec : Specifier}
    {numbering after : Numbering} (h : read text numbering = (.ok spec, after)) :
  ∃ s : WrittenSpecifier, s.WellFormed ∧ text = s.source
  := by
  rcases halign : readAlign text with e | ⟨⟨fill, align⟩, atSign⟩
  · simp only [read, halign] at h
    cases h
  rcases hsign : readSign atSign with ⟨sign, atAlternate⟩
  rcases halternate : readFlag '#' atAlternate with ⟨alternate, atZero⟩
  rcases hzero : readFlag '0' atZero with ⟨zero, atWidth⟩
  simp only [read, halign, hsign, halternate, hzero] at h
  split at h
  · cases h
  next hfill =>
  split at h
  · cases h
  next width atPoint _ hwidth =>
  split at h
  · cases h
  next precision atType _ hprecision =>
  split at h
  · cases h
  next presentation hpresentation =>
  obtain ⟨htext, hbrace⟩ := source_of_readAlign halign
  obtain ⟨hatAlternate, _⟩ := source_of_readFlag halternate
  obtain ⟨hatZero, hstops⟩ := source_of_readFlag hzero
  obtain ⟨width, hw, hatWidth, _⟩ := source_of_readCount hwidth
  obtain ⟨precision, hp, hatPoint⟩ := source_of_readPrecision hprecision
  use ⟨fill, align, sign, alternate, zero, width, precision, presentation⟩
  constructor
  · constructor
    · intro c hc
      obtain ⟨hopen, hclose, ha⟩ := hbrace c hc
      refine ⟨hopen, hclose, ha, ?_⟩
      rw [← Bool.not_eq_true]
      intro hz
      apply hfill
      exact ⟨hz, Option.isSome_iff_exists.mpr ⟨c, hc⟩⟩
    · apply hw
    · intro hz
      apply Stops.of_append
      rw [WrittenSpecifier.widthSource, ← hatWidth]
      apply hstops hz
    · apply hp
  · rw [htext, source_of_readSign hsign, hatAlternate, hatZero, hatWidth, hatPoint,
      source_of_readPresentation hpresentation]
    rfl

end BraceFormat
