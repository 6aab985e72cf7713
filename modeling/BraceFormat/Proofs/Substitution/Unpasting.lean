import BraceFormat.Proofs.Specifier.Adjacency
import BraceFormat.Proofs.Specifier.Supplied
import BraceFormat.Proofs.Substitution.Pasting

/-!
# Reading pasted numerals as counts

Supplying the counts of a specifier is pasting numerals into its text
(`WrittenSpecifier.Supplied.pastes`). The other way round, a text with pasted numerals may be
read as a specifier although the text with the references is none, as a numeral may be read
as a fill, or together with digits beside it. It cannot if the references stand apart: then
each part of the text comes from the same part of the specifier
(`WrittenSpecifier.exists_supplied_of_pastes`).
-/

namespace BraceFormat

variable {H : Host} {args : Arguments H} {numbering after : Numbering}

/-! ### Pasting -/

theorem WrittenCount.Supplied.pastes {written supplied : Option WrittenCount}
    (h : Supplied args numbering written supplied after)
    (hwritten : ∀ count ∈ written, count.WellFormed) :
  Pastes args numbering (source? written) (source? supplied) after
  := by
  cases h with
  | none => apply Pastes.nil
  | digits =>
    apply Pastes.literal
    intro c hc
    obtain ⟨_, hdigits, _⟩ := hwritten _ rfl
    apply (not_brace_of_isNameRest (ArgId.isNameRest_of_isDigit (hdigits c hc))).2
  | @reference id reference n _ _ hresolve hcount =>
    have h : Pastes args numbering ('{' :: id.source ++ ['}']) (Nat.toDigits 10 n ++ []) after :=
      Pastes.count (hwritten _ rfl) hresolve hcount Pastes.nil
    rw [List.append_nil] at h
    apply h

namespace WrittenSpecifier

/-- The text of the parts in front of the width. -/
def frontSource (s : WrittenSpecifier) : List Char :=
  s.alignSource ++ (s.signSource ++ (s.alternateSource ++ s.zeroSource))

theorem source_eq_frontSource (s : WrittenSpecifier) :
  s.source = s.frontSource ++ (s.widthSource ++ (s.precisionSource ++ s.typeSource))
  := by
  simp only [source, frontSource, List.append_assoc]

/-- Only a width or a precision holds references. -/
theorem ne_opening_of_mem_frontSource {s : WrittenSpecifier} (hs : s.WellFormed) :
  ∀ c ∈ s.frontSource, c ≠ '{'
  := by
  intro c hc
  simp only [frontSource, List.mem_append] at hc
  rcases hc with hc | hc | hc | hc
  · rw [alignSource, List.mem_append, Option.mem_toList, Option.mem_toList,
      Option.map_eq_some_iff] at hc
    rcases hc with hc | ⟨align, _, rfl⟩
    · apply (hs.fill_align c hc).1
    · cases align <;> decide
  · rw [signSource, Option.mem_toList, Option.map_eq_some_iff] at hc
    obtain ⟨sign, _, rfl⟩ := hc
    cases sign <;> decide
  · rw [alternateSource] at hc
    split at hc
    · rw [List.mem_singleton.mp hc]
      decide
    · cases hc
  · rw [zeroSource] at hc
    split at hc
    · rw [List.mem_singleton.mp hc]
      decide
    · cases hc

theorem ne_opening_of_mem_typeSource (s : WrittenSpecifier) :
  ∀ c ∈ s.typeSource, c ≠ '{'
  := by
  intro c hc
  rw [typeSource, Option.mem_toList, Option.map_eq_some_iff] at hc
  obtain ⟨presentation, _, rfl⟩ := hc
  cases presentation <;> decide

/-- A specifier with its counts supplied is the specifier with the numerals pasted in. -/
theorem Supplied.pastes {s v : WrittenSpecifier} (hs : s.WellFormed)
    (h : s.Supplied args numbering v after) :
  Pastes args numbering s.source v.source after
  := by
  obtain ⟨width, precision, next, hwidth, hprecision, rfl⟩ := h
  rw [source_eq_frontSource, source_eq_frontSource]
  apply (Pastes.literal (ne_opening_of_mem_frontSource hs)).append
  apply (hwidth.pastes hs.width).append
  apply Pastes.append _ (Pastes.literal s.ne_opening_of_mem_typeSource)
  have hprecision' := hprecision.pastes hs.precision
  rw [precisionSource, precisionSource]
  generalize s.precision = written at hprecision hprecision'
  cases hprecision with
  | none => apply Pastes.nil
  | digits => apply Pastes.char (by decide) hprecision'
  | reference => apply Pastes.char (by decide) hprecision'

end WrittenSpecifier

/-! ### Where a text comes from -/

namespace Pastes

variable {spec text : List Char}

/-- Nothing comes from nothing. -/
theorem eq_nil (h : Pastes args numbering spec [] after) :
  spec = [] ∧ after = numbering
  := by
  generalize htext : ([] : List Char) = text at h
  cases h with
  | nil => exact ⟨rfl, rfl⟩
  | char => cases htext
  | @count _ _ n =>
    obtain ⟨c, digits, hn, _⟩ := numeral_eq_cons n
    rw [hn] at htext
    cases htext

/-- A character was written, or is the first digit of a numeral that is pasted for a
reference. -/
theorem cons_inv {c : Char} (h : Pastes args numbering spec (c :: text) after) :
  (∃ rest, spec = c :: rest ∧ c ≠ '{' ∧ Pastes args numbering rest text after) ∨
    ∃ id reference n next digits rest text', spec = '{' :: id.source ++ '}' :: rest ∧
      id.WellFormed ∧ numbering.resolve id = .ok (reference, next) ∧
      args.count? reference = some n ∧ Nat.toDigits 10 n = c :: digits ∧
      text = digits ++ text' ∧ Pastes args next rest text' after
  := by
  generalize htext : c :: text = whole at h
  cases h with
  | nil => cases htext
  | char hc h =>
    cases htext
    left
    exact ⟨_, rfl, hc, h⟩
  | @count id reference n rest text' _ next _ hid hresolve hcount h =>
    obtain ⟨d, digits, hn, _⟩ := numeral_eq_cons n
    rw [hn] at htext
    cases htext
    right
    exact ⟨id, reference, n, next, digits, rest, text', rfl, hid, hresolve, hcount, hn, rfl, h⟩

/-- A character that is no digit was written. -/
theorem of_char {c : Char} (hc : c.isDigit = false)
    (h : Pastes args numbering spec (c :: text) after) :
  ∃ rest, spec = c :: rest ∧ Pastes args numbering rest text after
  := by
  rcases h.cons_inv with ⟨rest, hspec, _, h⟩ | ⟨_, _, n, _, _, _, _, _, _, _, _, hn, _⟩
  · exact ⟨rest, hspec, h⟩
  · have hdigit : c.isDigit = true := by
      apply isDigit_of_mem_numeral (n := n)
      rw [hn]
      apply List.mem_cons_self
    rw [hdigit] at hc
    cases hc

/-- Characters that are no digits were written. -/
theorem of_literal {literal : List Char} (hliteral : ∀ c ∈ literal, c.isDigit = false)
    (h : Pastes args numbering spec (literal ++ text) after) :
  ∃ rest, spec = literal ++ rest ∧ Pastes args numbering rest text after
  := by
  induction literal generalizing spec with
  | nil => exact ⟨spec, rfl, h⟩
  | cons c literal ih =>
    obtain ⟨spec', rfl, h'⟩ := of_char (hliteral c (.head _)) h
    obtain ⟨rest, rfl, hrest⟩ := ih (fun d hd => hliteral d (.tail _ hd)) h'
    exact ⟨rest, rfl, hrest⟩

/-- The digits behind a digit that was written were written, if the references stand apart. -/
theorem of_digits {c : Char} (hc : c.isDigit = true) {digits : List Char}
    (hdigits : ∀ d ∈ digits, d.isDigit = true) (hapart : StandsApart (c :: spec))
    (h : Pastes args numbering spec (digits ++ text) after) :
  ∃ rest, spec = digits ++ rest ∧ Pastes args numbering rest text after
  := by
  induction digits generalizing c spec with
  | nil => exact ⟨spec, rfl, h⟩
  | cons d digits ih =>
    obtain ⟨hstops, hspec⟩ := StandsApart.cons_iff.mp hapart
    rcases h.cons_inv with ⟨spec', rfl, _, h'⟩ | ⟨_, _, _, _, _, _, _, rfl, _⟩
    · obtain ⟨rest, rfl, hrest⟩ :=
        ih (hdigits d (.head _)) (fun e he => hdigits e (.tail _ he)) hspec h'
      exact ⟨rest, rfl, hrest⟩
    · have hadjoins := hstops '{' rfl
      simp [adjoins, hc] at hadjoins

/-- What is pasted behind a reference that stands apart begins with no digit. -/
theorem stops_of_closed (hapart : StandsApart ('}' :: spec))
    (h : Pastes args numbering spec text after) :
  Stops Char.isDigit text
  := by
  obtain ⟨hstops, _⟩ := StandsApart.cons_iff.mp hapart
  cases text with
  | nil => apply Stops.nil
  | cons c text =>
    rcases h.cons_inv with ⟨rest, rfl, _⟩ | ⟨_, _, _, _, _, _, _, rfl, _⟩
    · apply Stops.cons
      have hadjoins := hstops c rfl
      simp only [adjoins, Bool.or_eq_false_iff, Bool.and_eq_false_iff] at hadjoins
      rcases hadjoins.1 with h | h
      · cases h
      · exact h.1.2
    · have hadjoins := hstops '{' rfl
      cases hadjoins

/-- A run of digits is written, or is the numeral pasted for one reference, if the references
stand apart. -/
theorem of_count {digits : List Char} (hcount : (WrittenCount.digits digits).WellFormed)
    (hstops : Stops Char.isDigit text) (hapart : StandsApart spec)
    (h : Pastes args numbering spec (digits ++ text) after) :
  ∃ written next rest, spec = WrittenCount.source written ++ rest ∧ written.WellFormed ∧
    WrittenCount.Supplied args numbering (some written) (some (.digits digits)) next ∧
    Pastes args next rest text after
  := by
  obtain ⟨c, digits, rfl⟩ := List.exists_cons_of_ne_nil hcount.1
  have hc : c.isDigit = true := hcount.2.1 c (.head _)
  have hdigits : ∀ d ∈ digits, d.isDigit = true := fun d hd => hcount.2.1 d (.tail _ hd)
  rw [List.cons_append] at h
  rcases h.cons_inv with ⟨spec', rfl, _, h'⟩ |
    ⟨id, reference, n, next, digits', rest, text', rfl, hid, hresolve, hn, hdigits', htext, hrest⟩
  · obtain ⟨rest, rfl, hrest⟩ := of_digits hc hdigits hapart h'
    exact ⟨.digits (c :: digits), numbering, rest, rfl, hcount, .digits, hrest⟩
  · -- Neither the numeral nor the run of digits goes on, so they are the same.
    have hnumeral : ∀ d ∈ digits', d.isDigit = true := by
      intro d hd
      apply isDigit_of_mem_numeral (n := n)
      rw [hdigits']
      apply List.mem_cons_of_mem _ hd
    have hclosed : StandsApart ('}' :: rest) := hapart.of_append
    have hstops' : Stops Char.isDigit text' := stops_of_closed hclosed hrest
    have htake := congrArg (List.takeWhile Char.isDigit) htext
    have hdrop := congrArg (List.dropWhile Char.isDigit) htext
    rw [takeWhile_append_of_stops hdigits hstops,
      takeWhile_append_of_stops hnumeral hstops'] at htake
    rw [dropWhile_append_of_stops hdigits hstops,
      dropWhile_append_of_stops hnumeral hstops'] at hdrop
    rw [htake, ← hdigits', hdrop]
    refine ⟨.reference id, next, rest, ?_, hid, .reference hresolve hn, hrest⟩
    rw [WrittenCount.source, List.cons_append, List.cons_append, List.cons_append,
      List.append_assoc, List.singleton_append]

/-- A count that may be missing is written, or is the numeral pasted for one reference. -/
theorem of_count? {count : Option WrittenCount} (hcount : ∀ c ∈ count, c.WellFormed)
    (hnumeral : ∀ id, count ≠ some (.reference id)) (hstops : Stops Char.isDigit text)
    (hapart : StandsApart spec)
    (h : Pastes args numbering spec (WrittenCount.source? count ++ text) after) :
  ∃ written next rest, spec = WrittenCount.source? written ++ rest ∧
    (∀ c ∈ written, c.WellFormed) ∧ WrittenCount.Supplied args numbering written count next ∧
    Pastes args next rest text after
  := by
  rcases count with _ | (digits | id)
  · exact ⟨none, numbering, spec, rfl, hcount, .none, h⟩
  · obtain ⟨written, next, rest, hspec, hwritten, hsupplied, hrest⟩ :=
      of_count (hcount _ rfl) hstops hapart h
    refine ⟨some written, next, rest, hspec, ?_, hsupplied, hrest⟩
    rintro _ ⟨⟩
    apply hwritten
  · cases hnumeral id rfl

end Pastes

namespace WrittenSpecifier

variable {v : WrittenSpecifier}

/-- The fill and the alignment were written, if the references stand apart. -/
theorem of_pastes_alignSource (hv : v.WellFormed) {spec text : List Char}
    (hapart : StandsApart spec)
    (h : Pastes args numbering spec (v.alignSource ++ text) after) :
  ∃ rest, spec = v.alignSource ++ rest ∧ Pastes args numbering rest text after
  := by
  have hletter : ∀ align : Align, align.letter.isDigit = false := by
    intro align
    cases align <;> rfl
  have hfill := hv.fill_align
  rw [alignSource] at h ⊢
  rcases hf : v.fill with _ | fill
  · rw [hf] at h
    rcases ha : v.align with _ | align
    · rw [ha] at h
      exact ⟨spec, rfl, h⟩
    · rw [ha] at h
      apply Pastes.of_char (hletter align) h
  · obtain ⟨_, _, halign, _⟩ := hfill fill hf
    obtain ⟨align, ha⟩ := Option.ne_none_iff_exists'.mp halign
    rw [hf, ha] at h
    rcases h.cons_inv with ⟨spec', rfl, _, h'⟩ |
      ⟨id, _, n, next, digits, rest, text', rfl, _, _, _, hdigits, htext, hrest⟩
    · obtain ⟨rest, rfl, hrest⟩ := Pastes.of_char (hletter align) h'
      rw [ha]
      exact ⟨rest, rfl, hrest⟩
    · -- A numeral that is read as the fill stands in front of the alignment.
      exfalso
      cases digits with
      | nil =>
        rw [List.nil_append] at htext
        rw [← htext] at hrest
        obtain ⟨rest, rfl, _⟩ := Pastes.of_char (hletter align) hrest
        have hclosed : StandsApart ('}' :: align.letter :: rest) := hapart.of_append
        have hstops := (StandsApart.cons_iff.mp hclosed).1 align.letter rfl
        cases align <;> cases hstops
      | cons d digits =>
        cases htext
        have hdigit : align.letter.isDigit = true := by
          apply isDigit_of_mem_numeral (n := n)
          rw [hdigits]
          apply List.mem_cons_of_mem _ (.head _)
        rw [hletter align] at hdigit
        cases hdigit

/-- The precision was written, or its numeral is pasted for a reference behind the point. -/
theorem of_pastes_precisionSource (hv : v.WellFormed) (href : v.WithoutReferences)
    {spec : List Char} (hapart : StandsApart spec)
    (h : Pastes args numbering spec (v.precisionSource ++ v.typeSource) after) :
  ∃ written : Option WrittenCount, (∀ c ∈ written, c.WellFormed) ∧
    WrittenCount.Supplied args numbering written v.precision after ∧
    spec = { v with precision := written }.precisionSource ++ v.typeSource
  := by
  have hstops : Stops Char.isDigit v.typeSource := by
    apply stops_typeSource
    intro presentation
    cases presentation <;> rfl
  have htype : ∀ c ∈ v.typeSource, c.isDigit = false := by
    intro c hc
    rw [typeSource, Option.mem_toList, Option.map_eq_some_iff] at hc
    obtain ⟨presentation, _, rfl⟩ := hc
    cases presentation <;> rfl
  have hend {rest : List Char} {next : Numbering}
      (h : Pastes args next rest v.typeSource after) : rest = v.typeSource ∧ after = next := by
    rw [← List.append_nil v.typeSource] at h
    obtain ⟨rest, rfl, hrest⟩ := Pastes.of_literal htype h
    obtain ⟨rfl, rfl⟩ := hrest.eq_nil
    exact ⟨List.append_nil _, rfl⟩
  have hcount := hv.precision
  have hnumeral := href.precision
  rw [precisionSource] at h
  rcases hp : v.precision with _ | count
  · rw [hp] at h
    obtain ⟨rfl, rfl⟩ := hend h
    exact ⟨none, by rintro _ ⟨⟩, .none, rfl⟩
  · rw [hp] at h hcount hnumeral
    obtain ⟨spec, rfl, hspec⟩ := Pastes.of_char rfl h
    obtain ⟨_, hapart⟩ := StandsApart.cons_iff.mp hapart
    obtain ⟨written, next, rest, rfl, hwritten, hsupplied, hrest⟩ :=
      Pastes.of_count? hcount hnumeral hstops hapart hspec
    obtain ⟨rfl, rfl⟩ := hend hrest
    cases written with
    | none => cases hsupplied
    | some written => exact ⟨some written, hwritten, hsupplied, rfl⟩

/-- A text with pasted numerals that is read as a specifier, without reference and without the
flag `0`, comes from a specifier with these counts, if the references stand apart. -/
theorem exists_supplied_of_pastes (hv : v.WellFormed) (href : v.WithoutReferences)
    (hzero : v.zero = false) {spec : List Char} (hapart : StandsApart spec)
    (h : Pastes args numbering spec v.source after) :
  ∃ s : WrittenSpecifier, s.WellFormed ∧ spec = s.source ∧ s.Supplied args numbering v after
  := by
  have hsign : ∀ c ∈ v.signSource, c.isDigit = false := by
    intro c hc
    rw [signSource, Option.mem_toList, Option.map_eq_some_iff] at hc
    obtain ⟨sign, _, rfl⟩ := hc
    cases sign <;> rfl
  have halternate : ∀ c ∈ v.alternateSource, c.isDigit = false := by
    rw [alternateSource]
    split <;> simp
  have hzeroSource : v.zeroSource = [] := by
    rw [zeroSource, hzero, if_neg Bool.false_ne_true]
  have hstops : Stops Char.isDigit (v.precisionSource ++ v.typeSource) := by
    apply (stops_precisionSource rfl).append
    apply stops_typeSource
    intro presentation
    cases presentation <;> rfl
  rw [source] at h
  obtain ⟨atSign, rfl, hatSign⟩ := of_pastes_alignSource hv hapart h
  obtain ⟨atAlternate, rfl, hatAlternate⟩ := Pastes.of_literal hsign hatSign
  obtain ⟨atWidth, rfl, hatWidth⟩ := Pastes.of_literal halternate hatAlternate
  rw [hzeroSource, List.nil_append] at hatWidth
  have hwidthApart : StandsApart atWidth := hapart.of_append.of_append.of_append
  obtain ⟨width, next, atPoint, rfl, hwidth, hwidthSupplied, hatPoint⟩ :=
    Pastes.of_count? hv.width href.width hstops hwidthApart hatWidth
  obtain ⟨precision, hprecision, hprecisionSupplied, rfl⟩ :=
    of_pastes_precisionSource hv href hwidthApart.of_append hatPoint
  refine ⟨{ v with width, precision }, ?_, ?_, v.width, v.precision, next, hwidthSupplied,
    hprecisionSupplied, rfl⟩
  · constructor
    · apply hv.fill_align
    · apply hwidth
    · intro hz
      have hstops := hv.width_zero hz
      rw [widthSource] at hstops ⊢
      generalize v.width = supplied at hwidthSupplied hstops
      cases hwidthSupplied with
      | none => apply Stops.nil
      | digits => apply hstops
      | reference => apply Stops.cons rfl
    · apply hprecision
  · rw [source]
    change _ = v.alignSource ++ (v.signSource ++ (v.alternateSource ++ (v.zeroSource ++ _)))
    rw [hzeroSource]
    rfl

end WrittenSpecifier

end BraceFormat
