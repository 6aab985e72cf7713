import BraceFormat.Proofs.Reference.Mention
import BraceFormat.Proofs.Specifier.Adjacency
import BraceFormat.Proofs.Substitution.Unpasting

/-!
# References by position

Automatic and named references can be replaced by the positions of their arguments: an
automatic one by the number of automatic ones in front of it, a named one by the first position
that carries the name. A specifier in which this has been done refers to the same arguments
(`Pastes.explicit`, `WrittenSpecifier.Supplied.explicit`), although it is numbered in the other
style.
-/

namespace BraceFormat

variable {H : Host}

/-! ### Ids -/

/-- The number of automatic ids among some. -/
def autos (ids : List ArgId) : Nat := ids.count .auto

/-- No id is a position. -/
def Implicit (ids : List ArgId) : Prop := ∀ id ∈ ids, ∀ n, id ≠ .index n

theorem autos_append (ids ids' : List ArgId) :
  autos (ids ++ ids') = autos ids + autos ids'
  := List.count_append

namespace Implicit

variable {ids ids' : List ArgId}

theorem of_append_left (h : Implicit (ids ++ ids')) :
  Implicit ids
  := fun id hid => h id (List.mem_append_left _ hid)

theorem of_append_right (h : Implicit (ids ++ ids')) :
  Implicit ids'
  := fun id hid => h id (List.mem_append_right _ hid)

end Implicit

/-- The id of a position that refers to the argument of another id, in front of which there are
`k` automatic ones. A name that no argument carries remains. -/
def ArgId.explicit (args : Arguments H) (k : Nat) : ArgId → ArgId
  | .auto => .index k
  | .index n => .index n
  | .name text => (args.find? text).elim (.name text) .index

/-- The ids of positions that refer to the arguments of others, in front of which there are `k`
automatic ones. -/
def explicitIds (args : Arguments H) : Nat → List ArgId → List ArgId
  | _, [] => []
  | k, id :: ids => id.explicit args k :: explicitIds args (k + autos [id]) ids

theorem explicitIds_append (args : Arguments H) (k : Nat) (ids ids' : List ArgId) :
  explicitIds args k (ids ++ ids') =
    explicitIds args k ids ++ explicitIds args (k + autos ids) ids'
  := by
  induction ids generalizing k with
  | nil => rfl
  | cons id ids ih =>
    rw [List.cons_append, explicitIds, ih, Nat.add_assoc, ← autos_append]
    rfl

/-- The numbering behind `k` automatic ids and any number of names. -/
def Numbering.behind : Nat → Numbering
  | 0 => .undecided
  | k + 1 => .automatic (k + 1)

/-- A name is found among the arguments. -/
theorem Arguments.lt_length_of_find? {args : Arguments H} {text : List Char} {n : Nat}
    (h : args.find? text = some n) :
  n < args.length
  := by
  obtain ⟨hn, _⟩ := List.findIdx?_eq_some_iff_getElem.mp h
  rcases args.length_names with hnames | hnames
  · rw [hnames] at hn
    cases hn
  · rw [hnames] at hn
    apply hn

/-- There is no argument behind the last one. -/
theorem Arguments.lt_length_of_get {args : Arguments H} {n : Nat}
    (h : (args.get n).isNone = false) :
  n < args.length
  := by
  by_contra hn
  rw [get, List.getElem?_eq_none (Nat.le_of_not_lt hn)] at h
  cases h

/-- Automatic ids are counted, names are not. -/
theorem Numbering.eq_behind_of_resolve {k : Nat} {id : ArgId} {reference : Reference}
    {after : Numbering} (hid : Implicit [id])
    (h : (behind k).resolve id = .ok (reference, after)) :
  after = behind (k + autos [id])
  := by
  cases id with
  | auto => cases k <;> cases h <;> rfl
  | index n => cases hid _ (.head _) n rfl
  | name text =>
    cases h
    rfl

/-- An id and the position it is replaced by refer to the same argument. -/
theorem ArgId.resolve_explicit {args : Arguments H} {k : Nat} {id : ArgId}
    {reference : Reference} {numbering after : Numbering} (hid : Implicit [id])
    (hresolve : (Numbering.behind k).resolve id = .ok (reference, after))
    (hnumbering : numbering.style? ≠ some .automatic) :
  ∃ reference' after', numbering.resolve (id.explicit args k) = .ok (reference', after') ∧
    after'.style? ≠ some .automatic ∧ args.lookup reference' = args.lookup reference
  := by
  have hindex (n : Nat) : numbering.resolve (.index n) = .ok (.index n, .explicit) := by
    cases numbering with
    | undecided => rfl
    | automatic next => cases hnumbering rfl
    | explicit => rfl
  cases id with
  | auto =>
    have hreference : reference = .index k := by
      cases k <;> cases hresolve <;> rfl
    rw [hreference]
    exact ⟨.index k, .explicit, hindex k, by rintro ⟨⟩, rfl⟩
  | index n => cases hid _ (.head _) n rfl
  | name text =>
    cases hresolve
    rw [explicit]
    rcases hfind : args.find? text with _ | n
    · exact ⟨.name text, numbering, rfl, hnumbering, rfl⟩
    · refine ⟨.index n, .explicit, hindex n, by rintro ⟨⟩, ?_⟩
      rw [Arguments.lookup, Arguments.lookup, Arguments.getNamed, hfind]

/-- The position that an id is replaced by can be written if there is an argument at it. -/
theorem ArgId.WellFormed.explicit {args : Arguments H} (hargs : args.length ≤ indexLimit)
    {k : Nat} {id : ArgId} (h : id.WellFormed) {reference : Reference} {after : Numbering}
    (hid : Implicit [id]) (hresolve : (Numbering.behind k).resolve id = .ok (reference, after))
    (hlookup : (args.lookup reference).isNone = false) :
  (id.explicit args k).WellFormed
  := by
  cases id with
  | auto =>
    have hreference : reference = .index k := by
      cases k <;> cases hresolve <;> rfl
    rw [hreference] at hlookup
    exact Nat.lt_of_lt_of_le (Arguments.lt_length_of_get hlookup) hargs
  | index n => cases hid _ (.head _) n rfl
  | name text =>
    rw [ArgId.explicit]
    rcases hfind : args.find? text with _ | n
    · apply h
    · exact Nat.lt_of_lt_of_le (Arguments.lt_length_of_find? hfind) hargs

/-- There is an argument where there is a width or precision. -/
theorem Arguments.isNone_of_count? {args : Arguments H} {reference : Reference} {n : Nat}
    (h : args.count? reference = some n) :
  (args.lookup reference).isNone = false
  := by
  rw [count?] at h
  cases hlookup : args.lookup reference
  case none =>
    rw [hlookup] at h
    cases h
  all_goals rfl

/-! ### Specifiers -/

/-- The ids of the references in a specifier. -/
def specIds (spec : List Char) : List ArgId := (Mention.ofSpec 0 spec).map Mention.id

/-- The parts of a specifier with positions for references, in front of which there are `k`
automatic ids. -/
def explicitParts (args : Arguments H) : Nat → List SpecPart → List SpecPart
  | _, [] => []
  | k, .literal text :: parts => .literal text :: explicitParts args k parts
  | k, .reference id :: parts =>
    .reference (id.explicit args k) :: explicitParts args (k + autos [id]) parts

/-- A specifier with positions for references, in front of which there are `k` automatic
ids. -/
def explicitSpec (args : Arguments H) (k : Nat) (spec : List Char) : List Char :=
  (explicitParts args k (SpecParts.read spec).parts).flatMap SpecPart.source

theorem map_id_ofSpec (place : Nat) (spec : List Char) :
  (Mention.ofSpec place spec).map Mention.id = specIds spec
  := by
  rw [← Nat.add_zero place, Mention.ofSpec_add, List.map_map, specIds]
  rfl

theorem specIds_nil :
  specIds [] = []
  := by
  rw [specIds, Mention.ofSpec_nil]
  rfl

theorem specIds_char {c : Char} (hc : c ≠ '{') (spec : List Char) :
  specIds (c :: spec) = specIds spec
  := by
  rw [specIds, Mention.ofSpec_char hc, map_id_ofSpec]

theorem specIds_append {front : List Char} (hfront : ∀ c ∈ front, c ≠ '{') (spec : List Char) :
  specIds (front ++ spec) = specIds spec
  := by
  rw [specIds, Mention.ofSpec_append hfront, map_id_ofSpec]

theorem specIds_reference {id : ArgId} (hid : id.WellFormed) (spec : List Char) :
  specIds ('{' :: id.source ++ '}' :: spec) = id :: specIds spec
  := by
  rw [specIds, Mention.ofSpec_reference hid, List.map_cons, map_id_ofSpec]

section

variable (args : Arguments H) (k : Nat)

theorem explicitSpec_nil :
  explicitSpec args k [] = []
  := by
  rw [explicitSpec, SpecParts.read_nil]
  rfl

theorem explicitSpec_char {c : Char} (hc : c ≠ '{') (spec : List Char) :
  explicitSpec args k (c :: spec) = c :: explicitSpec args k spec
  := by
  obtain ⟨first, parts, fault, h⟩ := SpecParts.read_eq_literal spec
  rw [explicitSpec, explicitSpec, SpecParts.read_char hc, h]
  rfl

/-- Text without references remains. -/
theorem explicitSpec_append {front : List Char} (hfront : ∀ c ∈ front, c ≠ '{')
    (spec : List Char) :
  explicitSpec args k (front ++ spec) = front ++ explicitSpec args k spec
  := by
  induction front with
  | nil => rfl
  | cons c front ih =>
    rw [List.cons_append, explicitSpec_char args k (hfront c (.head _)),
      ih fun d hd => hfront d (.tail _ hd), List.cons_append]

/-- A reference is replaced by a position. -/
theorem explicitSpec_reference {id : ArgId} (hid : id.WellFormed) (spec : List Char) :
  explicitSpec args k ('{' :: id.source ++ '}' :: spec) =
    '{' :: (id.explicit args k).source ++ '}' :: explicitSpec args (k + autos [id]) spec
  := by
  rw [explicitSpec, SpecParts.read_reference hid]
  simp [SpecParts.cons, explicitParts, explicitSpec, SpecPart.source]

end

/-- The numerals pasted for references are also those pasted for the positions that replace
them. -/
theorem Pastes.explicit {args : Arguments H} (hargs : args.length ≤ indexLimit) {k : Nat}
    {spec text : List Char} {after : Numbering} (hids : Implicit (specIds spec))
    (h : Pastes args (.behind k) spec text after) :
  after = .behind (k + autos (specIds spec)) ∧
    specIds (explicitSpec args k spec) = explicitIds args k (specIds spec) ∧
    ∀ numbering : Numbering, numbering.style? ≠ some .automatic →
      ∃ after', Pastes args numbering (explicitSpec args k spec) text after' ∧
        after'.style? ≠ some .automatic
  := by
  generalize hstart : Numbering.behind k = start at h
  induction h generalizing k with
  | nil =>
    rw [explicitSpec_nil, specIds_nil]
    exact ⟨hstart.symm, rfl, fun numbering hnumbering => ⟨numbering, .nil, hnumbering⟩⟩
  | @char c spec text _ _ hc h ih =>
    rw [explicitSpec_char args k hc, specIds_char hc, specIds_char hc]
    rw [specIds_char hc] at hids
    obtain ⟨hafter, hexplicit, hpastes⟩ := ih hids hstart
    refine ⟨hafter, hexplicit, fun numbering hnumbering => ?_⟩
    obtain ⟨after', h', hafter'⟩ := hpastes numbering hnumbering
    exact ⟨after', h'.char hc, hafter'⟩
  | @count id reference n spec text _ next _ hid hresolve hcount h ih =>
    subst hstart
    rw [specIds_reference hid] at hids ⊢
    change Implicit ([id] ++ specIds spec) at hids
    change _ = Numbering.behind (k + autos ([id] ++ specIds spec)) ∧ _
    have hlookup := Arguments.isNone_of_count? hcount
    have hwf := hid.explicit hargs hids.of_append_left hresolve hlookup
    obtain rfl := Numbering.eq_behind_of_resolve hids.of_append_left hresolve
    obtain ⟨hafter, hexplicit, hpastes⟩ := ih hids.of_append_right rfl
    rw [autos_append, ← Nat.add_assoc, explicitSpec_reference args k hid, specIds_reference hwf,
      explicitIds, hexplicit]
    refine ⟨hafter, rfl, fun numbering hnumbering => ?_⟩
    obtain ⟨reference', next', hresolve', hnext', hlookup'⟩ :=
      ArgId.resolve_explicit hids.of_append_left hresolve hnumbering
    obtain ⟨after', h', hafter'⟩ := hpastes next' hnext'
    refine ⟨after', h'.count hwf hresolve' ?_, hafter'⟩
    rw [Arguments.count?, hlookup']
    apply hcount

/-! ### The parts of a specifier -/

namespace WrittenCount

/-- The ids of a count. -/
def ids : Option WrittenCount → List ArgId
  | some (.reference id) => [id]
  | _ => []

/-- A count with a position for its reference. -/
def explicit (args : Arguments H) (k : Nat) : WrittenCount → WrittenCount
  | .digits text => .digits text
  | .reference id => .reference (id.explicit args k)

variable {count : Option WrittenCount}

theorem ne_opening_of_mem_digits {text : List Char} (h : (digits text).WellFormed) :
  ∀ c ∈ text, c ≠ '{'
  := fun c hc => (not_brace_of_isNameRest (ArgId.isNameRest_of_isDigit (h.2.1 c hc))).2

theorem source?_reference_append (id : ArgId) (rest : List Char) :
  source? (some (reference id)) ++ rest = '{' :: id.source ++ '}' :: rest
  := (List.append_cons _ _ _).symm

theorem specIds_source? (h : ∀ c ∈ count, c.WellFormed) (rest : List Char) :
  specIds (source? count ++ rest) = ids count ++ specIds rest
  := by
  rcases count with _ | (text | id)
  · rfl
  · apply specIds_append (ne_opening_of_mem_digits (h _ rfl))
  · rw [source?_reference_append, specIds_reference (h _ rfl)]
    rfl

theorem explicitSpec_source? (args : Arguments H) (k : Nat) (h : ∀ c ∈ count, c.WellFormed)
    (rest : List Char) :
  explicitSpec args k (source? count ++ rest) =
    source? (count.map (explicit args k)) ++ explicitSpec args (k + autos (ids count)) rest
  := by
  rcases count with _ | (text | id)
  · rfl
  · apply explicitSpec_append args k (ne_opening_of_mem_digits (h _ rfl))
  · rw [Option.map_some, explicit, source?_reference_append, source?_reference_append,
      explicitSpec_reference args k (h _ rfl)]
    rfl

/-- The numeral supplied for a reference is also supplied for the position that replaces it. -/
theorem Supplied.explicit {args : Arguments H} (hargs : args.length ≤ indexLimit) {k : Nat}
    {written supplied : Option WrittenCount} {after : Numbering} (hids : Implicit (ids written))
    (hwf : ∀ c ∈ written, c.WellFormed) (h : Supplied args (.behind k) written supplied after) :
  after = .behind (k + autos (ids written)) ∧
    (∀ c ∈ written.map (explicit args k), c.WellFormed) ∧
    ∀ numbering : Numbering, numbering.style? ≠ some .automatic →
      ∃ after', Supplied args numbering (written.map (explicit args k)) supplied after' ∧
        after'.style? ≠ some .automatic
  := by
  generalize hstart : Numbering.behind k = start at h
  cases h with
  | none =>
    exact ⟨hstart.symm, hwf, fun numbering hnumbering => ⟨numbering, .none, hnumbering⟩⟩
  | digits =>
    exact ⟨hstart.symm, hwf, fun numbering hnumbering => ⟨numbering, .digits, hnumbering⟩⟩
  | @reference id reference n _ _ hresolve hcount =>
    subst hstart
    have hlookup := Arguments.isNone_of_count? hcount
    refine ⟨Numbering.eq_behind_of_resolve hids hresolve, ?_, fun numbering hnumbering => ?_⟩
    · rintro _ ⟨⟩
      exact ArgId.WellFormed.explicit hargs (hwf _ rfl) hids hresolve hlookup
    · obtain ⟨reference', after', hresolve', hafter', hlookup'⟩ :=
        ArgId.resolve_explicit hids hresolve hnumbering
      refine ⟨after', .reference hresolve' ?_, hafter'⟩
      rw [Arguments.count?, hlookup']
      apply hcount

end WrittenCount

namespace WrittenSpecifier

variable {s v : WrittenSpecifier}

/-- The parts of a specifier with positions for references. -/
def explicit (args : Arguments H) (k : Nat) (s : WrittenSpecifier) : WrittenSpecifier :=
  { s with
    width := s.width.map (WrittenCount.explicit args k)
    precision :=
      s.precision.map (WrittenCount.explicit args (k + autos (WrittenCount.ids s.width))) }

theorem specIds_source (hs : s.WellFormed) :
  specIds s.source = WrittenCount.ids s.width ++ WrittenCount.ids s.precision
  := by
  rw [source_eq_frontSource, specIds_append (ne_opening_of_mem_frontSource hs), widthSource,
    WrittenCount.specIds_source? hs.width]
  have htype : specIds s.typeSource = [] := by
    rw [← List.append_nil s.typeSource, specIds_append s.ne_opening_of_mem_typeSource,
      specIds_nil]
  rw [precisionSource]
  rcases hprecision : s.precision with _ | count
  · rw [List.nil_append, htype]
    rfl
  · have hcount : ∀ c ∈ some count, c.WellFormed := hprecision ▸ hs.precision
    rw [List.cons_append, specIds_char (by decide)]
    change _ ++ specIds (WrittenCount.source? (some count) ++ s.typeSource) = _
    rw [WrittenCount.specIds_source? hcount, htype, List.append_nil]

theorem explicitSpec_source (args : Arguments H) (k : Nat) (hs : s.WellFormed) :
  explicitSpec args k s.source = (s.explicit args k).source
  := by
  rw [source_eq_frontSource, source_eq_frontSource,
    explicitSpec_append args k (ne_opening_of_mem_frontSource hs), widthSource,
    WrittenCount.explicitSpec_source? args k hs.width]
  have htype (n : Nat) : explicitSpec args n s.typeSource = s.typeSource := by
    rw [← List.append_nil s.typeSource, explicitSpec_append args n s.ne_opening_of_mem_typeSource,
      explicitSpec_nil]
  change _ = s.frontSource ++ (WrittenCount.source? (s.width.map (WrittenCount.explicit args k)) ++
    ((s.explicit args k).precisionSource ++ s.typeSource))
  rw [precisionSource, precisionSource, explicit]
  rcases hprecision : s.precision with _ | count
  · rw [List.nil_append, htype]
    rfl
  · have hcount : ∀ c ∈ some count, c.WellFormed := hprecision ▸ hs.precision
    rw [List.cons_append, explicitSpec_char _ _ (by decide)]
    change _ ++ (_ ++ ('.' :: explicitSpec args (k + autos (WrittenCount.ids s.width))
      (WrittenCount.source? (some count) ++ s.typeSource))) = _
    rw [WrittenCount.explicitSpec_source? _ _ hcount, htype]
    rfl

/-- The numerals supplied for references are also supplied for the positions that replace
them. -/
theorem Supplied.explicit {args : Arguments H} (hargs : args.length ≤ indexLimit) {k : Nat}
    {after : Numbering} (hs : s.WellFormed) (hids : Implicit (specIds s.source))
    (h : s.Supplied args (.behind k) v after) :
  after = .behind (k + autos (specIds s.source)) ∧ (s.explicit args k).WellFormed ∧
    ∀ numbering : Numbering, numbering.style? ≠ some .automatic →
      ∃ after', (s.explicit args k).Supplied args numbering
        { s.explicit args k with width := v.width, precision := v.precision } after' ∧
        after'.style? ≠ some .automatic
  := by
  rw [specIds_source hs] at hids ⊢
  obtain ⟨width, precision, next, hwidth, hprecision, rfl⟩ := h
  obtain ⟨rfl, hwidthWf, hwidths⟩ := hwidth.explicit hargs hids.of_append_left hs.width
  obtain ⟨rfl, hprecisionWf, hprecisions⟩ :=
    hprecision.explicit hargs hids.of_append_right hs.precision
  refine ⟨?_, ⟨hs.fill_align, hwidthWf, ?_, hprecisionWf⟩, fun numbering hnumbering => ?_⟩
  · rw [autos_append, Nat.add_assoc]
  · intro hzero
    have hstops := hs.width_zero hzero
    change Stops _ (WrittenCount.source? (s.width.map (WrittenCount.explicit args k)))
    rw [widthSource] at hstops
    rcases hcount : s.width with _ | (text | id)
    · apply Stops.nil
    · rw [hcount] at hstops
      apply hstops
    · exact Stops.cons rfl
  · obtain ⟨next, hnext, hstyle⟩ := hwidths numbering hnumbering
    obtain ⟨after', hafter', hstyle'⟩ := hprecisions next hstyle
    exact ⟨after', ⟨width, precision, next, hnext, hafter', rfl⟩, hstyle'⟩

end WrittenSpecifier

end BraceFormat
