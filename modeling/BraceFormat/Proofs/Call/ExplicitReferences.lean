import BraceFormat.Proofs.Call.Resolution
import BraceFormat.Proofs.Reference.Explicit
import BraceFormat.Proofs.Template.Acceptance
import BraceFormat.Proofs.Template.Concatenation

/-!
# Calls with references by position

Where all references of a template are automatic or named, a call that succeeds does the same
when each of them is replaced by the position of its argument (`run_explicitText`). The two
runs are numbered in different styles, so they are compared piece by piece: behind `k`
automatic references the one is at position `k`, and the other has met positions only.
-/

namespace BraceFormat

variable {H : Host}

/-! ### Replacing references -/

/-- The ids of the references in a piece. -/
def Piece.ids (piece : Piece) : List ArgId := (Mention.ofPiece 0 piece).map Mention.id

/-- A piece with positions for references, in front of which there are `k` automatic ids. -/
def Piece.explicit (args : Arguments H) (k : Nat) : Piece → Piece
  | .field id spec => .field (id.explicit args k) (spec.map (explicitSpec args (k + autos [id])))
  | piece => piece

/-- Pieces with positions for references, in front of which there are `k` automatic ids. -/
def explicitPieces (args : Arguments H) : Nat → List Piece → List Piece
  | _, [] => []
  | k, piece :: pieces =>
    piece.explicit args k :: explicitPieces args (k + autos piece.ids) pieces

/-- A template in which each automatic reference is replaced by the number of automatic ones in
front of it, and each named one by the first position that carries the name. -/
def explicitText (args : Arguments H) (template : List Char) : List Char :=
  (explicitPieces args 0 (Template.read template).pieces).flatMap Piece.source

theorem Piece.ids_field (id : ArgId) (spec : Option (List Char)) :
  (field id spec).ids = [id] ++ specIds (spec.getD [])
  := by
  rw [ids, Mention.ofPiece, List.map_cons, map_id_ofSpec]
  rfl

/-- The ids of a template are those of its pieces, wherever these lie. -/
theorem Mention.map_id_ofPieces (start : Nat) (pieces : List Piece) :
  (ofPieces start pieces).map Mention.id = pieces.flatMap Piece.ids
  := by
  induction pieces generalizing start with
  | nil => rfl
  | cons piece pieces ih =>
    rw [ofPieces, List.map_append, ih, List.flatMap_cons]
    congr 1
    cases piece with
    | literal text => rfl
    | brace c => rfl
    | field id spec =>
      rw [Piece.ids_field, ofPiece, List.map_cons, map_id_ofSpec]
      rfl

/-! ### Braces -/

/-- There are no braces in a position that replaces a reference. -/
theorem ArgId.WellFormed.not_isBrace_explicit {id : ArgId} (hid : id.WellFormed)
    (args : Arguments H) (k : Nat) :
  ∀ c ∈ (id.explicit args k).source, Piece.isBrace c = false
  := by
  have hindex (n : Nat) : ∀ c ∈ (ArgId.index n).source, Piece.isBrace c = false := by
    intro c hc
    obtain ⟨hclose, hopen⟩ :=
      not_brace_of_isNameRest (isNameRest_of_isDigit (isDigit_of_mem_numeral hc))
    apply Piece.not_isBrace_iff.mpr ⟨hopen, hclose⟩
  cases id with
  | auto => apply hindex
  | index n => apply hindex
  | name text =>
    rw [ArgId.explicit]
    cases args.find? text with
    | none => apply hid.not_isBrace
    | some n => apply hindex

/-- A reference is passed over in search of the closing brace. -/
theorem Balanced.reference {source : List Char}
    (hsource : ∀ c ∈ source, Piece.isBrace c = false) :
  Balanced ('{' :: source ++ ['}'])
  := by
  have hinner := Balanced.literal_append hsource .nil
  rw [List.append_nil] at hinner
  apply Balanced.pair hinner .nil

/-- Replacing the references in a specifier does not change where it is closed. -/
theorem splitClosing_explicitSpec {args : Arguments H} {spec text : List Char}
    {numbering after : Numbering} (h : Pastes args numbering spec text after) (depth k : Nat)
    (hsplit : Piece.splitClosing depth (spec ++ ['}']) = some (spec, [])) :
  Piece.splitClosing depth (explicitSpec args k spec ++ ['}']) =
    some (explicitSpec args k spec, [])
  := by
  induction h generalizing depth k with
  | nil =>
    rw [explicitSpec_nil]
    apply hsplit
  | @char c spec _ _ _ hc _ ih =>
    rw [explicitSpec_char args k hc]
    rw [List.cons_append, Piece.splitClosing] at hsplit ⊢
    split at hsplit
    · cases hsplit
    · next hopen =>
      rw [if_neg hopen]
      obtain ⟨⟨rest, behind⟩, hrest, heq⟩ := Option.map_eq_some_iff.mp hsplit
      cases heq
      rw [ih _ k hrest]
      rfl
  | @count id _ _ spec _ _ _ _ hid _ _ _ ih =>
    have hcons (source rest : List Char) :
      '{' :: source ++ '}' :: rest = ('{' :: source ++ ['}']) ++ rest := List.append_cons _ _ _
    rw [hcons, List.append_assoc,
      Piece.splitClosing_append (Balanced.reference hid.not_isBrace)] at hsplit
    obtain ⟨⟨rest, behind⟩, hrest, heq⟩ := Option.map_eq_some_iff.mp hsplit
    obtain ⟨hspec, rfl⟩ := Prod.mk.inj heq
    obtain rfl := List.append_cancel_left hspec
    rw [explicitSpec_reference args k hid, hcons, List.append_assoc,
      Piece.splitClosing_append (Balanced.reference (hid.not_isBrace_explicit args k)),
      ih depth _ hrest]
    rfl

/-- Replacing the references in a specifier keeps its braces in pairs. -/
theorem Balanced.explicitSpec {args : Arguments H} {spec text : List Char}
    {numbering after : Numbering} (hspec : Balanced spec)
    (h : Pastes args numbering spec text after) (k : Nat) :
  Balanced (explicitSpec args k spec)
  := of_splitClosing (splitClosing_explicitSpec h 0 k (Piece.splitClosing_closed hspec []))

/-! ### Formatters that do the same -/

/-- From every numbering that is not automatic, a formatter does what has been done, and it
leaves a numbering that is not automatic. -/
def Emission.DoneBy (emission : Emission H Numbering) (f : Numbering → Formatter H Numbering)
    (world : World H) : Prop :=
  ∀ numbering, numbering.style? ≠ some .automatic →
    ∃ after, after.style? ≠ some .automatic ∧
      f numbering world = { emission with result := .ok after }

/-- One formatter after another does what two have done. -/
theorem Emission.DoneBy.bind {f : Formatter H Numbering}
    {g f' g' : Numbering → Formatter H Numbering} {world : World H} {next : Numbering}
    (hf : (f world).result = .ok next) (hf' : (f world).DoneBy f' world)
    (hg' : (g next (f world).world).DoneBy g' (f world).world) :
  ((f >>= g) world).DoneBy (fun numbering => f' numbering >>= g') world
  := by
  intro numbering hnumbering
  obtain ⟨next', hnext', hf'⟩ := hf' numbering hnumbering
  obtain ⟨after, hafter, hg'⟩ := hg' next' hnext'
  refine ⟨after, hafter, ?_⟩
  change (f' numbering world).andThen g' =
    { (f world).andThen g with result := Except.ok after }
  rw [hf']
  simp only [Emission.andThen, hf, hg']

/-! ### Fields -/

section

variable {args : Arguments H} {locale : Locale} {k : Nat} {after : Numbering} {world : World H}
  {spec : List Char}

/-- The directive of a specifier is also that of the one with positions for references, but for
the places of its parts. -/
theorem readDirective_explicitSpec (hargs : args.length ≤ indexLimit) {kind : Kind}
    {d : Directive} (hids : Implicit (specIds spec))
    (h : readDirective kind spec args (.behind k) = .ok (d, after)) (numbering : Numbering)
    (hnumbering : numbering.style? ≠ some .automatic) :
  ∃ places after', after'.style? ≠ some .automatic ∧
    readDirective kind (explicitSpec args k spec) args numbering =
      .ok ({ d with places }, after')
  := by
  obtain ⟨read, hread, hresolve, hcheck⟩ := readDirective_iff.mp h
  obtain ⟨s, hs, rfl⟩ := Specifier.source_of_read hread
  obtain ⟨v, hsupplied, rfl⟩ := (WrittenSpecifier.resolve_iff hs).mp ⟨read, hread, hresolve⟩
  -- The numbers supplied for the written parts are also supplied for those with positions.
  obtain ⟨_, hwf, hexplicit⟩ := hsupplied.explicit hargs hs hids
  obtain ⟨after', hsupplied', hafter'⟩ := hexplicit numbering hnumbering
  obtain ⟨read', hread', hresolve'⟩ := (WrittenSpecifier.resolve_iff hwf).mpr
    ⟨_, hsupplied', rfl⟩
  refine ⟨(s.explicit args k).places, after', hafter', readDirective_iff.mpr ⟨read', ?_, hresolve',
    Directive.check_of_places _ hcheck⟩⟩
  rw [WrittenSpecifier.explicitSpec_source args k hs]
  apply hread'

/-- A formatter that gives a numbering, and one that does the same and gives another one. -/
theorem doneBy_of_ok {f : Formatter H Unit} {next : Numbering}
    {g : Numbering → Formatter H Numbering}
    (h : ((f >>= fun _ => return next) world).result = .ok after)
    (hg : ∀ numbering : Numbering, numbering.style? ≠ some .automatic →
      ∃ f' after', after'.style? ≠ some .automatic ∧ g numbering = (f' >>= fun _ => return after') ∧
        ∀ a, (f world).result = .ok a → f' world = f world) :
  ((f >>= fun _ => return next) world).DoneBy g world
  := by
  obtain ⟨a, ha, _⟩ := Formatter.result_bind_iff.mp h
  intro numbering hnumbering
  obtain ⟨f', after', hafter', hgf', hf'⟩ := hg numbering hnumbering
  have hsame := hf' a ha
  refine ⟨after', hafter', ?_⟩
  rw [hgf', Formatter.bind_return_of_ok ha, Formatter.bind_return_of_ok (hsame ▸ ha), hsame]

theorem doneBy_formatBuiltin (hargs : args.length ≤ indexLimit) (hids : Implicit (specIds spec))
    {argument : Argument H}
    (h : (formatBuiltin argument spec args locale (.behind k) world).result = .ok after) :
  (formatBuiltin argument spec args locale (.behind k) world).DoneBy
    (formatBuiltin argument (explicitSpec args k spec) args locale) world
  := by
  rcases hd : readDirective argument.kind spec args (.behind k) with e | ⟨d, next⟩
  · rw [formatBuiltin, hd] at h
    cases h
  · rw [formatBuiltin_of_ok hd] at h ⊢
    obtain ⟨_, _, ⟨⟩⟩ := Formatter.result_bind_iff.mp h
    apply doneBy_of_ok h
    intro numbering hnumbering
    obtain ⟨places, after', hafter', hd'⟩ :=
      readDirective_explicitSpec hargs hids hd numbering hnumbering
    refine ⟨_, after', hafter', formatBuiltin_of_ok hd', fun _ _ => ?_⟩
    rw [Argument.put_of_places]

theorem doneBy_formatCustom (hargs : args.length ≤ indexLimit) (hids : Implicit (specIds spec))
    {value : H.Value} {handler : Handler H}
    (h : (formatCustom value handler spec args (.behind k) world).result = .ok after) :
  (formatCustom value handler spec args (.behind k) world).DoneBy
    (formatCustom value handler (explicitSpec args k spec) args) world
  := by
  rcases hread : Substitution.read args spec (.behind k) with ⟨e | parts, next⟩
  · rw [formatCustom, hread] at h
    cases h
  · have hpastes := Substitution.exists_read_iff.mp ⟨parts, hread, rfl⟩
    rw [formatCustom_of_ok hread] at h ⊢
    obtain ⟨_, _, ⟨⟩⟩ := Formatter.result_bind_iff.mp h
    apply doneBy_of_ok h
    intro numbering hnumbering
    obtain ⟨after', hpastes', hafter'⟩ := (hpastes.explicit hargs hids).2.2 numbering hnumbering
    obtain ⟨parts', hread', htext⟩ := Substitution.exists_read_iff.mpr hpastes'
    refine ⟨_, after', hafter', formatCustom_of_ok hread', fun a ha => ?_⟩
    rw [Formatter.result_mapError_iff] at ha
    rw [htext, Formatter.mapError_of_ok ha, Formatter.mapError_of_ok ha]

/-- A field that is put out does the same with positions for the references in its specifier. -/
theorem doneBy_formatField (hargs : args.length ≤ indexLimit) (hids : Implicit (specIds spec))
    {argument : Argument H}
    (h : (formatField argument spec args locale (.behind k) world).result = .ok after) :
  (formatField argument spec args locale (.behind k) world).DoneBy
    (formatField argument (explicitSpec args k spec) args locale) world
  := by
  cases argument
  case none => cases h
  case custom value handler => exact doneBy_formatCustom hargs hids h
  all_goals exact doneBy_formatBuiltin hargs hids h

/-- A field that is put out does the same with positions for the references in its specifier and
another id for the same argument. -/
theorem Field.doneBy_run (hargs : args.length ≤ indexLimit) {field field' : Field}
    (hids : Implicit (specIds field.spec))
    (h : (field.run args locale (.behind k) world).result = .ok after)
    (hlookup : args.lookup field'.argument = args.lookup field.argument)
    (hspec : field'.spec = explicitSpec args k field.spec) :
  (field.run args locale (.behind k) world).DoneBy (field'.run args locale) world
  := by
  obtain ⟨hargument, _⟩ := resolves_of_run h
  have hnone : ¬(args.lookup field.argument).isNone = true :=
    Bool.not_eq_true _ ▸ Arguments.resolves_iff.mp hargument
  rw [run_eq, if_neg hnone] at h ⊢
  have hformat := Formatter.result_mapError_iff.mp h
  intro numbering hnumbering
  obtain ⟨after', hafter', hdone'⟩ := doneBy_formatField hargs hids hformat numbering hnumbering
  have hformat' : (formatField (args.lookup field.argument) (explicitSpec args k field.spec) args
      locale numbering world).result = .ok after' := by
    rw [hdone']
  refine ⟨after', hafter', ?_⟩
  rw [run_eq, hlookup, hspec, if_neg hnone, Formatter.mapError_of_ok hformat',
    Formatter.mapError_of_ok hformat, hdone']

/-! ### Pieces -/

/-- A specifier that is not written has no references to replace. -/
theorem getD_map_explicitSpec (args : Arguments H) (k : Nat) (spec : Option (List Char)) :
  (spec.map (explicitSpec args k)).getD [] = explicitSpec args k (spec.getD [])
  := by
  cases spec with
  | none => exact (explicitSpec_nil args k).symm
  | some spec => rfl

/-- A piece does the same with positions for its references, and counts the automatic ones. -/
theorem Piece.doneBy_run (hargs : args.length ≤ indexLimit) {piece : Piece}
    (hpiece : piece.WellFormed) (hids : Implicit piece.ids) {start : Nat} (start' : Nat)
    (h : (piece.run args locale start (.behind k) world).result = .ok after) :
  after = .behind (k + autos piece.ids) ∧ (piece.explicit args k).WellFormed ∧
    (piece.explicit args k).ids = explicitIds args k piece.ids ∧
    (piece.run args locale start (.behind k) world).DoneBy
      ((piece.explicit args k).run args locale start') world
  := by
  cases piece with
  | literal text =>
    cases h
    exact ⟨rfl, hpiece, rfl, fun numbering hnumbering => ⟨numbering, hnumbering, rfl⟩⟩
  | brace c =>
    cases h
    exact ⟨rfl, hpiece, rfl, fun numbering hnumbering => ⟨numbering, hnumbering, rfl⟩⟩
  | field id spec =>
    obtain ⟨hid, hspec⟩ := hpiece
    rw [ids_field] at hids ⊢
    rcases hresolve : (Numbering.behind k).resolve id with kind | ⟨reference, next⟩
    · rw [run, step, hresolve] at h
      cases h
    · have hleft := hids.of_append_left
      have hright := hids.of_append_right
      obtain rfl := Numbering.eq_behind_of_resolve hleft hresolve
      rw [run_field hresolve] at h ⊢
      obtain ⟨hargument, hcounts⟩ := Field.resolves_of_run h
      obtain ⟨text, hpastes⟩ := Arguments.countsResolve_iff.mp hcounts
      have hnone := Arguments.resolves_iff.mp hargument
      obtain ⟨hafter, hexplicit, _⟩ := hpastes.explicit hargs hright
      refine ⟨?_, ⟨hid.explicit hargs hleft hresolve hnone, ?_⟩, ?_, fun numbering hnumbering => ?_⟩
      · rw [hafter, autos_append, Nat.add_assoc]
      · intro s' hs'
        obtain ⟨s, rfl, rfl⟩ := Option.map_eq_some_iff.mp hs'
        exact (hspec s rfl).explicitSpec hpastes _
      · rw [explicit, ids_field, getD_map_explicitSpec, hexplicit, explicitIds_append]
        rfl
      · obtain ⟨reference', next', hresolve', hnext', hlookup⟩ :=
          ArgId.resolve_explicit hleft hresolve hnumbering
        rw [explicit, run_field hresolve']
        apply Field.doneBy_run hargs hright h hlookup (getD_map_explicitSpec args _ spec) next'
          hnext'

/-- Pieces do the same with positions for their references, and count the automatic ones. -/
theorem doneBy_runPieces (hargs : args.length ≤ indexLimit) {pieces : List Piece}
    (hpieces : ∀ piece ∈ pieces, piece.WellFormed) (hids : Implicit (pieces.flatMap Piece.ids))
    {start : Nat} (start' : Nat)
    (h : (runPieces args locale start pieces (.behind k) world).result = .ok after) :
  after = .behind (k + autos (pieces.flatMap Piece.ids)) ∧
    (∀ piece ∈ explicitPieces args k pieces, piece.WellFormed) ∧
    (explicitPieces args k pieces).flatMap Piece.ids =
      explicitIds args k (pieces.flatMap Piece.ids) ∧
    (runPieces args locale start pieces (.behind k) world).DoneBy
      (runPieces args locale start' (explicitPieces args k pieces)) world
  := by
  -- Each piece leaves the numbering behind its automatic references, where the next one starts.
  induction pieces generalizing k start start' world with
  | nil =>
    cases h
    exact ⟨rfl, by rintro _ ⟨⟩, rfl, fun numbering hnumbering => ⟨numbering, hnumbering, rfl⟩⟩
  | cons piece pieces ih =>
    rw [List.flatMap_cons] at hids ⊢
    rw [runPieces_cons] at h ⊢
    obtain ⟨next, hnext, hrest⟩ := Formatter.result_bind_iff.mp h
    obtain ⟨rfl, hpiece, hexplicit, hdone⟩ :=
      Piece.doneBy_run hargs (hpieces piece (.head _)) hids.of_append_left start' hnext
    obtain ⟨rfl, hpieces', hexplicit', hdone'⟩ :=
      ih (fun p hp => hpieces p (.tail _ hp)) hids.of_append_right
        (start' + byteLength (piece.explicit args k).source) hrest
    refine ⟨?_, List.forall_mem_cons.mpr ⟨hpiece, hpieces'⟩, ?_, ?_⟩
    · rw [autos_append, Nat.add_assoc]
    · rw [explicitPieces, List.flatMap_cons, hexplicit, hexplicit', explicitIds_append]
    · have hcons : runPieces args locale start' (explicitPieces args k (piece :: pieces)) =
          fun numbering => (piece.explicit args k).run args locale start' numbering >>=
            runPieces args locale (start' + byteLength (piece.explicit args k).source)
              (explicitPieces args (k + autos piece.ids) pieces) := by
        funext numbering
        rw [explicitPieces, runPieces_cons]
      rw [hcons]
      exact hdone.bind hnext hdone'

end

/-! ### Templates -/

section

variable {args : Arguments H}

theorem Piece.isLiteral_explicit (k : Nat) (piece : Piece) :
  (piece.explicit args k).isLiteral = piece.isLiteral
  := by
  cases piece <;> rfl

/-- Replacing references puts no literals in a row. -/
theorem apart_explicitPieces (args : Arguments H) (k : Nat) {pieces : List Piece}
    (h : pieces.IsChain Piece.Apart) :
  (explicitPieces args k pieces).IsChain Piece.Apart
  := by
  induction pieces generalizing k with
  | nil => apply List.IsChain.nil
  | cons piece pieces ih =>
    obtain ⟨hhead, hpieces⟩ := List.isChain_cons.mp h
    apply List.isChain_cons.mpr ⟨?_, ih _ hpieces⟩
    intro next hnext hliteral
    cases pieces with
    | nil => cases hnext
    | cons next pieces =>
      cases hnext
      rw [Piece.isLiteral_explicit] at hliteral ⊢
      apply hhead next rfl hliteral

/-- A template that succeeds counts its automatic references, and it does the same with
positions for its references. -/
theorem runFrom_explicitText (hargs : args.length ≤ indexLimit) {template : List Char}
    (hids : Implicit ((Mention.ofText template).map Mention.id)) {locale : Locale}
    {after : Numbering} {world : World H}
    (h : ((Template.read template).runFrom args locale .undecided world).result = .ok after) :
  after = .behind (autos ((Mention.ofText template).map Mention.id)) ∧
    (Mention.ofText (explicitText args template)).map Mention.id =
      explicitIds args 0 ((Mention.ofText template).map Mention.id) ∧
    ∃ after', (Template.read (explicitText args template)).runFrom args locale .undecided world =
      { (Template.read template).runFrom args locale .undecided world with result := .ok after' }
  := by
  rw [Mention.ofText, Mention.map_id_ofPieces] at hids ⊢
  have hpieces := (Template.read_pieces template).1
  have hapart := apart_explicitPieces args 0 (Template.apart_read template)
  obtain ⟨_, hrun⟩ := Template.runFrom_of_ok h
  rw [hrun] at h ⊢
  obtain ⟨hafter, hexplicit, hmentions, hdone⟩ := doneBy_runPieces (k := 0) hargs hpieces hids 0 h
  obtain ⟨after', _, hdone'⟩ := hdone .undecided (by rintro ⟨⟩)
  have hread : Template.read (explicitText args template) =
      ⟨explicitPieces args 0 (Template.read template).pieces, none⟩ :=
    Template.read_flatMap_source hexplicit hapart
  rw [Mention.ofText, hread, Mention.map_id_ofPieces, Template.runFrom, bind_pure]
  rw [Nat.zero_add] at hafter
  exact ⟨hafter, hmentions, after', hdone'⟩

end

/-- Where all references of a template are automatic or named, a call that succeeds does the same
with the position of its argument for each of them: it succeeds, gives the same output to any
sink, and leaves the same world. The numbering in the end counts the automatic references, with
any number of named ones between them. There are to be no more arguments than there are
positions that can be written. -/
theorem run_explicitText {args : Arguments H} (hargs : args.length ≤ indexLimit)
    {template : List Char} (hids : ∀ m ∈ Mention.ofText template, ∀ n, m.id ≠ .index n)
    {locale : Option Locale} {world : World H}
    (h : (run template args locale world).result = .ok ()) :
  (run (explicitText args template) args locale world).result = .ok () ∧
    (∀ sink, ((run (explicitText args template) args locale).into sink world).1 =
      ((run template args locale).into sink world).1) ∧
    (run (explicitText args template) args locale world).world =
      (run template args locale world).world ∧
    (Mention.ofText (explicitText args template)).map Mention.id =
      explicitIds args 0 ((Mention.ofText template).map Mention.id) ∧
    ((Template.read template).runFrom args (locale.getD world.globalLocale) .undecided
      world).result = .ok (.behind (autos ((Mention.ofText template).map Mention.id)))
  := by
  obtain ⟨hspans, hworld, hresult⟩ := run_eq template args locale world
  obtain ⟨hspans', hworld', hresult'⟩ := run_eq (explicitText args template) args locale world
  have himplicit : Implicit ((Mention.ofText template).map Mention.id) :=
    List.forall_mem_map.mpr hids
  rcases hemission : ((Template.read template).runFrom args (locale.getD world.globalLocale)
    .undecided world).result with failure | after
  · rw [h, hemission] at hresult
    cases hresult
  · obtain ⟨rfl, hmentions, after', hsame⟩ := runFrom_explicitText hargs himplicit hemission
    rw [hsame] at hspans' hworld' hresult'
    refine ⟨hresult', fun sink => ?_, ?_, hmentions, rfl⟩
    · rw [Formatter.into, Formatter.into, hspans, hspans']
    · rw [hworld, hworld']

/-- A field with a name, with a width that is automatic, and another automatic field. The first
one of two arguments with the name is meant. -/
theorem run_explicitText_named :
  let args : Arguments ⟨Empty, Unit⟩ :=
    .withNames [.uint32 6, .bool true, .bool false] [none, some ['a'], some ['a']]
  let template := ['{', 'a', ':', '{', '}', '}', '{', '}']
  explicitText args template = ['{', '1', ':', '{', '0', '}', '}', '{', '1', '}'] ∧
    ((run template args none).into (.text []) ⟨none, ()⟩).1 =
      .text ['t', 'r', 'u', 'e', ' ', ' ', 't', 'r', 'u', 'e'] ∧
    (run (explicitText args template) args none ⟨none, ()⟩).result = .ok () ∧
    ((run (explicitText args template) args none).into (.text []) ⟨none, ()⟩).1 =
      ((run template args none).into (.text []) ⟨none, ()⟩).1
  := by
  intro args template
  have hread : Template.read template =
      ⟨[.field (.name ['a']) (some ['{', '}']), .field .auto none], none⟩ := by
    have hnamed : Piece.read template =
      .ok (.field (.name ['a']) (some ['{', '}']), ['{', '}']) := rfl
    have hauto : Piece.read ['{', '}'] = .ok (.field .auto none, []) := rfl
    rw [Template.read_of_ok (List.cons_ne_nil _ _) hnamed,
      Template.read_of_ok (List.cons_ne_nil _ _) hauto, Template.read_nil]
    rfl
  have hrun : (run template args none ⟨none, ()⟩).result = .ok () := by
    rw [(run_eq template args none ⟨none, ()⟩).2.2, hread]
    rfl
  have hauto : ArgId.auto.WellFormed := trivial
  have hspecIds : specIds ['{', '}'] = [.auto] := by
    rw [← specIds_nil]
    exact specIds_reference hauto []
  have hspec : explicitSpec args 0 ['{', '}'] = ['{', '0', '}'] := by
    apply (explicitSpec_reference args 0 hauto []).trans
    rw [explicitSpec_nil]
    rfl
  have hids : ∀ m ∈ Mention.ofText template, ∀ n, m.id ≠ .index n := by
    have himplicit : Implicit ((Mention.ofText template).map Mention.id) := by
      rw [Mention.ofText, hread, Mention.map_id_ofPieces]
      simp [Piece.ids_field, hspecIds, specIds_nil, Implicit]
    apply List.forall_mem_map.mp himplicit
  have hargs : args.length ≤ indexLimit := by decide
  obtain ⟨hresult, hsink, _⟩ := run_explicitText hargs hids hrun
  refine ⟨?_, ?_, hresult, hsink _⟩
  · rw [explicitText, hread]
    simp only [explicitPieces, Piece.explicit, Option.map_some, Piece.ids_field, Option.getD_some,
      hspecIds]
    change (Piece.field (.index 1) (some (explicitSpec args 0 ['{', '}']))).source ++ _ = _
    rw [hspec]
    rfl
  · rw [Formatter.into, (run_eq template args none ⟨none, ()⟩).1, hread]
    rfl

end BraceFormat
