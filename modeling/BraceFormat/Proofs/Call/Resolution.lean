import BraceFormat.Proofs.Call.Progress
import BraceFormat.Proofs.Reference.Resolution
import BraceFormat.Proofs.Template.Partition

/-!
# Calls whose references resolve

A call that succeeds has put out nothing for a reference without an argument: the ids of its
fields resolve to arguments, and those of the counts in their specifiers to numbers
(`fieldsResolve_of_runPieces`). A call that comes to a field whose id does not resolve fails at
the opening brace of the field, and else at that of the first count that does not
(`run_resolves`).
-/

namespace BraceFormat

open Guarded

variable {H : Host} {args : Arguments H} {locale : Locale} {world : World H}

/-! ### Fields -/

section Fields

variable {numbering after : Numbering} {field : Field}

/-- A field that is put out resolves, with the counts of its specifier. -/
theorem Field.resolves_of_run
    (h : (field.run args locale numbering world).result = .ok after) :
  args.Resolves field.argument ∧ args.CountsResolve numbering field.spec after
  := by
  rw [run_eq] at h
  split at h
  · cases h
  · next hargument =>
    constructor
    · exact Arguments.resolves_iff.mpr (Bool.not_eq_true _ ▸ hargument)
    · apply Arguments.countsResolve_iff.mpr
      apply pastes_of_formatField (Formatter.result_mapError_iff.mp h)

/-- A field whose id does not resolve has no argument to put out. -/
theorem Field.run_of_not_resolves (h : ¬args.Resolves field.argument) :
  field.run args locale numbering =
    Formatter.raise (.located .missingArgument field.start)
  := by
  rw [Arguments.resolves_iff, Bool.not_eq_false] at h
  rw [run_eq, if_pos h]

theorem Field.run_of_countUnresolved {place : Nat}
    (hargument : args.Resolves field.argument)
    (hread : ∀ argument, args.Refers field.argument argument → argument.IsBuiltin →
      ∃ read, (Specifier.read field.spec numbering).1 = .ok read)
    (h : args.CountUnresolved numbering field.spec place) :
  field.run args locale numbering =
    Formatter.raise (.located .invalidSpecifier (field.specStart + place))
  := by
  have hsome := Arguments.resolves_iff.mp hargument
  have hbuiltin := hread _ (Arguments.refers_lookup hsome)
  rw [run_eq, if_neg (Bool.not_eq_true _ ▸ hsome),
    formatField_of_countUnresolved hsome hbuiltin h, Formatter.mapError_raise,
    FormatError.rebase_located]

end Fields

/-! ### Pieces -/

/-- The ids of the fields among some pieces are numbered in turn and resolve to arguments, and the
references of each specifier, behind the id of its field, to counts. -/
inductive Arguments.FieldsResolve (args : Arguments H) : Numbering → List Piece → Numbering → Prop
  | nil {numbering : Numbering} : FieldsResolve args numbering [] numbering
  | literal {text : List Char} {pieces : List Piece} {numbering after : Numbering}
      (h : FieldsResolve args numbering pieces after) :
      FieldsResolve args numbering (.literal text :: pieces) after
  | brace {c : Char} {pieces : List Piece} {numbering after : Numbering}
      (h : FieldsResolve args numbering pieces after) :
      FieldsResolve args numbering (.brace c :: pieces) after
  | field {id : ArgId} {spec : Option (List Char)} {reference : Reference} {pieces : List Piece}
      {numbering inner next after : Numbering}
      (hresolve : numbering.resolve id = .ok (reference, inner))
      (hargument : args.Resolves reference)
      (hcounts : args.CountsResolve inner (spec.getD []) next)
      (h : FieldsResolve args next pieces after) :
      FieldsResolve args numbering (.field id spec :: pieces) after

/-- Pieces that are put out resolve. -/
theorem fieldsResolve_of_runPieces {pieces : List Piece} {start : Nat}
    {numbering after : Numbering}
    (h : (runPieces args locale start pieces numbering world).result = .ok after) :
  args.FieldsResolve numbering pieces after
  := by
  induction pieces generalizing start numbering world with
  | nil =>
    cases h
    apply Arguments.FieldsResolve.nil
  | cons piece pieces ih =>
    rw [runPieces_cons] at h
    obtain ⟨next, hnext, hrest⟩ := Formatter.result_bind_iff.mp h
    cases piece with
    | literal text =>
      cases hnext
      apply Arguments.FieldsResolve.literal (ih hrest)
    | brace c =>
      cases hnext
      apply Arguments.FieldsResolve.brace (ih hrest)
    | field id spec =>
      rcases hresolve : numbering.resolve id with kind | ⟨reference, inner⟩
      · rw [Piece.run, Piece.step, hresolve] at hnext
        cases hnext
      · rw [Piece.run_field hresolve] at hnext
        obtain ⟨hargument, hcounts⟩ := Field.resolves_of_run hnext
        apply Arguments.FieldsResolve.field hresolve hargument hcounts (ih hrest)

/-- A field that a call comes to starts with a brace, and has its specifier further on. -/
theorem Progress.at_field {progress : Progress H} {text : List Char} {id : ArgId}
    {spec : Option (List Char)} {behind : List Piece}
    (hpieces : (Template.read text).pieces = progress.pieces ++ .field id spec :: behind) :
  (∃ rest, At text progress.place ('{' :: rest)) ∧
    ∃ rest, At text (progress.place + Piece.specOffset id spec) (spec.getD [] ++ rest)
  := by
  obtain ⟨hwf, rest, htext, _⟩ := Template.read_pieces text
  have hfield : (Piece.field id spec).WellFormed := by
    apply hwf
    rw [hpieces]
    apply List.mem_append_right _ (.head _)
  have hat : At text progress.place
      ((Piece.field id spec).source ++ (behind.flatMap Piece.source ++ rest)) := by
    refine ⟨progress.pieces.flatMap Piece.source, ?_, rfl⟩
    rw [htext, hpieces]
    simp only [List.flatMap_append, List.flatMap_cons, List.append_assoc]
  constructor
  · cases spec <;> exact ⟨_, hat⟩
  · obtain ⟨_, _, _, hspec⟩ := Piece.exists_bracesMatch hfield.1 hfield.2 hat
    obtain ⟨behind, hat, _⟩ := slice?_eq_some_iff.mp hspec
    exact ⟨behind, hat⟩

/-- A template that succeeds has no fault, so its pieces are all that is run. -/
theorem Template.runFrom_of_ok {template : Template} {numbering after : Numbering}
    (h : (template.runFrom args locale numbering world).result = .ok after) :
  template.fault = none ∧
    template.runFrom args locale numbering = runPieces args locale 0 template.pieces numbering
  := by
  obtain ⟨next, _, hnext⟩ := Formatter.result_bind_iff.mp h
  cases hfault : template.fault with
  | none =>
    rw [runFrom, hfault]
    exact ⟨rfl, bind_pure _⟩
  | some place =>
    rw [hfault] at hnext
    cases hnext

/-- A call that succeeds has come to the end of its template, and all fields resolve. -/
theorem fieldsResolve_of_run {text : List Char} {locale : Option Locale}
    (h : (run text args locale world).result = .ok ()) :
  (Template.read text).fault = none ∧
    ∃ after, args.FieldsResolve .undecided (Template.read text).pieces after
  := by
  rw [(run_eq text args locale world).2.2] at h
  rcases hemission : ((Template.read text).runFrom args (locale.getD world.globalLocale)
    .undecided world).result with failure | after
  · rw [hemission] at h
    cases h
  · obtain ⟨hfault, hpieces⟩ := Template.runFrom_of_ok hemission
    rw [hpieces] at hemission
    exact ⟨hfault, after, fieldsResolve_of_runPieces hemission⟩

/-- A call that comes to a field which fails does so with the same error. -/
theorem run_of_field_raise {text : List Char} {locale : Option Locale} {progress : Progress H}
    {id : ArgId} {spec : Option (List Char)} {behind : List Piece} {reference : Reference}
    {next : Numbering} {e : FormatError}
    (hreached : progress.Reached args (locale.getD world.globalLocale) world)
    (hpieces : (Template.read text).pieces = progress.pieces ++ .field id spec :: behind)
    (hresolve : progress.numbering.resolve id = .ok (reference, next))
    (h : Field.run ⟨reference, spec.getD [], progress.place,
      progress.place + Piece.specOffset id spec⟩ args (locale.getD world.globalLocale) next =
        Formatter.raise e) :
  (run text args locale world).result = .error (.error e)
  := by
  have hfails : progress.FailsAt args (locale.getD world.globalLocale) (Template.read text)
      (.field id spec) (.error e) := by
    refine ⟨⟨behind, hpieces⟩, ?_⟩
    rw [Progress.run, Piece.run_field hresolve, h]
    rfl
  exact (failure_run_of_failsAt text args locale world hreached hfails).1

/-- A call that succeeds has come to the end of its template, the id of each field resolves to an
argument, and each reference for a width or precision to an integer that can be one. A call that
comes to a field whose id is in no conflict fails at the opening brace of the field if the id does
not resolve, whatever the specifier is. If the id resolves, then the call fails at the opening
brace of the first count that does not; a specifier that is not for a value of the host has to be
one that can be read. -/
theorem run_resolves (text : List Char) (args : Arguments H) (locale : Option Locale)
    (world : World H) :
  ((run text args locale world).result = .ok () →
    (Template.read text).fault = none ∧
      ∃ after, args.FieldsResolve .undecided (Template.read text).pieces after) ∧
  ∀ (progress : Progress H) (id : ArgId) (spec : Option (List Char)) (behind : List Piece)
      (reference : Reference) (next : Numbering),
    progress.Reached args (locale.getD world.globalLocale) world →
    (Template.read text).pieces = progress.pieces ++ .field id spec :: behind →
    progress.numbering.resolve id = .ok (reference, next) →
    (¬args.Resolves reference →
      (∃ rest, At text progress.place ('{' :: rest)) ∧
        (run text args locale world).result =
          .error (.error (.located .missingArgument progress.place))) ∧
    ∀ place, args.Resolves reference → args.CountUnresolved next (spec.getD []) place →
      (∀ argument, args.Refers reference argument → argument.IsBuiltin →
        ∃ read, (Specifier.read (spec.getD []) next).1 = .ok read) →
      let opening := progress.place + Piece.specOffset id spec + place
      (∃ rest, At text opening ('{' :: rest)) ∧
        (run text args locale world).result =
          .error (.error (.located .invalidSpecifier opening))
  := by
  refine ⟨fieldsResolve_of_run, ?_⟩
  intro progress id spec behind reference next hreached hpieces hresolve
  obtain ⟨hopening, rest, hspec⟩ := Progress.at_field hpieces
  constructor
  · intro hargument
    refine ⟨hopening, ?_⟩
    apply run_of_field_raise hreached hpieces hresolve
    apply Field.run_of_not_resolves hargument
  · intro place hargument hcount hread opening
    constructor
    · generalize spec.getD [] = written at hspec hcount
      obtain ⟨_, _, _, _⟩ := hcount
      rw [List.append_assoc, List.append_assoc] at hspec
      exact ⟨_, hspec.advance⟩
    · apply run_of_field_raise hreached hpieces hresolve
      apply Field.run_of_countUnresolved hargument hread hcount

/-- A field with a width that is automatic, one with a name that no argument has, and one with a
precision that is taken from no integer. The first one of two arguments with the name is meant. -/
theorem run_resolves_named :
  let args : Arguments ⟨Empty, Unit⟩ :=
    .withNames [.uint32 6, .bool true, .text []] [none, some ['a'], some ['a']]
  let wide := ['{', 'a', ':', '{', '}', '}']
  let missing := ['{', 'b', ':', '!', '}']
  let unusable := ['{', 'a', ':', '.', '{', '1', '}', '}']
  args.Refers (.name ['a']) (.bool true) ∧
    (run wide args none ⟨none, ()⟩).result = .ok () ∧
    (∃ after, args.FieldsResolve .undecided (Template.read wide).pieces after) ∧
    ¬args.Resolves (.name ['b']) ∧
    (run missing args none ⟨none, ()⟩).result =
      .error (.error (.located .missingArgument 0)) ∧
    ¬args.ResolvesToCount (.index 1) ∧
    (run unusable args none ⟨none, ()⟩).result =
      .error (.error (.located .invalidSpecifier 4))
  := by
  intro args wide missing unusable
  have hwide : Template.read wide = ⟨[.field (.name ['a']) (some ['{', '}'])], none⟩ :=
    Template.read_of_last (List.cons_ne_nil _ _) rfl
  have hmissing : Template.read missing = ⟨[.field (.name ['b']) (some ['!'])], none⟩ :=
    Template.read_of_last (List.cons_ne_nil _ _) rfl
  have hunusable : Template.read unusable =
      ⟨[.field (.name ['a']) (some ['.', '{', '1', '}'])], none⟩ :=
    Template.read_of_last (List.cons_ne_nil _ _) rfl
  have hsucceeds : (run wide args none ⟨none, ()⟩).result = .ok () := by
    rw [(run_eq wide args none ⟨none, ()⟩).2.2, hwide]
    rfl
  have hfirst : args.Refers (.name ['a']) (.bool true) := Arguments.refers_lookup rfl
  have hname : args.Resolves (.name ['a']) := ⟨_, hfirst, rfl⟩
  have hnoname : ¬args.Resolves (.name ['b']) := by
    rw [Arguments.resolves_iff]
    decide
  have hnocount : ¬args.ResolvesToCount (.index 1) := by
    rw [Arguments.resolvesToCount_iff]
    rintro ⟨_, ⟨⟩, _⟩
  have hindex : (ArgId.index 1).WellFormed := by
    change 1 < indexLimit
    decide
  have hcount : args.CountUnresolved .undecided (['.'] ++ '{' :: (ArgId.index 1).source ++ ['}'])
      (byteLength ['.']) := .intro (.char (by decide) .nil) hindex rfl hnocount
  refine ⟨hfirst, hsucceeds, ((run_resolves wide args none _).1 hsucceeds).2, hnoname, ?_,
    hnocount, ?_⟩
  · have hpieces := congrArg Template.pieces hmissing
    have hfield := (run_resolves missing args none ⟨none, ()⟩).2 _ _ _ [] _ _ .start hpieces rfl
    exact (hfield.1 hnoname).2
  · have hpieces := congrArg Template.pieces hunusable
    have hfield := (run_resolves unusable args none ⟨none, ()⟩).2 _ _ _ [] _ _ .start hpieces rfl
    exact (hfield.2 _ hname hcount fun _ _ _ => ⟨_, rfl⟩).2

end BraceFormat
