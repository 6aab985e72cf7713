import BraceFormat.Proofs.Guarded.Words
import BraceFormat.Proofs.Specifier.ReferenceFree
import BraceFormat.Proofs.Template.Acceptance

/-!
# Arguments on their own

Putting an argument out on its own is running a template of one field over it, if its specifier has
no braces. The call numbers the field and reads its specifier off the template, and it has an
argument where the other one has none. But without references the specifier asks neither for
arguments nor for the numbering, so the two do the same, and only the places of their errors
differ, by the two bytes in front of the specifier. Only where this gives no word there is no call
in words (`run_fieldTemplate`).
-/

namespace BraceFormat

open Guarded

variable {H : Host}

theorem FormatError.rebase_eq_located (base : Nat) (e : FormatError) :
  e.rebase base = .located e.kind (e.offset.elim base (· + base))
  := by
  rcases e with ⟨kind, _ | offset⟩
  · rfl
  · exact congrArg (located kind) (Nat.add_comm base offset)

/-- The template of one field with a specifier. -/
def fieldTemplate (spec : List Char) : List Char := '{' :: ':' :: spec ++ ['}']

section

variable {spec : List Char} (h : ∀ c ∈ spec, Piece.isBrace c = false)

include h

theorem referenceFree_of_not_isBrace :
  ReferenceFree spec
  := fun c hc => (Piece.not_isBrace_iff.mp (h c hc)).1

/-- The template of one field is read as this field. -/
theorem Template.read_fieldTemplate :
  read (fieldTemplate spec) = ⟨[.field .auto (some spec)], none⟩
  := by
  have hspec : Balanced (spec ++ []) := Balanced.literal_append h .nil
  rw [List.append_nil] at hspec
  have hbalanced : ∀ s ∈ some spec, Balanced s := by
    rintro _ ⟨⟩
    exact hspec
  have hauto : ArgId.auto.WellFormed := trivial
  have hpiece := Piece.read_field hauto hbalanced []
  rw [List.append_nil] at hpiece
  exact read_of_last (List.cons_ne_nil _ _) hpiece

/-- Over one argument, the template of one field puts this argument out. -/
theorem runFrom_fieldTemplate {argument : Argument H} (hargument : argument.isNone = false)
    (locale : Locale) :
  (Template.read (fieldTemplate spec)).runFrom (.ofList [argument]) locale .undecided =
    (formatField argument spec Arguments.empty locale .undecided).mapError (·.rebase 2) >>=
      fun _ => return .automatic 1
  := by
  have hauto : Numbering.undecided.resolve .auto = .ok (.index 0, .automatic 1) := rfl
  have hfield : Field.run ⟨.index 0, spec, 0, 2⟩ (.ofList [argument]) locale (.automatic 1) =
      (formatField argument spec Arguments.empty locale .undecided).mapError (·.rebase 2) >>=
        fun _ => return .automatic 1 := by
    have hlookup : (Arguments.ofList [argument]).lookup (.index 0) = argument := rfl
    rw [Field.run_eq, hlookup, hargument, if_neg Bool.false_ne_true,
      formatField_of_referenceFree (referenceFree_of_not_isBrace h) argument _ .empty locale _
        .undecided, Formatter.mapError_bind]
    rfl
  rw [Template.read_fieldTemplate h, Template.runFrom, runPieces_cons, Piece.run_field hauto]
  change (Field.run ⟨.index 0, spec, 0, 2⟩ _ locale (.automatic 1) >>= _) >>= _ = _
  rw [hfield]
  simp only [runPieces, bind_assoc, pure_bind]

end

/-- The call over one argument puts out what the argument puts out on its own, and fails with the
same errors, seen from the template. -/
theorem run_fieldTemplate_eq {argument : Argument H} (hargument : argument.isNone = false)
    {spec : List Char} (hspec : ∀ c ∈ spec, Piece.isBrace c = false) (world : World H) :
  let alone := argument.format spec world
  let call := run (fieldTemplate spec) (.ofList [argument]) none world
  call.spans = alone.spans ∧ call.world = alone.world ∧
    call.result = alone.result.mapError (Failure.mapError (·.rebase 2))
  := by
  intro alone call
  let field := formatField argument spec Arguments.empty world.globalLocale .undecided
  have halone : alone = (field world).andThen fun _ => Pure.pure () := rfl
  obtain ⟨hspans, hworld, hresult⟩ := run_eq (fieldTemplate spec) (.ofList [argument]) none world
  rw [Option.getD_none, runFrom_fieldTemplate hspec hargument] at hspans hworld hresult
  change _ = ((field.mapError (·.rebase 2) world).andThen _).spans at hspans
  change _ = ((field.mapError (·.rebase 2) world).andThen _).world at hworld
  change _ = ((field.mapError (·.rebase 2) world).andThen _).result.map _ at hresult
  simp only [call, hspans, hworld, hresult, halone, Formatter.mapError]
  rcases field world with ⟨spans, events, after, (e | _) | next⟩
  · exact ⟨rfl, rfl, rfl⟩
  · exact ⟨rfl, rfl, rfl⟩
  · exact ⟨rfl, rfl, rfl⟩

/-- An emission that fails further on does so at no word if the place is one no more by then. -/
theorem inWords?_eq_none_iff_of_rebase {α : Type} {base : Nat} (hbase : base < UInt64.size)
    {put called : Emission H α}
    (h : called.result = put.result.mapError (Failure.mapError (·.rebase base))) :
  called.inWords? = none ↔ ∃ e place, put.result = .error (.error e) ∧
    e.offset = some place ∧ UInt64.size ≤ place + base
  := by
  rw [Emission.inWords?_eq_none_iff, h]
  rcases put.result with (e | _) | a
  · rcases e with ⟨kind, _ | place⟩
    · constructor
      · rintro ⟨_, _, ⟨⟩, ⟨⟩, hle⟩
        cases Nat.not_le_of_lt hbase hle
      · rintro ⟨_, _, ⟨⟩, ⟨⟩, _⟩
    · constructor
      · rintro ⟨_, _, ⟨⟩, ⟨⟩, hle⟩
        rw [Option.getD_some, Nat.add_comm] at hle
        exact ⟨_, place, rfl, rfl, hle⟩
      · rintro ⟨_, _, ⟨⟩, ⟨⟩, hle⟩
        rw [Nat.add_comm] at hle
        exact ⟨_, _, rfl, rfl, hle⟩
  · constructor <;> rintro ⟨_, _, ⟨⟩, _⟩
  · constructor <;> rintro ⟨_, _, ⟨⟩, _⟩

/-- Putting an argument out on its own and running the template of one field over it end in the
same way and put out the same, in whatever global locale and to whatever sink. If they fail, it is
by the same kind of error: a place in the specifier is two bytes further on in the template, and an
error without a place is at the start of the specifier there. There is no call in words just if
the place two bytes further on is no word. -/
theorem run_fieldTemplate {argument : Argument H} (hargument : argument.isNone = false)
    {spec : List Char} (hspec : ∀ c ∈ spec, Piece.isBrace c = false) (world : World H) :
  let alone := InWords.format argument spec
  let call := InWords.run (fieldTemplate spec) (.ofList [argument]) none
  (call world = none ↔
    ∃ e place, (argument.format spec world).result = .error (.error e) ∧
      e.offset = some place ∧ UInt64.size ≤ place + 2) ∧
  ∀ called, call world = some called → ∃ put, alone world = some put ∧
    (∀ sink : Sink, sink.absorb called.spans = sink.absorb put.spans) ∧
    called.world = put.world ∧
    (called.result = .ok () ↔ put.result = .ok ()) ∧
    (called.result = .error .tooManyDigits ↔ put.result = .error .tooManyDigits) ∧
    ∀ e, put.result = .error (.error e) →
      called.result = .error (.error (.located e.kind (e.offset.elim 2 (· + 2))))
  := by
  intro alone call
  have halone : alone world = (argument.format spec world).inWords? :=
    congrFun (InWords.format_eq argument spec) world
  have hcall : call world = (run (fieldTemplate spec) (.ofList [argument]) none world).inWords? :=
    congrFun (InWords.run_eq _ _ _) world
  obtain ⟨hspans, hworld, hresult⟩ := run_fieldTemplate_eq hargument hspec world
  rw [halone, hcall]
  clear_value alone call
  generalize argument.format spec world = put at *
  generalize run (fieldTemplate spec) (.ofList [argument]) none world = called at *
  have hnone := inWords?_eq_none_iff_of_rebase (by decide) hresult
  refine ⟨hnone, fun called' hcalled => ?_⟩
  obtain rfl := Emission.eq_of_inWords? hcalled
  refine ⟨put, ?_, fun sink => by rw [hspans], hworld, ?_⟩
  · rcases hput : put.inWords? with _ | put'
    · obtain ⟨e, place, hresult, hplace, hle⟩ := Emission.inWords?_eq_none_iff.mp hput
      rw [hnone.mpr ⟨e, place, hresult, hplace, by omega⟩] at hcalled
      cases hcalled
    · rw [Emission.eq_of_inWords? hput]
  · rw [hresult]
    rcases put.result with (e | _) | a
    · refine ⟨?_, ?_, ?_⟩
      · constructor <;> rintro ⟨⟩
      · constructor <;> rintro ⟨⟩
      · rintro _ ⟨⟩
        rw [← FormatError.rebase_eq_located]
        rfl
    · refine ⟨?_, ⟨fun _ => rfl, fun _ => rfl⟩, ?_⟩
      · constructor <;> rintro ⟨⟩
      · rintro _ ⟨⟩
    · refine ⟨⟨fun _ => rfl, fun _ => rfl⟩, ?_, ?_⟩
      · constructor <;> rintro ⟨⟩
      · rintro _ ⟨⟩

/-- A value of the host that fails behind its first character, a text that has no digits, and a
value of the host that fails at the last place. -/
theorem run_fieldTemplate_failing :
  let writer : Unit → Writer ⟨Unit, Unit⟩ := fun _ world => ⟨[['a']], true, world⟩
  let value : Argument ⟨Unit, Unit⟩ := .custom () (Handler.display writer)
  let text : Argument ⟨Unit, Unit⟩ := .text ['a']
  let last : Argument ⟨Unit, Unit⟩ :=
    .custom () ⟨fun _ _ => Formatter.raise (.located .formatterFailed 0xFFFFFFFFFFFFFFFF)⟩
  let world : World ⟨Unit, Unit⟩ := ⟨none, ()⟩
  let call (argument : Argument ⟨Unit, Unit⟩) (spec : List Char) :=
    (InWords.run (fieldTemplate spec) (.ofList [argument]) none world).map (·.result)
  value.isNone = false ∧ (∀ c ∈ ['>'], Piece.isBrace c = false) ∧
    (value.format ['>'] world).result = .error (.error (.unplaced .formatterFailed)) ∧
    call value ['>'] = some (.error (.error (.located .formatterFailed 2))) ∧
    (text.format ['>', 'd'] world).result =
      .error (.error (.located .unsupportedPresentation 1)) ∧
    call text ['>', 'd'] = some (.error (.error (.located .unsupportedPresentation 3))) ∧
    (last.format ['>'] world).result =
      .error (.error (.located .formatterFailed 0xFFFFFFFFFFFFFFFF)) ∧
    call last ['>'] = none
  := by
  intro writer value text last world call
  have hfill : ∀ c ∈ ['>'], Piece.isBrace c = false := List.forall_mem_singleton.mpr rfl
  have htype : ∀ c ∈ ['>', 'd'], Piece.isBrace c = false :=
    List.forall_mem_cons.mpr ⟨rfl, List.forall_mem_singleton.mpr rfl⟩
  have hreferences := referenceFree_of_not_isBrace hfill
  have hvalue : (value.format ['>'] world).result =
      .error (.error (.unplaced .formatterFailed)) := by
    have hfield : formatField value ['>'] .empty .c .undecided =
        (Handler.display writer).format () ['>'] >>= fun _ => return .undecided :=
      formatCustom_of_referenceFree hreferences _ _ _ _
    change ((formatField value ['>'] .empty .c .undecided world).andThen _).result = _
    rw [hfield]
    rfl
  have htext : (text.format ['>', 'd'] world).result =
    .error (.error (.located .unsupportedPresentation 1)) := rfl
  have hlast : (last.format ['>'] world).result =
      .error (.error (.located .formatterFailed 0xFFFFFFFFFFFFFFFF)) := by
    change ((formatCustom _ _ ['>'] .empty .undecided world).andThen _).result = _
    rw [formatCustom_of_referenceFree hreferences]
    rfl
  have hcall {argument : Argument ⟨Unit, Unit⟩} {spec : List Char} {e : FormatError}
      (hargument : argument.isNone = false) (hspec : ∀ c ∈ spec, Piece.isBrace c = false)
      (herror : (argument.format spec world).result = .error (.error e))
      (hplace : ∀ place ∈ e.offset, place + 2 < UInt64.size) :
      call argument spec = some (.error (.error (.located e.kind (e.offset.elim 2 (· + 2))))) := by
    obtain ⟨hbreach, hended⟩ := run_fieldTemplate hargument hspec world
    rcases hrun : InWords.run (fieldTemplate spec) (.ofList [argument]) none world with _ | called
    · obtain ⟨e', place, herror', hoffset, hle⟩ := hbreach.mp hrun
      rw [herror] at herror'
      cases herror'
      cases Nat.not_le_of_lt (hplace place hoffset) hle
    · obtain ⟨put, hput, _, _, _, _, hfails⟩ := hended called hrun
      rw [InWords.format_eq] at hput
      obtain rfl := Emission.eq_of_inWords? hput
      simp only [call, hrun, Option.map_some, hfails e herror]
  have hgiven : last.isNone = false := rfl
  have hbreach := (run_fieldTemplate hgiven hfill world).1.mpr
    ⟨_, _, hlast, rfl, by decide⟩
  refine ⟨rfl, hfill, hvalue, hcall rfl hfill hvalue nofun, htext, hcall rfl htype htext ?_,
    hlast, by simp only [call, hbreach, Option.map_none]⟩
  rintro _ ⟨⟩
  decide

end BraceFormat
