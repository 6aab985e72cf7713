import BraceFormat.Proofs.Reference.ConflictFree
import BraceFormat.Proofs.Template.Concatenation

/-!
# Conflicts of numbering

A call numbers the mentions of its template from left to right, those within specifiers after
that of their field. So it succeeds only if no two of them clash, and a conflict that it fails
with is at the first one that clashes with an earlier one (`run_indexingConflict`).

This holds where no handler finds a conflict on its own account. The handlers of values that
write themselves as text read a specifier without references, and find none.
-/

namespace BraceFormat

open Guarded

variable {H : Host} {α β : Type}

/-! ### Values that write themselves as text -/

/-- An argument that is built in or writes itself as text. -/
def Argument.WritesText (argument : Argument H) : Prop :=
  ∀ value handler, argument = .custom value handler →
    (∃ writer, handler = Handler.display writer) ∨ ∃ writer, handler = Handler.inspect writer

/-- All arguments are built in or write themselves as text. -/
def Arguments.WriteText (args : Arguments H) : Prop :=
  ∀ argument ∈ args.values, argument.WritesText

theorem Arguments.WriteText.lookup {args : Arguments H} (h : args.WriteText)
    (reference : Reference) :
  (args.lookup reference).WritesText
  := by
  rcases args.lookup_eq_none_or_mem reference with hnone | hmem
  · rw [hnone]
    rintro _ _ ⟨⟩
  · apply h _ hmem

/-! ### Passing over mentions -/

/-- A formatter passes over some mentions: if it succeeds, it leaves their numbering, and if it
fails with a conflict, then it is theirs. -/
structure Formatter.Passes (f : Formatter H Numbering) (numbering : Numbering)
    (ms : List Mention) : Prop where
  ok : ∀ world after, (f world).result = .ok after → numbering.through ms = .ok after
  conflict : ∀ world e, (f world).result = .error (.error e) → e.kind = .indexingConflict →
    numbering.through ms = .error e

namespace Formatter.Passes

variable {numbering next after : Numbering} {ms ms' : List Mention}

theorem raise {e : FormatError}
    (h : e.kind = .indexingConflict → numbering.through ms = .error e) :
  Passes (raise e : Formatter H Numbering) numbering ms
  := by
  constructor
  · rintro _ _ ⟨⟩
  · rintro _ _ ⟨⟩
    apply h

/-- Once all mentions are numbered, there are no more conflicts. -/
theorem conflictFree {f : Formatter H α} (hf : f.ConflictFree)
    (h : numbering.through ms = .ok after) :
  Passes (f >>= fun _ => return after) numbering ms
  := by
  constructor
  · intro world after' hresult
    obtain ⟨_, _, ⟨⟩⟩ := result_bind_iff.mp hresult
    apply h
  · intro world e hresult hconflict
    rcases result_bind_error_iff.mp hresult with hresult | ⟨_, _, ⟨⟩⟩
    cases hf world e hresult hconflict

/-- One formatter after another passes over the mentions of both. -/
theorem bind {f : Formatter H Numbering} {g : Numbering → Formatter H Numbering}
    (hf : f.Passes numbering ms) (hg : ∀ next, (g next).Passes next ms') :
  Passes (f >>= g) numbering (ms ++ ms')
  := by
  constructor
  · intro world after hresult
    obtain ⟨next, hnext, hafter⟩ := result_bind_iff.mp hresult
    rw [Numbering.through_append, hf.ok world next hnext]
    apply (hg next).ok _ _ hafter
  · intro world e hresult hconflict
    rw [Numbering.through_append]
    rcases result_bind_error_iff.mp hresult with hresult | ⟨next, hnext, hresult⟩
    · rw [hf.conflict world e hresult hconflict]
      rfl
    · rw [hf.ok world next hnext]
      apply (hg next).conflict _ _ hresult hconflict

/-- Mentions that lie further on have their conflicts further on. -/
theorem mapError {f : Formatter H Numbering} (hf : f.Passes numbering ms) (base : Nat) :
  Passes (f.mapError (·.rebase base)) numbering (ms.map (Mention.shift base))
  := by
  constructor
  · intro world after hresult
    rw [Numbering.through_map_shift, hf.ok world after (result_mapError_iff.mp hresult)]
    rfl
  · intro world e hresult hconflict
    obtain ⟨e', he', rfl⟩ := result_mapError_error_iff.mp hresult
    rw [Numbering.through_map_shift, hf.conflict world e' he' hconflict]
    rfl

end Formatter.Passes

section Fields

variable {args : Arguments H} {numbering after : Numbering}

/-- Reading the directive of a field passes over the mentions in its specifier. -/
theorem through_of_readDirective {kind : Kind} {spec : List Char} {d : Directive}
    (h : readDirective kind spec args numbering = .ok (d, after)) :
  numbering.through (Mention.ofSpec 0 spec) = .ok after
  := by
  obtain ⟨read, hread, _⟩ := readDirective_iff.mp h
  have hpasses := Specifier.passes_read spec numbering
  rw [hread] at hpasses
  apply hpasses

theorem through_of_readDirective_error {kind : Kind} {spec : List Char} {e : FormatError}
    (h : readDirective kind spec args numbering = .error e)
    (hconflict : e.kind = .indexingConflict) :
  numbering.through (Mention.ofSpec 0 spec) = .error e
  := by
  have hpasses := Specifier.passes_read spec numbering
  simp only [readDirective] at h
  rcases hread : Specifier.read spec numbering with ⟨e' | read, next⟩
  · rw [hread] at h hpasses
    cases h
    apply hpasses hconflict
  · rw [hread] at h
    have hfree : ConflictFree (do
        let d ← read.resolve args
        d.check kind
        return (d, next)) := by
      apply ConflictFree.bind (read.conflictFree_resolve args)
      intro d
      apply ConflictFree.bind (d.conflictFree_check kind)
      intro _
      apply ConflictFree.ok
    cases hfree e h hconflict

/-- The text that a handler sees has no references. -/
theorem Pastes.ne_opening {spec text : List Char} (h : Pastes args numbering spec text after) :
  ∀ c ∈ text, c ≠ '{'
  := by
  induction h with
  | nil => rintro _ ⟨⟩
  | char hc _ ih =>
    rintro d (_ | ⟨_, hd⟩)
    · apply hc
    · apply ih d hd
  | count _ _ _ _ ih =>
    intro c hc
    rcases List.mem_append.mp hc with hc | hc
    · apply (not_brace_of_isNameRest (ArgId.isNameRest_of_isDigit (isDigit_of_mem_numeral hc))).2
    · apply ih c hc

theorem passes_formatBuiltin (argument : Argument H) (spec : List Char) (locale : Locale) :
  (formatBuiltin argument spec args locale numbering).Passes numbering (Mention.ofSpec 0 spec)
  := by
  rcases hd : readDirective argument.kind spec args numbering with e | ⟨d, after⟩
  · rw [formatBuiltin, hd]
    exact Formatter.Passes.raise (through_of_readDirective_error hd)
  · have hfree : (argument.put d locale).ConflictFree := by
      apply Formatter.ConflictFree.bind
      · rcases hrendering : argument.rendering d locale with failure | rendering
        · rintro world e ⟨⟩
          apply Argument.kind_of_rendering hrendering
        · rintro world e ⟨⟩
      · intro rendering
        apply Formatter.ConflictFree.write
    rw [formatBuiltin_of_ok hd]
    exact Formatter.Passes.conflictFree hfree (through_of_readDirective hd)

theorem passes_formatCustom {value : H.Value} {handler : Handler H}
    (hhandler : (Argument.custom value handler).WritesText) (spec : List Char) :
  (formatCustom value handler spec args numbering).Passes numbering (Mention.ofSpec 0 spec)
  := by
  have hpasses : numbering.Passes (Mention.ofSpec 0 spec) (Substitution.read args spec numbering) :=
    Substitution.passes_read spec numbering
  rcases hread : Substitution.read args spec numbering with ⟨e | parts, after⟩
  · rw [hread] at hpasses
    rw [formatCustom, hread]
    exact Formatter.Passes.raise hpasses
  · rw [hread] at hpasses
    rw [formatCustom_of_ok hread]
    have htext : ∀ c ∈ parts.text, c ≠ '{' :=
      (Substitution.exists_read_iff.mp ⟨parts, hread, rfl⟩).ne_opening
    have hfree : (handler.format value parts.text).ConflictFree := by
      rcases hhandler value handler rfl with ⟨writer, rfl⟩ | ⟨writer, rfl⟩
      · apply Handler.conflictFree_display _ _ htext
      · apply Handler.conflictFree_inspect _ _ htext
    have htrace : ((handler.format value parts.text).mapError parts.trace).ConflictFree :=
      hfree.mapError fun _ => rfl
    exact Formatter.Passes.conflictFree htrace hpasses

/-- A field passes over the mentions in its specifier. -/
theorem passes_formatField {argument : Argument H} (hargument : argument.WritesText)
    (spec : List Char) (locale : Locale) :
  (formatField argument spec args locale numbering).Passes numbering (Mention.ofSpec 0 spec)
  := by
  cases argument
  case none => exact Formatter.Passes.raise (by rintro ⟨⟩)
  case custom value handler => apply passes_formatCustom hargument
  all_goals apply passes_formatBuiltin

/-- A piece passes over its mentions. -/
theorem Piece.passes_run (hargs : args.WriteText) (locale : Locale) (start : Nat)
    (piece : Piece) (numbering : Numbering) :
  (piece.run args locale start numbering).Passes numbering (Mention.ofPiece start piece)
  := by
  cases piece with
  | literal text => exact Formatter.Passes.conflictFree (Formatter.ConflictFree.write _) rfl
  | brace c => exact Formatter.Passes.conflictFree (Formatter.ConflictFree.write _) rfl
  | field id spec =>
    rw [run, step, Mention.ofPiece]
    rcases hresolve : numbering.resolve id with kind | ⟨reference, next⟩
    · apply Formatter.Passes.raise
      intro _
      rw [Numbering.through, hresolve]
    · have hfield : (Field.run ⟨reference, spec.getD [], start, start + specOffset id spec⟩ args
          locale next).Passes next
          (Mention.ofSpec (start + specOffset id spec) (spec.getD [])) := by
        rw [Field.run_eq]
        split
        · exact Formatter.Passes.raise (by rintro ⟨⟩)
        · rw [← Nat.add_zero (start + specOffset id spec), Mention.ofSpec_add]
          exact (passes_formatField (hargs.lookup reference) _ locale).mapError _
      constructor
      · intro world after h
        rw [Numbering.through, hresolve]
        apply hfield.ok world after h
      · intro world e h hconflict
        rw [Numbering.through, hresolve]
        apply hfield.conflict world e h hconflict

/-- Pieces pass over their mentions one after the other. -/
theorem passes_runPieces (hargs : args.WriteText) (locale : Locale) (start : Nat)
    (pieces : List Piece) (numbering : Numbering) :
  (runPieces args locale start pieces numbering).Passes numbering
    (Mention.ofPieces start pieces)
  := by
  induction pieces generalizing start numbering with
  | nil =>
    constructor
    · rintro _ _ ⟨⟩
      rfl
    · rintro _ _ ⟨⟩
  | cons piece pieces ih =>
    rw [runPieces_cons, Mention.ofPieces]
    apply (piece.passes_run hargs locale start numbering).bind
    intro next
    apply ih

/-- A template passes over its mentions. -/
theorem Template.passes_runFrom (hargs : args.WriteText) (locale : Locale) (text : List Char)
    (numbering : Numbering) :
  ((read text).runFrom args locale numbering).Passes numbering (Mention.ofText text)
  := by
  rw [runFrom, Mention.ofText, ← List.append_nil (Mention.ofPieces 0 _)]
  apply (passes_runPieces hargs locale 0 _ numbering).bind
  intro next
  split
  · exact Formatter.Passes.raise (by rintro ⟨⟩)
  · constructor
    · rintro _ _ ⟨⟩
      rfl
    · rintro _ _ ⟨⟩

/-- The numbering that a template leaves is not further on than the template is long. -/
theorem Template.nextPosition_runFrom_le (hargs : args.WriteText) (locale : Locale)
    (text : List Char) (world : World H)
    (h : ((read text).runFrom args locale .undecided world).result = .ok after) :
  after.nextPosition ≤ byteLength text
  := Numbering.nextPosition_through_ofText_le
    ((passes_runFrom hargs locale text .undecided).ok world after h)

end Fields

/-- Where the values of the host write themselves as text: if a call succeeds, then the
references of its template are not both automatic and numbered ones. If a call fails with a
conflict, then it does so at the opening brace of a reference, and that is the first one that
differs in style from an earlier one. -/
theorem run_indexingConflict {args : Arguments H} (hargs : args.WriteText)
    (template : List Char) (locale : Option Locale) (world : World H) :
  ((run template args locale world).result = .ok () →
    ¬((∃ m ∈ Mention.ofText template, m.id = .auto) ∧
      ∃ m ∈ Mention.ofText template, ∃ n, m.id = .index n)) ∧
  ∀ e, (run template args locale world).result = .error (.error e) →
    e.kind = .indexingConflict →
    ∃ place, e.offset = some place ∧ IsLeast (Mention.clashes (Mention.ofText template)) place ∧
      ∃ m ∈ Mention.ofText template, m.place = place ∧
        ∃ behind, At template place ('{' :: m.id.source ++ behind)
  := by
  have hpasses := Template.passes_runFrom hargs (locale.getD world.globalLocale) template
    .undecided
  rw [(run_eq template args locale world).2.2]
  constructor
  · intro h
    rcases hresult : ((Template.read template).runFrom args (locale.getD world.globalLocale)
      .undecided world).result with failure | after
    · rw [hresult] at h
      cases h
    · rintro ⟨⟨m, hm, hauto⟩, m', hm', n, hindex⟩
      apply Numbering.not_clash_of_through (hpasses.ok world after hresult) hm hm'
      refine ⟨.automatic, .numbered, ?_, ?_, by decide⟩
      · rw [hauto]
        rfl
      · rw [hindex]
        rfl
  · intro e h hconflict
    rcases hresult : ((Template.read template).runFrom args (locale.getD world.globalLocale)
      .undecided world).result with failure | after
    · rw [hresult] at h
      cases h
      obtain ⟨place, rfl, hleast⟩ := Numbering.isLeast_of_through_error
        (Mention.pairwise_ofText template) (hpasses.conflict world e hresult hconflict)
      obtain ⟨_, _, m, hm, _, _, rfl⟩ := hleast.1
      exact ⟨m.place, rfl, hleast, m, hm, rfl, Mention.at_of_mem_ofText hm⟩
    · rw [hresult] at h
      cases h

/-- A field that is automatic, with a width that is numbered, and the field without the width. -/
theorem run_indexingConflict_width :
  let writer : Unit → Writer ⟨Unit, Unit⟩ := fun _ world => ⟨[['a']], false, world⟩
  let args : Arguments ⟨Unit, Unit⟩ := .ofList [.bool true, .custom () (Handler.display writer)]
  let wide := ['{', ':', '{', '1', '}', '}']
  args.WriteText ∧
    (run wide args none ⟨none, ()⟩).result = .error (.error (.located .indexingConflict 2)) ∧
    IsLeast (Mention.clashes (Mention.ofText wide)) 2 ∧
    (run ['{', '}'] args none ⟨none, ()⟩).result = .ok () ∧
    ¬((∃ m ∈ Mention.ofText ['{', '}'], m.id = .auto) ∧
      ∃ m ∈ Mention.ofText ['{', '}'], ∃ n, m.id = .index n)
  := by
  intro writer args wide
  have hargs : args.WriteText := by
    rintro argument (_ | ⟨_, _ | ⟨_, ⟨⟩⟩⟩)
    · rintro _ _ ⟨⟩
    · rintro _ _ ⟨⟩
      exact .inl ⟨writer, rfl⟩
  have hwide : Template.read wide = ⟨[.field .auto (some ['{', '1', '}'])], none⟩ := by
    have hpiece : Piece.read wide = .ok (.field .auto (some ['{', '1', '}']), []) := rfl
    rw [Template.read_of_ok (List.cons_ne_nil _ _) hpiece, Template.read_nil]
    rfl
  have hnarrow : Template.read ['{', '}'] = ⟨[.field .auto none], none⟩ := by
    have hpiece : Piece.read ['{', '}'] = .ok (.field .auto none, []) := rfl
    rw [Template.read_of_ok (List.cons_ne_nil _ _) hpiece, Template.read_nil]
    rfl
  have hfails : (run wide args none ⟨none, ()⟩).result =
      .error (.error (.located .indexingConflict 2)) := by
    rw [(run_eq wide args none ⟨none, ()⟩).2.2, hwide]
    rfl
  have hsucceeds : (run ['{', '}'] args none ⟨none, ()⟩).result = .ok () := by
    rw [(run_eq ['{', '}'] args none ⟨none, ()⟩).2.2, hnarrow]
    rfl
  obtain ⟨place, hplace, hleast, _⟩ :=
    (run_indexingConflict hargs wide none ⟨none, ()⟩).2 _ hfails rfl
  cases hplace
  exact ⟨hargs, hfails, hleast, hsucceeds,
    (run_indexingConflict hargs ['{', '}'] none ⟨none, ()⟩).1 hsucceeds⟩

end BraceFormat
