import BraceFormat.Proofs.Guarded.Words
import BraceFormat.Proofs.Specifier.ReferenceFree

/-!
# Calls over templates one after another

A template written behind another one is run like the first one and then the second one, also if
the places of errors are words. The errors of the second one are moved by the length of the first
one; where this gives no word, both runs breach the guard, and they end in the same way everywhere
else (`runFrom_append`).
-/

namespace BraceFormat

open Guarded

variable {H : Host}

/-- An error that is shifted is no nearer to the start. -/
theorem FormatError.inWord?_shift_of_none {e : FormatError} (base : Nat)
    (h : e.inWord? = none) :
  (e.shift base).inWord? = none
  := by
  rw [inWord?_eq_none_iff] at h ⊢
  obtain ⟨place, hplace, hle⟩ := h
  refine ⟨base + place, ?_, by omega⟩
  rw [shift, hplace, Option.map_some]

/-- A template in front of any text: the whole is run, as far as any sink can tell, like the
template and then, if this succeeds, the text, from the numbering that the template leaves and
with its errors moved by the length of the template. The whole ends as it does without the guard,
unless it fails at a place that is no word. -/
theorem runFrom_append {t₁ : List Char} (h : IsTemplate t₁) (t₂ : List Char)
    (args : Arguments H) (locale : Locale) (numbering : Numbering) (sink : Sink)
    (world : World H) :
  let whole := InWords.runFrom (Template.read (t₁ ++ t₂)) args locale numbering
  let parts : Attempt H Numbering := do
    let after ← InWords.runFrom (Template.read t₁) args locale numbering
    Attempt.mapError (fun e => (e.shift (byteLength t₁)).inWord?)
      (InWords.runFrom (Template.read t₂) args locale after)
  whole.into sink world = parts.into sink world ∧
    whole world = ((Template.read (t₁ ++ t₂)).runFrom args locale numbering world).inWords?
  := by
  intro whole parts
  have hwhole : whole = ((Template.read (t₁ ++ t₂)).runFrom args locale numbering).inWords :=
    InWords.runFrom_eq _ _ _ _
  have hparts : parts = Formatter.inWords (do
      let after ← (Template.read t₁).runFrom args locale numbering
      ((Template.read t₂).runFrom args locale after).mapError (·.shift (byteLength t₁))) := by
    simp only [parts, InWords.runFrom_eq, Formatter.inWords_bind,
      Formatter.inWords_mapError_of_none fun _ => FormatError.inWord?_shift_of_none _]
  constructor
  · rw [hwhole, hparts, Formatter.into_inWords, Formatter.into_inWords,
      into_runFrom_append h t₂ args locale numbering sink world]
  · rw [hwhole]
    rfl

/-- The two braces after the first field are a doubled one of the second template, and do not close
the field anew. A value of the host that fails at the last place but one still does so in a
template of its own, but not behind another one. -/
theorem runFrom_append_closing :
  let far : Handler ⟨Unit, Unit⟩ :=
    ⟨fun _ _ => Formatter.raise (.located .formatterFailed 0xFFFFFFFFFFFFFFFE)⟩
  let args : Arguments ⟨Unit, Unit⟩ := .ofList [.bool true, .custom () far]
  let world : World ⟨Unit, Unit⟩ := ⟨none, ()⟩
  let field := ['{', '}']
  let call (text : List Char) := InWords.runFrom (Template.read text) args .c
  IsTemplate field ∧
    (call (field ++ ['}', '}', '{']) .undecided).into (.text []) world =
      Attempt.into (do
        let after ← call field .undecided
        Attempt.mapError (fun e => (e.shift (byteLength field)).inWord?)
          (call ['}', '}', '{'] after))
      (.text []) world ∧
    (call field (.automatic 1) world).map (·.result) =
      some (.error (.error (.located .formatterFailed 0xFFFFFFFFFFFFFFFF))) ∧
    call (field ++ field) .undecided world = none
  := by
  intro far args world field call
  have hfield : IsTemplate field := by
    have h : IsTemplate ((Piece.field .auto none).source ++ []) :=
      .field trivial (by rintro _ ⟨⟩) .nil
    exact h
  have hpiece (start : Nat) : (Piece.field .auto none).run args .c start (.automatic 1) world =
      ⟨[], [], world, .error (.error (.located .formatterFailed
        (start + 1 + 0xFFFFFFFFFFFFFFFE)))⟩ := by
    rw [Piece.run_field rfl, Field.run_eq]
    change (formatCustom () far [] args (.automatic 2)).mapError _ _ = _
    rw [formatCustom_of_referenceFree referenceFree_nil]
    rfl
  have hread : Template.read field = ⟨[.field .auto none], none⟩ :=
    Template.read_of_last (List.cons_ne_nil _ _) rfl
  have hread' : Template.read (field ++ field) =
      ⟨[.field .auto none, .field .auto none], none⟩ := by
    have hfirst : Piece.read (field ++ field) = .ok (.field .auto none, field) := rfl
    have hne : field ++ field ≠ [] := List.cons_ne_nil _ _
    rw [Template.read_of_ok hne hfirst, hread]
    rfl
  have halone : (Template.read field).runFrom args .c (.automatic 1) world =
      ⟨[], [], world, .error (.error (.located .formatterFailed 0xFFFFFFFFFFFFFFFF))⟩ := by
    rw [hread, Template.runFrom, runPieces_cons]
    change (((Piece.field .auto none).run args .c 0 (.automatic 1) world).andThen _).andThen _ = _
    rw [hpiece]
    rfl
  have hbehind : ((Template.read (field ++ field)).runFrom args .c .undecided world).result =
      .error (.error (.located .formatterFailed 0x10000000000000001)) := by
    obtain ⟨spans, hfirst⟩ : ∃ spans, (Piece.field .auto none).run args .c 0 .undecided world =
      ⟨spans, [], world, .ok (.automatic 1)⟩ := ⟨_, rfl⟩
    have hsecond : runPieces args .c 2 [.field .auto none] (.automatic 1) world =
        ⟨[], [], world, .error (.error (.located .formatterFailed 0x10000000000000001))⟩ := by
      rw [runPieces_cons]
      change ((Piece.field .auto none).run args .c 2 (.automatic 1) world).andThen _ = _
      rw [hpiece]
      rfl
    rw [hread', Template.runFrom, runPieces_cons]
    change ((((Piece.field .auto none).run args .c 0 .undecided world).andThen
      (runPieces args .c 2 [.field .auto none])).andThen _).result = _
    rw [hfirst, Emission.andThen, Emission.andThen]
    simp only [hsecond]
  refine ⟨hfield, (runFrom_append hfield _ _ _ _ _ _).1, ?_, ?_⟩
  · simp only [call, InWords.runFrom_eq, Formatter.inWords, halone]
    rfl
  · apply (runFrom_append hfield field args .c .undecided (.text []) world).2.trans
    apply Emission.inWords?_eq_none_iff.mpr
    exact ⟨_, _, hbehind, rfl, by decide⟩

end BraceFormat
