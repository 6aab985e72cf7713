import BraceFormat.Proofs.Field
import BraceFormat.Proofs.Formatter
import BraceFormat.Proofs.Handler.Failure
import BraceFormat.Proofs.Reference.Reading

/-!
# Computations without conflicts

Only references can be in conflict. Supplying widths and precisions, checking a directive and
rendering an argument find no conflict, and neither do the handlers of values that write
themselves as text, as these read a specifier without references.
-/

namespace BraceFormat

variable {H : Host} {α β : Type}

/-! ### Computations without conflicts -/

/-- A computation finds no conflict. -/
def ConflictFree (r : Except FormatError α) : Prop :=
  ∀ e, r = .error e → e.kind ≠ .indexingConflict

namespace ConflictFree

theorem ok (a : α) :
  ConflictFree (.ok a)
  := by
  rintro e ⟨⟩

theorem error {e : FormatError} (h : e.kind ≠ .indexingConflict) :
  ConflictFree (.error e : Except FormatError α)
  := by
  rintro _ ⟨⟩
  apply h

theorem bind {r : Except FormatError α} {f : α → Except FormatError β} (hr : ConflictFree r)
    (hf : ∀ a, ConflictFree (f a)) :
  ConflictFree (r >>= f)
  := by
  cases r with
  | error e => apply error (hr e rfl)
  | ok a => apply hf

end ConflictFree

namespace Directive

theorem conflictFree_refuseNumericFlags (d : Directive) :
  ConflictFree d.refuseNumericFlags
  := by
  rw [refuseNumericFlags]
  repeat' split
  all_goals first | apply ConflictFree.ok | exact ConflictFree.error (by rintro ⟨⟩)

theorem conflictFree_refusePrecision (d : Directive) :
  ConflictFree d.refusePrecision
  := by
  rw [refusePrecision]
  split
  · exact ConflictFree.error (by rintro ⟨⟩)
  · apply ConflictFree.ok

theorem conflictFree_checkPlain (d : Directive) :
  ConflictFree d.checkPlain
  := by
  apply ConflictFree.bind d.conflictFree_refuseNumericFlags
  intro _
  apply conflictFree_refusePrecision

theorem conflictFree_checkInteger (d : Directive) :
  ConflictFree d.checkInteger
  := by
  rw [checkInteger]
  split
  · apply conflictFree_refusePrecision
  · apply conflictFree_checkPlain
  · split
    · apply conflictFree_refusePrecision
    · exact ConflictFree.error (by rintro ⟨⟩)

/-- What is illegal for a kind of argument is no conflict. -/
theorem conflictFree_check (d : Directive) (kind : Kind) :
  ConflictFree (d.check kind)
  := by
  cases kind
  all_goals
    rw [check]
    repeat' split
  all_goals first
    | apply ConflictFree.ok
    | apply conflictFree_refuseNumericFlags
    | apply conflictFree_checkPlain
    | apply conflictFree_checkInteger
    | exact ConflictFree.error (by rintro ⟨⟩)

end Directive

theorem Count.conflictFree_resolve? (args : Arguments H) (count : Option Count) :
  ConflictFree (Count.resolve? args count)
  := by
  rcases count with _ | (n | ⟨reference, place⟩)
  · apply ConflictFree.ok
  · apply ConflictFree.ok
  · rw [resolve?, resolve]
    split
    · apply ConflictFree.ok
    · exact ConflictFree.error (by rintro ⟨⟩)

/-- A width or precision that an argument does not supply is no conflict. -/
theorem Specifier.conflictFree_resolve (spec : Specifier) (args : Arguments H) :
  ConflictFree (spec.resolve args)
  := by
  apply ConflictFree.bind (Count.conflictFree_resolve? args _)
  intro width
  apply ConflictFree.bind (Count.conflictFree_resolve? args _)
  intro precision
  apply ConflictFree.ok

theorem withinDigits_ne_error {precision : Nat} {text : Unit → List Char} (e : FormatError) :
  withinDigits precision text ≠ .error (.error e)
  := by
  rw [withinDigits]
  split <;> rintro ⟨⟩

theorem plainForm_ne_error {precision : Option Nat} {alternate : Bool} {magnitude : Nat}
    (e : FormatError) :
  plainForm precision alternate magnitude ≠ .error (.error e)
  := by
  cases precision with
  | none => rintro ⟨⟩
  | some p =>
    rw [plainForm]
    apply withinDigits_ne_error

theorem kind_of_floatBody {d : Directive} {locale : Locale} {magnitude : Nat} {e : FormatError}
    (h : floatBody d locale magnitude = .error (.error e)) :
  e.kind ≠ .indexingConflict
  := by
  rw [floatBody] at h
  dsimp only at h
  split at h
  · cases plainForm_ne_error e h
  · rcases hplain : plainForm d.precision d.alternate magnitude with (e' | _) | text
    · cases plainForm_ne_error e' hplain
    · rw [hplain] at h
      cases h
    · rw [hplain] at h
      cases h
  iterate 7
    · cases withinDigits_ne_error e h
  · cases h
    rintro ⟨⟩

theorem kind_of_ofInteger {d : Directive} {locale : Locale} {n : Int} {e : FormatError}
    (h : Rendering.ofInteger d locale n = .error e) :
  e.kind ≠ .indexingConflict
  := by
  rw [Rendering.ofInteger] at h
  repeat' split at h
  all_goals
    cases h
    try rintro ⟨⟩

theorem kind_of_ofFloat {d : Directive} {locale : Locale} {v : Binary64} {e : FormatError}
    (h : Rendering.ofFloat d locale v = .error (.error e)) :
  e.kind ≠ .indexingConflict
  := by
  rw [Rendering.ofFloat] at h
  dsimp only at h
  split at h
  · rcases hbody : floatBody d locale v.magnitude with (e' | _) | text
    · rw [hbody] at h
      cases h
      apply kind_of_floatBody hbody
    · rw [hbody] at h
      cases h
    · rw [hbody] at h
      cases h
  · cases h

/-- What cannot be rendered is no conflict. -/
theorem Argument.kind_of_rendering {argument : Argument H} {d : Directive} {locale : Locale}
    {e : FormatError} (h : argument.rendering d locale = .error (.error e)) :
  e.kind ≠ .indexingConflict
  := by
  have hinteger (n : Int)
      (h : (Rendering.ofInteger d locale n).mapError Failure.error = .error (.error e)) :
      e.kind ≠ .indexingConflict := by
    rcases hn : Rendering.ofInteger d locale n with e' | rendering
    · rw [hn] at h
      cases h
      apply kind_of_ofInteger hn
    · rw [hn] at h
      cases h
  cases argument
  case float v => apply kind_of_ofFloat h
  case bool value =>
    rw [rendering] at h
    split at h
    · cases h
    · cases h
    · apply hinteger _ h
  case char value =>
    rw [rendering] at h
    split at h
    · cases h
    · cases h
    · apply hinteger _ h
  case int32 value => apply hinteger _ h
  case uint32 value => apply hinteger _ h
  case int64 value => apply hinteger _ h
  case uint64 value => apply hinteger _ h
  all_goals
    cases h
    try rintro ⟨⟩

/-! ### Formatters without conflicts -/

namespace Formatter

/-- A formatter fails with no conflict. -/
def ConflictFree (f : Formatter H α) : Prop :=
  ∀ world e, (f world).result = .error (.error e) → e.kind ≠ .indexingConflict

namespace ConflictFree

theorem bind {f : Formatter H α} {g : α → Formatter H β} (hf : f.ConflictFree)
    (hg : ∀ a, (g a).ConflictFree) :
  ConflictFree (f >>= g)
  := by
  intro world e h
  rcases result_bind_error_iff.mp h with h | ⟨a, _, h⟩
  · apply hf world e h
  · apply hg a _ e h

theorem write (spans : List Span) :
  ConflictFree (write spans : Formatter H Unit)
  := by
  rintro _ _ ⟨⟩

theorem ofChecked {r : Except FormatError α} (hr : BraceFormat.ConflictFree r) :
  ConflictFree (ofChecked r : Formatter H α)
  := by
  cases r with
  | error e =>
    rintro _ _ ⟨⟩
    apply hr e rfl
  | ok a => rintro _ _ ⟨⟩

/-- A change of places makes no conflict. -/
theorem mapError {f : Formatter H α} (hf : f.ConflictFree) {k : FormatError → FormatError}
    (hk : ∀ e, (k e).kind = e.kind) :
  ConflictFree (f.mapError k)
  := by
  intro world e h
  obtain ⟨e', he', rfl⟩ := result_mapError_error_iff.mp h
  rw [hk]
  apply hf world e' he'

end ConflictFree

end Formatter

/-! ### Values that write themselves as text -/

namespace Writer

theorem conflictFree_format (writer : Writer H) (d : Directive) :
  (writer.format d).ConflictFree
  := by
  intro world e h
  cases failure_of_format h
  rintro ⟨⟩

end Writer

namespace Handler

/-- Without references there is no conflict. -/
theorem conflictFree_readStandalone {text : List Char} (htext : ∀ c ∈ text, c ≠ '{') :
  ConflictFree (Directive.readStandalone text)
  := by
  have hnone := Mention.ofSpec_append htext 0 []
  rw [List.append_nil, Mention.ofSpec_nil] at hnone
  have hpasses := Specifier.passes_read text .undecided
  rw [hnone] at hpasses
  rw [Directive.readStandalone]
  rcases hread : Specifier.read text .undecided with ⟨e | spec, after⟩
  · rw [hread] at hpasses
    apply ConflictFree.error
    intro hconflict
    cases hpasses hconflict
  · apply Specifier.conflictFree_resolve

/-- Neither handler of values that write themselves as text finds a conflict where there are no
references. -/
theorem conflictFree_display (writer : H.Value → Writer H) (value : H.Value)
    {text : List Char} (htext : ∀ c ∈ text, c ≠ '{') :
  ((display writer).format value text).ConflictFree
  := by
  rw [display, format_ofReader]
  apply Formatter.ConflictFree.bind
  · apply Formatter.ConflictFree.ofChecked
    apply ConflictFree.bind (conflictFree_readStandalone htext)
    intro d
    apply ConflictFree.bind (d.conflictFree_check _)
    intro _
    apply ConflictFree.ok
  · intro d
    apply Writer.conflictFree_format

theorem conflictFree_inspect (writer : Bool → H.Value → Writer H) (value : H.Value)
    {text : List Char} (htext : ∀ c ∈ text, c ≠ '{') :
  ((inspect writer).format value text).ConflictFree
  := by
  rw [inspect, format_ofReader]
  apply Formatter.ConflictFree.bind
  · apply Formatter.ConflictFree.ofChecked
    apply ConflictFree.bind (conflictFree_readStandalone htext)
    intro d
    apply ConflictFree.bind (Directive.conflictFree_check _ _)
    intro _
    apply ConflictFree.ok
  · intro d
    apply Writer.conflictFree_format

end Handler

end BraceFormat
