import BraceFormat.Proofs.Call.DigitLimit
import BraceFormat.Proofs.Reference.ConflictFree

/-!
# What legal directives render

A table says which directives are legal for the arguments of a kind, and each rendering has
one of the presentations it shows. The two agree: where a directive is legal for an argument,
this is rendered, unless it is an integer that is to be shown as a character and is not the
code of one, or a number that asks for more digits than are ever generated
(`Argument.rendering_eq_error_iff`).
-/

namespace BraceFormat

variable {H : Host}

/-! ### Integers -/

/-- The numbers that are the code of no character. -/
theorem charOfCode?_eq_none_iff {n : Int} :
  charOfCode? n = none ↔ ∀ c : Char, (c.toNat : Int) ≠ n
  := by
  by_cases hn : 0 ≤ n ∧ n.toNat.isValidChar
  · have hsome : charOfCode? n = some (Char.ofNatAux n.toNat hn.2) := dif_pos hn
    rw [hsome]
    constructor
    · rintro ⟨⟩
    · intro h
      cases h (Char.ofNatAux n.toNat hn.2) (Int.toNat_of_nonneg hn.1)
  · have hnone : charOfCode? n = none := dif_neg hn
    rw [hnone]
    constructor
    · rintro _ c rfl
      exact hn ⟨Int.natCast_nonneg _, c.valid⟩
    · intro _
      rfl

/-- A presentation that shows integers shows them by digits. -/
theorem exists_integerDigits {presentation : Option Presentation}
    (h : ∀ p ∈ presentation, p.isInteger = true) (locale : Locale) (n : Nat) :
  ∃ digits, integerDigits presentation locale n = some digits
  := by
  cases presentation with
  | none => exact ⟨_, rfl⟩
  | some p =>
    have hp := h p rfl
    cases p
    all_goals first | exact ⟨_, rfl⟩ | cases hp

/-- An integer is rendered as a legal directive says, unless as a character that it is not the
code of. -/
theorem Rendering.ofInteger_eq_error_iff {d : Directive} (hd : d.checkInteger = .ok ())
    {locale : Locale} {n : Int} {e : FormatError} :
  ofInteger d locale n = .error e ↔
    e = .unplaced .invalidSpecifier ∧ d.presentation = some .char ∧ charOfCode? n = none
  := by
  have hdigits (hchar : d.presentation ≠ some .char) :
      ∃ digits, integerDigits d.presentation locale n.natAbs = some digits := by
    apply exists_integerDigits
    intro p hp
    rw [Directive.checkInteger, Option.mem_def.mp hp] at hd
    split at hd
    · next h => cases h
    · next h => cases hchar (Option.mem_def.mp hp ▸ h)
    · next h =>
      cases h
      split at hd
      · next hinteger => exact hinteger
      · cases hd
  rw [ofInteger]
  split
  · next hchar =>
    rw [hchar]
    cases charOfCode? n with
    | some c => simp
    | none => simp [eq_comm]
  · next hchar =>
    obtain ⟨digits, hdigits⟩ := hdigits hchar
    rw [hdigits]
    constructor
    · rintro ⟨⟩
    · rintro ⟨_, h, _⟩
      cases hchar h

/-! ### Floating-point numbers -/

/-- A finite number finds no error under a legal directive. -/
theorem floatBody_ne_error {d : Directive} (hd : d.check .float = .ok ()) {locale : Locale}
    {magnitude : Nat} (e : FormatError) :
  floatBody d locale magnitude ≠ .error (.error e)
  := by
  rw [Directive.check] at hd
  rcases hp : d.presentation with _ | presentation
  · simp only [floatBody, hp]
    apply plainForm_ne_error
  · rw [hp] at hd
    cases presentation
    case locale =>
      simp only [floatBody, hp]
      rcases hplain : plainForm d.precision d.alternate magnitude with (e' | _) | text
      · cases plainForm_ne_error e' hplain
      · rintro ⟨⟩
      · rintro ⟨⟩
    all_goals
      simp only [floatBody, hp]
      first | apply withinDigits_ne_error | cases hd

theorem Rendering.ofFloat_ne_error {d : Directive} (hd : d.check .float = .ok ())
    {locale : Locale} {v : Binary64} (e : FormatError) :
  ofFloat d locale v ≠ .error (.error e)
  := by
  rw [ofFloat]
  dsimp only
  split
  · rcases hbody : floatBody d locale v.magnitude with (e' | _) | text
    · cases floatBody_ne_error hd e' hbody
    · rintro ⟨⟩
    · rintro ⟨⟩
  · rintro ⟨⟩

/-! ### Arguments -/

namespace Argument

/-- A number that is the code of a character is rendered. -/
private theorem integer_ne_error {d : Directive} (hd : d.checkInteger = .ok ())
    {locale : Locale} {n : Nat} (hn : d.presentation = some .char → n.isValidChar)
    (e : FormatError) :
  (Rendering.ofInteger d locale n).mapError Failure.error ≠ .error (.error e)
  := by
  intro h
  rcases hinteger : Rendering.ofInteger d locale n with e' | rendering
  · obtain ⟨_, hchar, hnone⟩ := (Rendering.ofInteger_eq_error_iff hd).mp hinteger
    apply charOfCode?_eq_none_iff.mp hnone (Char.ofNatAux n (hn hchar))
    rfl
  · rw [hinteger] at h
    cases h

/-- A builtin argument finds an error under a legal directive just if it is an integer that is
to be shown as a character and is not the code of one. -/
theorem rendering_eq_error_iff {argument : Argument H} (hbuiltin : argument.IsBuiltin)
    {d : Directive} (hd : d.check argument.kind = .ok ()) {locale : Locale} {e : FormatError} :
  argument.rendering d locale = .error (.error e) ↔
    e = .unplaced .invalidSpecifier ∧ d.presentation = some .char ∧
      ∃ n, argument.integer? = some n ∧ ∀ c : Char, (c.toNat : Int) ≠ n
  := by
  have hinteger (n : Int) (hn : d.checkInteger = .ok ()) :
      (Rendering.ofInteger d locale n).mapError Failure.error = .error (.error e) ↔
        e = .unplaced .invalidSpecifier ∧ d.presentation = some .char ∧
          ∃ n', some n = some n' ∧ ∀ c : Char, (c.toNat : Int) ≠ n' := by
    have herror : Rendering.ofInteger d locale n = .error e ↔ _ :=
      Rendering.ofInteger_eq_error_iff hn
    simp only [Option.some.injEq, exists_eq_left', ← charOfCode?_eq_none_iff]
    rw [← herror]
    rcases Rendering.ofInteger d locale n with e' | rendering
    · constructor
      · rintro ⟨⟩
        rfl
      · rintro ⟨⟩
        rfl
    · constructor <;> rintro ⟨⟩
  have hnone (h : argument.rendering d locale ≠ .error (.error e))
      (hargument : argument.integer? = Option.none) :
      argument.rendering d locale = .error (.error e) ↔
        e = .unplaced .invalidSpecifier ∧ d.presentation = some .char ∧
          ∃ n, argument.integer? = some n ∧ ∀ c : Char, (c.toNat : Int) ≠ n := by
    simp [h, hargument]
  cases argument
  case none => cases hbuiltin.1 rfl
  case custom => cases hbuiltin.2 rfl
  case int32 value => exact hinteger _ hd
  case uint32 value => exact hinteger _ hd
  case int64 value => exact hinteger _ hd
  case uint64 value => exact hinteger _ hd
  case bool value =>
    apply hnone _ rfl
    rw [kind, Directive.check] at hd
    rw [rendering]
    split
    · rintro ⟨⟩
    · rintro ⟨⟩
    · next hstring hp =>
      rw [hp] at hd
      apply integer_ne_error
      · split at hd
        · next h => cases h
        · next h => cases hstring (Option.some.inj h)
        · exact hd
      · intro _
        cases value <;> decide
  case char value =>
    apply hnone _ rfl
    rw [kind, Directive.check] at hd
    rw [rendering]
    split
    · rintro ⟨⟩
    · rintro ⟨⟩
    · next hchar hp =>
      rw [hp] at hd
      apply integer_ne_error
      · split at hd
        · next h => cases h
        · next h => cases hchar (Option.some.inj h)
        · exact hd
      · intro _
        exact value.valid
  case float value =>
    apply hnone _ rfl
    exact Rendering.ofFloat_ne_error hd e
  all_goals
    apply hnone _ rfl
    rintro ⟨⟩

end Argument

end BraceFormat
