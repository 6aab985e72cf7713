import BraceFormat.Proofs.Call.Exchange
import BraceFormat.Proofs.Rendering.IntegerText

/-!
# Integers of any width

An integer is known to a call by its value alone. Arguments that hold the same integer can be
exchanged for one another, whatever the width is in which they hold it and whether it has a sign,
and so no call tells them apart. In the presentations of integers, a truth value and a character
are put out as the integers that they stand for (`run_of_integerWidth`).
-/

namespace BraceFormat

variable {H : Host}

/-- Two arguments are integers of the same value. -/
def Argument.SameInteger (argument argument' : Argument H) : Prop :=
  ∃ n, argument.integer? = some n ∧ argument'.integer? = some n

/-- The integer that a truth value stands for, zero or one, and the one that a character stands
for, its code. -/
def Argument.code? : Argument H → Option Int
  | .bool value => some value.toNat
  | .char value => some value.toNat
  | _ => Option.none

/-- A truth value or a character stands for the value of an integer. -/
def Argument.StandsFor (argument integer : Argument H) : Prop :=
  ∃ n, argument.code? = some n ∧ integer.integer? = some n

/-- A presentation shows an integer by digits, or as the character of which it is the code. -/
def ShowsInteger (presentation : Option Presentation) : Prop :=
  ∃ p, presentation = some p ∧ (p.isInteger = true ∨ p = .char)

section

variable {argument argument' : Argument H} {n : Int}

/-- The same directives are legal for integers of all kinds. -/
theorem Directive.check_of_integer? (h : argument.integer? = some n) (d : Directive) :
  d.check argument.kind = d.checkInteger
  := by
  cases argument
  case int32 | uint32 | int64 | uint64 => rfl
  all_goals cases h

theorem Argument.SameInteger.count?_eq (h : argument.SameInteger argument') :
  argument.count? = argument'.count?
  := by
  obtain ⟨n, hn, hn'⟩ := h
  rw [count?, count?, hn, hn']

theorem Argument.SameInteger.exchangeable (h : argument.SameInteger argument') :
  argument.Exchangeable (Presents fun _ => True) argument'
  := by
  obtain ⟨n, hn, hn'⟩ := h
  apply (isBuiltin_of_integer? hn).exchangeable (isBuiltin_of_integer? hn')
  · intro d _
    rw [Directive.check_of_integer? hn, Directive.check_of_integer? hn']
  · intro d _ locale
    rw [rendering_of_integer? hn, rendering_of_integer? hn']

/-! ### Truth values and characters -/

section

variable {d : Directive} (h : argument.code? = some n) (hshows : ShowsInteger d.presentation)

include h hshows

/-- Where integers are shown, the same directives are legal as for integers. -/
theorem Directive.check_of_code? :
  d.check argument.kind = d.checkInteger
  := by
  obtain ⟨p, hp, hshows⟩ := hshows
  cases argument
  case bool | char =>
    rw [Argument.kind, check, checkInteger, hp]
    rcases hshows with hshows | rfl
    · cases p <;> cases hshows <;> rfl
    · rfl
  all_goals cases h

/-- Where integers are shown, what stands for an integer is put out as this integer is. -/
theorem Argument.rendering_of_code? (locale : Locale) :
  argument.rendering d locale = (Rendering.ofInteger d locale n).mapError .error
  := by
  obtain ⟨p, hp, hshows⟩ := hshows
  cases argument
  case bool value =>
    cases h
    rw [rendering, hp]
    rcases hshows with hshows | rfl
    · cases p <;> cases hshows <;> rfl
    · rfl
  case char value =>
    cases h
    rcases hshows with hshows | rfl
    · rw [rendering, hp]
      cases p <;> cases hshows <;> rfl
    · have hcode : charOfCode? value.toNat = some value := by
        rw [charOfCode?, dif_pos ⟨Int.natCast_nonneg _, value.valid⟩]
        rfl
      simp only [rendering, Rendering.ofInteger, hp, hcode]
      rfl
  all_goals cases h

end

theorem Argument.isBuiltin_of_code? (h : argument.code? = some n) :
  argument.IsBuiltin
  := by
  cases argument
  case bool | char => constructor <;> rintro ⟨⟩
  all_goals cases h

theorem Argument.StandsFor.exchangeable (h : argument.StandsFor argument') :
  argument.Exchangeable (Presents ShowsInteger) argument'
  := by
  obtain ⟨n, hn, hn'⟩ := h
  apply (isBuiltin_of_code? hn).exchangeable (isBuiltin_of_integer? hn')
  · intro d hshows
    rw [Directive.check_of_code? hn hshows, Directive.check_of_integer? hn']
  · intro d hshows locale
    rw [rendering_of_code? hn hshows, rendering_of_integer? hn']

end

/-- A call is the same when integers among its arguments are exchanged for others of the same
value, wherever they stand, and whether they are put out or taken for a width or precision. By a
specifier with a presentation of integers, truth values and characters are put out as the integers
that they stand for, with the same errors, and calls are the same that have no other specifiers
and no references in them. -/
theorem run_of_integerWidth :
  (∀ args args' : Arguments H,
    args.Pointwise
      (fun argument argument' => argument = argument' ∨ argument.SameInteger argument') args' →
    ∀ (template : List Char) (locale : Option Locale),
      run template args locale = run template args' locale) ∧
  (∀ spec : List Char, Presents ShowsInteger spec →
    ∀ argument integer : Argument H, argument.StandsFor integer →
    ∀ (args : Arguments H) (locale : Locale) (numbering : Numbering),
      formatField argument spec args locale numbering =
        formatField integer spec args locale numbering) ∧
  ∀ args args' : Arguments H,
    args.Pointwise
      (fun argument argument' => argument = argument' ∨ argument.StandsFor argument') args' →
    ∀ template : List Char,
      (Template.read template).SpecifiersAre
        (fun spec => Presents ShowsInteger spec ∧ ReferenceFree spec) →
      ∀ locale : Option Locale, run template args locale = run template args' locale
  := by
  refine ⟨?_, ?_, ?_⟩
  · intro args args' h template locale
    have hexchange := h.of_eq_or (Argument.Exchangeable.refl _)
      fun _ _ hsame => hsame.exchangeable
    have hcounts : args.Pointwise
        (fun argument argument' => argument.count? = argument'.count?) args' :=
      h.of_eq_or (fun _ => rfl) fun _ _ hsame => hsame.count?_eq
    apply run_of_exchangeable hexchange (hcounts.sameCounts.sameFields _)
    intro id spec _ s _ _
    trivial
  · intro spec hspec argument integer h
    exact h.exchangeable.formatField spec hspec
  · intro args args' h template hspecs locale
    have hexchange : args.Pointwise (Argument.Exchangeable
        fun spec => Presents ShowsInteger spec ∧ ReferenceFree spec) args' := by
      apply h.of_eq_or (Argument.Exchangeable.refl _)
      intro argument argument' hstands
      exact ⟨hstands.exchangeable.isNone,
        fun spec hspec => hstands.exchangeable.formatField spec hspec.1⟩
    apply run_of_exchangeable hexchange _ hspecs
    apply Arguments.sameFields_of_referenceFree
    intro spec hspec
    exact hspec.2

/-- A number in hexadecimal whose width is the other argument, a truth value with a sign, and a
character that is put out as the character of its code. -/
theorem run_of_integerWidth_hexadecimal :
  let args : Arguments ⟨Empty, Unit⟩ := .ofList [.int32 255, .uint64 6]
  let args' : Arguments ⟨Empty, Unit⟩ := .ofList [.uint64 255, .int32 6]
  let template := ['{', ':', '#', '{', '}', 'x', '}']
  let field (argument : Argument ⟨Empty, Unit⟩) (spec : List Char) :=
    formatField argument spec args .c .undecided
  args.Pointwise (fun argument argument' => argument = argument' ∨ argument.SameInteger argument')
      args' ∧
    run template args none = run template args' none ∧
    Presents ShowsInteger ['+', 'd'] ∧
    field (.bool true) ['+', 'd'] = field (.uint64 1) ['+', 'd'] ∧
    Presents ShowsInteger ['c'] ∧ field (.char 'é') ['c'] = field (.int32 233) ['c']
  := by
  intro args args' template field
  have hargs : args.Pointwise
      (fun argument argument' => argument = argument' ∨ argument.SameInteger argument') args' := by
    constructor
    · exact .cons (.inr ⟨255, rfl, rfl⟩) (.cons (.inr ⟨6, rfl, rfl⟩) .nil)
    · rfl
  have hpresents (sign : Option Sign) (p : Presentation) (hp : p.isInteger = true ∨ p = .char) :
      Presents ShowsInteger
        (⟨none, none, sign, false, false, none, none, some p⟩ : WrittenSpecifier).source := by
    apply presents_source
    · constructor
      · rintro _ ⟨⟩
      · rintro _ ⟨⟩
      · intro _
        apply Stops.nil
      · rintro _ ⟨⟩
    · exact ⟨p, rfl, hp⟩
  have hdecimal : Presents ShowsInteger ['+', 'd'] := hpresents (some .plus) .decimal (.inl rfl)
  have hchar : Presents ShowsInteger ['c'] := hpresents none .char (.inr rfl)
  obtain ⟨hrun, hfield, _⟩ := run_of_integerWidth (H := ⟨Empty, Unit⟩)
  exact ⟨hargs, hrun args args' hargs template none,
    hdecimal, hfield _ hdecimal _ _ ⟨1, rfl, rfl⟩ args .c .undecided,
    hchar, hfield _ hchar _ _ ⟨233, rfl, rfl⟩ args .c .undecided⟩

end BraceFormat
