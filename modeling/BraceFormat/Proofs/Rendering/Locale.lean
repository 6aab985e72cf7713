import BraceFormat.Rendering

/-!
# What renderings take from the locale

Only the presentation `n` shows numbers by the locale, and every other rendering is the same in
all of them (`Argument.rendering_of_locale`). In a locale without groups and with a full stop for
the point, integers are presented by `n` as they are in decimal (`Rendering.ofInteger_of_neutral`),
and floating-point numbers as they are without a presentation (`Rendering.ofFloat_of_neutral`).
-/

namespace BraceFormat

variable {H : Host}

/-! ### Locales without groups -/

namespace Locale

/-- A locale has no groups, and a full stop for the point. -/
structure Neutral (locale : Locale) : Prop where
  point : locale.point = '.'
  ungrouped : locale.separator = none ∨ locale.grouping = 0

variable {locale : Locale}

theorem separatorBefore_of_ungrouped (h : locale.separator = none ∨ locale.grouping = 0)
    (position : Nat) :
  locale.separatorBefore position = none
  := by
  rw [separatorBefore]
  split
  · next hgroups =>
    rcases h with h | h
    · apply h
    · rw [h] at hgroups
      cases hgroups.1
  · rfl

theorem group_of_ungrouped (h : locale.separator = none ∨ locale.grouping = 0)
    (digits : List Char) :
  locale.group digits = digits
  := by
  induction digits with
  | nil => rfl
  | cons digit digits ih =>
    rw [group, ih, separatorBefore_of_ungrouped h]
    rfl

/-- A neutral locale leaves every text as it is. -/
theorem Neutral.localize_eq (h : locale.Neutral) (numeral : List Char) :
  locale.localize numeral = numeral
  := by
  have hpoint : (fun ch => if ch = '.' then locale.point else ch) = id := by
    funext ch
    split
    · next hch => rw [h.point, hch, id]
    · rfl
  rw [localize, group_of_ungrouped h.ungrouped, hpoint, List.map_id,
    List.takeWhile_append_dropWhile]

end Locale

/-! ### Presentations other than `n` -/

section

variable {d : Directive} (h : d.presentation ≠ some .locale) (locale locale' : Locale)

include h

theorem Rendering.ofInteger_of_locale (n : Int) :
  ofInteger d locale n = ofInteger d locale' n
  := by
  have hdigits : integerDigits d.presentation locale n.natAbs =
      integerDigits d.presentation locale' n.natAbs := by
    rcases hp : d.presentation with _ | presentation
    · rfl
    · cases presentation
      case locale => cases h hp
      all_goals rfl
  rw [ofInteger, ofInteger]
  split
  · rfl
  · rw [hdigits]

theorem Rendering.ofFloat_of_locale (v : Binary64) :
  ofFloat d locale v = ofFloat d locale' v
  := by
  have hbody : floatBody d locale v.magnitude = floatBody d locale' v.magnitude := by
    simp only [floatBody]
    split
    · rfl
    · next hp => cases h hp
    all_goals rfl
  rw [ofFloat, ofFloat, hbody]

/-- A rendering by another presentation than `n` is the same in every locale. -/
theorem Argument.rendering_of_locale (argument : Argument H) :
  argument.rendering d locale = argument.rendering d locale'
  := by
  cases argument
  case float v => apply Rendering.ofFloat_of_locale h
  case none | custom | byteText | text | pointer => rfl
  all_goals simp only [rendering, Rendering.ofInteger_of_locale h locale locale']

end

/-! ### The presentation `n` in a neutral locale -/

section

variable {locale : Locale} (h : locale.Neutral) (d : Directive)

include h

theorem Rendering.ofInteger_of_neutral (n : Int) :
  ofInteger { d with presentation := some .locale } locale n =
    ofInteger { d with presentation := some .decimal } locale n
  := by
  have hdigits : integerDigits (some .locale) locale n.natAbs =
      integerDigits (some .decimal) locale n.natAbs :=
    congrArg some (Locale.group_of_ungrouped h.ungrouped _)
  simp only [ofInteger, hdigits]
  rfl

theorem Rendering.ofFloat_of_neutral (v : Binary64) :
  ofFloat { d with presentation := some .locale } locale v =
    ofFloat { d with presentation := none } locale v
  := by
  have hbody : floatBody { d with presentation := some .locale } locale v.magnitude =
      floatBody { d with presentation := none } locale v.magnitude := by
    have hlocalize : locale.localize = id := funext h.localize_eq
    simp only [floatBody, hlocalize]
    apply congrFun Except.map_id _
  rw [ofFloat, ofFloat, hbody]
  cases d.zeroPad <;> rfl

/-- Integers, truth values and characters are rendered by `n` as in decimal. -/
theorem Argument.rendering_of_neutral {argument : Argument H}
    (hkind : argument.kind.isInteger = true ∨ argument.kind = .bool ∨ argument.kind = .char) :
  argument.rendering { d with presentation := some .locale } locale =
    argument.rendering { d with presentation := some .decimal } locale
  := by
  cases argument
  case int32 | uint32 | int64 | uint64 | bool | char =>
    simp only [rendering, Rendering.ofInteger_of_neutral h]
  all_goals simp [kind, Kind.isInteger] at hkind

end

end BraceFormat
