import BraceFormat.Proofs.Number.Overflow
import BraceFormat.Proofs.Rendering.Legal
import BraceFormat.Proofs.Rendering.Numeral
import BraceFormat.Proofs.Rendering.Padding

/-!
# Floating-point numbers as numerals

A finite number is shown as a numeral in every presentation, with one exception: a percentage is
a hundred times the number, rounded to a floating-point number again, and where this goes to the
infinity, the word for it is shown. The words for infinities and for no number are shown there,
and for the numbers that are not finite, and nowhere else (`Argument.put_float_numeral_iff`).
-/

namespace BraceFormat

variable {H : Host}

/-- The text of a floating-point number behind its sign is a numeral, with the separators of the
locale in the presentation that asks for it, and a percent sign behind it in the one for
percentages. -/
def Directive.ShowsNumeral (d : Directive) (locale : Locale) (body : List Char) : Prop :=
  ∃ numeral, IsNumeral (if d.presentation = some .locale then locale else .c) numeral ∧
    body = numeral ++ if d.presentation = some .percent then ['%'] else []

/-- A finite magnitude is shown as a percentage and is too large for that. -/
def Directive.Overflows (d : Directive) (magnitude : Nat) : Prop :=
  d.presentation = some .percent ∧
    Binary64.overflow ≤ Binary64.absolute magnitude * 100

/-! ### Finite numbers -/

section Finite

variable {d : Directive} {locale : Locale} {magnitude : Nat} {body : List Char}

theorem withinDigits_eq_ok_iff {precision : Nat} {text : Unit → List Char} :
  withinDigits precision text = .ok body ↔ precision ≤ digitLimit ∧ text () = body
  := by
  rw [withinDigits]
  split
  · next h => simp [h]
  · next h => simp [h]

/-- A finite magnitude is shown as a numeral, unless it is too large. -/
theorem showsNumeral_of_floatBody (h : floatBody d locale magnitude = .ok body)
    (hsmall : ¬d.Overflows magnitude) :
  d.ShowsNumeral locale body
  := by
  have hshown (hlocale : d.presentation ≠ some .locale)
      (hpercent : d.presentation ≠ some .percent) (hbody : IsNumeral .c body) :
      d.ShowsNumeral locale body :=
    ⟨body, by rw [if_neg hlocale]; exact hbody, by rw [if_neg hpercent, List.append_nil]⟩
  rcases hp : d.presentation with _ | presentation
  · simp only [floatBody, hp] at h
    exact hshown (by simp [hp]) (by simp [hp]) (isNumeral_of_plainForm h)
  · cases presentation
    case locale =>
      simp only [floatBody, hp] at h
      rcases hplain : plainForm d.precision d.alternate magnitude with failure | numeral
      · rw [hplain] at h
        cases h
      · rw [hplain] at h
        cases h
        refine ⟨locale.localize numeral, ?_, by simp [hp]⟩
        rw [if_pos hp]
        exact (isNumeral_of_plainForm hplain).localize locale
    case exponent | exponentUpper =>
      simp only [floatBody, hp, withinDigits_eq_ok_iff] at h
      obtain ⟨_, rfl⟩ := h
      apply hshown (by simp [hp]) (by simp [hp])
      apply isNumeral_scientific (isDigits_rounded (Nat.succ_ne_zero _) _)
      split
      · exact .behind (by simp)
      · exact .missing
    case fixed | fixedUpper =>
      simp only [floatBody, hp, withinDigits_eq_ok_iff] at h
      obtain ⟨_, rfl⟩ := h
      exact hshown (by simp [hp]) (by simp [hp]) (isPlain_fixedForm _ _ _).isNumeral
    case general | generalUpper =>
      simp only [floatBody, hp, withinDigits_eq_ok_iff] at h
      obtain ⟨_, rfl⟩ := h
      exact hshown (by simp [hp]) (by simp [hp]) (isNumeral_generalForm _ _ _ _)
    case percent =>
      simp only [floatBody, hp, withinDigits_eq_ok_iff] at h
      obtain ⟨_, rfl⟩ := h
      have hfinite : Binary64.nearest (Binary64.absolute magnitude * 100) < Binary64.infinity := by
        rw [Binary64.nearest_lt_infinity_iff]
        exact lt_of_not_ge fun hlarge => hsmall ⟨hp, hlarge⟩
      rw [percentForm, if_pos hfinite]
      refine ⟨_, ?_, by rw [if_pos hp]⟩
      rw [if_neg (by simp [hp])]
      exact (isPlain_fixedForm _ _ _).isNumeral
    all_goals
      simp only [floatBody, hp] at h
      cases h

/-- A percentage that is too large is shown by the word for infinity. -/
theorem floatBody_of_overflows (h : floatBody d locale magnitude = .ok body)
    (hlarge : d.Overflows magnitude) :
  ∃ marks, body = nonFiniteWord false false ++ marks
  := by
  obtain ⟨hp, hlarge⟩ := hlarge
  simp only [floatBody, hp, withinDigits_eq_ok_iff] at h
  obtain ⟨_, rfl⟩ := h
  have hinfinite :
      ¬Binary64.nearest (Binary64.absolute magnitude * 100) < Binary64.infinity := by
    rw [Binary64.nearest_lt_infinity_iff]
    exact hlarge.not_gt
  rw [percentForm, if_neg hinfinite, List.append_assoc]
  exact ⟨_, rfl⟩

end Finite

/-! ### Words -/

/-- A numeral behind a sign does not contain a word. -/
theorem Directive.ShowsNumeral.not_contains_word {d : Directive} {locale : Locale}
    {body : List Char} (h : d.ShowsNumeral locale body) (negative nan upper : Bool) :
  ¬nonFiniteWord nan upper <:+: signText negative d.sign ++ body
  := by
  obtain ⟨numeral, hnumeral, rfl⟩ := h
  have hbody : MayFollow (numeral ++ if d.presentation = some .percent then ['%'] else []) := by
    apply hnumeral.mayFollow
    split
    · exact ⟨mayFollow_nil.cons '%', by rintro _ ⟨⟩; exact .inr (by simp)⟩
    · exact mayFollow_nil
  apply IsSpaced.not_contains_word
  cases negative
  · cases d.sign
    · exact hbody.1
    · exact hbody.cons '+'
    · exact hbody.cons ' '
  · exact hbody.cons '-'

/-! ### All numbers -/

/-- A floating-point number is rendered as its sign and a numeral, or as its sign and a word. -/
theorem Rendering.ofFloat_eq_ok {d : Directive} (hd : d.check .float = .ok ())
    (hdigits : d.digitsAsked ≤ digitLimit) (v : Binary64) (locale : Locale) :
  ∃ r, ofFloat d locale v = .ok r ∧ r.lead = signText v.negative d.sign ∧
    ((v.isFinite = true ∧ ¬d.Overflows v.magnitude ∧ d.ShowsNumeral locale r.body) ∨
      ((v.isFinite = false ∨ d.Overflows v.magnitude) ∧
        ∃ nan upper marks, r.body = nonFiniteWord nan upper ++ marks))
  := by
  rw [ofFloat]
  dsimp only
  cases hv : v.isFinite with
  | true =>
    rw [if_pos rfl]
    rcases hbody : floatBody d locale v.magnitude with (e | _) | body
    · cases floatBody_ne_error hd e hbody
    · rw [floatBody_eq_tooManyDigits_iff hd] at hbody
      omega
    · refine ⟨_, rfl, rfl, ?_⟩
      by_cases hlarge : d.Overflows v.magnitude
      · obtain ⟨marks, hmarks⟩ := floatBody_of_overflows hbody hlarge
        exact .inr ⟨.inr hlarge, false, false, marks, hmarks⟩
      · exact .inl ⟨rfl, hlarge, showsNumeral_of_floatBody hbody hlarge⟩
  | false =>
    rw [if_neg Bool.false_ne_true]
    refine ⟨_, rfl, ?_, .inr ⟨.inl rfl, v.isNaN, d.presentation.any Presentation.isUpper,
      if d.presentation = some .percent then ['%'] else [], ?_⟩⟩
    · cases d.zeroPad <;> rfl
    · rw [ofDirective]
      split <;> simp

/-- A floating-point number that is put out without a width, in a legal presentation and with a
precision for which digits are generated, comes out as its sign and a body. The body is a
numeral just if the number is finite and is no percentage that is too large for a floating-point
number; otherwise, and only then, a word for infinity or for no number is part of the text. -/
theorem Argument.put_float_numeral_iff {d : Directive} (hd : d.check .float = .ok ())
    (hwidth : d.width = 0) (hdigits : d.digitsAsked ≤ digitLimit) (v : Binary64) (locale : Locale)
    (world : World H) :
  ∃ body,
    ((Argument.float v).put d locale world).success? =
      some (signText v.negative d.sign ++ body, ()) ∧
    (d.ShowsNumeral locale body ↔ v.isFinite = true ∧ ¬d.Overflows v.magnitude) ∧
    ((∃ nan upper, nonFiniteWord nan upper <:+: signText v.negative d.sign ++ body) ↔
      v.isFinite = false ∨ d.Overflows v.magnitude)
  := by
  obtain ⟨r, hr, hlead, hbody⟩ := Rendering.ofFloat_eq_ok hd hdigits v locale
  refine ⟨r.body, ?_, ?_⟩
  · apply success?_put_iff.mpr
    exact ⟨r, hr, by rw [hwidth, padded_zero, hlead]⟩
  · rcases hbody with ⟨hv, hsmall, hnumeral⟩ | ⟨hlarge, nan, upper, marks, hbody⟩
    · constructor
      · exact ⟨fun _ => ⟨hv, hsmall⟩, fun _ => hnumeral⟩
      · constructor
        · rintro ⟨nan, upper, hword⟩
          cases hnumeral.not_contains_word _ _ _ hword
        · rintro (h | h)
          · rw [hv] at h
            cases h
          · cases hsmall h
    · have hword : nonFiniteWord nan upper <:+: signText v.negative d.sign ++ r.body :=
        ⟨signText v.negative d.sign, marks, by rw [hbody, List.append_assoc]⟩
      constructor
      · constructor
        · intro hnumeral
          cases hnumeral.not_contains_word _ _ _ hword
        · rintro ⟨hv, hsmall⟩
          rcases hlarge with h | h
          · rw [hv] at h
            cases h
          · cases hsmall h
      · exact ⟨fun _ => hlarge, fun _ => ⟨nan, upper, hword⟩⟩

/-- The number one as a percentage. -/
theorem Argument.put_float_numeral_iff_one :
  let v : Binary64 := ⟨0x3FF0000000000000⟩
  let d : Directive := { presentation := some .percent }
  d.check .float = .ok () ∧ d.width = 0 ∧ d.digitsAsked ≤ digitLimit ∧
    ∃ body,
      ((Argument.float v).put d .c (⟨Option.none, ()⟩ : World ⟨Unit, Unit⟩)).success? =
        some (body, ()) ∧
      d.ShowsNumeral .c body ∧ ¬∃ nan upper, nonFiniteWord nan upper <:+: body
  := by
  intro v d
  have hdigits : d.digitsAsked ≤ digitLimit := by decide
  have hsmall : ¬d.Overflows v.magnitude := by
    rintro ⟨_, hlarge⟩
    have hvalue : Binary64.absolute v.magnitude = 1 := by
      have hsignificand : Binary64.significand v.magnitude = 2 ^ 52 := by decide
      have hscale : Binary64.scale v.magnitude = -52 := by decide
      rw [Binary64.absolute, hsignificand, hscale]
      norm_num
    have hstep : (1 : Rat) ≤ 2 ^ (971 : Int) := one_le_zpow₀ one_le_two (by decide)
    rw [hvalue, Binary64.overflow_eq] at hlarge
    generalize (2 : Rat) ^ (971 : Int) = step at hstep hlarge
    linarith
  obtain ⟨body, hput, hnumeral, hword⟩ :=
    put_float_numeral_iff (H := ⟨Unit, Unit⟩) (d := d) rfl rfl hdigits v .c ⟨Option.none, ()⟩
  refine ⟨rfl, rfl, hdigits, body, hput, hnumeral.mpr ⟨by decide, hsmall⟩, ?_⟩
  intro h
  rcases hword.mp h with ⟨⟨⟩⟩ | hlarge
  exact hsmall hlarge

/-- The largest finite number as a percentage. -/
theorem Argument.put_float_not_numeral :
  let v : Binary64 := ⟨0x7FEFFFFFFFFFFFFF⟩
  let d : Directive := { presentation := some .percent }
  v.isFinite = true ∧ d.check .float = .ok () ∧
    ((Argument.float v).put d .c (⟨Option.none, ()⟩ : World ⟨Unit, Unit⟩)).success? =
      some (['i', 'n', 'f', '%'], ()) ∧
    ¬d.ShowsNumeral .c ['i', 'n', 'f', '%'] ∧
    nonFiniteWord false false <:+: ['i', 'n', 'f', '%']
  := by
  intro v d
  have hlarge : d.Overflows v.magnitude := by
    refine ⟨rfl, ?_⟩
    have hvalue : Binary64.absolute v.magnitude = (2 ^ 53 - 1) * 2 ^ (971 : Int) := by
      have hsignificand : Binary64.significand v.magnitude = 2 ^ 53 - 1 := by decide
      have hscale : Binary64.scale v.magnitude = 971 := by decide
      rw [Binary64.absolute, hsignificand, hscale]
      norm_num
    have hpos : (0 : Rat) < 2 ^ (971 : Int) := zpow_pos two_pos 971
    rw [hvalue, Binary64.overflow_eq]
    generalize (2 : Rat) ^ (971 : Int) = step at hpos ⊢
    linarith
  have hinfinite :
      ¬Binary64.nearest (Binary64.absolute v.magnitude * 100) < Binary64.infinity := by
    rw [Binary64.nearest_lt_infinity_iff]
    exact hlarge.2.not_gt
  have hbody : floatBody d .c v.magnitude = .ok ['i', 'n', 'f', '%'] := by
    change withinDigits 6 (fun _ => percentForm 6 false v.magnitude) = _
    rw [withinDigits_eq_ok_iff]
    refine ⟨by decide, ?_⟩
    rw [percentForm, if_neg hinfinite]
    rfl
  have hword : nonFiniteWord false false <:+: ['i', 'n', 'f', '%'] := ⟨[], ['%'], rfl⟩
  have hfinite : v.isFinite = true := by decide
  refine ⟨hfinite, rfl, ?_, fun h => h.not_contains_word false false false hword, hword⟩
  apply success?_put_iff.mpr
  refine ⟨.ofDirective d .right [] ['i', 'n', 'f', '%'], ?_, rfl⟩
  rw [rendering, Rendering.ofFloat, if_pos hfinite, hbody]
  rfl

end BraceFormat
