import BraceFormat.Proofs.Number.Rounded
import BraceFormat.Proofs.Rendering.Denotation
import BraceFormat.Proofs.Rendering.FloatText
import BraceFormat.Proofs.Rendering.IntegerText

/-!
# General notation

In general notation a finite number shows digits that are correctly rounded. The exponent of the
first of them, after rounding, decides whether there is an exponent in the text. The digits stand
on the two sides of the point behind zeros (`exists_parts_positional`) or with one digit in front
of it (`exists_parts_mantissa`); in both cases what is left out are zeros at the end of the fraction
(`exists_generalFraction_append`), so the numeral stands for the decimal (`exists_isGeneral`).
-/

namespace BraceFormat

variable {H : Host}

/-! ### Parts of a decimal -/

namespace Decimal

variable {d : Decimal}

/-- Around the point stand zeros, if the number is below one, and the digits. -/
theorem exists_parts_positional (hexponent : d.exponent < d.digits.length) :
  ∃ whole fraction, d.positional = whole ++ fractionText '.' fraction ∧
    whole.length = d.exponent.toNat + 1 ∧
    whole ++ fraction.getD [] = List.replicate (-d.exponent).toNat '0' ++ d.digits
  := by
  rw [positional]
  by_cases hsmall : d.exponent < 0
  · have hzeros : (-d.exponent).toNat = (-d.exponent - 1).toNat + 1 := by omega
    rw [if_pos hsmall, hzeros]
    refine ⟨['0'], some (List.replicate (-d.exponent - 1).toNat '0' ++ d.digits), ?_, ?_, rfl⟩
    · rw [List.append_assoc]
      rfl
    · rw [Int.toNat_of_nonpos hsmall.le]
      rfl
  · have hzeros : (-d.exponent).toNat = 0 := by omega
    rw [if_neg hsmall, hzeros]
    dsimp only
    by_cases hshort : d.digits.length ≤ d.exponent.toNat + 1
    · have hlength : d.digits.length = d.exponent.toNat + 1 := by omega
      rw [if_pos hshort, hlength, Nat.sub_self]
      exact ⟨d.digits, none, rfl, hlength, List.append_nil _⟩
    · rw [if_neg hshort]
      refine ⟨d.digits.take (d.exponent.toNat + 1), some (d.digits.drop (d.exponent.toNat + 1)),
        rfl, ?_, List.take_append_drop _ _⟩
      rw [List.length_take]
      omega

/-- One digit stands in front of the point, and the others behind it. -/
theorem exists_parts_mantissa (hne : d.digits ≠ []) :
  ∃ whole fraction, d.mantissa [] = whole ++ fractionText '.' fraction ∧
    whole.length = 1 ∧ whole ++ fraction.getD [] = d.digits
  := by
  rw [mantissa]
  rcases hdigits : d.digits with _ | ⟨c, _ | ⟨c', rest⟩⟩
  · cases hne hdigits
  · exact ⟨[c], none, rfl, rfl, rfl⟩
  · exact ⟨[c], some (c' :: rest), rfl, rfl, rfl⟩

end Decimal

/-! ### What is left out -/

/-- What general notation leaves out are zeros at the end of the fraction. -/
theorem exists_generalFraction_append (alternate : Bool) (fraction : Option (List Char)) :
  ∃ dropped, (generalFraction alternate fraction).getD [] ++ List.replicate dropped '0' =
      fraction.getD [] ∧ (alternate = true → dropped = 0)
  := by
  rw [generalFraction]
  cases alternate with
  | true => exact ⟨0, List.append_nil _, fun _ => rfl⟩
  | false =>
    rw [if_neg Bool.false_ne_true]
    cases fraction with
    | none => exact ⟨0, rfl, fun _ => rfl⟩
    | some digits =>
      obtain ⟨zeros, hzeros⟩ := Decimal.exists_append_zeros digits
      have hkept (kept : List Char) : ((some kept).filter (· ≠ [])).getD [] = kept := by
        cases kept <;> rfl
      refine ⟨zeros, ?_, fun h => absurd h Bool.false_ne_true⟩
      rw [Option.map_some, hkept, Option.getD_some, ← hzeros]

/-- Where zeros are left out, a fraction that remains has a digit, and the last one is no zero. -/
theorem generalFraction_false {fraction : Option (List Char)} {digits : List Char}
    (h : digits ∈ generalFraction false fraction) :
  digits ≠ [] ∧ digits.getLast? ≠ some '0'
  := by
  rw [generalFraction, if_neg Bool.false_ne_true] at h
  obtain ⟨hkept, hne⟩ := Option.mem_filter_iff.mp h
  obtain ⟨whole, _, rfl⟩ := Option.map_eq_some_iff.mp hkept
  have hne := of_decide_eq_true hne
  refine ⟨hne, fun hlast => ?_⟩
  rw [List.getLast?_eq_some_getLast hne] at hlast
  have hzero := List.rdropWhile_last_not (· = '0') whole hne
  rw [Option.some.inj hlast] at hzero
  exact hzero rfl

/-! ### The numeral -/

namespace Numeral

/-- A numeral that stands for a decimal has its digits behind `front` zeros, except for zeros at
the end of the fraction, which are left out in other forms than the alternate one. In the
alternate form there is a point; in the other one a fraction has a digit, and the last one is no
zero. -/
structure KeepsDigits (n : Numeral) (d : Decimal) (front : Nat) (alternate : Bool)
    (body : List Char) : Prop where
  magnitude : n.magnitude = d.value
  digits : ∃ dropped,
    n.whole ++ n.fraction ++ List.replicate dropped '0' = List.replicate front '0' ++ d.digits ∧
      (alternate = true → dropped = 0)
  point : ∃ fraction : Option (List Char), n.fraction = fraction.getD [] ∧
    body = n.whole ++ fractionText '.' fraction ++ markText n.mark ∧
    (alternate = true → fraction.isSome = true) ∧
    (alternate = false → ∀ digits ∈ fraction, digits ≠ [] ∧ digits.getLast? ≠ some '0')

/-- A numeral shows a decimal in general notation: it keeps its digits, and has an exponent just if
the first one is too far from the point. Without an exponent all digits of the integer part stand
in front of the point, with an exponent there is one. -/
structure IsGeneral (n : Numeral) (d : Decimal) (alternate upper : Bool) (body : List Char) :
    Prop where
  keepsDigits : n.KeepsDigits d (if n.mark.isSome then 0 else (-d.exponent).toNat) alternate body
  mark_iff : n.mark.isSome = true ↔ d.exponent < -4 ∨ d.digits.length ≤ d.exponent
  plain : n.mark = none → n.whole.length = d.exponent.toNat + 1
  scientific : ∀ mark ∈ n.mark, n.whole.length = 1 ∧ mark.letter = (if upper then 'E' else 'e') ∧
    mark.value = d.exponent ∧ 2 ≤ mark.digits.length

end Numeral

variable {d : Decimal} {whole : List Char} {fraction : Option (List Char)} {front : Nat}
  {mark : Option ExponentMark}

/-- The digits of a decimal behind zeros make a numeral that stands for the decimal, with its point
and its exponent where they have to be for that. Leaving out zeros changes nothing about this. -/
theorem exists_keepsDigits (hd : IsDigits d.digits) (hwhole : whole ≠ [])
    (hdigits : whole ++ fraction.getD [] = List.replicate front '0' ++ d.digits)
    (hmark : ∀ m ∈ mark, m.WellFormed)
    (hplace : (mark.map ExponentMark.value).getD 0 - (fraction.getD []).length =
      d.exponent + 1 - d.digits.length) (negative alternate : Bool) :
  ∃ n : Numeral, n.negative = negative ∧ n.whole = whole ∧ n.mark = mark ∧
    let body := generalDigits alternate (whole ++ fractionText '.' fraction) ++
      Numeral.markText mark
    n.IsWritten body ∧ n.KeepsDigits d front alternate body
  := by
  have hall : ∀ c ∈ whole ++ fraction.getD [], c.isDigit = true := by
    rw [hdigits]
    exact (hd.zeros_append front).2
  have hfront : ∀ c ∈ whole, c.isDigit = true := fun c hc => hall c (List.mem_append_left _ hc)
  have hfraction : ∀ digits ∈ fraction, ∀ c ∈ digits, c.isDigit = true := by
    rintro digits rfl c hc
    apply hall c (List.mem_append_right _ hc)
  have hgeneral : ∀ digits ∈ generalFraction alternate fraction, ∀ c ∈ digits, c.isDigit = true :=
    fun _ => isDigit_of_mem_generalFraction hfraction
  obtain ⟨dropped, hkept, hnone⟩ := exists_generalFraction_append alternate fraction
  have hpoint : (alternate = true → (generalFraction alternate fraction).isSome = true) ∧
      (alternate = false → ∀ digits ∈ generalFraction alternate fraction,
        digits ≠ [] ∧ digits.getLast? ≠ some '0') := by
    constructor
    · rintro rfl
      rfl
    · rintro rfl digits
      apply generalFraction_false
  rw [generalDigits_append alternate hfront hfraction]
  generalize generalFraction alternate fraction = kept at hkept hgeneral hpoint
  refine ⟨⟨negative, whole, kept.getD [], mark⟩, rfl, rfl, rfl, ?isWritten,
    ⟨?magnitude, ⟨dropped, ?kept, hnone⟩, kept, rfl, rfl, hpoint⟩⟩
  case isWritten =>
    cases kept with
    | none => exact ⟨⟨hwhole, hfront⟩, by simp, hmark, [], rfl, .inr ⟨rfl, rfl⟩⟩
    | some digits => exact ⟨⟨hwhole, hfront⟩, hgeneral digits rfl, hmark, _, rfl, .inl rfl⟩
  case kept => rw [List.append_assoc, hkept, hdigits]
  case magnitude =>
    have hvalue : Nat.ofDigitChars 10 (whole ++ kept.getD []) 0 * 10 ^ dropped =
        Nat.ofDigitChars 10 d.digits 0 := by
      have hzeros := ofDigitChars_zeros front 0 d.digits
      rw [List.replicate_zero, List.append_nil, pow_zero, mul_one] at hzeros
      rw [← Decimal.ofDigitChars_append_zeros, List.append_assoc, hkept, hdigits, hzeros]
    have hlength := congrArg List.length hkept
    rw [List.length_append, List.length_replicate] at hlength
    have hexponent : (mark.map ExponentMark.value).getD 0 - (kept.getD []).length =
        dropped + (d.exponent + 1 - d.digits.length) := by omega
    rw [Numeral.magnitude, Numeral.exponent]
    dsimp only
    rw [hexponent, Decimal.ten_zpow_add, ← mul_assoc, ← Nat.cast_mul, hvalue, Decimal.value]

/-- The numeral of a decimal in general notation. -/
theorem exists_isGeneral (hd : IsDigits d.digits) (negative alternate upper : Bool) :
  ∃ n : Numeral, n.negative = negative ∧
    let body :=
      if d.exponent < -4 ∨ (d.digits.length : Int) ≤ d.exponent then
        generalDigits alternate (d.mantissa []) ++ d.exponentMark upper
      else generalDigits alternate d.positional
    n.IsWritten body ∧ n.IsGeneral d alternate upper body
  := by
  by_cases hfar : d.exponent < -4 ∨ (d.digits.length : Int) ≤ d.exponent
  · obtain ⟨whole, fraction, hmantissa, hone, hdigits⟩ := d.exists_parts_mantissa hd.1
    obtain ⟨mark, htext, hletter, hvalue, hmark, hlength⟩ := d.exists_exponentMark_eq upper
    have hplace : mark.value - (fraction.getD []).length = d.exponent + 1 - d.digits.length := by
      rw [hvalue, ← hdigits, List.length_append, hone]
      omega
    have hfront : whole ++ fraction.getD [] = List.replicate 0 '0' ++ d.digits := hdigits
    have hwellFormed : ∀ m ∈ some mark, m.WellFormed := by simpa using hmark
    obtain ⟨n, hnegative, hwhole, hn, hwritten, hkeeps⟩ := exists_keepsDigits hd
      (List.ne_nil_of_length_pos (by omega)) hfront hwellFormed hplace negative alternate
    refine ⟨n, hnegative, ?_⟩
    rw [if_pos hfar, hmantissa, htext]
    refine ⟨hwritten, ?_, ?_, ?_, ?_⟩
    · rw [hn]
      exact hkeeps
    · rw [hn]
      exact ⟨fun _ => hfar, fun _ => rfl⟩
    · rw [hn]
      rintro ⟨⟩
    · rw [hn, hwhole]
      rintro _ ⟨⟩
      exact ⟨hone, hletter, hvalue, hlength⟩
  · obtain ⟨whole, fraction, hpositional, hlength, hdigits⟩ :=
      d.exists_parts_positional (by omega)
    have hplace : 0 - ((fraction.getD []).length : Int) = d.exponent + 1 - d.digits.length := by
      have := congrArg List.length hdigits
      rw [List.length_append, List.length_append, List.length_replicate] at this
      omega
    have hwellFormed : ∀ m ∈ (none : Option ExponentMark), m.WellFormed := by rintro _ ⟨⟩
    obtain ⟨n, hnegative, hwhole, hn, hwritten, hkeeps⟩ := exists_keepsDigits hd
      (List.ne_nil_of_length_pos (by omega)) hdigits hwellFormed hplace negative alternate
    refine ⟨n, hnegative, ?_⟩
    rw [Numeral.markText_none, List.append_nil, ← hpositional] at hwritten hkeeps
    rw [if_neg hfar]
    refine ⟨hwritten, ?_, ?_, ?_, ?_⟩
    · rw [hn]
      exact hkeeps
    · rw [hn]
      exact ⟨fun h => absurd h Bool.false_ne_true, fun h => absurd h hfar⟩
    · rw [hn, hwhole]
      exact fun _ => hlength
    · rw [hn]
      rintro _ ⟨⟩

/-! ### Fields of floating-point numbers -/

/-- The directive asks for general notation in a locale: by its presentation, or by a precision
where numbers are shown by none or by the one for locales, without separators. -/
def Directive.ShowsGeneral (d : Directive) (locale : Locale) : Prop :=
  d.presentation = some .general ∨ d.presentation = some .generalUpper ∨
    d.precision.isSome = true ∧
      (d.presentation = none ∨ d.presentation = some .locale ∧ locale.Neutral)

theorem floatBody_of_showsGeneral {d : Directive} {locale : Locale} (h : d.ShowsGeneral locale)
    (hdigits : d.digitsAsked ≤ digitLimit) (magnitude : Nat) :
  floatBody d locale magnitude = .ok (generalForm (d.precision.getD defaultPrecision) d.alternate
    (d.presentation = some .generalUpper) (Binary64.absolute magnitude))
  := by
  rw [Directive.digitsAsked] at hdigits
  rw [floatBody]
  rcases h with hp | hp | ⟨hsome, hp⟩
  · rw [hp] at hdigits ⊢
    exact withinDigits_eq_ok_iff.mpr ⟨hdigits, rfl⟩
  · rw [hp] at hdigits ⊢
    exact withinDigits_eq_ok_iff.mpr ⟨hdigits, rfl⟩
  · obtain ⟨precision, hprecision⟩ := Option.isSome_iff_exists.mp hsome
    rw [hprecision] at hdigits ⊢
    have hplain (hdigits : max 1 precision - 1 ≤ digitLimit) :
        plainForm (some precision) d.alternate magnitude =
          .ok (generalForm precision d.alternate false (Binary64.absolute magnitude)) := by
      rw [plainForm, withinDigits_eq_ok_iff]
      exact ⟨hdigits, rfl⟩
    rcases hp with hp | ⟨hp, hlocale⟩
    · rw [hp] at hdigits ⊢
      exact hplain hdigits
    · rw [hp] at hdigits ⊢
      dsimp only
      rw [hplain hdigits, Except.map, hlocale.localize_eq]
      rfl

/-- A finite number in general notation: with `g` or `G`, or with a precision and no presentation,
or with a precision and `n` in a locale without separators, if digits are generated for the
precision. Six digits are shown where no precision is given, and one at least.

The text behind the sign shows the number correctly rounded to that many digits: it reads back as
this decimal, has an exponent just if that of the first digit is below -4 or not below the number
of digits, and leaves out zeros at the end of the fraction, with the point if no digit remains,
and no other zeros. In the alternate form all digits and the point are there. -/
theorem formatField_generalNotation {spec : List Char} {args : Arguments H}
    {numbering after : Numbering} {d : Directive}
    (hd : readDirective .float spec args numbering = .ok (d, after)) {locale : Locale}
    (hgeneral : d.ShowsGeneral locale) (hdigits : d.digitsAsked ≤ digitLimit) {v : Binary64}
    (hv : v.isFinite = true) (world : World H) :
  let count := max 1 (d.precision.getD defaultPrecision)
  let lead := signText v.negative d.sign
  ∃ (rounding : Decimal) (n : Numeral) (body : List Char),
    rounding.IsRounding count (Binary64.absolute v.magnitude) ∧
    Numeral.read (lead ++ body) = some n ∧ n.negative = v.negative ∧
    n.IsGeneral rounding d.alternate (d.presentation = some .generalUpper) body ∧
    (formatField (.float v) spec args locale numbering world).success? =
      some (if d.zeroPad then lead ++ List.replicate (d.width - (lead ++ body).length) '0' ++ body
        else padded d.fill (d.alignOr .right) d.width lead body, after)
  := by
  intro count lead
  have hrounding : Decimal.IsRounding count (Binary64.absolute v.magnitude)
      (Decimal.rounded count (Binary64.absolute v.magnitude)) :=
    Decimal.isRounding_rounded (by omega) (Binary64.absolute_nonneg _)
  have hrounded : IsDigits (Decimal.rounded count (Binary64.absolute v.magnitude)).digits :=
    isDigits_rounded (by omega) _
  obtain ⟨n, hnegative, hwritten, hn⟩ := exists_isGeneral hrounded v.negative d.alternate
    (d.presentation = some .generalUpper)
  rw [hrounding.length] at hwritten hn
  refine ⟨_, n, _, hrounding, ?_, hnegative, hn, ?_⟩
  · have hread := hwritten.read_eq d.sign
    rwa [hnegative] at hread
  · rw [← padded_of_readDirective hd]
    have hrendering : (Argument.float v : Argument H).rendering d locale =
        .ok (.ofDirective d .right lead (generalForm (d.precision.getD defaultPrecision) d.alternate
          (d.presentation = some .generalUpper) (Binary64.absolute v.magnitude))) := by
      rw [Argument.rendering, Rendering.ofFloat, if_pos hv,
        floatBody_of_showsGeneral hgeneral hdigits]
      rfl
    have hbuiltin : (Argument.float v : Argument H).IsBuiltin := by
      constructor <;> rintro ⟨⟩
    exact Argument.success?_formatField hbuiltin hd hrendering world

/-- The number 99.5 with two digits, which round up to a power of ten. -/
theorem formatField_generalNotation_carry :
  let v : Binary64 := ⟨0x4058E00000000000⟩
  let spec := ['.', '2', 'g']
  let args : Arguments ⟨Unit, Unit⟩ := .empty
  let world : World ⟨Unit, Unit⟩ := ⟨none, ()⟩
  let d : Directive :=
    { precision := some 2, presentation := some .general, places := { presentation := 2 } }
  readDirective .float spec args .undecided = .ok (d, .undecided) ∧ d.ShowsGeneral .c ∧
    d.digitsAsked ≤ digitLimit ∧ v.isFinite = true ∧
    (formatField (.float v) spec args .c .undecided world).success? =
      some (['1', 'e', '+', '0', '2'], .undecided) ∧
    ∃ (rounding : Decimal) (n : Numeral),
      rounding.IsRounding 2 (Binary64.absolute v.magnitude) ∧
      Numeral.read ['1', 'e', '+', '0', '2'] = some n ∧ n.magnitude = rounding.value
  := by
  intro v spec args world d
  have hd : readDirective .float spec args .undecided = .ok (d, .undecided) := rfl
  have hgeneral : d.ShowsGeneral .c := .inl rfl
  have hdigits : d.digitsAsked ≤ digitLimit := by decide
  have hv : v.isFinite = true := rfl
  have hput : (formatField (.float v) spec args .c .undecided world).success? =
      some (['1', 'e', '+', '0', '2'], .undecided) := by
    decide +kernel
  obtain ⟨rounding, n, body, hrounding, hread, _, hn, hbody⟩ :=
    formatField_generalNotation hd hgeneral hdigits hv world
  have htext : padded ' ' .right 0 [] body = ['1', 'e', '+', '0', '2'] :=
    (Prod.mk.inj (Option.some.inj (hbody.symm.trans hput))).1
  rw [padded_zero] at htext
  rw [← htext]
  refine ⟨hd, hgeneral, hdigits, hv, ?_, rounding, n, hrounding, hread, hn.keepsDigits.magnitude⟩
  rw [htext, hput]

end BraceFormat
