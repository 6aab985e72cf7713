import BraceFormat.Proofs.Guarded.Decimal
import BraceFormat.Proofs.Rendering.Locale
import Mathlib.Data.List.Chain
import Mathlib.Data.List.DropRight

/-!
# Decimal numerals

A numeral is written as digits, in groups if the locale has any, then a point and more digits,
then an exponent. Every notation of a finite number is one: the digits of a decimal are at least
one, they are cut at the point, and the zeros that are left out stand behind it
(`isNumeral_of_plainForm`, `isPlain_fixedForm`). Setting a numeral in the separators of a locale
gives a numeral of that locale (`IsNumeral.localize`).

In a numeral, of two characters in a row one is a digit or the second one is a mark that belongs
to an exponent; so whatever the separators are, it does not contain the words for infinities and
for no number (`IsNumeral.mayFollow`, `IsSpaced.not_contains_word`).
-/

namespace BraceFormat

open Guarded

/-! ### The grammar of numerals -/

/-- One or more decimal digits. -/
def IsDigits (text : List Char) : Prop := text ≠ [] ∧ ∀ c ∈ text, c.isDigit = true

/-- A fraction, which may be missing, or be a point without digits. -/
inductive IsFraction (point : Char) : List Char → Prop
  | missing : IsFraction point []
  | behind {digits : List Char} (hdigits : ∀ c ∈ digits, c.isDigit = true) :
      IsFraction point (point :: digits)

/-- An exponent, which may be missing. -/
inductive IsExponent : List Char → Prop
  | missing : IsExponent []
  | mark {letter sign : Char} {digits : List Char} (hletter : letter = 'e' ∨ letter = 'E')
      (hsign : sign = '+' ∨ sign = '-') (hdigits : IsDigits digits) :
      IsExponent (letter :: sign :: digits)

/-- A decimal numeral without an exponent, and without separators. -/
inductive IsPlain : List Char → Prop
  | intro {whole fraction : List Char} (hwhole : IsDigits whole)
      (hfraction : IsFraction '.' fraction) :
      IsPlain (whole ++ fraction)

/-- A decimal numeral with the separators of a locale. -/
inductive IsNumeral (locale : Locale) : List Char → Prop
  | intro {whole fraction exponent : List Char} (hwhole : IsDigits whole)
      (hfraction : IsFraction locale.point fraction) (hexponent : IsExponent exponent) :
      IsNumeral locale (locale.group whole ++ fraction ++ exponent)

/-- A point and the digits behind it, if there is one. -/
def fractionText (point : Char) (fraction : Option (List Char)) : List Char :=
  fraction.elim [] (point :: ·)

/-! ### Digits -/

theorem isDigits_replicate {n : Nat} (hn : n ≠ 0) :
  IsDigits (List.replicate n '0')
  := ⟨by simpa using hn, fun _ => isDigit_of_mem_replicate⟩

theorem IsDigits.append_zeros {digits : List Char} (h : IsDigits digits) (n : Nat) :
  IsDigits (digits ++ List.replicate n '0')
  := by
  refine ⟨List.append_ne_nil_of_left_ne_nil h.1 _, fun c hc => ?_⟩
  rcases List.mem_append.mp hc with hc | hc
  · exact h.2 c hc
  · exact isDigit_of_mem_replicate hc

theorem IsDigits.zeros_append {digits : List Char} (h : IsDigits digits) (n : Nat) :
  IsDigits (List.replicate n '0' ++ digits)
  := by
  refine ⟨List.append_ne_nil_of_right_ne_nil _ h.1, fun c hc => ?_⟩
  rcases List.mem_append.mp hc with hc | hc
  · exact isDigit_of_mem_replicate hc
  · exact h.2 c hc

theorem isDigits_numeral (n : Nat) :
  IsDigits (Nat.toDigits 10 n)
  := by
  obtain ⟨c, digits, hdigits, _⟩ := numeral_eq_cons n
  exact ⟨by simp [hdigits], fun _ => isDigit_of_mem_numeral⟩

theorem isDigits_scaledDigits (q : Rat) (power : Int) :
  IsDigits (Decimal.scaledDigits q power)
  := by
  refine ⟨?_, fun _ => isDigit_of_mem_scaledDigits⟩
  rw [Decimal.scaledDigits]
  apply List.append_ne_nil_of_left_ne_nil (isDigits_numeral _).1

theorem isDigits_rounded {count : Nat} (hcount : count ≠ 0) (q : Rat) :
  IsDigits (Decimal.rounded count q).digits
  := by
  refine ⟨?_, hasDigits_rounded count q⟩
  rw [Decimal.rounded]
  split
  · exact (isDigits_replicate hcount).1
  · dsimp only
    split
    · exact (isDigits_scaledDigits _ _).1
    · rw [ne_eq, List.take_eq_nil_iff, not_or]
      exact ⟨hcount, (isDigits_scaledDigits _ _).1⟩

theorem ofScaled_digits_ne_nil (n : Nat) (power : Int) :
  (Decimal.ofScaled n power).digits ≠ []
  := by
  rw [Decimal.ofScaled]
  dsimp only
  split
  · exact List.cons_ne_nil _ _
  · next h => exact h

theorem isDigits_shortest (magnitude : Nat) :
  IsDigits (Decimal.shortest magnitude).digits
  := by
  refine ⟨?_, hasDigits_shortest magnitude⟩
  rw [Decimal.shortest]
  split
  · exact List.cons_ne_nil _ _
  · have hfirst (fuel count : Nat) (hcount : count ≠ 0) :
        (Decimal.firstCandidate magnitude fuel count).digits ≠ [] := by
      induction fuel generalizing count with
      | zero => exact (isDigits_rounded hcount _).1
      | succ fuel ih =>
        rw [Decimal.firstCandidate]
        split
        · next h =>
          rw [Decimal.candidate] at h
          split at h <;> cases h <;> apply ofScaled_digits_ne_nil
        · exact ih _ (Nat.succ_ne_zero count)
    exact hfirst _ _ Nat.one_ne_zero

/-- A fraction is a point with digits behind it, or nothing. -/
theorem isFraction_iff {point : Char} {text : List Char} :
  IsFraction point text ↔ ∃ fraction, text = fractionText point fraction ∧
    ∀ digits ∈ fraction, ∀ c ∈ digits, c.isDigit = true
  := by
  constructor
  · rintro (_ | @⟨digits, hdigits⟩)
    · exact ⟨none, rfl, by rintro _ ⟨⟩⟩
    · exact ⟨some digits, rfl, by rintro _ ⟨⟩; exact hdigits⟩
  · rintro ⟨_ | digits, rfl, hdigits⟩
    · exact .missing
    · exact .behind (hdigits digits rfl)

/-! ### Layouts -/

namespace Decimal

variable {d : Decimal}

theorem isPlain_positional (h : IsDigits d.digits) :
  IsPlain d.positional
  := by
  rw [positional]
  split
  · have hzero : IsDigits ['0'] := isDigits_replicate Nat.one_ne_zero
    have hfraction := h.zeros_append (-d.exponent - 1).toNat
    simpa using IsPlain.intro hzero (.behind hfraction.2)
  · dsimp only
    split
    · have hwhole := h.append_zeros (d.exponent.toNat + 1 - d.digits.length)
      rw [← List.append_nil (d.digits ++ _)]
      exact .intro hwhole .missing
    · have hwhole : IsDigits (d.digits.take (d.exponent.toNat + 1)) := by
        refine ⟨?_, fun c hc => h.2 c (List.mem_of_mem_take hc)⟩
        rw [ne_eq, List.take_eq_nil_iff, not_or]
        exact ⟨Nat.succ_ne_zero _, h.1⟩
      exact .intro hwhole (.behind fun c hc => h.2 c (List.mem_of_mem_drop hc))

theorem isPlain_mantissa (h : IsDigits d.digits) {lone : List Char} (hlone : IsFraction '.' lone) :
  IsPlain (d.mantissa lone)
  := by
  have hsingle {c : Char} (hc : c.isDigit = true) : IsDigits [c] :=
    ⟨List.cons_ne_nil _ _, by simpa using hc⟩
  rw [mantissa]
  split
  · next hdigits => cases h.1 hdigits
  · next c hdigits =>
    rw [hdigits] at h
    exact .intro (hsingle (h.2 c (.head _))) hlone
  · next c rest _ hdigits =>
    rw [hdigits] at h
    exact .intro (hsingle (h.2 c (.head _))) (.behind fun c hc => h.2 c (.tail _ hc))

theorem isExponent_exponentMark (d : Decimal) (upper : Bool) :
  IsExponent (d.exponentMark upper)
  := by
  apply IsExponent.mark
  · cases upper
    · exact .inl rfl
    · exact .inr rfl
  · split
    · exact .inr rfl
    · exact .inl rfl
  · exact (isDigits_numeral _).zeros_append _

end Decimal

/-! ### General notation -/

/-- There is no point among digits. -/
theorem point_notMem_digits {digits : List Char} (h : ∀ c ∈ digits, c.isDigit = true) :
  '.' ∉ digits
  := by
  intro hmem
  cases h '.' hmem

/-- The zeros that are left out stand behind the point, which goes with the last of the digits. -/
theorem withoutFinalZeros_append (whole : List Char) {digits : List Char}
    (hdigits : ∀ c ∈ digits, c.isDigit = true) :
  withoutFinalZeros (whole ++ '.' :: digits) =
    whole ++ fractionText '.' ((some (digits.rdropWhile (· = '0'))).filter (· ≠ []))
  := by
  have hreverse : (whole ++ '.' :: digits).reverse = digits.reverse ++ '.' :: whole.reverse := by
    simp
  rw [withoutFinalZeros, hreverse, List.dropWhile_append, List.rdropWhile]
  rcases hkept : digits.reverse.dropWhile (· = '0') with _ | ⟨c, kept⟩
  · have hpoint : ('.' :: whole.reverse).dropWhile (· = '0') = '.' :: whole.reverse := rfl
    rw [List.isEmpty_nil, if_pos rfl, hpoint, List.head?_cons, if_pos rfl, List.tail_cons,
      List.reverse_reverse]
    exact (List.append_nil whole).symm
  · have hc : c ≠ '.' := by
      rintro rfl
      have hmem : '.' ∈ digits := by
        rw [← List.mem_reverse]
        apply (List.dropWhile_suffix _).subset
        rw [hkept]
        apply List.mem_cons_self
      apply point_notMem_digits hdigits hmem
    have hsome : ¬((c :: kept) ++ '.' :: whole.reverse).head? = some '.' := by simpa using hc
    have hne : (c :: kept).reverse ≠ [] := by simp
    rw [List.isEmpty_cons, if_neg Bool.false_ne_true, if_neg hsome,
      Option.filter_some, if_pos (decide_eq_true hne), List.reverse_append, List.reverse_cons,
      List.reverse_reverse, List.append_assoc]
    rfl

/-- What general notation makes of the digits behind the point. -/
def generalFraction (alternate : Bool) (fraction : Option (List Char)) : Option (List Char) :=
  if alternate then some (fraction.getD [])
  else (fraction.map fun digits => digits.rdropWhile (· = '0')).filter (· ≠ [])

/-- General notation leaves the digits in front of the point as they are. -/
theorem generalDigits_append (alternate : Bool) {whole : List Char}
    {fraction : Option (List Char)} (hwhole : ∀ c ∈ whole, c.isDigit = true)
    (hfraction : ∀ digits ∈ fraction, ∀ c ∈ digits, c.isDigit = true) :
  generalDigits alternate (whole ++ fractionText '.' fraction) =
    whole ++ fractionText '.' (generalFraction alternate fraction)
  := by
  cases fraction with
  | none =>
    have hpoint : '.' ∉ whole ++ fractionText '.' none := by
      rw [fractionText, Option.elim_none, List.append_nil]
      apply point_notMem_digits hwhole
    rw [generalDigits, if_neg hpoint, if_neg hpoint, generalFraction]
    split
    · rw [fractionText, Option.elim_none, List.append_nil]
      rfl
    · rfl
  | some digits =>
    have hpoint : '.' ∈ whole ++ fractionText '.' (some digits) := by simp [fractionText]
    rw [generalDigits, if_pos hpoint, if_pos hpoint, generalFraction]
    split
    · rfl
    · apply withoutFinalZeros_append whole (hfraction digits rfl)

/-- What general notation leaves behind the point are digits. -/
theorem isDigit_of_mem_generalFraction {alternate : Bool} {fraction : Option (List Char)}
    (hfraction : ∀ digits ∈ fraction, ∀ c ∈ digits, c.isDigit = true) {digits : List Char}
    (h : digits ∈ generalFraction alternate fraction) :
  ∀ c ∈ digits, c.isDigit = true
  := by
  rw [generalFraction] at h
  cases fraction with
  | none =>
    split at h
    · cases h
      rintro _ ⟨⟩
    · cases h
  | some digits' =>
    split at h
    · cases h
      apply hfraction _ rfl
    · obtain ⟨⟨⟩, _⟩ := Option.mem_filter_iff.mp h
      intro c hc
      apply hfraction digits' rfl c ((List.rdropWhile_prefix _ _).subset hc)

theorem isPlain_generalDigits {numeral : List Char} (h : IsPlain numeral) (alternate : Bool) :
  IsPlain (generalDigits alternate numeral)
  := by
  obtain @⟨whole, text, hwhole, htext⟩ := h
  obtain ⟨fraction, rfl, hfraction⟩ := isFraction_iff.mp htext
  have hdigits : ∀ digits ∈ generalFraction alternate fraction, ∀ c ∈ digits, c.isDigit = true :=
    fun _ => isDigit_of_mem_generalFraction hfraction
  rw [generalDigits_append alternate hwhole.2 hfraction]
  exact .intro hwhole (isFraction_iff.mpr ⟨_, rfl, hdigits⟩)

/-! ### Notations -/

/-- Without a separator there are no groups. -/
theorem Locale.group_c (digits : List Char) :
  Locale.c.group digits = digits
  := group_of_ungrouped (.inl rfl) digits

/-- Without separators a numeral is a plain one and an exponent. -/
theorem IsPlain.append_exponent {numeral exponent : List Char} (h : IsPlain numeral)
    (hexponent : IsExponent exponent) :
  IsNumeral .c (numeral ++ exponent)
  := by
  obtain @⟨whole, _, hwhole, hfraction⟩ := h
  rw [← Locale.group_c whole]
  exact .intro hwhole hfraction hexponent

theorem IsPlain.isNumeral {numeral : List Char} (h : IsPlain numeral) :
  IsNumeral .c numeral
  := by
  rw [← List.append_nil numeral]
  exact h.append_exponent .missing

theorem isNumeral_scientific {d : Decimal} (h : IsDigits d.digits) {lone : List Char}
    (hlone : IsFraction '.' lone) (upper : Bool) :
  IsNumeral .c (d.scientific lone upper)
  := (d.isPlain_mantissa h hlone).append_exponent (d.isExponent_exponentMark upper)

theorem isNumeral_generalForm (precision : Nat) (alternate upper : Bool) (q : Rat) :
  IsNumeral .c (generalForm precision alternate upper q)
  := by
  have hdigits : IsDigits (Decimal.rounded (max 1 precision) q).digits :=
    isDigits_rounded (by omega) q
  rw [generalForm]
  split
  · have hmantissa := Decimal.isPlain_mantissa hdigits .missing
    exact (isPlain_generalDigits hmantissa alternate).append_exponent
      (Decimal.isExponent_exponentMark _ upper)
  · exact (isPlain_generalDigits (Decimal.isPlain_positional hdigits) alternate).isNumeral

theorem isNumeral_shortestForm (alternate : Bool) (magnitude : Nat) :
  IsNumeral .c (shortestForm alternate magnitude)
  := by
  have hdigits := isDigits_shortest magnitude
  have hlone : IsFraction '.' ['.', '0'] := .behind (by simp)
  rw [shortestForm]
  split
  · have hplain := Decimal.isPlain_positional hdigits
    dsimp only
    split
    · next h =>
      -- Only a numeral without a point has a point added to it.
      generalize (Decimal.shortest magnitude).positional = numeral at hplain h
      obtain ⟨hwhole, _ | hbehind⟩ := hplain
      · rw [List.append_nil]
        exact (IsPlain.intro hwhole hlone).isNumeral
      · cases h.2 (by simp)
    · exact hplain.isNumeral
  · apply isNumeral_scientific hdigits
    split
    · exact hlone
    · exact .missing

/-- Where no presentation is given, a finite magnitude is shown as a numeral. -/
theorem isNumeral_of_plainForm {precision : Option Nat} {alternate : Bool} {magnitude : Nat}
    {text : List Char} (h : plainForm precision alternate magnitude = .ok text) :
  IsNumeral .c text
  := by
  cases precision with
  | none =>
    cases h
    apply isNumeral_shortestForm
  | some p =>
    rw [plainForm, withinDigits] at h
    split at h <;> cases h
    apply isNumeral_generalForm

/-- With a fixed count of digits behind the point there is at least one in front of it. -/
theorem isPlain_fixedForm (precision : Nat) (alternate : Bool) (q : Rat) :
  IsPlain (fixedForm precision alternate q)
  := by
  have hscaled := isDigits_scaledDigits q precision
  rw [fixedForm, fixedPoint]
  generalize Decimal.scaledDigits q precision = digits at hscaled
  have hpadded := hscaled.zeros_append (precision + 1 - digits.length)
  have hlength : precision <
      (List.replicate (precision + 1 - digits.length) '0' ++ digits).length := by
    rw [List.length_append, List.length_replicate]
    omega
  generalize List.replicate (precision + 1 - digits.length) '0' ++ digits = padded
    at hpadded hlength
  by_cases hprecision : precision = 0
  · rw [if_pos hprecision]
    split
    · exact .intro hpadded (.behind (by simp))
    · exact .intro hpadded .missing
  · rw [if_neg hprecision, if_neg fun h => hprecision h.2, List.append_nil]
    have hwhole : IsDigits (padded.take (padded.length - precision)) := by
      refine ⟨?_, fun c hc => hpadded.2 c (List.mem_of_mem_take hc)⟩
      rw [ne_eq, List.take_eq_nil_iff, not_or]
      exact ⟨by omega, hpadded.1⟩
    exact .intro hwhole (.behind fun c hc => hpadded.2 c (List.mem_of_mem_drop hc))

/-! ### Separators -/

/-- The parts of a numeral: digits, then digits behind a point, if there is one, and an exponent,
which may be missing. -/
structure ArePartsOfNumeral (whole : List Char) (fraction : Option (List Char))
    (exponent : List Char) : Prop where
  whole : IsDigits whole
  fraction : ∀ digits ∈ fraction, ∀ c ∈ digits, c.isDigit = true
  exponent : IsExponent exponent

/-- A numeral without separators has parts. -/
theorem IsNumeral.exists_parts {numeral : List Char} (h : IsNumeral .c numeral) :
  ∃ whole fraction exponent, ArePartsOfNumeral whole fraction exponent ∧
    numeral = whole ++ fractionText '.' fraction ++ exponent
  := by
  obtain @⟨whole, _, exponent, hwhole, hfraction, hexponent⟩ := h
  obtain ⟨fraction, rfl, hdigits⟩ := isFraction_iff.mp hfraction
  rw [Locale.group_c]
  exact ⟨whole, fraction, exponent, ⟨hwhole, hdigits, hexponent⟩, rfl⟩

namespace ArePartsOfNumeral

variable {whole : List Char} {fraction : Option (List Char)} {exponent : List Char}
  (h : ArePartsOfNumeral whole fraction exponent)

include h

/-- What follows the digits in front does not begin with a digit. -/
theorem stops :
  Stops Char.isDigit (fractionText '.' fraction ++ exponent)
  := by
  cases fraction with
  | some digits => exact Stops.cons rfl
  | none =>
    cases h.exponent with
    | missing => exact Stops.nil
    | mark hletter _ _ =>
      apply Stops.cons
      rcases hletter with rfl | rfl <;> rfl

/-- A numeral is set in the separators of a locale: the digits in front of the point are grouped,
the point is that of the locale, and the rest stays as it is. -/
theorem localize_eq (locale : Locale) :
  locale.localize (whole ++ fractionText '.' fraction ++ exponent) =
    locale.group whole ++ fractionText locale.point fraction ++ exponent
  := by
  have hkept {s : List Char} (hs : '.' ∉ s) :
      (s.map fun c => if c = '.' then locale.point else c) = s := by
    calc s.map (fun c => if c = '.' then locale.point else c)
      _ = s.map id := List.map_congr_left fun c hc => if_neg fun (heq : c = '.') => hs (heq ▸ hc)
      _ = s := List.map_id s
  have hfraction : ((fractionText '.' fraction).map fun c => if c = '.' then locale.point else c) =
      fractionText locale.point fraction := by
    cases fraction with
    | none => rfl
    | some digits =>
      change (if '.' = '.' then locale.point else '.') :: digits.map _ = locale.point :: digits
      rw [if_pos rfl, hkept (point_notMem_digits (h.fraction digits rfl))]
  have hexponent : (exponent.map fun c => if c = '.' then locale.point else c) = exponent := by
    apply hkept
    cases h.exponent with
    | missing => simp
    | mark hletter hsign hdigits =>
      have := point_notMem_digits hdigits.2
      rcases hletter with rfl | rfl <;> rcases hsign with rfl | rfl <;> simpa
  rw [Locale.localize, List.append_assoc, takeWhile_append_of_stops h.whole.2 h.stops,
    dropWhile_append_of_stops h.whole.2 h.stops, List.map_append, hfraction, hexponent,
    ← List.append_assoc]

/-- The parts are those of a numeral with the separators of a locale. -/
theorem isNumeral (locale : Locale) :
  IsNumeral locale (locale.group whole ++ fractionText locale.point fraction ++ exponent)
  := .intro h.whole (isFraction_iff.mpr ⟨fraction, rfl, h.fraction⟩) h.exponent

end ArePartsOfNumeral

/-- A numeral is set in the separators of a locale. -/
theorem IsNumeral.localize {numeral : List Char} (h : IsNumeral .c numeral) (locale : Locale) :
  IsNumeral locale (locale.localize numeral)
  := by
  obtain ⟨whole, fraction, exponent, hparts, rfl⟩ := h.exists_parts
  rw [hparts.localize_eq]
  apply hparts.isNumeral

/-! ### Words -/

/-- A character that may stand behind any other: a digit, or a mark that is part of a numeral. -/
def IsMark (c : Char) : Prop := c.isDigit = true ∨ c ∈ ['e', 'E', '+', '-', '%']

/-- Of two characters in a row the first is a digit, or the second may stand behind any other. -/
def IsSpaced (text : List Char) : Prop :=
  text.IsChain fun a b => a.isDigit = true ∨ IsMark b

theorem IsSpaced.digit_cons {c : Char} {text : List Char} (hc : c.isDigit = true)
    (h : IsSpaced text) :
  IsSpaced (c :: text)
  := List.isChain_cons.mpr ⟨fun _ _ => .inl hc, h⟩

theorem IsSpaced.digits_append {digits text : List Char}
    (hdigits : ∀ c ∈ digits, c.isDigit = true) (h : IsSpaced text) :
  IsSpaced (digits ++ text)
  := by
  induction digits with
  | nil => exact h
  | cons c digits ih =>
    exact .digit_cons (hdigits c (.head _)) (ih fun d hd => hdigits d (.tail _ hd))

/-- A text that may stand behind any character. -/
def MayFollow (text : List Char) : Prop := IsSpaced text ∧ ∀ c ∈ text.head?, IsMark c

theorem MayFollow.cons {text : List Char} (h : MayFollow text) (c : Char) :
  IsSpaced (c :: text)
  := List.isChain_cons.mpr ⟨fun y hy => .inr (h.2 y hy), h.1⟩

theorem MayFollow.digits_append {digits text : List Char}
    (hdigits : ∀ c ∈ digits, c.isDigit = true) (h : MayFollow text) :
  MayFollow (digits ++ text)
  := by
  refine ⟨h.1.digits_append hdigits, fun c hc => ?_⟩
  cases digits with
  | nil => exact h.2 c hc
  | cons d digits =>
    cases hc
    exact .inl (hdigits _ (.head _))

theorem mayFollow_nil :
  MayFollow []
  := ⟨List.IsChain.nil, by rintro _ ⟨⟩⟩

/-- A separator stands between two digits. -/
theorem mayFollow_group {locale : Locale} {digits text : List Char} (hdigits : IsDigits digits)
    (h : IsSpaced text) :
  MayFollow (locale.group digits ++ text)
  := by
  obtain ⟨hne, hdigits⟩ := hdigits
  induction digits with
  | nil => cases hne rfl
  | cons digit digits ih =>
    have hdigit := hdigits digit (.head _)
    rw [Locale.group, List.cons_append, List.cons_append, List.append_assoc]
    refine ⟨IsSpaced.digit_cons hdigit ?_, by rintro _ ⟨⟩; exact .inl hdigit⟩
    cases digits with
    | nil =>
      have hlast : locale.separatorBefore 0 = none := if_neg fun h => Nat.lt_irrefl 0 h.2.1
      simpa [hlast, Locale.group] using h
    | cons next digits =>
      have hrest := ih (List.cons_ne_nil _ _) fun c hc => hdigits c (.tail _ hc)
      cases locale.separatorBefore (next :: digits).length with
      | none => exact hrest.1
      | some c => exact hrest.cons c

/-- A numeral may stand behind any character, with anything behind it that may do so too. -/
theorem IsNumeral.mayFollow {locale : Locale} {numeral text : List Char}
    (h : IsNumeral locale numeral) (htext : MayFollow text) :
  MayFollow (numeral ++ text)
  := by
  obtain @⟨whole, fraction, exponent, hwhole, hfraction, hexponent⟩ := h
  rw [List.append_assoc, List.append_assoc]
  apply mayFollow_group hwhole
  have hbehind : MayFollow (exponent ++ text) := by
    cases hexponent with
    | missing => exact htext
    | @mark letter sign digits hletter hsign hdigits =>
      have hletter : IsMark letter := .inr (by rcases hletter with rfl | rfl <;> simp)
      have hsign : IsMark sign := .inr (by rcases hsign with rfl | rfl <;> simp)
      have hrest : MayFollow (sign :: (digits ++ text)) :=
        ⟨(htext.digits_append hdigits.2).cons sign, by rintro _ ⟨⟩; exact hsign⟩
      exact ⟨hrest.cons letter, by rintro _ ⟨⟩; exact hletter⟩
  cases hfraction with
  | missing => exact hbehind.1
  | behind hdigits => exact (hbehind.digits_append hdigits).cons _

/-- The words for infinities and for no number have two letters in a row, neither of which may
stand behind any character. -/
theorem IsSpaced.not_contains_word {text : List Char} (h : IsSpaced text) (nan upper : Bool) :
  ¬nonFiniteWord nan upper <:+: text
  := by
  intro hinfix
  have hword : IsSpaced (nonFiniteWord nan upper) := h.infix hinfix
  cases nan <;> cases upper <;> simp [IsSpaced, IsMark, nonFiniteWord] at hword

end BraceFormat
