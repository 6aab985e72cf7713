import BraceFormat.Proofs.Guarded.Decimal
import BraceFormat.Proofs.Rendering.Denotation
import BraceFormat.Proofs.Rendering.FloatText
import BraceFormat.Proofs.Rendering.IntegerText

/-!
# Layouts keep the number

The digits of a number are generated as a text in scientific notation, which is taken apart into
the digits and the exponent that are written in it (`Generated.readInWords?_text`). However these
are laid out again, the numeral stands for the digits, read as an integer, times the power of ten
of the last one (`Decimal.denotesDigits_positional`, `Decimal.denotesDigits_scientific`). So a
number in scientific notation shows as many digits behind the point as its precision says, and they
are those it is rounded to (`formatField_scientific`).
-/

namespace BraceFormat

open Guarded

variable {H : Host}

/-! ### Generated texts -/

/-- A text that digits are generated as, taken apart: a first digit, more digits behind a point, if
there is one, and an exponent, which has a sign only if it is negative. -/
structure Generated where
  first : Char
  fraction : Option (List Char)
  negative : Bool
  /-- The digits of the exponent. -/
  magnitude : List Char
  deriving DecidableEq, Repr

namespace Generated

/-- The text itself. -/
def text (g : Generated) : List Char :=
  g.first :: fractionText '.' g.fraction ++
    'e' :: ((if g.negative then ['-'] else []) ++ g.magnitude)

/-- The digits and the exponent that are written in a text. -/
def decimal (g : Generated) : Decimal where
  digits := g.first :: g.fraction.getD []
  exponent :=
    let magnitude : Nat := Nat.ofDigitChars 10 g.magnitude 0
    if g.negative then -magnitude else magnitude

/-- The digits are digits, and the exponent has some and is a word. -/
structure WellFormed (g : Generated) : Prop where
  digits : ∀ c ∈ g.decimal.digits, c.isDigit = true
  magnitude : IsDigits g.magnitude
  isWord : Nat.ofDigitChars 10 g.magnitude 0 < 0x80000000

variable {g : Generated}

/-- Of what stands in front of the exponent, the digits remain without the point. -/
theorem filter_mantissa (h : g.WellFormed) :
  (g.first :: fractionText '.' g.fraction).filter Char.isDigit = g.decimal.digits
  := by
  have hall : g.decimal.digits.filter Char.isDigit = g.decimal.digits :=
    List.filter_eq_self.mpr h.digits
  rw [decimal] at hall ⊢
  cases hfraction : g.fraction with
  | none =>
    rw [hfraction] at hall
    exact hall
  | some digits =>
    have hfirst : g.first.isDigit = true := h.digits _ (.head _)
    rw [hfraction, Option.getD_some, List.filter_cons_of_pos hfirst] at hall
    rw [fractionText, Option.elim_some, List.filter_cons_of_pos hfirst,
      List.filter_cons_of_neg (by decide)]
    exact hall

/-- The letter of the exponent does not stand in front of it. -/
theorem ne_letter_of_mem_mantissa (h : g.WellFormed) :
  ∀ c ∈ g.first :: fractionText '.' g.fraction, c ≠ 'e'
  := by
  have hdigit : ∀ c ∈ g.decimal.digits, c ≠ 'e' := by
    rintro _ hc rfl
    cases h.digits _ hc
  intro c hc
  rcases List.mem_cons.mp hc with rfl | hc
  · exact hdigit _ (.head _)
  · cases hfraction : g.fraction with
    | none =>
      rw [hfraction] at hc
      cases hc
    | some digits =>
      rw [hfraction] at hc
      rcases List.mem_cons.mp hc with rfl | hc
      · decide
      · apply hdigit
        rw [decimal, hfraction]
        exact .tail _ hc

/-- What is read from a text are the digits and the exponent that are written in it. -/
theorem readInWords?_text (h : g.WellFormed) :
  readInWords? g.text = some g.decimal
  := by
  rw [text, readInWords?_append (ne_letter_of_mem_mantissa h) h.magnitude.1 h.magnitude.2 h.isWord,
    filter_mantissa h]
  rfl

end Generated

/-! ### Numerals of layouts -/

/-- An exponent is written with its letter and sign, and with at least two digits; only then does a
zero stand in front. -/
structure ExponentMark.Writes (mark : ExponentMark) (e : Int) (upper : Bool) : Prop where
  letter : mark.letter = if upper then 'E' else 'e'
  negative : mark.negative = true ↔ e < 0
  two_le_length : 2 ≤ mark.digits.length
  length_eq_two : mark.digits.head? = some '0' → mark.digits.length = 2
  value : mark.value = e

/-- A text is that of a numeral without a sign, which stands for the digits of a decimal, read as an
integer, times the power of ten of the last one. -/
structure Numeral.DenotesDigits (n : Numeral) (d : Decimal) (text : List Char) : Prop where
  read : Numeral.read text = some n
  negative : n.negative = false
  magnitude : n.magnitude =
    Nat.ofDigitChars 10 d.digits 0 * (10 : Rat) ^ (d.exponent - d.digits.length + 1)

theorem Numeral.IsWritten.denotesDigits {n : Numeral} {d : Decimal} {text : List Char}
    (h : n.IsWritten text) (hnegative : n.negative = false) (hshows : n.Shows d) :
  n.DenotesDigits d text
  := by
  have hread := h.read_eq .minus
  have hplace : d.exponent + 1 - d.digits.length = d.exponent - d.digits.length + 1 := by omega
  rw [hnegative] at hread
  refine ⟨hread, hnegative, ?_⟩
  rw [hshows.magnitude_eq, Decimal.value, hplace]

namespace Decimal

variable {d : Decimal}

theorem writes_mark (d : Decimal) (upper : Bool) :
  (d.mark upper).Writes d.exponent upper
  := by
  refine ⟨rfl, decide_eq_true_iff, d.two_le_length_mark upper, fun hhead => ?_, d.value_mark upper⟩
  obtain ⟨c, rest, hnumeral, _, hzero⟩ := numeral_eq_cons d.exponent.natAbs
  rw [mark, hnumeral] at hhead ⊢
  cases rest with
  | nil => rfl
  | cons c' rest =>
    -- A numeral of two digits or more does not begin with a zero.
    have hc : c = '0' := by
      simpa using hhead
    rw [hzero hc] at hnumeral
    cases hnumeral

/-- Without an exponent, the digits stand for the number wherever the point is. -/
theorem denotesDigits_positional (h : IsDigits d.digits) :
  ∃ n : Numeral, n.mark = none ∧ n.DenotesDigits d d.positional
  := by
  obtain ⟨n, hnegative, hmark, hwritten, hshows⟩ := exists_numeral_positional h false
  exact ⟨n, hmark, hwritten.denotesDigits hnegative hshows⟩

/-- With an exponent, the digits stand for the number with the point behind the first one. -/
theorem denotesDigits_scientific (h : IsDigits d.digits) {lone : List Char}
    (hlone : lone = [] ∨ ∃ k, lone = '.' :: List.replicate k '0') (upper : Bool) :
  (d.scientificNumeral lone false upper).DenotesDigits d (d.scientific lone upper)
  := (isWritten_scientificNumeral h hlone false upper).denotesDigits rfl
    (shows_scientificNumeral h hlone false upper)

end Decimal

/-! ### Fields in scientific notation -/

/-- A numeral shows all digits of a decimal with the point behind the first one, and its
exponent. -/
structure Numeral.IsScientific (n : Numeral) (d : Decimal) (upper : Bool) : Prop where
  digits : n.whole ++ n.fraction = d.digits
  whole : n.whole.length = 1
  mark : ∃ mark ∈ n.mark, mark.Writes d.exponent upper
  magnitude : n.magnitude = d.value

/-- In the alternate form of scientific notation a point stands behind a single digit. -/
theorem exists_lone (alternate : Bool) :
  (if alternate then ['.'] else []) = [] ∨
    ∃ k, (if alternate then ['.'] else []) = '.' :: List.replicate k '0'
  := by
  cases alternate
  · exact .inl rfl
  · exact .inr ⟨0, rfl⟩

/-- With nothing or a point behind a single digit, scientific notation shows just the digits. -/
theorem Decimal.isScientific_scientificNumeral {d : Decimal} (h : IsDigits d.digits)
    (negative alternate upper : Bool) :
  (d.scientificNumeral (if alternate then ['.'] else []) negative upper).IsScientific d upper
  := by
  refine ⟨?digits, ?whole, ⟨d.mark upper, rfl, d.writes_mark upper⟩,
    (shows_scientificNumeral h (exists_lone alternate) negative upper).magnitude_eq⟩
  case digits =>
    rw [scientificNumeral]
    dsimp only
    split_ifs with hone halternate
    · rw [List.tail_cons, List.append_nil, List.take_of_length_le hone.le]
    · rw [List.tail_nil, List.append_nil, List.take_of_length_le hone.le]
    · exact List.take_append_drop 1 d.digits
  case whole =>
    have := List.length_pos_of_ne_nil h.1
    change (d.digits.take 1).length = 1
    rw [List.length_take]
    omega

/-- A text shows a number, rounded to a decimal, in scientific notation: its sign and all digits of
the decimal, as many of them behind the point as the precision says, padded to the width. -/
def Directive.ShowsScientific (d : Directive) (negative : Bool) (rounding : Decimal)
    (text : List Char) : Prop :=
  let lead := signText negative d.sign
  ∃ (n : Numeral) (body : List Char),
    Numeral.read (lead ++ body) = some n ∧ n.negative = negative ∧
    n.IsScientific rounding (d.presentation = some .exponentUpper) ∧
    n.fraction.length = d.precision.getD defaultPrecision ∧
    text =
      if d.zeroPad then lead ++ List.replicate (d.width - (lead ++ body).length) '0' ++ body
      else padded d.fill (d.alignOr .right) d.width lead body

theorem floatBody_of_scientific {d : Directive}
    (h : d.presentation = some .exponent ∨ d.presentation = some .exponentUpper)
    (locale : Locale) (magnitude : Nat) :
  floatBody d locale magnitude =
    withinDigits (d.precision.getD defaultPrecision) fun _ =>
      (Decimal.rounded (d.precision.getD defaultPrecision + 1)
        (Binary64.absolute magnitude)).scientific (if d.alternate then ['.'] else [])
          (d.presentation = some .exponentUpper)
  := by
  rw [floatBody]
  rcases h with hp | hp
  · rw [hp]
    rfl
  · rw [hp]
    rfl

/-- A finite number in scientific notation, with six digits behind the point where no precision is
given. If digits are generated for the precision, the text that they are generated as is read as the
number correctly rounded to one digit more than the precision. The text behind the sign shows all
of these digits, as many as the precision behind the point, and reads back as what the number is
rounded to. -/
theorem formatField_scientific {spec : List Char} {args : Arguments H}
    {numbering after : Numbering} {d : Directive}
    (hd : readDirective .float spec args numbering = .ok (d, after))
    (hscientific : d.presentation = some .exponent ∨ d.presentation = some .exponentUpper)
    {v : Binary64} (hv : v.isFinite = true) (locale : Locale) (world : World H) :
  let precision := d.precision.getD defaultPrecision
  let rounding := Decimal.rounded (precision + 1) (Binary64.absolute v.magnitude)
  let field := formatField (.float v) spec args locale numbering
  (field.CutShort world ↔ digitLimit < precision) ∧
    rounding.IsRounding (precision + 1) (Binary64.absolute v.magnitude) ∧
    readInWords? (generatedText rounding) = some rounding ∧
    (precision ≤ digitLimit → ∃ text, (field world).success? = some (text, after) ∧
      d.ShowsScientific v.negative rounding text)
  := by
  intro precision rounding field
  have hm : v.magnitude < Binary64.infinity := of_decide_eq_true hv
  have hdigits : IsDigits rounding.digits := isDigits_rounded (Nat.succ_ne_zero precision) _
  have hrounding : rounding.IsRounding (precision + 1) (Binary64.absolute v.magnitude) :=
    Decimal.isRounding_rounded (Nat.succ_pos precision) (Binary64.absolute_nonneg _)
  have hasked : d.digitsAsked = precision := by
    rw [Directive.digitsAsked]
    rcases hscientific with hp | hp
    · rw [hp]
    · rw [hp]
  refine ⟨?cut, hrounding, ?generated, fun hprecision => ?shown⟩
  case cut =>
    have hcut : field.CutShort world ↔ (Argument.float v).AsksTooManyDigits spec args numbering :=
      formatBuiltin_cutShort_iff
    refine hcut.trans ⟨?_, fun hlimit => ⟨v, d, after, rfl, hv, hd, hasked ▸ hlimit⟩⟩
    rintro ⟨_, d', after', ⟨⟩, _, hd', hlimit⟩
    cases hd.symm.trans hd'
    exact hasked ▸ hlimit
  case generated =>
    apply readInWords?_generatedText (isReadable_rounded hm (precision + 1))
  case shown =>
    let lead := signText v.negative d.sign
    let lone := if d.alternate then ['.'] else []
    let upper : Bool := d.presentation = some .exponentUpper
    let numeral := rounding.scientificNumeral lone v.negative upper
    let body := rounding.scientific lone upper
    have hread : Numeral.read (lead ++ body) = some numeral :=
      (Decimal.isWritten_scientificNumeral hdigits (exists_lone d.alternate) v.negative
        upper).read_eq d.sign
    have hshows : numeral.IsScientific rounding upper :=
      Decimal.isScientific_scientificNumeral hdigits v.negative d.alternate upper
    have hfraction : numeral.fraction.length = precision := by
      have hlength := congrArg List.length hshows.digits
      rw [List.length_append, hshows.whole, hrounding.length] at hlength
      omega
    have hrendering : (Argument.float v : Argument H).rendering d locale =
        .ok (.ofDirective d .right lead body) := by
      rw [Argument.rendering, Rendering.ofFloat, if_pos hv, floatBody_of_scientific hscientific,
        withinDigits_eq_ok_iff.mpr ⟨hprecision, rfl⟩]
      rfl
    have hbuiltin : (Argument.float v : Argument H).IsBuiltin := by
      constructor <;> rintro ⟨⟩
    refine ⟨_, Argument.success?_formatField hbuiltin hd hrendering world, numeral, body, hread, rfl,
      hshows, hfraction, ?_⟩
    rw [← padded_of_readDirective hd]
    rfl

/-! ### All layouts -/

/-- Laying out digits, with any exponent but the least and the greatest word, breaches no guard, and
the numeral stands for the digits as an integer times the power of ten of the last one, whether
there are zeros where the exponent asks for them or the exponent is written behind the digits.
Reading a generated text gives the digits and the exponent that are written in it. So a number in
scientific notation shows what it is rounded to, with as many digits behind the point as its
precision says. -/
theorem layouts_denote :
  (∀ d : Decimal, IsDigits d.digits → -0x80000000 < d.exponent → d.exponent < 0x7FFFFFFF →
    positionalInWords? d = some d.positional ∧
    (∃ n : Numeral, n.mark = none ∧ n.DenotesDigits d d.positional) ∧
    ∀ (lone : List Char) (upper : Bool), (lone = [] ∨ ∃ k, lone = '.' :: List.replicate k '0') →
      mantissa? d lone = some (d.mantissa lone) ∧
      ∃ n : Numeral, (∃ mark ∈ n.mark, mark.Writes d.exponent upper) ∧
        n.DenotesDigits d (d.mantissa lone ++ d.exponentMark upper)) ∧
  (∀ g : Generated, g.WellFormed → readInWords? g.text = some g.decimal) ∧
  ∀ (spec : List Char) (args : Arguments H) (numbering after : Numbering) (d : Directive),
    readDirective .float spec args numbering = .ok (d, after) →
    (d.presentation = some .exponent ∨ d.presentation = some .exponentUpper) →
    ∀ v : Binary64, v.isFinite = true → ∀ (locale : Locale) (world : World H),
      let precision := d.precision.getD defaultPrecision
      let rounding := Decimal.rounded (precision + 1) (Binary64.absolute v.magnitude)
      let field := formatField (.float v) spec args locale numbering
      (field.CutShort world ↔ digitLimit < precision) ∧
        rounding.IsRounding (precision + 1) (Binary64.absolute v.magnitude) ∧
        readInWords? (generatedText rounding) = some rounding ∧
        (precision ≤ digitLimit → ∃ text, (field world).success? = some (text, after) ∧
          d.ShowsScientific v.negative rounding text)
  := by
  refine ⟨fun d hdigits hlow hhigh => ⟨?words, d.denotesDigits_positional hdigits,
    fun lone upper hlone => ⟨mantissa?_eq hdigits.2 lone, ?scientific⟩⟩, ?generated, ?field⟩
  case words => exact positionalInWords?_eq ⟨hdigits.2, hlow, by omega⟩
  case scientific =>
    exact ⟨d.scientificNumeral lone false upper, ⟨d.mark upper, rfl, d.writes_mark upper⟩,
      d.denotesDigits_scientific hdigits hlone upper⟩
  case generated =>
    intro g hg
    exact g.readInWords?_text hg
  case field =>
    intro spec args numbering after d hd hscientific v hv locale world
    exact formatField_scientific hd hscientific hv locale world

/-- The digits of 1234.5 around the point, the text that those of 1.5e-7 are generated as, and 1234.5
in scientific notation. -/
theorem layouts_denote_tenths :
  let d : Decimal := ⟨['1', '2', '3', '4', '5'], 3⟩
  let positional := ['1', '2', '3', '4', '.', '5']
  let g : Generated := ⟨'1', some ['5'], true, ['7']⟩
  let spec := ['e']
  let args : Arguments ⟨Unit, Unit⟩ := .empty
  let directive : Directive :=
    { presentation := some .exponent, places := { presentation := 0 } }
  let v : Binary64 := ⟨0x40934A0000000000⟩
  let field := formatField (.float v) spec args .c .undecided
  let scientific := ['1', '.', '2', '3', '4', '5', '0', '0', 'e', '+', '0', '3']
  IsDigits d.digits ∧ -0x80000000 < d.exponent ∧ d.exponent < 0x7FFFFFFF ∧
    positionalInWords? d = some positional ∧
    (∃ n : Numeral, n.mark = none ∧ n.DenotesDigits d positional) ∧
    g.WellFormed ∧ readInWords? ['1', '.', '5', 'e', '-', '7'] = some ⟨['1', '5'], -7⟩ ∧
    readDirective .float spec args .undecided = .ok (directive, .undecided) ∧
    directive.presentation = some .exponent ∧ v.isFinite = true ∧
    (field ⟨none, ()⟩).success? = some (scientific, .undecided) ∧
    directive.ShowsScientific false
      (.rounded 7 (Binary64.absolute v.magnitude)) scientific
  := by
  intro d positional g spec args directive v field scientific
  have hdigits : IsDigits d.digits := ⟨List.cons_ne_nil _ _, List.all_eq_true.mp rfl⟩
  have hg : g.WellFormed :=
    ⟨List.all_eq_true.mp rfl, ⟨List.cons_ne_nil _ _, List.all_eq_true.mp rfl⟩, by decide⟩
  have hd : readDirective .float spec args .undecided = .ok (directive, .undecided) := rfl
  have hv : v.isFinite = true := rfl
  have hput : (field ⟨none, ()⟩).success? = some (scientific, .undecided) := by decide +kernel
  obtain ⟨hlayouts, hgenerated, hfield⟩ := layouts_denote (H := ⟨Unit, Unit⟩)
  obtain ⟨hwords, hpositional, _⟩ := hlayouts d hdigits (by decide) (by decide)
  obtain ⟨_, _, _, hshown⟩ := hfield spec args .undecided .undecided directive hd (.inl rfl) v hv
    .c ⟨none, ()⟩
  obtain ⟨text, htext, hshows⟩ := hshown (by decide)
  have hscientific : text = scientific :=
    (Prod.mk.inj (Option.some.inj (htext.symm.trans hput))).1
  rw [hscientific] at hshows
  exact ⟨hdigits, by decide, by decide, hwords, hpositional, hg, hgenerated g hg, hd, rfl, hv, hput,
    hshows⟩

end BraceFormat
