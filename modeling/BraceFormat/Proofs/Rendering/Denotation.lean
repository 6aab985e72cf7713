import BraceFormat.Proofs.Number.Shortest
import BraceFormat.Proofs.Rendering.Numeral

/-!
# What numerals stand for

`Numeral.read` takes a text apart into a sign, digits in front of and behind the point, and an
exponent; a numeral so taken apart stands for a number, and has significant digits, from the
first one that is not zero to the last one. In every layout the digits of a decimal stand between
zeros, with the point and the exponent where they make up for these (`Numeral.Shows`), so the
numeral stands for the value of the decimal (`Numeral.Shows.magnitude_eq`).
-/

namespace BraceFormat

open Guarded

/-! ### Significant digits -/

/-- The digits without the zeros in front and at the end. -/
def significantDigits (digits : List Char) : List Char :=
  (digits.dropWhile (· = '0')).rdropWhile (· = '0')

theorem length_significantDigits_le (digits : List Char) :
  (significantDigits digits).length ≤ digits.length
  := ((List.rdropWhile_prefix _ _).length_le).trans (List.dropWhile_suffix _).length_le

/-- What is left out are zeros. -/
theorem exists_eq_significantDigits (digits : List Char) :
  ∃ front back, digits =
    List.replicate front '0' ++ significantDigits digits ++ List.replicate back '0'
  := by
  obtain ⟨back, hback⟩ := Decimal.exists_append_zeros (digits.dropWhile (· = '0'))
  use (digits.takeWhile (· = '0')).length, back
  have hfront : digits.takeWhile (· = '0') =
      List.replicate (digits.takeWhile (· = '0')).length '0' := by
    rw [List.eq_replicate_iff]
    exact ⟨rfl, fun c hc => by simpa using mem_takeWhile hc⟩
  rw [significantDigits, List.append_assoc, ← hback, ← hfront, List.takeWhile_append_dropWhile]

theorem significantDigits_zeros (front back : Nat) (digits : List Char) :
  significantDigits (List.replicate front '0' ++ digits ++ List.replicate back '0') =
    significantDigits digits
  := by
  have hzeros (n : Nat) : ∀ c ∈ List.replicate n '0', decide (c = '0') = true := by simp
  rw [significantDigits, List.append_assoc, List.dropWhile_append_of_pos (hzeros front),
    List.dropWhile_append]
  split
  · next hempty =>
    rw [significantDigits, List.isEmpty_iff.mp hempty, List.dropWhile_eq_nil_iff.mpr (hzeros back)]
  · rw [List.rdropWhile, List.reverse_append, List.reverse_replicate,
      List.dropWhile_append_of_pos (hzeros back)]
    rfl

/-- Zeros in front change nothing, those at the end are powers of ten. -/
theorem ofDigitChars_zeros (front back : Nat) (digits : List Char) :
  Nat.ofDigitChars 10 (List.replicate front '0' ++ digits ++ List.replicate back '0') 0 =
    Nat.ofDigitChars 10 digits 0 * 10 ^ back
  := by
  rw [Decimal.ofDigitChars_append_zeros, Nat.ofDigitChars_append, Nat.ofDigitChars_replicate_zero,
    Nat.mul_zero]

/-! ### Numerals -/

/-- The exponent of a numeral. -/
structure ExponentMark where
  letter : Char
  negative : Bool
  digits : List Char
  deriving DecidableEq, Repr

namespace ExponentMark

/-- The exponent that is written. -/
def value (mark : ExponentMark) : Int :=
  let magnitude : Nat := Nat.ofDigitChars 10 mark.digits 0
  if mark.negative then -magnitude else magnitude

/-- The text of an exponent. -/
def text (mark : ExponentMark) : List Char :=
  mark.letter :: (if mark.negative then '-' else '+') :: mark.digits

/-- An exponent with its letter and with digits. -/
def WellFormed (mark : ExponentMark) : Prop :=
  mark.letter ∈ ['e', 'E'] ∧ IsDigits mark.digits

end ExponentMark

/-- A decimal numeral taken apart. -/
structure Numeral where
  negative : Bool
  /-- The digits in front of the point. -/
  whole : List Char
  /-- The digits behind the point. -/
  fraction : List Char
  mark : Option ExponentMark
  deriving DecidableEq, Repr

namespace Numeral

/-- Reads a sign, which may be missing; a plus sign and a space are those of positive numbers. -/
def readSign : List Char → Bool × List Char
  | '-' :: rest => (true, rest)
  | '+' :: rest => (false, rest)
  | ' ' :: rest => (false, rest)
  | rest => (false, rest)

/-- Reads a point and the digits behind it, which may be missing. -/
def readFraction : List Char → List Char × List Char
  | '.' :: rest => (rest.takeWhile Char.isDigit, rest.dropWhile Char.isDigit)
  | rest => ([], rest)

/-- Reads an exponent, which may be missing, up to the end of the text. -/
def readMark : List Char → Option (Option ExponentMark)
  | [] => some none
  | letter :: sign :: digits =>
    if letter ∈ ['e', 'E'] ∧ sign ∈ ['+', '-'] ∧ digits ≠ [] ∧ digits.all Char.isDigit then
      some (some ⟨letter, sign = '-', digits⟩)
    else none
  | _ => none

/-- Reads a whole text as a numeral, with a digit at least in front of the point. -/
def read (text : List Char) : Option Numeral :=
  let signed := readSign text
  let whole := signed.2.takeWhile Char.isDigit
  let fraction := readFraction (signed.2.dropWhile Char.isDigit)
  if whole = [] then none
  else (readMark fraction.2).map fun mark => ⟨signed.1, whole, fraction.1, mark⟩

/-- The exponent that is written, zero if there is none. -/
def exponent (n : Numeral) : Int := (n.mark.map ExponentMark.value).getD 0

/-- The absolute value of the number that a numeral stands for. -/
def magnitude (n : Numeral) : Rat :=
  Nat.ofDigitChars 10 (n.whole ++ n.fraction) 0 * (10 : Rat) ^ (n.exponent - n.fraction.length)

/-- The digits from the first one that is not zero to the last one. -/
def significant (n : Numeral) : List Char := significantDigits (n.whole ++ n.fraction)

theorem exponent_of_none {n : Numeral} (h : n.mark = none) :
  n.exponent = 0
  := by
  rw [exponent, h]
  rfl

theorem exponent_of_some {n : Numeral} {mark : ExponentMark} (h : n.mark = some mark) :
  n.exponent = mark.value
  := by
  rw [exponent, h]
  rfl

/-! ### Numbers of numerals -/

theorem isDigit_of_read {text : List Char} {n : Numeral} (h : read text = some n) :
  ∀ c ∈ n.whole ++ n.fraction, c.isDigit = true
  := by
  have hfraction (rest : List Char) : ∀ c ∈ (readFraction rest).1, c.isDigit = true := by
    rw [readFraction.eq_def]
    split
    · exact fun c => mem_takeWhile
    · simp
  rw [read] at h
  split_ifs at h
  obtain ⟨mark, _, rfl⟩ := Option.map_eq_some_iff.mp h
  intro c hc
  rcases List.mem_append.mp hc with hc | hc
  · exact mem_takeWhile hc
  · exact hfraction _ c hc

/-- A numeral stands for its significant digits times a power of ten. -/
theorem exists_magnitude_eq {text : List Char} {n : Numeral} (h : read text = some n) :
  ∃ (digits : Nat) (place : Int), digits < 10 ^ n.significant.length ∧
    n.magnitude = digits * (10 : Rat) ^ place
  := by
  obtain ⟨front, back, hdigits⟩ := exists_eq_significantDigits (n.whole ++ n.fraction)
  refine ⟨Nat.ofDigitChars 10 n.significant 0, back + (n.exponent - n.fraction.length), ?_, ?_⟩
  · apply Decimal.ofDigitChars_lt
    intro c hc
    apply isDigit_of_read h
    rw [hdigits]
    simp only [List.mem_append]
    exact .inl (.inr hc)
  · rw [magnitude, hdigits, ofDigitChars_zeros, Decimal.ten_zpow_add, Nat.cast_mul, mul_assoc]
    rfl

/-- A numeral has the digits of a decimal between zeros, and its point and its exponent are where
they have to be for that. -/
def Shows (n : Numeral) (d : Decimal) : Prop :=
  ∃ front back : Nat,
    n.whole ++ n.fraction = List.replicate front '0' ++ d.digits ++ List.replicate back '0' ∧
    n.exponent - n.fraction.length + back = d.exponent + 1 - d.digits.length

variable {n : Numeral} {d : Decimal}

theorem Shows.magnitude_eq (h : n.Shows d) :
  n.magnitude = d.value
  := by
  obtain ⟨front, back, hdigits, hplace⟩ := h
  rw [magnitude, hdigits, ofDigitChars_zeros, Decimal.value, ← hplace, add_comm _ (back : Int),
    Decimal.ten_zpow_add, Nat.cast_mul, mul_assoc]

theorem Shows.significant_eq (h : n.Shows d) :
  n.significant = significantDigits d.digits
  := by
  obtain ⟨front, back, hdigits, _⟩ := h
  rw [significant, hdigits, significantDigits_zeros]

/-! ### Reading what is written -/

/-- The text of an exponent, which may be missing. -/
def markText (mark : Option ExponentMark) : List Char :=
  (mark.map ExponentMark.text).getD []

@[simp]
theorem markText_none :
  markText none = []
  := rfl

/-- A text without its sign is that of a numeral; without a fraction the point may be missing. -/
structure IsWritten (n : Numeral) (body : List Char) : Prop where
  whole : IsDigits n.whole
  fraction : ∀ c ∈ n.fraction, c.isDigit = true
  mark : ∀ mark ∈ n.mark, mark.WellFormed
  body_eq : ∃ point, body = n.whole ++ point ++ markText n.mark ∧
    (point = '.' :: n.fraction ∨ point = [] ∧ n.fraction = [])

theorem readSign_signText (negative : Bool) (sign : Sign) {c : Char} (hc : c ∉ ['-', '+', ' '])
    (rest : List Char) :
  readSign (signText negative sign ++ c :: rest) = (negative, c :: rest)
  := by
  cases negative
  · cases sign
    · change readSign (c :: rest) = _
      rw [readSign.eq_def]
      split
      · next h =>
        cases h
        simp at hc
      · next h =>
        cases h
        simp at hc
      · next h =>
        cases h
        simp at hc
      · rfl
    · rfl
    · rfl
  · rfl

theorem readMark_markText {mark : Option ExponentMark} (h : ∀ m ∈ mark, m.WellFormed) :
  readMark (markText mark) = some mark
  := by
  cases mark with
  | none => rfl
  | some mark =>
    obtain ⟨hletter, hdigits⟩ := h mark rfl
    obtain ⟨letter, negative, digits⟩ := mark
    have hall : digits.all Char.isDigit = true := List.all_eq_true.mpr hdigits.2
    change readMark (letter :: (if negative then '-' else '+') :: digits) = _
    have hsign : (if negative then '-' else '+') ∈ ['+', '-'] := by
      cases negative <;> decide
    rw [readMark, if_pos ⟨hletter, hsign, hdigits.1, hall⟩]
    cases negative <;> rfl

/-- An exponent begins neither with a digit nor with a point. -/
theorem stops_markText {mark : Option ExponentMark} (h : ∀ m ∈ mark, m.WellFormed) :
  Stops Char.isDigit (markText mark) ∧ readFraction (markText mark) = ([], markText mark)
  := by
  cases mark with
  | none => exact ⟨Stops.nil, rfl⟩
  | some mark =>
    have hletter := (h mark rfl).1
    obtain ⟨letter, negative, digits⟩ := mark
    simp only [List.mem_cons, List.not_mem_nil, or_false] at hletter
    rcases hletter with rfl | rfl
    · exact ⟨Stops.cons rfl, rfl⟩
    · exact ⟨Stops.cons rfl, rfl⟩

/-- What is written as a numeral is read as this one, behind whatever sign it has. -/
theorem IsWritten.read_eq {body : List Char} (h : n.IsWritten body) (sign : Sign) :
  read (signText n.negative sign ++ body) = some n
  := by
  obtain ⟨hwhole, hfraction, hmark, point, rfl, hpoint⟩ := h
  obtain ⟨negative, whole, fraction, mark⟩ := n
  dsimp only at *
  have hread := readMark_markText hmark
  obtain ⟨hstops, hnone⟩ := stops_markText hmark
  generalize markText mark = text at hread hstops hnone
  have hrest : Stops Char.isDigit (point ++ text) ∧
      readFraction (point ++ text) = (fraction, text) := by
    rcases hpoint with rfl | ⟨rfl, rfl⟩
    · refine ⟨Stops.cons rfl, ?_⟩
      rw [List.cons_append, readFraction, takeWhile_append_of_stops hfraction hstops,
        dropWhile_append_of_stops hfraction hstops]
    · exact ⟨hstops, hnone⟩
  have hsign : readSign (signText negative sign ++ (whole ++ (point ++ text))) =
      (negative, whole ++ (point ++ text)) := by
    obtain ⟨c, rest, rfl⟩ := List.exists_cons_of_ne_nil hwhole.1
    have hc : c ∉ ['-', '+', ' '] := by
      have hdigit := hwhole.2 c (.head _)
      simp only [List.mem_cons, List.not_mem_nil, or_false]
      rintro (rfl | rfl | rfl) <;> cases hdigit
    exact readSign_signText negative sign hc _
  rw [List.append_assoc, read, hsign]
  dsimp only
  rw [takeWhile_append_of_stops hwhole.2 hrest.1, dropWhile_append_of_stops hwhole.2 hrest.1,
    hrest.2, if_neg hwhole.1, hread]
  rfl

/-- Without a point and an exponent a numeral may be followed by a point and zeros. -/
theorem IsWritten.exists_append_zeros {body : List Char} (h : n.IsWritten body)
    (hmark : n.mark = none) (hpoint : '.' ∉ body) (hshows : n.Shows d) (k : Nat) :
  ∃ n' : Numeral, n'.negative = n.negative ∧ n'.mark = none ∧
    n'.IsWritten (body ++ '.' :: List.replicate k '0') ∧ n'.Shows d
  := by
  obtain ⟨hwhole, _, _, point, rfl, rfl | ⟨rfl, hfraction⟩⟩ := h
  · exfalso
    apply hpoint
    simp
  · refine ⟨⟨n.negative, n.whole, List.replicate k '0', none⟩, rfl, rfl, ?isWritten, ?shows⟩
    case isWritten =>
      refine ⟨hwhole, fun c => isDigit_of_mem_replicate, by simp, _, ?_, .inl rfl⟩
      simp [hmark]
    case shows =>
      obtain ⟨front, back, hdigits, hplace⟩ := hshows
      rw [hfraction, List.append_nil] at hdigits
      rw [hfraction, List.length_nil, exponent_of_none hmark] at hplace
      refine ⟨front, back + k, ?_, ?_⟩
      · rw [hdigits, List.append_assoc, List.replicate_add]
      · rw [exponent_of_none rfl, List.length_replicate]
        omega

end Numeral

/-! ### Layouts -/

namespace Decimal

open Numeral

variable {d : Decimal}

/-- Without an exponent, the digits of a decimal stand in front of and behind the point. -/
theorem exists_numeral_positional (h : IsDigits d.digits) (negative : Bool) :
  ∃ n : Numeral, n.negative = negative ∧ n.mark = none ∧ n.IsWritten d.positional ∧ n.Shows d
  := by
  rw [positional]
  by_cases hsmall : d.exponent < 0
  · rw [if_pos hsmall]
    have hfraction := h.zeros_append (-d.exponent - 1).toNat
    refine ⟨⟨negative, ['0'], List.replicate (-d.exponent - 1).toNat '0' ++ d.digits, none⟩,
      rfl, rfl, ?isWritten, ?shows⟩
    case isWritten =>
      refine ⟨isDigits_replicate Nat.one_ne_zero, hfraction.2, by simp, _, ?_, .inl rfl⟩
      simp
    case shows =>
      refine ⟨(-d.exponent - 1).toNat + 1, 0, ?_, ?_⟩
      · simp [List.replicate_succ]
      · rw [exponent_of_none rfl, List.length_append, List.length_replicate]
        omega
  rw [if_neg hsmall]
  by_cases hshort : d.digits.length ≤ d.exponent.toNat + 1
  · rw [if_pos hshort]
    have hwhole := h.append_zeros (d.exponent.toNat + 1 - d.digits.length)
    refine ⟨⟨negative,
      d.digits ++ List.replicate (d.exponent.toNat + 1 - d.digits.length) '0', [], none⟩,
      rfl, rfl, ?isWritten, ?shows⟩
    case isWritten =>
      refine ⟨hwhole, by simp, by simp, [], ?_, .inr ⟨rfl, rfl⟩⟩
      simp
    case shows =>
      refine ⟨0, d.exponent.toNat + 1 - d.digits.length, ?_, ?_⟩
      · simp
      · rw [exponent_of_none rfl, List.length_nil]
        omega
  · rw [if_neg hshort]
    have hwhole : IsDigits (d.digits.take (d.exponent.toNat + 1)) := by
      refine ⟨?_, fun c hc => h.2 c (List.mem_of_mem_take hc)⟩
      rw [ne_eq, List.take_eq_nil_iff, not_or]
      exact ⟨Nat.succ_ne_zero _, h.1⟩
    refine ⟨⟨negative, d.digits.take (d.exponent.toNat + 1),
      d.digits.drop (d.exponent.toNat + 1), none⟩, rfl, rfl, ?isWritten, ?shows⟩
    case isWritten =>
      refine ⟨hwhole, fun c hc => h.2 c (List.mem_of_mem_drop hc), by simp, _, ?_, .inl rfl⟩
      simp
    case shows =>
      refine ⟨0, 0, ?_, ?_⟩
      · simp
      · rw [exponent_of_none rfl, List.length_drop]
        omega

/-- The exponent as it is written: with a sign in any case, and with zeros in front up to two
digits. -/
def mark (d : Decimal) (upper : Bool) : ExponentMark where
  letter := if upper then 'E' else 'e'
  negative := d.exponent < 0
  digits :=
    let digits := Nat.toDigits 10 d.exponent.natAbs
    List.replicate (2 - digits.length) '0' ++ digits

theorem text_mark (d : Decimal) (upper : Bool) :
  (d.mark upper).text = d.exponentMark upper
  := by
  simp [mark, exponentMark, ExponentMark.text]

theorem value_mark (d : Decimal) (upper : Bool) :
  (d.mark upper).value = d.exponent
  := by
  have hvalue := ofDigitChars_zeros (2 - (Nat.toDigits 10 d.exponent.natAbs).length) 0
    (Nat.toDigits 10 d.exponent.natAbs)
  rw [List.replicate_zero, List.append_nil, pow_zero, mul_one,
    Nat.ofDigitChars_ten_toDigits] at hvalue
  rw [ExponentMark.value, mark]
  simp only [hvalue, decide_eq_true_eq]
  split <;> omega

theorem wellFormed_mark (d : Decimal) (upper : Bool) :
  (d.mark upper).WellFormed
  := by
  refine ⟨?_, (isDigits_numeral _).zeros_append _⟩
  change (if upper then 'E' else 'e') ∈ ['e', 'E']
  cases upper <;> decide

theorem two_le_length_mark (d : Decimal) (upper : Bool) :
  2 ≤ (d.mark upper).digits.length
  := by
  rw [mark, List.length_append, List.length_replicate]
  omega

/-- The exponent is written with at least two digits. -/
theorem exists_exponentMark_eq (d : Decimal) (upper : Bool) :
  ∃ mark : ExponentMark, d.exponentMark upper = mark.text ∧
    mark.letter = (if upper then 'E' else 'e') ∧ mark.value = d.exponent ∧
    mark.WellFormed ∧ 2 ≤ mark.digits.length
  := ⟨d.mark upper, (d.text_mark upper).symm, rfl, d.value_mark upper, d.wellFormed_mark upper,
    d.two_le_length_mark upper⟩

/-- The numeral of a decimal in scientific notation. The first digit stands in front of the point,
and behind it the others or, if there are none, the digits that stand in for them. -/
def scientificNumeral (d : Decimal) (lone : List Char) (negative upper : Bool) : Numeral where
  negative := negative
  whole := d.digits.take 1
  fraction := if d.digits.length = 1 then lone.tail else d.digits.drop 1
  mark := some (d.mark upper)

theorem isWritten_scientificNumeral (h : IsDigits d.digits) {lone : List Char}
    (hlone : lone = [] ∨ ∃ k, lone = '.' :: List.replicate k '0') (negative upper : Bool) :
  (d.scientificNumeral lone negative upper).IsWritten (d.scientific lone upper)
  := by
  have hmark : ∀ mark ∈ some (d.mark upper), mark.WellFormed := by
    rintro _ ⟨⟩
    exact d.wellFormed_mark upper
  rw [scientificNumeral, scientific, mantissa, ← text_mark]
  rcases hdigits : d.digits with _ | ⟨c, _ | ⟨c', rest⟩⟩
  · cases h.1 hdigits
  · rw [hdigits] at h
    refine ⟨h, ?_, hmark, lone, rfl, ?_⟩
    · rcases hlone with rfl | ⟨k, rfl⟩
      · rintro _ ⟨⟩
      · exact fun _ => isDigit_of_mem_replicate
    · rcases hlone with rfl | ⟨k, rfl⟩
      · exact .inr ⟨rfl, rfl⟩
      · exact .inl rfl
  · rw [hdigits] at h
    have hfirst : IsDigits [c] := ⟨List.cons_ne_nil _ _, by simpa using h.2 c (.head _)⟩
    exact ⟨hfirst, fun c hc => h.2 c (.tail _ hc), hmark, '.' :: c' :: rest, rfl, .inl rfl⟩

theorem shows_scientificNumeral (h : IsDigits d.digits) {lone : List Char}
    (hlone : lone = [] ∨ ∃ k, lone = '.' :: List.replicate k '0') (negative upper : Bool) :
  (d.scientificNumeral lone negative upper).Shows d
  := by
  have hexponent : (d.scientificNumeral lone negative upper).exponent = d.exponent := by
    rw [exponent_of_some rfl, value_mark]
  rw [Shows, hexponent, scientificNumeral]
  rcases hdigits : d.digits with _ | ⟨c, _ | ⟨c', rest⟩⟩
  · cases h.1 hdigits
  · rcases hlone with rfl | ⟨k, rfl⟩
    · exact ⟨0, 0, rfl, by simp⟩
    · exact ⟨0, k, rfl, by simp⟩
  · refine ⟨0, 0, by simp, ?_⟩
    simp only [List.drop_succ_cons, List.drop_zero, List.length_cons]
    rw [if_neg (by omega)]
    simp only [List.length_cons]
    omega

/-- With an exponent, a decimal has one digit in front of the point, and the others behind it or
none but zeros. -/
theorem exists_numeral_scientific (h : IsDigits d.digits) {lone : List Char}
    (hlone : lone = [] ∨ ∃ k, lone = '.' :: List.replicate k '0') (negative upper : Bool) :
  ∃ (n : Numeral) (mark : ExponentMark), n.negative = negative ∧ n.mark = some mark ∧
    mark.letter = (if upper then 'E' else 'e') ∧ mark.value = d.exponent ∧
    2 ≤ mark.digits.length ∧ n.whole.length = 1 ∧
    n.IsWritten (d.scientific lone upper) ∧ n.Shows d
  := by
  have hwhole : (d.digits.take 1).length = 1 := by
    have := List.length_pos_of_ne_nil h.1
    rw [List.length_take]
    omega
  exact ⟨d.scientificNumeral lone negative upper, d.mark upper, rfl, rfl, rfl, d.value_mark upper,
    d.two_le_length_mark upper, hwhole, isWritten_scientificNumeral h hlone negative upper,
    shows_scientificNumeral h hlone negative upper⟩

end Decimal

end BraceFormat
