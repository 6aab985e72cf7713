import BraceFormat.Proofs.Number.Overflow
import BraceFormat.Proofs.Number.Shortest

/-!
# Correctly rounded digits

A number that is rounded to a count of digits is as near as it can be to the decimal that these
digits make, wherever other decimals with no more digits have their point
(`isRounding_rounded`). The number is scaled so that as many digits as wanted stand in front of the
point, and is then rounded to an integer (`Rounds`). Where this goes up to a power of ten, there
is one digit more, a zero, which is left out; the exponent goes up instead. That scaling stops
early for numbers that are integers by then changes nothing (`scaledDigits_eq`).
-/

namespace BraceFormat.Decimal

open Binary64

variable {q : Rat}

/-! ### Scaled digits -/

/-- Where scaling stops early, the number is an integer. -/
theorem exists_useful_eq (hq : 0 < q) {power : Int} (h : usefulPower q power ≠ power) :
  ∃ n : Nat, 0 < n ∧ q * (10 : Rat) ^ usefulPower q power = n ∧ usefulPower q power ≤ power
  := by
  rw [usefulPower] at h ⊢
  split_ifs at h ⊢ with hden
  · generalize q.den.log2 = j at h hden ⊢
    have hmin : min power j = j := by omega
    obtain ⟨n, hn⟩ : ∃ n : Nat, q.num = n := Int.eq_ofNat_of_zero_le (Rat.num_nonneg.mpr hq.le)
    have hvalue : q * 2 ^ j = n := by
      rw [← Rat.num_div_den q, hden, Nat.one_shiftLeft, hn, Int.cast_natCast]
      push_cast
      exact div_mul_cancel₀ _ (by positivity)
    have hpos : 0 < n := by
      have := Rat.num_pos.mpr hq
      omega
    refine ⟨n * 5 ^ j, by positivity, ?_, by omega⟩
    have hten : (10 : Rat) = 2 * 5 := by norm_num
    rw [hmin, zpow_natCast, hten, mul_pow, ← mul_assoc, hvalue]
    push_cast
    rfl
  · cases h rfl

/-- The digits of a number times a power of ten are those of the integer it is rounded to. -/
theorem scaledDigits_eq (hq : 0 < q) (power : Int) :
  scaledDigits q power = Nat.toDigits 10 (roundHalfEven (q * (10 : Rat) ^ power)).toNat
  := by
  rw [scaledDigits]
  by_cases h : usefulPower q power = power
  · simp [h]
  · obtain ⟨n, hn, hvalue, hle⟩ := exists_useful_eq hq h
    generalize usefulPower q power = useful at hvalue hle
    obtain ⟨zeros, rfl⟩ : ∃ zeros : Nat, power = zeros + useful :=
      ⟨(power - useful).toNat, by omega⟩
    have hscaled : q * (10 : Rat) ^ (zeros + useful) = (n * 10 ^ zeros : Nat) := by
      rw [ten_zpow_add, mul_left_comm, hvalue, ← Nat.cast_mul, Nat.mul_comm]
    have hinteger (m : Nat) : (roundHalfEven (m : Rat)).toNat = m := by
      rw [← Int.cast_natCast, roundHalfEven_intCast, Int.toNat_natCast]
    rw [hscaled, hvalue, hinteger, hinteger, add_sub_cancel_right, Int.toNat_natCast]
    apply numeral_append_zeros hn

/-! ### Rounding to a count of digits -/

/-- A positive number is rounded to an integer times a power of ten. The integer has one digit more
than `k`, or is the next power of ten; of two that are equally near it is the even one. -/
structure Rounds (q : Rat) (k r : Nat) (place : Int) : Prop where
  le_number : (10 ^ k : Nat) * (10 : Rat) ^ place ≤ q
  number_lt : q < (10 ^ (k + 1) : Nat) * (10 : Rat) ^ place
  le_rounded : 10 ^ k ≤ r
  rounded_le : r ≤ 10 ^ (k + 1)
  low_le : (2 * r - 1) * (10 : Rat) ^ place ≤ 2 * q
  le_high : 2 * q ≤ (2 * r + 1) * (10 : Rat) ^ place
  even : 2 * q = (2 * r - 1) * (10 : Rat) ^ place ∨ 2 * q = (2 * r + 1) * (10 : Rat) ^ place →
    r % 2 = 0

theorem exists_rounds (hq : 0 < q) (k : Nat) :
  ∃ r : Nat, roundHalfEven (q * (10 : Rat) ^ (k - decimalExponent q)) = r ∧
    Rounds q k r (decimalExponent q - k)
  := by
  obtain ⟨hfirst, hnext⟩ := decimalExponent_spec hq
  generalize decimalExponent q = e at hfirst hnext
  have hstep : (0 : Rat) < 10 ^ (e - k) := by positivity
  have hscaled : q * (10 : Rat) ^ (k - e) = q / (10 : Rat) ^ (e - k) := by
    rw [← neg_sub e k, zpow_neg, div_eq_mul_inv]
  rw [show e = k + (e - k) by omega, ten_zpow_add] at hfirst
  rw [show e + 1 = (k + 1 : Nat) + (e - k) by omega, ten_zpow_add] at hnext
  have hlow : (10 ^ k : Nat) ≤ q / (10 : Rat) ^ (e - k) := (le_div_iff₀ hstep).mpr hfirst
  have hhigh : q / (10 : Rat) ^ (e - k) ≤ (10 ^ (k + 1) : Nat) := ((div_lt_iff₀ hstep).mpr hnext).le
  have hvalue : q = q / (10 : Rat) ^ (e - k) * (10 : Rat) ^ (e - k) :=
    (div_mul_cancel₀ q hstep.ne').symm
  rw [hscaled]
  generalize q / (10 : Rat) ^ (e - k) = t at hlow hhigh hvalue
  obtain ⟨hbelow, habove, heven⟩ := roundHalfEven_spec t
  have hlow' : (10 ^ k : Nat) ≤ roundHalfEven t := le_roundHalfEven (by exact_mod_cast hlow)
  have hhigh' : roundHalfEven t ≤ (10 ^ (k + 1) : Nat) :=
    roundHalfEven_le (by exact_mod_cast hhigh)
  obtain ⟨r, hr⟩ : ∃ r : Nat, roundHalfEven t = r :=
    Int.eq_ofNat_of_zero_le ((Int.natCast_nonneg _).trans hlow')
  rw [hr] at hlow' hhigh' hbelow habove heven
  have hcast : ((r : Int) : Rat) = r := Int.cast_natCast r
  rw [hcast] at hbelow habove heven
  refine ⟨r, hr, hfirst, hnext, by exact_mod_cast hlow', by exact_mod_cast hhigh', ?_, ?_, ?_⟩
  · rw [hvalue, ← mul_assoc]
    gcongr
  · rw [hvalue, ← mul_assoc]
    gcongr
  · rw [hvalue, ← mul_assoc, mul_left_inj' hstep.ne', mul_left_inj' hstep.ne']
    intro htie
    have := heven htie
    omega

namespace Rounds

variable {k r : Nat} {place : Int} (h : Rounds q k r place)

include h

/-- The number is not below the middle between what it is rounded to and a smaller decimal. -/
theorem middle_le {digits : Nat} {other : Int} (hdigits : digits < 10 ^ (k + 1))
    (hless : digits * (10 : Rat) ^ other < r * (10 : Rat) ^ place) :
  digits * (10 : Rat) ^ other + r * (10 : Rat) ^ place ≤ 2 * q ∧
    (2 * q = digits * (10 : Rat) ^ other + r * (10 : Rat) ^ place → r % 2 = 0)
  := by
  rcases Nat.eq_or_lt_of_le h.le_rounded with heq | hgreater
  · -- The number itself is not below the first decimal that it may be rounded to.
    have hnumber := h.le_number
    rw [heq] at hnumber
    constructor
    · linarith
    · intro htie
      exfalso
      linarith
  · obtain ⟨low, rfl⟩ := Nat.exists_eq_succ_of_ne_zero (Nat.ne_zero_of_lt hgreater)
    have hmiddle := h.low_le
    have heven := h.even
    push_cast at hless hmiddle heven ⊢
    rcases not_between (Nat.le_of_lt_succ hgreater) hdigits place other with hbelow | habove
    · constructor
      · linarith
      · intro htie
        apply heven
        left
        linarith
    · push_cast at habove
      cases hless.not_ge habove

/-- The number is not above the middle between what it is rounded to and a greater decimal. -/
theorem le_middle {digits : Nat} {other : Int} (hdigits : digits < 10 ^ (k + 1))
    (hgreater : r * (10 : Rat) ^ place < digits * (10 : Rat) ^ other) :
  2 * q ≤ r * (10 : Rat) ^ place + digits * (10 : Rat) ^ other ∧
    (2 * q = r * (10 : Rat) ^ place + digits * (10 : Rat) ^ other → r % 2 = 0)
  := by
  have hmiddle := h.le_high
  have heven := h.even
  rcases not_between h.le_rounded hdigits place other with hbelow | habove
  · cases hgreater.not_ge hbelow
  · push_cast at habove
    constructor
    · linarith
    · intro htie
      apply heven
      right
      linarith

/-- No decimal with as many digits is nearer. -/
theorem closest {digits : Nat} (hdigits : digits < 10 ^ (k + 1)) (other : Int) :
  |q - r * (10 : Rat) ^ place| ≤ |q - digits * (10 : Rat) ^ other|
  := by
  rcases lt_trichotomy (digits * (10 : Rat) ^ other) (r * (10 : Rat) ^ place) with
    hless | heq | hgreater
  · apply (abs_sub_le_abs_sub_iff hless).mpr (h.middle_le hdigits hless).1
  · rw [heq]
  · apply (abs_sub_le_abs_sub_iff' hgreater).mpr (h.le_middle hdigits hgreater).1

/-- If another decimal is equally near, the integer is even. -/
theorem even_of_tie {digits : Nat} (hdigits : digits < 10 ^ (k + 1)) {other : Int}
    (hne : digits * (10 : Rat) ^ other ≠ r * (10 : Rat) ^ place)
    (htie : |q - r * (10 : Rat) ^ place| = |q - digits * (10 : Rat) ^ other|) :
  r % 2 = 0
  := by
  rcases lt_or_gt_of_ne hne with hless | hgreater
  · obtain ⟨hmiddle, heven⟩ := h.middle_le hdigits hless
    apply heven (le_antisymm ((abs_sub_le_abs_sub_iff' hless).mp htie.ge) hmiddle)
  · obtain ⟨hmiddle, heven⟩ := h.le_middle hdigits hgreater
    apply heven (le_antisymm hmiddle ((abs_sub_le_abs_sub_iff hgreater).mp htie.ge))

end Rounds

/-! ### Rounded digits -/

/-- A decimal is a number that is not negative, correctly rounded to a count of digits: no decimal
with that many digits, wherever its point is, is nearer to the number. If another one is equally
near, the decimal is an even multiple of the step between the decimals around the number. The first
digit is zero for zero only, which has the exponent zero. -/
structure IsRounding (count : Nat) (q : Rat) (d : Decimal) : Prop where
  digits : ∀ c ∈ d.digits, c.isDigit = true
  length : d.digits.length = count
  leads : d.value = 0 ∧ d.exponent = 0 ∨
    (10 : Rat) ^ d.exponent ≤ d.value ∧ d.value < (10 : Rat) ^ (d.exponent + 1)
  closest : ∀ (digits : Nat) (place : Int), digits < 10 ^ count →
    |q - d.value| ≤ |q - digits * (10 : Rat) ^ place|
  even_of_tie : ∀ (digits : Nat) (place e : Int), digits < 10 ^ count →
    digits * (10 : Rat) ^ place ≠ d.value → |q - d.value| = |q - digits * (10 : Rat) ^ place| →
      (10 : Rat) ^ e ≤ q → q < (10 : Rat) ^ (e + 1) →
        ∃ n : Nat, d.value = (2 * n : Nat) * (10 : Rat) ^ (e + 1 - count)

/-- Zero is rounded to zeros. -/
theorem isRounding_zero (count : Nat) :
  IsRounding count 0 ⟨List.replicate count '0', 0⟩
  := by
  have hvalue : value ⟨List.replicate count '0', 0⟩ = 0 := by
    rw [value, Nat.ofDigitChars_replicate_zero, Nat.mul_zero, Nat.cast_zero, zero_mul]
  constructor
  case digits =>
    intro c hc
    rw [List.eq_of_mem_replicate hc]
    rfl
  case length => apply List.length_replicate
  case leads => exact .inl ⟨hvalue, rfl⟩
  case closest =>
    intro digits place _
    rw [hvalue, sub_self, abs_zero]
    apply abs_nonneg
  case even_of_tie =>
    intro digits place e _ hne htie
    rw [hvalue, sub_self, abs_zero, eq_comm, abs_eq_zero, zero_sub, neg_eq_zero] at htie
    cases hne (htie.trans hvalue.symm)

/-- An integer with `k + 1` digits is the value of a decimal with these digits. -/
theorem value_numeral {k r : Nat} (hlow : 10 ^ k ≤ r) (hhigh : r < 10 ^ (k + 1)) (e : Int) :
  (Nat.toDigits 10 r).length = k + 1 ∧
    value ⟨Nat.toDigits 10 r, e⟩ = r * (10 : Rat) ^ (e - k) ∧
    (10 : Rat) ^ e ≤ r * (10 : Rat) ^ (e - k) ∧ r * (10 : Rat) ^ (e - k) < (10 : Rat) ^ (e + 1)
  := by
  obtain ⟨j, hlength, hlow', hhigh'⟩ := exists_numeral_length (lt_of_lt_of_le (by positivity) hlow)
  obtain rfl : j = k := by
    have := (Nat.pow_lt_pow_iff_right (show 1 < 10 by decide)).mp (hlow'.trans_lt hhigh)
    have := (Nat.pow_lt_pow_iff_right (show 1 < 10 by decide)).mp (hlow.trans_lt hhigh')
    omega
  refine ⟨hlength, ?_, ?_, ?_⟩
  · rw [value, Nat.ofDigitChars_ten_toDigits, hlength]
    congr 2
    push_cast
    ring
  · calc (10 : Rat) ^ e
      _ = (10 ^ j : Nat) * (10 : Rat) ^ (e - j) := by rw [← ten_zpow_add, add_sub_cancel]
      _ ≤ r * (10 : Rat) ^ (e - j) := by gcongr
  · calc r * (10 : Rat) ^ (e - j)
      _ < (10 ^ (j + 1) : Nat) * (10 : Rat) ^ (e - j) := by gcongr
      _ = (10 : Rat) ^ (e + 1) := by
        rw [← ten_zpow_add]
        congr 1
        push_cast
        ring

/-- A one and zeros are the digits of a power of ten. -/
theorem value_one_zeros (k : Nat) (e : Int) :
  value ⟨'1' :: List.replicate k '0', e⟩ = (10 : Rat) ^ e
  := by
  have hone : Nat.ofDigitChars 10 ('1' :: List.replicate k '0') 0 = 10 ^ k := by
    rw [← numeral_ten_pow, Nat.ofDigitChars_ten_toDigits]
  rw [value, hone, List.length_cons, List.length_replicate, ← ten_zpow_add]
  congr 1
  push_cast
  ring

/-- The digits of a positive number are those of the integer it is rounded to, with the point where
this makes up for the scaling. -/
theorem rounded_spec (hq : 0 < q) (k : Nat) {r : Nat}
    (hr : roundHalfEven (q * (10 : Rat) ^ (k - decimalExponent q)) = r)
    (h : Rounds q k r (decimalExponent q - k)) :
  let d := rounded (k + 1) q
  (∀ c ∈ d.digits, c.isDigit = true) ∧ d.digits.length = k + 1 ∧
    d.value = r * (10 : Rat) ^ (decimalExponent q - k) ∧
    (10 : Rat) ^ d.exponent ≤ d.value ∧ d.value < (10 : Rat) ^ (d.exponent + 1)
  := by
  have hdigits : rounded (k + 1) q =
      if (Nat.toDigits 10 r).length ≤ k + 1 then ⟨Nat.toDigits 10 r, decimalExponent q⟩
      else ⟨(Nat.toDigits 10 r).take (k + 1), decimalExponent q + 1⟩ := by
    rw [rounded, if_neg hq.not_ge]
    dsimp only
    rw [scaledDigits_eq hq, Nat.cast_succ, add_sub_cancel_right, hr, Int.toNat_natCast]
  have hle := h.le_rounded
  generalize decimalExponent q = e at hdigits
  rw [hdigits]
  rcases Nat.lt_or_eq_of_le h.rounded_le with hless | rfl
  · obtain ⟨hlength, hvalue, hleads⟩ := value_numeral hle hless e
    rw [if_pos hlength.le]
    refine ⟨fun c => isDigit_of_mem_numeral, hlength, hvalue, ?_⟩
    rw [hvalue]
    apply hleads
  · -- There is one digit more, which is a zero.
    have hcarry : (10 : Rat) ^ (e + 1) = (10 ^ (k + 1) : Nat) * (10 : Rat) ^ (e - k) := by
      rw [← ten_zpow_add]
      congr 1
      push_cast
      ring
    rw [numeral_ten_pow, List.length_cons, List.length_replicate, if_neg (by omega),
      List.take_succ_cons, List.take_replicate, Nat.min_eq_left (Nat.le_succ k)]
    refine ⟨?_, ?_, ?_, ?_⟩
    · intro c hc
      rcases List.mem_cons.mp hc with rfl | hc
      · rfl
      · rw [List.eq_of_mem_replicate hc]
        rfl
    · rw [List.length_cons, List.length_replicate]
    · rw [value_one_zeros, hcarry]
    · rw [value_one_zeros]
      exact ⟨le_rfl, zpow_lt_zpow_right₀ (by norm_num) (lt_add_one _)⟩

/-- The digits that are chosen for a number are correctly rounded. -/
theorem isRounding_rounded {count : Nat} (hcount : 0 < count) (hq : 0 ≤ q) :
  IsRounding count q (rounded count q)
  := by
  rcases hq.eq_or_lt with rfl | hpos
  · have hzero : rounded count 0 = ⟨List.replicate count '0', 0⟩ := if_pos le_rfl
    rw [hzero]
    apply isRounding_zero
  · obtain ⟨k, rfl⟩ := Nat.exists_eq_succ_of_ne_zero hcount.ne'
    obtain ⟨r, hr, hrounds⟩ := exists_rounds hpos k
    obtain ⟨hdigits, hlength, hvalue, hleads⟩ := rounded_spec hpos k hr hrounds
    refine ⟨hdigits, hlength, .inr hleads, ?closest, ?even_of_tie⟩
    case closest =>
      intro digits place hdigits
      rw [hvalue]
      apply hrounds.closest hdigits
    case even_of_tie =>
      intro digits place e hdigits hne htie hlow hhigh
      obtain ⟨hfirst, hnext⟩ := decimalExponent_spec hpos
      have he : e = decimalExponent q := by
        have := (zpow_lt_zpow_iff_right₀ (by norm_num)).mp (hlow.trans_lt hnext)
        have := (zpow_lt_zpow_iff_right₀ (by norm_num)).mp (hfirst.trans_lt hhigh)
        omega
      rw [hvalue] at hne htie ⊢
      obtain ⟨n, rfl⟩ : 2 ∣ r := Nat.dvd_of_mod_eq_zero (hrounds.even_of_tie hdigits hne htie)
      use n
      rw [he]
      congr 2
      push_cast
      ring

/-- A finite magnitude is rounded to a decimal with a small exponent. -/
theorem exponent_rounded_bounds {m : Nat} (hm : m < infinity) (count : Nat) :
  -1074 ≤ (rounded count (absolute m)).exponent ∧ (rounded count (absolute m)).exponent ≤ 320
  := by
  rcases Nat.eq_zero_or_pos m with rfl | hpos
  · rw [absolute_zero, rounded, if_pos le_rfl]
    dsimp only
    decide
  · have hupper := decimalExponent_absolute_lt hpos hm
    have hlower := lt_decimalExponent_absolute hpos
    rw [rounded, if_neg (absolute_pos hpos).not_ge]
    dsimp only
    split <;> dsimp only <;> omega

end BraceFormat.Decimal
