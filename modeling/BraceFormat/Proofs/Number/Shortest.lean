import BraceFormat.Number.Decimal
import BraceFormat.Proofs.Number.Nearest
import BraceFormat.Proofs.Numeral
import Mathlib.Data.List.DropRight

/-!
# Shortest digits

The digits that are chosen for a magnitude read back as it, and no decimal with fewer digits does
(`isShortest_shortest`). For each count of digits the two decimals in a row are tried that have the
number between them. No other decimal with as many digits is nearer on its side
(`not_between`), and rounding does not go down when the number goes up; so if any of them
reads back as the magnitude, one of the two does (`nearest_ne_of_candidate_eq_none`). The search
ends, since with enough digits the number is a decimal itself (`exists_candidate`).
-/

namespace BraceFormat.Decimal

open Binary64

/-! ### Digits and powers of ten -/

/-- Digits are read as a number below the power of ten of their count. -/
theorem ofDigitChars_lt {digits : List Char} (h : ∀ c ∈ digits, c.isDigit = true) :
  Nat.ofDigitChars 10 digits 0 < 10 ^ digits.length
  := by
  induction digits with
  | nil => exact Nat.one_pos
  | cons c digits ih =>
    have hrest := ih fun d hd => h d (.tail _ hd)
    have hdigit := (digitChar_of_isDigit (h c (.head _))).1
    rw [Nat.ofDigitChars_cons, Nat.ofDigitChars_eq_ofDigitChars_zero, List.length_cons,
      Nat.mul_zero, Nat.zero_add]
    calc 10 ^ digits.length * (c.toNat - '0'.toNat) + Nat.ofDigitChars 10 digits 0
      _ < 10 ^ digits.length * (c.toNat - '0'.toNat) + 10 ^ digits.length := by omega
      _ = 10 ^ digits.length * (c.toNat - '0'.toNat + 1) := by ring
      _ ≤ 10 ^ digits.length * 10 := Nat.mul_le_mul_left _ hdigit
      _ = 10 ^ (digits.length + 1) := (pow_succ 10 _).symm

/-- Zeros behind digits multiply the number by powers of ten. -/
theorem ofDigitChars_append_zeros (digits : List Char) (n : Nat) :
  Nat.ofDigitChars 10 (digits ++ List.replicate n '0') 0 = Nat.ofDigitChars 10 digits 0 * 10 ^ n
  := by rw [Nat.ofDigitChars_append, Nat.ofDigitChars_replicate_zero, Nat.mul_comm]

/-- The numeral of a positive number with zeros behind it. -/
theorem numeral_append_zeros {n : Nat} (hn : 0 < n) (zeros : Nat) :
  Nat.toDigits 10 n ++ List.replicate zeros '0' = Nat.toDigits 10 (n * 10 ^ zeros)
  := by
  have hzeros : ∀ c ∈ List.replicate zeros '0', c.isDigit = true := by
    intro c hc
    rw [List.eq_of_mem_replicate hc]
    rfl
  rw [numeral_append hn hzeros, Nat.ofDigitChars_replicate_zero, Nat.mul_comm]

theorem numeral_ten_pow (k : Nat) :
  Nat.toDigits 10 (10 ^ k) = '1' :: List.replicate k '0'
  := by
  rw [← Nat.one_mul (10 ^ k), ← numeral_append_zeros Nat.one_pos]
  rfl

/-- The numeral of a positive number has one digit more than the exponent of the power of ten at or
next below it. -/
theorem exists_numeral_length {n : Nat} (hn : 0 < n) :
  ∃ k, (Nat.toDigits 10 n).length = k + 1 ∧ 10 ^ k ≤ n ∧ n < 10 ^ (k + 1)
  := by
  obtain ⟨k, hk⟩ : ∃ k, (Nat.toDigits 10 n).length = k + 1 :=
    Nat.exists_eq_succ_of_ne_zero Nat.length_toDigits_pos.ne'
  refine ⟨k, hk, ?_, ?_⟩
  · rcases Nat.eq_zero_or_pos k with rfl | hpos
    · exact hn
    · rw [← not_lt, ← Nat.length_toDigits_le_iff (by decide) hpos]
      omega
  · rw [← Nat.length_toDigits_le_iff (by decide) k.succ_pos]
    exact hk.le

theorem ten_zpow_add (n : Nat) (power : Int) :
  (10 : Rat) ^ (n + power) = (10 ^ n : Nat) * (10 : Rat) ^ power
  := by
  rw [zpow_add₀ (by norm_num), zpow_natCast, Nat.cast_pow]
  rfl

/-- A number that is not negative lies between two integers in a row. -/
theorem exists_floor {q : Rat} (hq : 0 ≤ q) :
  ∃ n : Nat, q.floor = n ∧ n ≤ q ∧ q < (n + 1 : Nat)
  := by
  have hfloor : 0 ≤ q.floor := Rat.le_floor_iff.mpr (by exact_mod_cast hq)
  obtain ⟨n, hn⟩ := Int.eq_ofNat_of_zero_le hfloor
  have hlow := Rat.floor_le q
  have hhigh := Rat.lt_floor_add_one q
  rw [hn] at hlow hhigh
  exact ⟨n, hn, by exact_mod_cast hlow, by exact_mod_cast hhigh⟩

/-- From one on, the exponent is one less than the number of digits of the integer part. -/
theorem decimalExponent_spec_of_one_le {q : Rat} (hq : 1 ≤ q) :
  (10 : Rat) ^ decimalExponent q ≤ q ∧ q < (10 : Rat) ^ (decimalExponent q + 1)
  := by
  obtain ⟨n, hn, hlow, hhigh⟩ := exists_floor (zero_le_one.trans hq)
  have hpos : 0 < n := by
    have : (1 : Rat) < (n + 1 : Nat) := hq.trans_lt hhigh
    have : 1 < n + 1 := by exact_mod_cast this
    omega
  obtain ⟨k, hlength, hnlow, hnhigh⟩ := exists_numeral_length hpos
  rw [decimalExponent, if_pos hq, hn, Int.toNat_natCast, hlength, Nat.cast_succ,
    add_sub_cancel_right]
  constructor
  · calc (10 : Rat) ^ (k : Int)
      _ ≤ n := by exact_mod_cast hnlow
      _ ≤ q := hlow
  · calc q
      _ < (n + 1 : Nat) := hhigh
      _ ≤ (10 : Rat) ^ ((k : Int) + 1) := by exact_mod_cast hnhigh

/-- Below one, the exponent is the negative of the number of digits of the integer next below the
inverse. -/
theorem decimalExponent_spec_of_lt_one {q : Rat} (hq : 0 < q) (hone : q < 1) :
  (10 : Rat) ^ decimalExponent q ≤ q ∧ q < (10 : Rat) ^ (decimalExponent q + 1)
  := by
  obtain ⟨n, hn⟩ : ∃ n : Nat, q.num = n := Int.eq_ofNat_of_zero_le (Rat.num_nonneg.mpr hq.le)
  have hvalue : q * q.den = n := by rw [Rat.mul_den_eq_num, hn, Int.cast_natCast]
  have hpos : 0 < n := by
    have := Rat.num_pos.mpr hq
    omega
  have hden : (0 : Rat) < q.den := by exact_mod_cast q.den_pos
  have hless : n < q.den := by
    have := mul_lt_mul_of_pos_right hone hden
    rw [hvalue, one_mul] at this
    exact_mod_cast this
  obtain ⟨k, hlength, hlow, hhigh⟩ :=
    exists_numeral_length (n := (q.den - 1) / n) (Nat.div_pos (by omega) hpos)
  rw [Nat.le_div_iff_mul_le hpos] at hlow
  rw [Nat.div_lt_iff_lt_mul hpos] at hhigh
  have hdenlow : q.den ≤ 10 ^ (k + 1) * n := by omega
  have hdenhigh : 10 ^ k * n < q.den := by omega
  rw [decimalExponent, if_neg hone.not_ge, hn, Int.toNat_natCast, hlength]
  constructor
  · have hscaled : (q.den : Rat) ≤ q * 10 ^ (k + 1) * q.den := by
      calc (q.den : Rat)
        _ ≤ 10 ^ (k + 1) * n := by exact_mod_cast hdenlow
        _ = q * 10 ^ (k + 1) * q.den := by rw [← hvalue]; ring
    rw [zpow_neg, zpow_natCast, inv_le_iff_one_le_mul₀ (by positivity)]
    exact le_of_mul_le_mul_right (by rwa [one_mul]) hden
  · have hscaled : q * 10 ^ k * q.den < q.den := by
      calc q * 10 ^ k * q.den
        _ = 10 ^ k * n := by rw [← hvalue]; ring
        _ < q.den := by exact_mod_cast hdenhigh
    rw [Nat.cast_succ, neg_add, neg_add_cancel_right, zpow_neg, zpow_natCast,
      ← one_div, lt_div_iff₀ (by positivity)]
    exact lt_of_mul_lt_mul_right (by rwa [one_mul]) hden.le

/-- A positive number lies between the power of ten at its exponent and the next one. -/
theorem decimalExponent_spec {q : Rat} (hq : 0 < q) :
  (10 : Rat) ^ decimalExponent q ≤ q ∧ q < (10 : Rat) ^ (decimalExponent q + 1)
  := by
  rcases le_or_gt 1 q with hone | hone
  · exact decimalExponent_spec_of_one_le hone
  · exact decimalExponent_spec_of_lt_one hq hone

/-! ### Digits without the zeros at their end -/

theorem exists_append_zeros (digits : List Char) :
  ∃ zeros, digits = digits.rdropWhile (· = '0') ++ List.replicate zeros '0'
  := by
  use (digits.rtakeWhile (· = '0')).length
  have hzeros : digits.rtakeWhile (· = '0') =
      List.replicate (digits.rtakeWhile (· = '0')).length '0' := by
    rw [List.eq_replicate_iff]
    exact ⟨rfl, fun c hc => by simpa using List.mem_rtakeWhile_imp hc⟩
  rw [← hzeros, List.rdropWhile_append_rtakeWhile]

theorem digits_ofScaled {n : Nat} (hn : 0 < n) (power : Int) :
  (ofScaled n power).digits = (Nat.toDigits 10 n).rdropWhile (· = '0')
  := by
  have hkept : (Nat.toDigits 10 n).rdropWhile (· = '0') ≠ [] := by
    obtain ⟨c, digits, hdigits, _, hzero⟩ := numeral_eq_cons n
    rw [ne_eq, List.rdropWhile_eq_nil_iff, hdigits]
    intro hall
    have := hzero (of_decide_eq_true (hall c (.head _)))
    omega
  exact if_neg hkept

/-- The digits of a positive integer are those that are kept and zeros. -/
theorem exists_numeral_eq {n : Nat} (hn : 0 < n) (power : Int) :
  ∃ zeros, Nat.toDigits 10 n = (ofScaled n power).digits ++ List.replicate zeros '0'
  := by
  rw [digits_ofScaled hn]
  apply exists_append_zeros

theorem value_ofScaled {n : Nat} (hn : 0 < n) (power : Int) :
  (ofScaled n power).value = n * (10 : Rat) ^ power
  := by
  obtain ⟨zeros, hdigits⟩ := exists_numeral_eq hn power
  have hlength := congrArg List.length hdigits
  have hvalue : n = Nat.ofDigitChars 10 (ofScaled n power).digits 0 * 10 ^ zeros := by
    rw [← ofDigitChars_append_zeros, ← hdigits, Nat.ofDigitChars_ten_toDigits]
  have hexponent : (ofScaled n power).exponent + 1 - (ofScaled n power).digits.length =
      zeros + power := by
    rw [List.length_append, List.length_replicate] at hlength
    change power + (Nat.toDigits 10 n).length - 1 + 1 - _ = _
    omega
  rw [value, hexponent, ten_zpow_add, ← mul_assoc, ← Nat.cast_mul, ← hvalue]

/-- The exponent is that of the power of ten at or next below the value. -/
theorem value_ofScaled_bounds {n : Nat} (hn : 0 < n) (power : Int) :
  (10 : Rat) ^ (ofScaled n power).exponent ≤ (ofScaled n power).value ∧
    (ofScaled n power).value < (10 : Rat) ^ ((ofScaled n power).exponent + 1)
  := by
  obtain ⟨k, hlength, hlow, hhigh⟩ := exists_numeral_length hn
  have hexponent : (ofScaled n power).exponent = k + power := by
    change power + (Nat.toDigits 10 n).length - 1 = _
    omega
  rw [value_ofScaled hn, hexponent, add_right_comm, ← Nat.cast_succ, ten_zpow_add, ten_zpow_add]
  constructor
  · gcongr
  · gcongr

/-- The exponent is that of the first digit of the integer, which may be the next power of ten. -/
theorem exponent_ofScaled_bounds {n k : Nat} (hlow : 10 ^ k ≤ n) (hhigh : n ≤ 10 ^ (k + 1))
    (power : Int) :
  k + power ≤ (ofScaled n power).exponent ∧ (ofScaled n power).exponent ≤ k + power + 1
  := by
  have hn : 0 < n := lt_of_lt_of_le (by positivity) hlow
  obtain ⟨j, hlength, hfirst, hnext⟩ := exists_numeral_length hn
  have hkj : k < j + 1 := (Nat.pow_lt_pow_iff_right (by decide)).mp (hlow.trans_lt hnext)
  have hjk : j ≤ k + 1 := (Nat.pow_le_pow_iff_right (by decide)).mp (hfirst.trans hhigh)
  change k + power ≤ power + (Nat.toDigits 10 n).length - 1 ∧
    power + (Nat.toDigits 10 n).length - 1 ≤ k + power + 1
  omega

/-- No more digits are kept than the power of ten that is not below the integer has zeros. -/
theorem length_ofScaled_le {n count : Nat} (hn : 0 < n) (hcount : 0 < count)
    (hle : n ≤ 10 ^ count) (power : Int) :
  (ofScaled n power).digits.length ≤ count
  := by
  rcases Nat.lt_or_eq_of_le hle with hless | rfl
  · have hlength : (Nat.toDigits 10 n).length ≤ count := by
      rwa [Nat.length_toDigits_le_iff (by decide) hcount]
    obtain ⟨zeros, hdigits⟩ := exists_numeral_eq hn power
    rw [hdigits, List.length_append] at hlength
    omega
  · have hzeros : ∀ c ∈ (List.replicate count '0').reverse, decide (c = '0') = true := by
      simp
    rw [digits_ofScaled hn, numeral_ten_pow, List.rdropWhile, List.reverse_cons,
      List.dropWhile_append_of_pos hzeros]
    exact hcount

/-! ### Candidates -/

/-- The two decimals around a magnitude that are tried have one digit more than a given number. -/
structure Around (m k low : Nat) (power : Int) : Prop where
  candidate_eq : candidate m (k + 1) =
    match readsBack m low power, readsBack m (low + 1) power with
    | true, false => some (ofScaled low power)
    | false, true => some (ofScaled (low + 1) power)
    | true, true =>
      let part := absolute m / (10 : Rat) ^ power - low
      some (ofScaled (if part < 1 / 2 then low else low + 1) power)
    | false, false => none
  power_eq : power = decimalExponent (absolute m) - k
  low_le : low * (10 : Rat) ^ power ≤ absolute m
  lt_next : absolute m < (low + 1 : Nat) * (10 : Rat) ^ power
  le_low : 10 ^ k ≤ low
  low_lt : low < 10 ^ (k + 1)

variable {m k : Nat}

theorem exists_around (hm : 0 < m) (k : Nat) :
  ∃ low power, Around m k low power
  := by
  have hq := absolute_pos hm
  obtain ⟨hfirst, hnext⟩ := decimalExponent_spec hq
  have hcandidate := candidate.eq_1 m (k + 1)
  generalize hpower : decimalExponent (absolute m) + 1 - (k + 1 : Nat) = power at hcandidate
  have hpos : (0 : Rat) < 10 ^ power := by positivity
  obtain ⟨low, hlow, hbelow, habove⟩ := exists_floor (div_pos hq hpos).le
  rw [hlow, Int.toNat_natCast] at hcandidate
  rw [le_div_iff₀ hpos] at hbelow
  rw [div_lt_iff₀ hpos] at habove
  rw [show decimalExponent (absolute m) = k + power by omega, ten_zpow_add] at hfirst
  rw [show decimalExponent (absolute m) + 1 = (k + 1 : Nat) + power by omega,
    ten_zpow_add] at hnext
  refine ⟨low, power, hcandidate, by omega, hbelow, habove, ?_, ?_⟩
  · have := lt_of_mul_lt_mul_right (hfirst.trans_lt habove) hpos.le
    exact Nat.le_of_lt_succ (by exact_mod_cast this)
  · have := lt_of_mul_lt_mul_right (hbelow.trans_lt hnext) hpos.le
    exact_mod_cast this

/-- No decimal with as many digits, wherever these stand, is between two in a row. -/
theorem not_between {low digits : Nat} (hlow : 10 ^ k ≤ low) (hdigits : digits < 10 ^ (k + 1))
    (power place : Int) :
  digits * (10 : Rat) ^ place ≤ low * (10 : Rat) ^ power ∨
    (low + 1 : Nat) * (10 : Rat) ^ power ≤ digits * (10 : Rat) ^ place
  := by
  rcases le_or_gt power place with hcoarse | hfine
  · -- Both are multiples of the same power of ten.
    obtain ⟨n, hn⟩ := Int.eq_ofNat_of_zero_le (sub_nonneg.mpr hcoarse)
    rw [show place = n + power by omega, ten_zpow_add, ← mul_assoc, ← Nat.cast_mul]
    rcases Nat.lt_or_ge low (digits * 10 ^ n) with hless | hge
    · right
      gcongr
      exact hless
    · left
      gcongr
  · -- Digits that go further down do not go up as far.
    left
    calc digits * (10 : Rat) ^ place
      _ ≤ (10 ^ (k + 1) : Nat) * (10 : Rat) ^ place := by gcongr
      _ = (10 : Rat) ^ ((k + 1 : Nat) + place) := (ten_zpow_add _ _).symm
      _ ≤ (10 : Rat) ^ (k + power) := zpow_le_zpow_right₀ (by norm_num) (by omega)
      _ = (10 ^ k : Nat) * (10 : Rat) ^ power := ten_zpow_add _ _
      _ ≤ low * (10 : Rat) ^ power := by gcongr

theorem readsBack_iff {n : Nat} {power : Int} :
  readsBack m n power = true ↔ nearest (n * (10 : Rat) ^ power) = m
  := decide_eq_true_iff

/-- Where neither of the two decimals reads back as the magnitude, no decimal with as many digits
does. -/
theorem nearest_ne_of_candidate_eq_none (hm : 0 < m) (hinfinity : m ≤ infinity)
    (h : candidate m (k + 1) = none) {digits : Nat} (hdigits : digits < 10 ^ (k + 1))
    (place : Int) :
  nearest (digits * (10 : Rat) ^ place) ≠ m
  := by
  intro hreads
  obtain ⟨low, power, haround⟩ := exists_around hm k
  have hself := nearest_absolute hinfinity
  have hneither : ¬readsBack m low power = true ∧ ¬readsBack m (low + 1) power = true := by
    rw [haround.candidate_eq] at h
    split at h
    · cases h
    · cases h
    · cases h
    · next hbelow habove => exact ⟨Bool.eq_false_iff.mp hbelow, Bool.eq_false_iff.mp habove⟩
  rw [readsBack_iff, readsBack_iff] at hneither
  rcases not_between haround.le_low hdigits power place with hbelow | habove
  · exact hneither.1 (nearest_eq_of_between (by positivity) hbelow haround.low_le hreads hself)
  · exact hneither.2
      (nearest_eq_of_between (absolute_nonneg m) haround.lt_next.le habove hself hreads)

/-- A candidate is one of two decimals with no more digits than wanted, and reads back as the
magnitude. -/
theorem exists_of_candidate_eq_some {d : Decimal} (hm : 0 < m)
    (h : candidate m (k + 1) = some d) :
  ∃ n power, d = ofScaled n power ∧ power = decimalExponent (absolute m) - k ∧ 10 ^ k ≤ n ∧
    n ≤ 10 ^ (k + 1) ∧ nearest (n * (10 : Rat) ^ power) = m
  := by
  obtain ⟨low, power, haround⟩ := exists_around hm k
  have hle := haround.le_low
  have hlow := haround.low_lt
  have hchosen : ∃ n, (n = low ∨ n = low + 1) ∧ readsBack m n power = true ∧
      d = ofScaled n power := by
    rw [haround.candidate_eq] at h
    split at h
    · next hbelow _ => exact ⟨low, .inl rfl, hbelow, (Option.some.inj h).symm⟩
    · next _ habove => exact ⟨low + 1, .inr rfl, habove, (Option.some.inj h).symm⟩
    · next hbelow habove =>
      refine ⟨_, ?_, ?_, (Option.some.inj h).symm⟩
      · split_ifs
        · exact .inl rfl
        · exact .inr rfl
      · split_ifs
        · exact hbelow
        · exact habove
    · cases h
  obtain ⟨n, hn, hreads, rfl⟩ := hchosen
  exact ⟨n, power, rfl, haround.power_eq, by omega, by omega, readsBack_iff.mp hreads⟩

/-! ### The search -/

/-- The exponent of a finite magnitude is not large. -/
theorem decimalExponent_absolute_lt (hm : 0 < m) (hinfinity : m < infinity) :
  decimalExponent (absolute m) < 320
  := by
  have hvalue := absolute_strictMono hinfinity
  have hfirst := (decimalExponent_spec (absolute_pos hm)).1
  rw [absolute_infinity] at hvalue
  have hless : (10 : Rat) ^ decimalExponent (absolute m) < 10 ^ (320 : Int) := by
    calc (10 : Rat) ^ decimalExponent (absolute m)
      _ ≤ absolute m := hfirst
      _ < 2 ^ 1024 := hvalue
      _ = (2 ^ 16) ^ 64 := by rw [← pow_mul]
      _ ≤ (10 ^ 5) ^ 64 := by gcongr; norm_num
      _ = 10 ^ (320 : Int) := by
        rw [← pow_mul]
        exact (zpow_natCast 10 320).symm
  exact (zpow_lt_zpow_iff_right₀ (by norm_num)).mp hless

/-- From the place of the smallest step on, every finite magnitude is an integer at the place. -/
theorem exists_absolute_eq (m : Nat) {power : Int} (hpower : power ≤ -1074) :
  ∃ n : Nat, absolute m = n * (10 : Rat) ^ power
  := by
  obtain ⟨k, n, rfl, hn, hk⟩ := exists_step m
  obtain ⟨j, rfl⟩ : ∃ j : Nat, power = -(1074 + j) := ⟨(-1074 - power).toNat, by omega⟩
  use n * 2 ^ (k + j) * 5 ^ (1074 + j)
  have hten : (10 : Rat) = 2 * 5 := by norm_num
  have htwo : (2 : Rat) ^ ((k : Int) - 1074) = 2 ^ (k + j) * 2 ^ (-(1074 + j : Int)) := by
    rw [← zpow_natCast, ← zpow_add₀ two_ne_zero]
    congr 1
    push_cast
    ring
  have hfive : (5 : Rat) ^ (1074 + j) * 5 ^ (-(1074 + j : Int)) = 1 := by
    rw [← zpow_natCast, ← zpow_add₀ (by norm_num)]
    push_cast
    rw [add_neg_cancel, zpow_zero]
  rw [absolute_step hn.le hk, htwo, hten, mul_zpow]
  push_cast
  rw [mul_mul_mul_comm, hfive, mul_one, mul_assoc]

/-- The exponent of a positive magnitude is not small. -/
theorem lt_decimalExponent_absolute (hm : 0 < m) :
  -1075 < decimalExponent (absolute m)
  := by
  obtain ⟨n, hn⟩ := exists_absolute_eq m (le_refl (-1074))
  have hvalue := absolute_pos hm
  have hone : 1 ≤ n := by
    apply Nat.pos_of_ne_zero
    rintro rfl
    rw [hn, Nat.cast_zero, zero_mul] at hvalue
    exact lt_irrefl _ hvalue
  have hless : (10 : Rat) ^ (-1074 : Int) < (10 : Rat) ^ (decimalExponent (absolute m) + 1) := by
    calc (10 : Rat) ^ (-1074 : Int)
      _ ≤ n * (10 : Rat) ^ (-1074 : Int) :=
        le_mul_of_one_le_left (by positivity) (by exact_mod_cast hone)
      _ = absolute m := hn.symm
      _ < _ := (decimalExponent_spec hvalue).2
  have := (zpow_lt_zpow_iff_right₀ (by norm_num)).mp hless
  omega

/-- With the largest count of digits that is tried the number is a decimal itself. -/
theorem exists_candidate (hm : 0 < m) (hinfinity : m < infinity) :
  candidate m exactDigits ≠ none
  := by
  obtain ⟨low, power, haround⟩ := exists_around hm 1399
  have hexponent := decimalExponent_absolute_lt hm hinfinity
  have hpower := haround.power_eq
  obtain ⟨n, hn⟩ := exists_absolute_eq m (show power ≤ -1074 by omega)
  have hpos : (0 : Rat) < 10 ^ power := by positivity
  have hlow : n = low := by
    have hle := haround.low_le
    have hlt := haround.lt_next
    rw [hn] at hle hlt
    have := le_of_mul_le_mul_right hle hpos
    have := lt_of_mul_lt_mul_right hlt hpos.le
    have : low ≤ n := by assumption_mod_cast
    have : n < low + 1 := by assumption_mod_cast
    omega
  have hreads : readsBack m low power = true := by
    rw [readsBack_iff, ← hlow, ← hn]
    exact nearest_absolute hinfinity.le
  rw [exactDigits, haround.candidate_eq, hreads]
  cases readsBack m (low + 1) power
  · exact Option.some_ne_none _
  · exact Option.some_ne_none _

/-- The search finds the first count of digits for which there is a candidate. -/
theorem firstCandidate_spec {fuel first last : Nat} (hfirst : first ≤ last)
    (hlast : last < first + fuel) (h : candidate m last ≠ none) :
  ∃ count, first ≤ count ∧ candidate m count = some (firstCandidate m fuel first) ∧
    ∀ fewer, first ≤ fewer → fewer < count → candidate m fewer = none
  := by
  induction fuel generalizing first with
  | zero => omega
  | succ fuel ih =>
    rw [firstCandidate]
    rcases hcandidate : candidate m first with _ | d
    · have hne : first ≠ last := by
        rintro rfl
        exact h hcandidate
      obtain ⟨count, hle, hfound, hnone⟩ := ih (show first + 1 ≤ last by omega) (by omega)
      refine ⟨count, by omega, hfound, fun fewer hfewer hless => ?_⟩
      rcases Nat.lt_or_eq_of_le hfewer with hgreater | rfl
      · exact hnone fewer hgreater hless
      · exact hcandidate
    · exact ⟨first, le_rfl, hcandidate, fun fewer _ _ => by omega⟩

/-! ### Shortest digits -/

/-- A decimal reads back as a magnitude, with no more digits than any other one that does, and its
exponent is that of its first digit. -/
structure IsShortest (m : Nat) (d : Decimal) : Prop where
  isNearest : IsNearest d.value m
  length_le : ∀ (digits count : Nat) (place : Int), digits < 10 ^ count →
    IsNearest (digits * (10 : Rat) ^ place) m → d.digits.length ≤ count
  le_value : (10 : Rat) ^ d.exponent ≤ d.value
  value_lt : d.value < (10 : Rat) ^ (d.exponent + 1)

/-- The digits that are chosen for a positive finite magnitude are a candidate, and none with fewer
digits is one. -/
theorem exists_candidate_eq_shortest (hm : 0 < m) (hinfinity : m < infinity) :
  ∃ k, candidate m (k + 1) = some (shortest m) ∧
    ∀ fewer, 1 ≤ fewer → fewer < k + 1 → candidate m fewer = none
  := by
  obtain ⟨count, hcount, hfound, hnone⟩ :=
    firstCandidate_spec (show 1 ≤ exactDigits by decide)
      (show exactDigits < 1 + exactDigits by decide) (exists_candidate hm hinfinity)
  have hshortest : shortest m = firstCandidate m exactDigits 1 := if_neg hm.ne'
  obtain ⟨k, rfl⟩ := Nat.exists_eq_succ_of_ne_zero (Nat.one_le_iff_ne_zero.mp hcount)
  exact ⟨k, hshortest ▸ hfound, hnone⟩

/-- The shortest digits of a finite magnitude have a small exponent. -/
theorem exponent_shortest_bounds (hm : m < infinity) :
  -1074 ≤ (shortest m).exponent ∧ (shortest m).exponent ≤ 320
  := by
  rcases Nat.eq_zero_or_pos m with rfl | hpos
  · exact ⟨by decide, by decide⟩
  · obtain ⟨k, hfound, _⟩ := exists_candidate_eq_shortest hpos hm
    obtain ⟨n, power, heq, hpower, hlow, hhigh, _⟩ := exists_of_candidate_eq_some hpos hfound
    have hbounds := exponent_ofScaled_bounds hlow hhigh power
    have hupper := decimalExponent_absolute_lt hpos hm
    have hlower := lt_decimalExponent_absolute hpos
    rw [heq]
    omega

/-- The digits that are chosen for a positive finite magnitude are the shortest ones. -/
theorem isShortest_shortest (hm : 0 < m) (hinfinity : m < infinity) :
  IsShortest m (shortest m)
  := by
  obtain ⟨k, hfound, hnone⟩ := exists_candidate_eq_shortest hm hinfinity
  obtain ⟨n, power, heq, _, hge, hle, hreads⟩ := exists_of_candidate_eq_some hm hfound
  have hn : 0 < n := lt_of_lt_of_le (by positivity) hge
  rw [heq]
  have hbounds := value_ofScaled_bounds hn power
  constructor
  case isNearest =>
    rwa [value_ofScaled hn, ← nearest_eq_iff (by positivity)]
  case length_le =>
    intro digits fewer place hdigits hnearest
    rw [← nearest_eq_iff (by positivity)] at hnearest
    have hfewer : k + 1 ≤ fewer := by
      by_contra! hless
      cases fewer with
      | zero =>
        have hzero : digits = 0 := by omega
        rw [hzero, Nat.cast_zero, zero_mul, nearest, if_pos le_rfl] at hnearest
        exact hm.ne hnearest
      | succ fewer =>
        have hnot := hnone (fewer + 1) (by omega) hless
        exact nearest_ne_of_candidate_eq_none hm hinfinity.le hnot hdigits place hnearest
    exact (length_ofScaled_le hn k.succ_pos hle power).trans hfewer
  case le_value => exact hbounds.1
  case value_lt => exact hbounds.2

end BraceFormat.Decimal
