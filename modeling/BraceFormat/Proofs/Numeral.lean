import BraceFormat.Text.ByteLength

/-!
# Numerals and runs

A run of characters of one sort goes as far as the first character of another sort: `Stops`
says that a text does not go on with such a run. A decimal numeral is a run of digits, of
which no number has two without a leading zero.
-/

namespace BraceFormat

/-! ### Runs of characters -/

/-- A text does not begin with a character of some sort. -/
def Stops (sort : Char → Bool) (rest : List Char) : Prop :=
  ∀ c ∈ rest.head?, sort c = false

theorem Stops.nil {sort : Char → Bool} :
  Stops sort []
  := by
  rintro c ⟨⟩

theorem Stops.cons {sort : Char → Bool} {c : Char} {rest : List Char} (h : sort c = false) :
  Stops sort (c :: rest)
  := by
  rintro _ ⟨⟩
  apply h

/-- A text that stops a run stops the runs of fewer characters too. -/
theorem Stops.mono {p q : Char → Bool} {rest : List Char} (h : Stops q rest)
    (hpq : ∀ c, p c = true → q c = true) :
  Stops p rest
  := by
  intro c hc
  have hq := h c hc
  rw [← Bool.not_eq_true] at hq ⊢
  intro hp
  apply hq (hpq c hp)

theorem stops_dropWhile (sort : Char → Bool) (text : List Char) :
  Stops sort (text.dropWhile sort)
  := by
  induction text with
  | nil => apply Stops.nil
  | cons c text ih =>
    by_cases hc : sort c = true
    · rw [List.dropWhile_cons_of_pos hc]
      apply ih
    · rw [List.dropWhile_cons_of_neg hc]
      apply Stops.cons (Bool.eq_false_iff.mpr hc)

theorem takeWhile_of_stops {sort : Char → Bool} {rest : List Char} (h : Stops sort rest) :
  rest.takeWhile sort = []
  := by
  cases rest with
  | nil => rfl
  | cons c rest =>
    rw [List.takeWhile_cons_of_neg]
    rw [h c rfl]
    apply Bool.false_ne_true

theorem dropWhile_of_stops {sort : Char → Bool} {rest : List Char} (h : Stops sort rest) :
  rest.dropWhile sort = rest
  := by
  cases rest with
  | nil => rfl
  | cons c rest =>
    rw [List.dropWhile_cons_of_neg]
    rw [h c rfl]
    apply Bool.false_ne_true

/-- A run in front of a text that stops it is the whole run. -/
theorem takeWhile_append_of_stops {sort : Char → Bool} {run rest : List Char}
    (hrun : ∀ c ∈ run, sort c = true) (hrest : Stops sort rest) :
  (run ++ rest).takeWhile sort = run
  := by
  rw [List.takeWhile_append_of_pos hrun, takeWhile_of_stops hrest, List.append_nil]

/-- What follows a run is the text that stops it. -/
theorem dropWhile_append_of_stops {sort : Char → Bool} {run rest : List Char}
    (hrun : ∀ c ∈ run, sort c = true) (hrest : Stops sort rest) :
  (run ++ rest).dropWhile sort = rest
  := by
  rw [List.dropWhile_append_of_pos hrun, dropWhile_of_stops hrest]

theorem mem_takeWhile {sort : Char → Bool} {text : List Char} {c : Char}
    (h : c ∈ text.takeWhile sort) :
  sort c = true
  := by
  induction text with
  | nil => cases h
  | cons d text ih =>
    by_cases hd : sort d = true
    · rw [List.takeWhile_cons_of_pos hd] at h
      obtain _ | ⟨_, h⟩ := h
      · apply hd
      · apply ih h
    · rw [List.takeWhile_cons_of_neg hd] at h
      cases h

/-! ### Decimal numerals -/

/-- The digits of a numeral. -/
theorem isDigit_of_mem_numeral {n : Nat} {c : Char} (h : c ∈ Nat.toDigits 10 n) :
  c.isDigit = true
  := Nat.isDigit_of_mem_toDigits (by decide) (by decide) h

/-- The digit of a digit character is below ten, and is written as the character. -/
theorem digitChar_of_isDigit {c : Char} (h : c.isDigit = true) :
  c.toNat - '0'.toNat < 10 ∧ (c.toNat - '0'.toNat).digitChar = c
  := by
  obtain ⟨hlow, hhigh⟩ := Char.isDigit_iff_toNat.mp h
  have hzero : '0'.toNat = 48 := rfl
  have hnine : '9'.toNat = 57 := rfl
  have hlt : c.toNat - '0'.toNat < 10 := by omega
  constructor
  · apply hlt
  · apply Char.toNat_inj.mp
    rw [Nat.toNat_digitChar_of_lt_ten hlt]
    omega

/-- The digits of a positive number and then more digits make the numeral of the number that
they are read as together. -/
theorem numeral_append {n : Nat} (hn : 0 < n) {digits : List Char}
    (hdigits : ∀ c ∈ digits, c.isDigit = true) :
  Nat.toDigits 10 n ++ digits = Nat.toDigits 10 (Nat.ofDigitChars 10 digits n)
  := by
  induction digits generalizing n with
  | nil => rw [List.append_nil, Nat.ofDigitChars_nil]
  | cons c digits ih =>
    obtain ⟨hlt, hc⟩ := digitChar_of_isDigit (hdigits c (.head _))
    have hstep := Nat.toDigits_append_toDigits (b := 10) (by decide) hn hlt
    rw [Nat.toDigits_of_lt_base hlt, hc] at hstep
    rw [Nat.ofDigitChars_cons, ← ih (by omega) (fun d hd => hdigits d (.tail _ hd)), ← hstep,
      List.append_assoc]
    rfl

/-- A run of digits without a leading zero is the numeral of the number it is read as. -/
theorem numeral_of_digits {c : Char} {digits : List Char} (hc : c.isDigit = true)
    (hzero : c ≠ '0') (hdigits : ∀ d ∈ digits, d.isDigit = true) :
  Nat.toDigits 10 (Nat.ofDigitChars 10 (c :: digits) 0) = c :: digits
  := by
  obtain ⟨hlt, hchar⟩ := digitChar_of_isDigit hc
  have hpos : 0 < c.toNat - '0'.toNat := by
    apply Nat.pos_of_ne_zero
    intro h
    apply hzero
    rw [← hchar, h]
    rfl
  rw [Nat.ofDigitChars_cons, Nat.mul_zero, Nat.zero_add, ← numeral_append hpos hdigits,
    Nat.toDigits_of_lt_base hlt, hchar]
  rfl

/-- A numeral begins with a digit, which is zero only for zero. -/
theorem numeral_eq_cons (n : Nat) :
  ∃ c digits, Nat.toDigits 10 n = c :: digits ∧ c.isDigit = true ∧ (c = '0' → n = 0)
  := by
  induction n using Nat.base_induction 10 (by decide) with
  | single m hm =>
    refine ⟨m.digitChar, [], Nat.toDigits_of_lt_base hm, ?_, Nat.digitChar_eq_zero.mp⟩
    rw [Nat.isDigit_digitChar, decide_eq_true hm]
  | digit m k hk hm ih =>
    obtain ⟨c, digits, h, hc, hzero⟩ := ih
    refine ⟨c, digits ++ Nat.toDigits 10 k, ?_, hc, ?_⟩
    · rw [← Nat.toDigits_append_toDigits (by decide) hm hk, h, List.cons_append]
    · intro h0
      have := hzero h0
      omega

end BraceFormat
