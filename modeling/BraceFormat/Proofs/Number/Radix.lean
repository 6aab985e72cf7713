import Mathlib.Data.List.Basic

/-!
# Positional notation

A `Radix` lists the digits of a base in the order of their values, and says how the base is
marked. `Radix.IsNumeral` says of some digits that they are those of a number, without a leading
zero; the digits that a number has in a base are such a numeral (`Radix.isNumeral_toDigits`).
-/

namespace BraceFormat

/-- A way of writing integers by digits. -/
structure Radix where
  /-- The digits of the base, in the order of their values. -/
  alphabet : List Char
  /-- The letter of the base marker, which stands behind a zero. -/
  letter : Option Char := none
  /-- The base marker is a zero alone, which zero does not need. -/
  zeroMarks : Bool := false
  /-- The digit zero comes first. -/
  idxOf_zero : '0' ∈ alphabet ∧ alphabet.idxOf '0' = 0 := by decide
  /-- No sign is a digit. -/
  sign_notMem : ∀ c ∈ ['-', '+', ' '], c ∉ alphabet := by simp
  /-- The letter of the marker is no digit. -/
  letter_notMem : ∀ c ∈ letter, c ∉ alphabet := by simp

namespace Radix

/-- The base ten. -/
def decimal : Radix where
  alphabet := ['0', '1', '2', '3', '4', '5', '6', '7', '8', '9']

variable (r : Radix)

/-- The number that digits stand for. -/
def value (digits : List Char) : Nat :=
  digits.foldl (fun n c => r.alphabet.length * n + r.alphabet.idxOf c) 0

/-- Digits that stand for a number, without a leading zero. -/
structure IsNumeral (n : Nat) (digits : List Char) : Prop where
  ne_nil : digits ≠ []
  mem_alphabet : ∀ c ∈ digits, c ∈ r.alphabet
  eq_zero : digits.head? = some '0' → digits = ['0']
  value_eq : r.value digits = n

variable {r}

theorem mem_alphabet_zeros_append (count : Nat) {digits : List Char}
    (h : ∀ c ∈ digits, c ∈ r.alphabet) :
  ∀ c ∈ List.replicate count '0' ++ digits, c ∈ r.alphabet
  := by
  intro c hc
  rcases List.mem_append.mp hc with hc | hc
  · rw [(List.mem_replicate.mp hc).2]
    apply r.idxOf_zero.1
  · apply h c hc

/-- Zeros in front change nothing. -/
theorem value_zeros_append (count : Nat) (digits : List Char) :
  r.value (List.replicate count '0' ++ digits) = r.value digits
  := by
  have hzeros : r.value (List.replicate count '0') = 0 := by
    induction count with
    | zero => rfl
    | succ count ih =>
      rw [List.replicate_succ', value, List.foldl_append, ← value, ih, List.foldl_cons,
        r.idxOf_zero.2]
      rfl
  rw [value, List.foldl_append, ← value, hzeros]
  rfl

theorem isNumeral_singleton {c : Char} (hc : c ∈ r.alphabet) :
  r.IsNumeral (r.alphabet.idxOf c) [c]
  := by
  constructor
  · apply List.cons_ne_nil
  · rintro d (_ | ⟨_, ⟨⟩⟩)
    apply hc
  · rintro ⟨⟩
    rfl
  · simp [value]

/-- A digit behind the numeral of a positive number makes another numeral. -/
theorem IsNumeral.snoc {n : Nat} {digits : List Char} (h : r.IsNumeral n digits) (hn : 0 < n)
    {c : Char} (hc : c ∈ r.alphabet) :
  r.IsNumeral (r.alphabet.length * n + r.alphabet.idxOf c) (digits ++ [c])
  := by
  constructor
  · simp
  · intro d hd
    rcases List.mem_append.mp hd with hd | hd
    · apply h.mem_alphabet d hd
    · rwa [List.mem_singleton.mp hd]
  · intro hhead
    rw [List.head?_append_of_ne_nil _ h.ne_nil] at hhead
    -- the digits in front would be a zero alone, but their number is positive
    have hvalue := h.value_eq
    rw [h.eq_zero hhead] at hvalue
    have hzero : n = 0 := by
      rw [← hvalue, (isNumeral_singleton r.idxOf_zero.1).value_eq, r.idxOf_zero.2]
    omega
  · rw [value, List.foldl_append, ← value, h.value_eq]
    rfl

/-- The digits of a number in a base, each replaced by the one of a radix, are its numeral. -/
theorem isNumeral_map_toDigits {base : Nat} (hbase : 1 < base) {digit : Char → Char}
    (hlength : r.alphabet.length = base)
    (hdigit : ∀ k < base, digit k.digitChar ∈ r.alphabet ∧
      r.alphabet.idxOf (digit k.digitChar) = k) (n : Nat) :
  r.IsNumeral n ((Nat.toDigits base n).map digit)
  := by
  induction n using Nat.base_induction base hbase with
  | single k hk =>
    obtain ⟨hmem, hidx⟩ := hdigit k hk
    have hnumeral := isNumeral_singleton hmem
    rw [hidx] at hnumeral
    rw [Nat.toDigits_of_lt_base hk]
    apply hnumeral
  | digit m k hk hm ih =>
    obtain ⟨hmem, hidx⟩ := hdigit k hk
    have hnumeral := ih.snoc hm hmem
    rw [hidx, hlength] at hnumeral
    rw [← Nat.toDigits_append_toDigits hbase hm hk, Nat.toDigits_of_lt_base hk, List.map_append]
    apply hnumeral

theorem isNumeral_toDigits {base : Nat} (hbase : 1 < base) (hlength : r.alphabet.length = base)
    (hdigit : ∀ k < base, k.digitChar ∈ r.alphabet ∧ r.alphabet.idxOf k.digitChar = k) (n : Nat) :
  r.IsNumeral n (Nat.toDigits base n)
  := by
  have h : r.IsNumeral n ((Nat.toDigits base n).map id) :=
    isNumeral_map_toDigits hbase hlength hdigit n
  rwa [List.map_id] at h

/-- The decimal digits of a number are its numeral in base ten. -/
theorem isNumeral_decimal (n : Nat) :
  decimal.IsNumeral n (Nat.toDigits 10 n)
  := isNumeral_toDigits (by decide) rfl (by decide) n

end Radix

end BraceFormat
