import BraceFormat.Proofs.Guarded.ArgId

/-!
# Guarded exponents

The exponent of a decimal is a word of 32 bits with a sign. It is read digit by digit onto a
number, and a result that is no such word breaches the guard. An exponent that is a word is read
whatever zeros stand in front of it (`wordValue?_encode`).
-/

namespace BraceFormat.Guarded

open Utf8

/-- A number if it is a word of 32 bits with a sign. -/
def word? (n : Int) : Option Int := if -0x80000000 ≤ n ∧ n < 0x80000000 then some n else none

/-- Reads one more digit onto a number, all in words. -/
def readDigit? (n : Int) (b : UInt8) : Option Int := do
  let digit ← minus? b.toNat '0'.toNat
  let tenfold ← word? (n * 10)
  word? (tenfold + digit)

/-- The number that digits stand for, read in words. -/
def wordValue? (bytes : List UInt8) : Option Int := bytes.foldlM readDigit? 0

theorem word?_eq {n : Int} (hlow : -0x80000000 ≤ n) (hhigh : n < 0x80000000) :
  word? n = some n
  := if_pos ⟨hlow, hhigh⟩

/-- A digit is read onto a number if the number that results is a word. -/
theorem readDigit?_eq {c : Char} (hc : c.isDigit = true) {b : UInt8} (hb : b.toNat = c.toNat)
    {n : Nat} (h : 10 * n + (c.toNat - '0'.toNat) < 0x80000000) :
  readDigit? n b = some ((10 * n + (c.toNat - '0'.toNat) : Nat) : Int)
  := by
  have hzero : '0'.toNat ≤ c.toNat := (Char.isDigit_iff_toNat.mp hc).1
  rw [readDigit?, hb, minus?_eq hzero, Option.bind_eq_bind, Option.bind_some]
  generalize c.toNat - '0'.toNat = digit at h ⊢
  have hsum : (n : Int) * 10 + digit = (10 * n + digit : Nat) := by omega
  have htenfold : word? (n * 10) = some (n * 10 : Int) := word?_eq (by omega) (by omega)
  rw [htenfold, Option.bind_eq_bind, Option.bind_some, hsum]
  exact word?_eq (by omega) (by omega)

/-- Digits are read as the number that they stand for, if it is a word. The numbers on the way are
not greater, so they are words too. -/
theorem foldlM_readDigit? {digits : List Char} (h : ∀ c ∈ digits, c.isDigit = true) {n : Nat}
    (hbound : Nat.ofDigitChars 10 digits n < 0x80000000) :
  (encode digits).foldlM readDigit? (n : Int) =
    some ((Nat.ofDigitChars 10 digits n : Nat) : Int)
  := by
  induction digits generalizing n with
  | nil => rfl
  | cons c digits ih =>
    have hc := h c (.head _)
    obtain ⟨b, hencode, hb⟩ := utf8EncodeChar_of_ascii (toNat_lt_of_isDigit hc)
    have htoNat : b.toNat = c.toNat := by rw [← hb, toNat_byteChar]
    rw [Nat.ofDigitChars_cons] at hbound
    have hle := le_ofDigitChars digits (10 * n + (c.toNat - '0'.toNat))
    rw [encode_cons, hencode, List.singleton_append, List.foldlM_cons,
      readDigit?_eq hc htoNat (Nat.lt_of_le_of_lt hle hbound), Option.bind_eq_bind,
      Option.bind_some, Nat.ofDigitChars_cons]
    exact ih (fun d hd => h d (.tail _ hd)) hbound

theorem wordValue?_encode {digits : List Char} (h : ∀ c ∈ digits, c.isDigit = true)
    (hbound : Nat.ofDigitChars 10 digits 0 < 0x80000000) :
  wordValue? (encode digits) = some ((Nat.ofDigitChars 10 digits 0 : Nat) : Int)
  := foldlM_readDigit? h hbound

end BraceFormat.Guarded
