import BraceFormat.Proofs.Guarded.ArgId
import BraceFormat.Rendering.Integer
import Mathlib.Algebra.Group.Nat.Defs

/-!
# Guarded writing of digits

The digits of a number are written from the end of a buffer towards its start, each one taken
from a table of sixteen. A buffer with a slot for each binary digit is never overrun
(`digits?_eq`). An address is written from its first digit on, and the separators of a locale
stand where the number of digits behind them, a guarded difference, asks for them.
-/

namespace BraceFormat.Guarded

/-- The digits up to that of fifteen. -/
def digitTable (upper : Bool) : List Char :=
  ['0', '1', '2', '3', '4', '5', '6', '7', '8', '9'] ++
    if upper then ['A', 'B', 'C', 'D', 'E', 'F'] else ['a', 'b', 'c', 'd', 'e', 'f']

/-- Writes the digits of a number in front of the end of a buffer that has some free slots. -/
def digits? (base : Nat) (upper : Bool) : Nat → Nat → Option (List Char)
  | 0, _ => none
  | slots + 1, n => do
    let digit ← (digitTable upper)[n % base]?
    if n / base = 0 then return [digit]
    else
      let front ← digits? base upper slots (n / base)
      return front ++ [digit]

/-- The slots of the buffer. -/
def digitSlots : Nat := 64

/-- Writes the last `count` hexadecimal digits of an address. -/
def addressDigits? (address : Nat) : Nat → Option (List Char)
  | 0 => some []
  | count + 1 => do
    let digit ← (digitTable false)[address / 16 ^ count % 16]?
    let rest ← addressDigits? address count
    return digit :: rest

/-- Puts the separators of a locale between the digits of a numeral of `size` digits, which
goes on at some index. -/
def group? (locale : Locale) (size : Nat) : Nat → List Char → Option (List Char)
  | _, [] => some []
  | index, digit :: digits => do
    let position ← minus? size index
    let separator := if 0 < index then locale.separatorBefore position else none
    let rest ← group? locale size (index + 1) digits
    return separator.toList ++ digit :: rest

/-! ### Integers -/

/-- The form of a digit as a table has it. -/
def digitForm (upper : Bool) (c : Char) : Char := if upper then c.toUpper else c

theorem digitTable_getElem? {k : Nat} (hk : k < 16) (upper : Bool) :
  (digitTable upper)[k]? = some (digitForm upper k.digitChar)
  := by
  have hall : ∀ k < 16, ∀ upper : Bool,
      (digitTable upper)[k]? = some (digitForm upper k.digitChar) := by decide
  apply hall k hk

/-- A buffer that holds as many digits as the base needs for a number is not overrun, and the
digits are those of the number. -/
theorem digits?_eq {base slots n : Nat} (hlow : 2 ≤ base) (hhigh : base ≤ 16)
    (hslots : 0 < slots) (hn : n < base ^ slots) (upper : Bool) :
  digits? base upper slots n = some ((Nat.toDigits base n).map (digitForm upper))
  := by
  induction slots generalizing n with
  | zero => cases hslots
  | succ slots ih =>
    have hdigit : n % base < base := Nat.mod_lt n (by omega)
    rw [digits?, digitTable_getElem? (by omega)]
    simp only [Option.bind_eq_bind, Option.bind_some]
    by_cases hlt : n < base
    · rw [if_pos (Nat.div_eq_of_lt hlt), Nat.toDigits_of_lt_base hlt, Nat.mod_eq_of_lt hlt]
      rfl
    · have hquotient : 0 < n / base := Nat.div_pos (by omega) (by omega)
      have hbound : n / base < base ^ slots := by
        apply Nat.div_lt_of_lt_mul
        rw [Nat.mul_comm]
        apply hn
      have hslots' : 0 < slots := by
        apply Nat.pos_of_ne_zero
        rintro rfl
        rw [Nat.pow_zero] at hbound
        omega
      have hdigits := Nat.toDigits_of_base_le (b := base) (n := n) (by omega) (by omega)
      rw [if_neg (by omega), ih hslots' hbound, hdigits]
      simp only [Option.bind_some, List.map_append]
      rfl

theorem digits?_digitSlots {b n : Nat} (hlow : 2 ≤ b) (hhigh : b ≤ 16)
    (hn : n < UInt64.size) (upper : Bool) :
  digits? b upper digitSlots n = some ((Nat.toDigits b n).map (digitForm upper))
  := by
  apply digits?_eq hlow hhigh (by decide)
  apply Nat.lt_of_lt_of_le hn
  change 2 ^ 64 ≤ b ^ 64
  apply Nat.pow_le_pow_left hlow

theorem map_digitForm_false (digits : List Char) :
  digits.map (digitForm false) = digits
  := List.map_id digits

/-- The digits of a number of 64 bits never overrun the buffer. -/
theorem digits?_lower {b n : Nat} (hlow : 2 ≤ b) (hhigh : b ≤ 16) (hn : n < UInt64.size) :
  digits? b false digitSlots n = some (Nat.toDigits b n)
  := by
  rw [digits?_digitSlots hlow hhigh hn, map_digitForm_false]

/-! ### Addresses -/

theorem addressDigits?_succ (address count : Nat) :
  addressDigits? address (count + 1) =
    (addressDigits? (address / 16) count).map (· ++ [(address % 16).digitChar])
  := by
  induction count with
  | zero =>
    have hdigit := digitTable_getElem? (Nat.mod_lt address (by decide : 0 < 16)) false
    simp only [addressDigits?, Nat.pow_zero, Nat.div_one, hdigit]
    rfl
  | succ count ih =>
    have hdigit := digitTable_getElem?
      (Nat.mod_lt (address / 16 ^ (count + 1)) (by decide : 0 < 16)) false
    have hquotient : address / 16 / 16 ^ count = address / 16 ^ (count + 1) := by
      rw [Nat.div_div_eq_div_mul, Nat.pow_succ, Nat.mul_comm]
    rw [addressDigits?, ih, addressDigits?, hquotient, hdigit]
    cases addressDigits? (address / 16) count <;> rfl

/-- The last digits of an address that has no more are all its digits, with zeros in front. -/
theorem addressDigits?_eq {address count : Nat} (haddress : address < 16 ^ count)
    (hcount : 0 < count) :
  addressDigits? address count =
    some (List.replicate (count - (Nat.toDigits 16 address).length) '0' ++
      Nat.toDigits 16 address)
  := by
  induction count generalizing address with
  | zero => cases hcount
  | succ count ih =>
    rw [addressDigits?_succ]
    rcases Nat.eq_zero_or_pos count with rfl | hpos
    · rw [Nat.pow_one] at haddress
      rw [Nat.toDigits_of_lt_base haddress, Nat.mod_eq_of_lt haddress]
      rfl
    · have hquotient : address / 16 < 16 ^ count := by
        apply Nat.div_lt_of_lt_mul
        rw [Nat.mul_comm]
        apply haddress
      rw [ih hquotient hpos, Option.map_some]
      congr 1
      by_cases hlt : address < 16
      · rw [Nat.div_eq_of_lt hlt, Nat.toDigits_zero, Nat.toDigits_of_lt_base hlt,
          Nat.mod_eq_of_lt hlt, ← List.replicate_succ', List.length_singleton,
          List.length_singleton, Nat.sub_add_cancel hpos, Nat.add_sub_cancel]
      · have hdigits := Nat.toDigits_of_base_le (b := 16) (n := address) (by decide) (by omega)
        rw [hdigits, List.length_append, List.length_singleton, Nat.add_sub_add_right,
          List.append_assoc]

/-! ### Separators -/

/-- The separators in a numeral stand where the locale groups its digits. -/
theorem group?_eq {locale : Locale} {size index : Nat} {digits : List Char}
    (hsize : index + digits.length = size) :
  group? locale size index digits =
    some ((if 0 < index then (locale.separatorBefore digits.length).toList else []) ++
      locale.group digits)
  := by
  induction digits generalizing index with
  | nil =>
    have hnone : locale.separatorBefore 0 = none := by
      rw [Locale.separatorBefore, if_neg]
      rintro ⟨_, hzero, _⟩
      cases hzero
    rw [List.length_nil, hnone]
    split <;> rfl
  | cons digit digits ih =>
    rw [List.length_cons] at hsize
    have hposition : size - index = (digit :: digits).length := by
      rw [List.length_cons]
      omega
    rw [group?, minus?_eq (by omega), ih (by omega), if_pos (Nat.succ_pos index), hposition,
      Locale.group]
    simp only [Option.bind_eq_bind, Option.bind_some]
    split <;> rfl

end BraceFormat.Guarded
