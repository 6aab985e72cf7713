import BraceFormat.Number.Binary64
import Mathlib.Algebra.Order.Field.Power
import Mathlib.Algebra.Order.Ring.Unbundled.Rat
import Mathlib.Tactic.GCongr
import Mathlib.Tactic.Linarith
import Mathlib.Tactic.NormNum
import Mathlib.Tactic.Positivity
import Mathlib.Tactic.Ring

/-!
# Numbers too large for a floating-point number

A number lies between the power of two at its binary exponent and the next one, and rounding to
integers goes to a neighbour. So a number that is rounded to a magnitude goes to the infinity
just if it is at least half a step above the largest finite one (`nearest_lt_infinity_iff`).
-/

namespace BraceFormat

/-! ### Rounding to integers -/

/-- A number is rounded to an even integer or above just if it is at most half a step below. -/
theorem le_roundHalfEven_iff {n : Int} (hn : n % 2 = 0) (q : Rat) :
  n ≤ roundHalfEven q ↔ (n : Rat) - 1 / 2 ≤ q
  := by
  have hlow := Rat.floor_le q
  have hhigh := Rat.lt_floor_add_one q
  push_cast at hhigh
  rw [roundHalfEven]
  rcases lt_or_ge n (q.floor + 1) with hle | hgt
  · have hle : (n : Rat) ≤ q.floor := by exact_mod_cast Int.le_of_lt_add_one hle
    constructor
    · intro _
      linarith
    · intro _
      have : n ≤ q.floor := by exact_mod_cast hle
      split_ifs <;> omega
  · rcases Int.lt_or_eq_of_le hgt with hgt | rfl
    · have hfar : (q.floor : Rat) + 2 ≤ n := by
        exact_mod_cast (show q.floor + 2 ≤ n by omega)
      constructor
      · intro h
        exfalso
        split_ifs at h <;> omega
      · intro h
        linarith
    · push_cast
      constructor
      · intro h
        split_ifs at h
        · omega
        · linarith
        · omega
        · linarith
      · intro h
        split_ifs
        · linarith
        · omega
        · omega
        · omega

/-- A number is rounded above no integer that is not below it. -/
theorem roundHalfEven_le {n : Int} {q : Rat} (h : q ≤ n) :
  roundHalfEven q ≤ n
  := by
  have hfloor : q.floor ≤ n := by
    have := (Rat.floor_le q).trans h
    exact_mod_cast this
  rcases Int.lt_or_eq_of_le hfloor with hlt | rfl
  · rw [roundHalfEven]
    split_ifs <;> omega
  · have hq : q = q.floor := le_antisymm h (Rat.floor_le q)
    rw [hq, roundHalfEven_intCast, Rat.floor_intCast]

/-- A number is rounded below no integer that is not above it. -/
theorem le_roundHalfEven {n : Int} {q : Rat} (h : n ≤ q) :
  n ≤ roundHalfEven q
  := by
  have hfloor : n ≤ q.floor := Rat.le_floor_iff.mpr h
  rw [roundHalfEven]
  split_ifs <;> omega

namespace Binary64

/-- A positive number lies between two powers of two. -/
theorem binaryExponent_spec {q : Rat} (hq : 0 < q) :
  (2 : Rat) ^ binaryExponent q ≤ q ∧ q < (2 : Rat) ^ (binaryExponent q + 1)
  := by
  obtain ⟨n, hn⟩ : ∃ n : Nat, q.num = n := Int.eq_ofNat_of_zero_le (Rat.num_nonneg.mpr hq.le)
  have hpos : n ≠ 0 := by
    rintro rfl
    exact hq.ne' (Rat.num_eq_zero.mp hn)
  have hvalue : q * q.den = n := by rw [Rat.mul_den_eq_num, hn, Int.cast_natCast]
  have hden : (0 : Rat) < q.den := by exact_mod_cast q.den_pos
  -- Numerator and denominator lie between powers of two as well.
  have hbounds {m : Nat} (hm : m ≠ 0) :
      (2 : Rat) ^ (m.log2 : Int) ≤ m ∧ (m : Rat) < 2 ^ ((m.log2 : Int) + 1) := by
    have hlow := Nat.log2_self_le hm
    have hhigh := Nat.lt_log2_self (n := m)
    constructor
    · exact_mod_cast hlow
    · exact_mod_cast hhigh
  obtain ⟨hnlow, hnhigh⟩ := hbounds hpos
  obtain ⟨hdlow, hdhigh⟩ := hbounds q.den_nz
  have hguess : binaryExponent q =
      if (2 : Rat) ^ ((n.log2 : Int) - q.den.log2) ≤ q then (n.log2 : Int) - q.den.log2
      else (n.log2 : Int) - q.den.log2 - 1 := by
    rw [binaryExponent, hn, Int.toNat_natCast]
  have hupper : q < 2 ^ ((n.log2 : Int) - q.den.log2 + 1) := by
    apply lt_of_mul_lt_mul_right _ hden.le
    calc q * q.den
      _ = n := hvalue
      _ < 2 ^ ((n.log2 : Int) + 1) := hnhigh
      _ = 2 ^ ((n.log2 : Int) - q.den.log2 + 1) * 2 ^ (q.den.log2 : Int) := by
        rw [← zpow_add₀ two_ne_zero]
        congr 1
        omega
      _ ≤ 2 ^ ((n.log2 : Int) - q.den.log2 + 1) * q.den := by gcongr
  have hlower : (2 : Rat) ^ ((n.log2 : Int) - q.den.log2 - 1) < q := by
    apply lt_of_mul_lt_mul_right _ hden.le
    calc (2 : Rat) ^ ((n.log2 : Int) - q.den.log2 - 1) * q.den
      _ < 2 ^ ((n.log2 : Int) - q.den.log2 - 1) * 2 ^ ((q.den.log2 : Int) + 1) := by gcongr
      _ = 2 ^ (n.log2 : Int) := by
        rw [← zpow_add₀ two_ne_zero]
        congr 1
        omega
      _ ≤ n := hnlow
      _ = q * q.den := hvalue.symm
  rw [hguess]
  split_ifs with h
  · exact ⟨h, hupper⟩
  · rw [Int.sub_add_cancel]
    exact ⟨hlower.le, lt_of_not_ge h⟩

/-- The numbers that are too large: half a step above the largest finite magnitude, or more. -/
def overflow : Rat := 2 ^ 1024 - 2 ^ 970

/-- With the step of the largest finite magnitudes, numbers are too large from half a step below
the fifty-third power of two on. -/
theorem overflow_eq :
  overflow = (2 ^ 53 - 1 / 2) * 2 ^ (971 : Int)
  := by
  have htop : (2 : Rat) ^ 1024 = 2 ^ 53 * 2 ^ 971 := by rw [← pow_add]
  have hhalf : (2 : Rat) ^ 971 = 2 * 2 ^ 970 := pow_succ' 2 970
  have hstep : (2 : Rat) ^ (971 : Int) = 2 ^ 971 := zpow_natCast 2 971
  rw [overflow, hstep, htop, hhalf]
  generalize (2 : Rat) ^ 970 = half
  ring

/-- A number goes to a finite magnitude just if it is not too large. -/
theorem nearest_lt_infinity_iff (q : Rat) :
  nearest q < infinity ↔ q < overflow
  := by
  have hpower (n : Int) : (0 : Rat) < 2 ^ n := zpow_pos two_pos n
  by_cases hq : q ≤ 0
  · have hoverflow : 0 < overflow := by
      rw [overflow_eq]
      exact mul_pos (by norm_num) (hpower 971)
    rw [nearest, if_pos hq]
    exact ⟨fun _ => hq.trans_lt hoverflow, fun _ => by decide⟩
  obtain ⟨hlow, hhigh⟩ := binaryExponent_spec (not_le.mp hq)
  rw [nearest, if_neg hq, infinity, hidden]
  generalize binaryExponent q = b at hlow hhigh
  dsimp only
  generalize he : max (b - 52) (-1074) = e
  -- The step at the number is that of the largest magnitudes, or a smaller or a larger one.
  rcases lt_trichotomy e 971 with hsmall | hlargest | hlarge
  · have hq : q < 2 ^ 53 * 2 ^ e := by
      calc q
        _ < 2 ^ (b + 1) := hhigh
        _ ≤ 2 ^ (53 + e) := zpow_le_zpow_right₀ one_le_two (by omega)
        _ = 2 ^ 53 * 2 ^ e := zpow_add₀ two_ne_zero 53 e
    have hround : roundHalfEven (q / 2 ^ e) ≤ 2 ^ 53 := by
      apply roundHalfEven_le
      rw [div_le_iff₀ (hpower e)]
      exact_mod_cast hq.le
    have hfinite : q < overflow := by
      have hnext : (2 : Rat) ^ (e + 1) ≤ 2 ^ (971 : Int) :=
        zpow_le_zpow_right₀ one_le_two (by omega)
      have hpos := hpower 971
      rw [overflow_eq]
      rw [zpow_add_one₀ two_ne_zero] at hnext
      generalize (2 : Rat) ^ (971 : Int) = step at hnext hpos ⊢
      linarith
    constructor
    · exact fun _ => hfinite
    · intro _
      omega
  · have hround : (2 : Int) ^ 53 ≤ roundHalfEven (q / 2 ^ e) ↔ overflow ≤ q := by
      rw [le_roundHalfEven_iff (by norm_num), le_div_iff₀ (hpower e), overflow_eq, hlargest,
        Int.cast_pow, Int.cast_ofNat]
    rw [← not_le, ← not_le, ← hround]
    omega
  · have hq : 2 ^ 52 * 2 ^ e ≤ q := by
      calc (2 : Rat) ^ 52 * 2 ^ e
        _ = 2 ^ (52 + e) := (zpow_add₀ two_ne_zero 52 e).symm
        _ ≤ 2 ^ b := zpow_le_zpow_right₀ one_le_two (by omega)
        _ ≤ q := hlow
    have hround : (2 : Int) ^ 52 ≤ roundHalfEven (q / 2 ^ e) := by
      have hquotient := (le_div_iff₀ (hpower e)).mpr hq
      rw [le_roundHalfEven_iff (by norm_num), Int.cast_pow, Int.cast_ofNat]
      linarith
    have hoverflow : overflow ≤ q := by
      have hnext : (2 : Rat) ^ ((971 : Int) + 1) ≤ 2 ^ e :=
        zpow_le_zpow_right₀ one_le_two (by omega)
      have hpos := hpower 971
      rw [overflow_eq]
      rw [zpow_add_one₀ two_ne_zero] at hnext
      generalize (2 : Rat) ^ (971 : Int) = step at hnext hpos ⊢
      linarith
    constructor
    · intro _
      omega
    · intro h
      cases hoverflow.not_gt h

end Binary64

end BraceFormat
