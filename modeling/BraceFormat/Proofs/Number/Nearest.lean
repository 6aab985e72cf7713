import BraceFormat.Proofs.Number.Overflow
import Mathlib.Algebra.Order.Group.Unbundled.Abs
import Mathlib.Algebra.Order.Ring.Abs
import Mathlib.Order.Monotone.Basic

/-!
# Nearest magnitudes

The magnitudes stand for numbers in increasing order: between two powers of two they go up in
steps of one length, and from one power of two to the next the step is doubled
(`absolute_step`). `IsNearest` says what it is for a magnitude to be the nearest one to a number,
the infinity counting as the power of two that comes after the finite magnitudes, and the even one
being preferred of two that are equally near. There is at most one such magnitude, it does not go
down when the number goes up, and it is the one that is computed (`nearest_eq_iff`).
-/

namespace BraceFormat.Binary64

/-! ### The numbers that magnitudes stand for -/

/-- Above the pattern of a power of two the numbers go up in steps of the same length, to the next
power of two and including it; below the first power of two the steps are the same as above it. -/
theorem absolute_step {k n : Nat} (hn : n ≤ 2 * hidden) (hk : k = 0 ∨ hidden ≤ n) :
  absolute (k * hidden + n) = n * (2 : Rat) ^ ((k : Int) - 1074)
  := by
  unfold hidden at *
  rcases Nat.lt_or_ge n 0x10000000000000 with hsmall | hlarge
  · have hzero : k = 0 := by omega
    have hscale : scale n = -1074 := by
      rw [scale, hidden]
      omega
    subst hzero
    rw [Nat.zero_mul, Nat.zero_add, absolute, hscale, significand, if_pos hsmall]
    rfl
  · have hnormal : ¬k * 0x10000000000000 + n < 0x10000000000000 := by omega
    rcases Nat.lt_or_eq_of_le hn with hless | rfl
    · have hscale : scale (k * 0x10000000000000 + n) = (k : Int) - 1074 := by
        rw [scale, hidden]
        omega
      have hsignificand : significand (k * 0x10000000000000 + n) = n := by
        rw [significand, hidden, if_neg hnormal]
        omega
      rw [absolute, hscale, hsignificand]
    · have hscale : scale (k * 0x10000000000000 + 2 * 0x10000000000000) = (k : Int) - 1074 + 1 := by
        rw [scale, hidden]
        omega
      have hsignificand :
          significand (k * 0x10000000000000 + 2 * 0x10000000000000) = 0x10000000000000 := by
        rw [significand, hidden, if_neg hnormal]
        omega
      rw [absolute, hscale, hsignificand, zpow_add_one₀ two_ne_zero]
      push_cast
      ring

/-- Every magnitude is the start of a step. -/
theorem exists_step (m : Nat) :
  ∃ k n, m = k * hidden + n ∧ n < 2 * hidden ∧ (k = 0 ∨ hidden ≤ n)
  := by
  unfold hidden
  rcases Nat.lt_or_ge m 0x10000000000000 with hsmall | hlarge
  · exact ⟨0, m, by omega, by omega, .inl rfl⟩
  · exact ⟨m / 0x10000000000000 - 1, 0x10000000000000 + m % 0x10000000000000, by omega, by omega,
      .inr (by omega)⟩

theorem absolute_strictMono :
  StrictMono absolute
  := by
  apply strictMono_nat_of_lt_succ
  intro m
  obtain ⟨k, n, rfl, hn, hk⟩ := exists_step m
  have hpower : (0 : Rat) < 2 ^ ((k : Int) - 1074) := zpow_pos two_pos _
  rw [absolute_step hn.le hk, Nat.add_assoc, absolute_step hn (by omega)]
  push_cast
  linarith

theorem absolute_nonneg (m : Nat) :
  0 ≤ absolute m
  := by
  rw [absolute]
  positivity

theorem absolute_zero :
  absolute 0 = 0
  := by
  have h := absolute_step (k := 0) (n := 0) (by omega) (.inl rfl)
  rwa [Nat.zero_mul, Nat.cast_zero, zero_mul] at h

theorem absolute_pos {m : Nat} (h : 0 < m) :
  0 < absolute m
  := by
  rw [← absolute_zero]
  exact absolute_strictMono h

/-- The infinity counts as the power of two that comes after the finite magnitudes. -/
theorem absolute_infinity :
  absolute infinity = 2 ^ 1024
  := by
  have h := absolute_step (k := 2046) (n := hidden) (by omega) (.inr le_rfl)
  have hinfinity : infinity = 2046 * hidden + hidden := rfl
  have hhidden : ((hidden : Nat) : Rat) = 2 ^ (52 : Int) := by norm_num
  rw [hinfinity, h, hhidden, ← zpow_add₀ two_ne_zero]
  exact zpow_natCast 2 1024

/-! ### Being nearest -/

/-- A magnitude, which may be the infinity, is nearest to a number; it is even if another one is
equally near. -/
structure IsNearest (q : Rat) (m : Nat) : Prop where
  le_infinity : m ≤ infinity
  closest : ∀ other ≤ infinity, |q - absolute m| ≤ |q - absolute other|
  even_of_tie : ∀ other ≤ infinity, other ≠ m → |q - absolute m| = |q - absolute other| →
    m % 2 = 0

/-- Of two numbers the greater is at least as near just if the middle between them is not
above. -/
theorem abs_sub_le_abs_sub_iff {a b q : Rat} (h : a < b) :
  |q - b| ≤ |q - a| ↔ a + b ≤ 2 * q
  := by
  rw [← sq_le_sq]
  constructor
  · intro hsq
    have : 0 ≤ (b - a) * (2 * q - (a + b)) := by linarith
    have := (mul_nonneg_iff_of_pos_left (sub_pos.mpr h)).mp this
    linarith
  · intro hq
    have : 0 ≤ (b - a) * (2 * q - (a + b)) :=
      mul_nonneg (sub_pos.mpr h).le (sub_nonneg.mpr hq)
    linarith

/-- The smaller is at least as near just if the middle between them is not below. -/
theorem abs_sub_le_abs_sub_iff' {a b q : Rat} (h : a < b) :
  |q - a| ≤ |q - b| ↔ 2 * q ≤ a + b
  := by
  have hneg := abs_sub_le_abs_sub_iff (q := -q) (neg_lt_neg h)
  rw [neg_sub_neg, neg_sub_neg, abs_sub_comm a, abs_sub_comm b] at hneg
  rw [hneg]
  constructor <;> intro <;> linarith

variable {q : Rat} {m : Nat}

/-- A magnitude is nearest just if the number is between the middles to the magnitudes around it;
if it is even, the middles are included. -/
theorem isNearest_iff :
  IsNearest q m ↔ m ≤ infinity ∧
    (∀ other < m, absolute other + absolute m ≤ 2 * q ∧
      (2 * q = absolute other + absolute m → m % 2 = 0)) ∧
    (∀ other ≤ infinity, m < other → 2 * q ≤ absolute m + absolute other ∧
      (2 * q = absolute m + absolute other → m % 2 = 0))
  := by
  constructor
  · rintro ⟨hle, hclosest, heven⟩
    refine ⟨hle, fun other hless => ?_, fun other hother hgreater => ?_⟩
    · have hvalue := absolute_strictMono hless
      have hother : other ≤ infinity := by omega
      refine ⟨(abs_sub_le_abs_sub_iff hvalue).mp (hclosest other hother), fun htie => ?_⟩
      apply heven other hother (by omega)
      apply le_antisymm (hclosest other hother)
      rw [abs_sub_le_abs_sub_iff' hvalue, htie]
    · have hvalue := absolute_strictMono hgreater
      refine ⟨(abs_sub_le_abs_sub_iff' hvalue).mp (hclosest other hother), fun htie => ?_⟩
      apply heven other hother (by omega)
      apply le_antisymm (hclosest other hother)
      rw [abs_sub_le_abs_sub_iff hvalue, htie]
  · rintro ⟨hle, hbelow, habove⟩
    refine ⟨hle, fun other hother => ?_, fun other hother hne htie => ?_⟩
    · rcases lt_trichotomy other m with hless | rfl | hgreater
      · exact (abs_sub_le_abs_sub_iff (absolute_strictMono hless)).mpr (hbelow other hless).1
      · exact le_rfl
      · exact (abs_sub_le_abs_sub_iff' (absolute_strictMono hgreater)).mpr
          (habove other hother hgreater).1
    · rcases lt_or_gt_of_ne hne with hless | hgreater
      · obtain ⟨hmiddle, heven⟩ := hbelow other hless
        exact heven (le_antisymm
          ((abs_sub_le_abs_sub_iff' (absolute_strictMono hless)).mp htie.ge) hmiddle)
      · obtain ⟨hmiddle, heven⟩ := habove other hother hgreater
        exact heven (le_antisymm hmiddle
          ((abs_sub_le_abs_sub_iff (absolute_strictMono hgreater)).mp htie.ge))

/-- The nearest magnitude does not go down when the number goes up. -/
theorem IsNearest.mono {x y : Rat} {m n : Nat} (hx : IsNearest x m) (hy : IsNearest y n)
    (hxy : x ≤ y) :
  m ≤ n
  := by
  by_contra! hless
  obtain ⟨hm, hbelow, _⟩ := isNearest_iff.mp hx
  obtain ⟨_, _, habove⟩ := isNearest_iff.mp hy
  obtain ⟨hlow, hmeven⟩ := hbelow n hless
  obtain ⟨hhigh, hneven⟩ := habove m hm hless
  -- Both numbers are in the middle, so both magnitudes are even and there is one between them.
  have hmparity := hmeven (by linarith)
  have hnparity := hneven (by linarith)
  have hbetween := (hbelow (n + 1) (by omega)).1
  have hvalue := absolute_strictMono (Nat.lt_succ_self n)
  linarith

theorem IsNearest.unique {n : Nat} (hm : IsNearest q m) (hn : IsNearest q n) :
  m = n
  := Nat.le_antisymm (hm.mono hn le_rfl) (hn.mono hm le_rfl)

/-- A magnitude is the nearest one to the number that it stands for. -/
theorem isNearest_absolute (h : m ≤ infinity) :
  IsNearest (absolute m) m
  := by
  refine ⟨h, fun other _ => ?_, fun other _ hne htie => ?_⟩
  · rw [sub_self, abs_zero]
    apply abs_nonneg
  · rw [sub_self, abs_zero, eq_comm, abs_eq_zero, sub_eq_zero] at htie
    exact absurd (absolute_strictMono.injective htie.symm) hne

/-- From the infinity on, the infinity is nearest. -/
theorem isNearest_infinity (h : absolute infinity ≤ q) :
  IsNearest q infinity
  := by
  rw [isNearest_iff]
  refine ⟨le_rfl, fun other hless => ?_, fun other hle hgreater => by omega⟩
  have hvalue := absolute_strictMono hless
  exact ⟨by linarith, fun _ => rfl⟩

/-- A magnitude is nearest if neither the one below nor the one above is nearer. -/
theorem isNearest_of_neighbours (hm : m ≤ infinity)
    (hbelow : ∀ n, m = n + 1 →
      absolute n + absolute m ≤ 2 * q ∧ (2 * q = absolute n + absolute m → m % 2 = 0))
    (habove : 2 * q ≤ absolute m + absolute (m + 1) ∧
      (2 * q = absolute m + absolute (m + 1) → m % 2 = 0)) :
  IsNearest q m
  := by
  rw [isNearest_iff]
  refine ⟨hm, fun other hless => ?_, fun other _ hgreater => ?_⟩
  · obtain ⟨n, rfl⟩ : ∃ n, m = n + 1 := Nat.exists_eq_succ_of_ne_zero (by omega)
    obtain ⟨hmiddle, heven⟩ := hbelow n rfl
    have hvalue := absolute_strictMono.monotone (Nat.le_of_lt_succ hless)
    exact ⟨by linarith, fun htie => heven (by linarith)⟩
  · obtain ⟨hmiddle, heven⟩ := habove
    have hvalue := absolute_strictMono.monotone (Nat.succ_le_of_lt hgreater)
    exact ⟨by linarith, fun htie => heven (by linarith)⟩

/-! ### Rounding to a magnitude -/

/-- A number is rounded to an integer at most a half away, and to an even one if it is a half. -/
theorem roundHalfEven_spec (q : Rat) :
  2 * (roundHalfEven q : Rat) - 1 ≤ 2 * q ∧ 2 * q ≤ 2 * roundHalfEven q + 1 ∧
    (2 * q = 2 * roundHalfEven q - 1 ∨ 2 * q = 2 * roundHalfEven q + 1 → roundHalfEven q % 2 = 0)
  := by
  have hlow := Rat.floor_le q
  have hhigh := Rat.lt_floor_add_one q
  push_cast at hhigh
  rw [roundHalfEven]
  split_ifs with hless hgreater heven
  · refine ⟨by linarith, by linarith, ?_⟩
    rintro (h | h) <;> exfalso <;> linarith
  · push_cast
    refine ⟨by linarith, by linarith, ?_⟩
    rintro (h | h) <;> exfalso <;> linarith
  · exact ⟨by linarith, by linarith, fun _ => heven⟩
  · push_cast
    exact ⟨by linarith, by linarith, fun _ => by omega⟩

/-- A positive number, which lies between two powers of two with the same step between them, or
below the first one, is rounded to a multiple `r` of this step. -/
structure IsRounded (q : Rat) (k r : Nat) (step : Rat) : Prop where
  step_eq : step = 2 ^ ((k : Int) - 1074)
  pos : 0 < q
  le : r ≤ 2 * hidden
  normal : k = 0 ∨ hidden ≤ r ∧ hidden * step ≤ q
  lt_next : q < (2 * hidden : Nat) * step
  below : (2 * r - 1) * step ≤ 2 * q
  above : 2 * q ≤ (2 * r + 1) * step
  even_of_tie : 2 * q = (2 * r - 1) * step ∨ 2 * q = (2 * r + 1) * step → r % 2 = 0

/-- A positive number is rounded with its step, which is the smallest one or makes it at least the
fifty-second power of two. -/
theorem exists_scaled (hq : 0 < q) :
  ∃ (k : Nat) (t : Rat), q = t * 2 ^ ((k : Int) - 1074) ∧ t < 2 ^ 53 ∧ (k = 0 ∨ 2 ^ 52 ≤ t) ∧
    nearest q = min infinity (k * hidden + (roundHalfEven t).toNat)
  := by
  obtain ⟨hlow, hhigh⟩ := binaryExponent_spec hq
  rw [nearest, if_neg hq.not_ge]
  generalize binaryExponent q = b at hlow hhigh
  dsimp only
  generalize he : max (b - 52) (-1074) = e
  obtain ⟨k, hk⟩ : ∃ k : Nat, e + 1074 = k := Int.eq_ofNat_of_zero_le (by omega)
  have hpower : (0 : Rat) < 2 ^ e := zpow_pos two_pos e
  have hstep : (k : Int) - 1074 = e := by omega
  refine ⟨k, q / 2 ^ e, ?_, ?_, ?_, by rw [hk, Int.toNat_natCast]⟩
  · rw [hstep, div_mul_cancel₀ q hpower.ne']
  · rw [div_lt_iff₀ hpower]
    calc q
      _ < 2 ^ (b + 1) := hhigh
      _ ≤ 2 ^ (53 + e) := zpow_le_zpow_right₀ one_le_two (by omega)
      _ = 2 ^ 53 * 2 ^ e := zpow_add₀ two_ne_zero 53 e
  · rcases Nat.eq_zero_or_pos k with hzero | hpos
    · exact .inl hzero
    · right
      rw [le_div_iff₀ hpower]
      calc (2 : Rat) ^ 52 * 2 ^ e
        _ = 2 ^ (52 + e) := (zpow_add₀ two_ne_zero 52 e).symm
        _ ≤ 2 ^ b := zpow_le_zpow_right₀ one_le_two (by omega)
        _ ≤ q := hlow

theorem isRounded_scaled {k : Nat} {t : Rat} (hpos : 0 < t) (hnext : t < 2 ^ 53)
    (hnormal : k = 0 ∨ 2 ^ 52 ≤ t) :
  IsRounded (t * 2 ^ ((k : Int) - 1074)) k (roundHalfEven t).toNat (2 ^ ((k : Int) - 1074))
  := by
  have hpower : (0 : Rat) < 2 ^ ((k : Int) - 1074) := zpow_pos two_pos _
  have hhidden : ((hidden : Nat) : Rat) = 2 ^ 52 := by norm_num
  obtain ⟨r, hr⟩ : ∃ r : Nat, roundHalfEven t = r := by
    apply Int.eq_ofNat_of_zero_le
    rw [le_roundHalfEven_iff rfl, Int.cast_zero]
    linarith
  have hle : roundHalfEven t ≤ 2 ^ 53 := roundHalfEven_le (by exact_mod_cast hnext.le)
  obtain ⟨hbelow, habove, heven⟩ := roundHalfEven_spec t
  rw [hr, Int.cast_natCast] at hbelow habove heven
  rw [hr, Int.toNat_natCast]
  constructor
  case step_eq => rfl
  case pos => exact mul_pos hpos hpower
  case le =>
    unfold hidden
    omega
  case normal =>
    apply hnormal.imp_right
    intro h
    have : 2 ^ 52 ≤ roundHalfEven t := by
      rw [le_roundHalfEven_iff rfl]
      push_cast
      linarith
    constructor
    · unfold hidden
      omega
    · rw [hhidden]
      exact mul_le_mul_of_nonneg_right h hpower.le
  case lt_next =>
    have hdouble : ((2 : Nat) : Rat) * 2 ^ 52 = 2 ^ 53 := by norm_num
    rw [Nat.cast_mul, hhidden, hdouble]
    exact mul_lt_mul_of_pos_right hnext hpower
  case below =>
    rw [← mul_assoc]
    exact mul_le_mul_of_nonneg_right hbelow hpower.le
  case above =>
    rw [← mul_assoc]
    exact mul_le_mul_of_nonneg_right habove hpower.le
  case even_of_tie =>
    rw [← mul_assoc, mul_left_inj' hpower.ne', mul_left_inj' hpower.ne']
    intro h
    have := heven h
    omega

/-- The step of the exponent is even. -/
theorem even_of_even {k r n : Nat} (hn : k * hidden + r = n) (hr : r % 2 = 0) :
  n % 2 = 0
  := by
  unfold hidden at hn
  omega

namespace IsRounded

variable {k r : Nat} {step : Rat} (h : IsRounded q k r step)
include h

theorem step_pos :
  0 < step
  := by
  rw [h.step_eq]
  exact zpow_pos two_pos _

theorem absolute_eq {n : Nat} (hn : n ≤ 2 * hidden) (hk : k = 0 ∨ hidden ≤ n) :
  absolute (k * hidden + n) = n * step
  := by rw [h.step_eq, absolute_step hn hk]

/-- The number is not nearer to the magnitude below. -/
theorem middle_le {m : Nat} (hm : k * hidden + r = m + 1) :
  absolute m + absolute (m + 1) ≤ 2 * q ∧
    (2 * q = absolute m + absolute (m + 1) → (m + 1) % 2 = 0)
  := by
  have hstep := h.step_pos
  have hvalue := h.absolute_eq h.le (h.normal.imp_right And.left)
  rcases le_or_gt ((r : Rat) * step) q with hle | hless
  · have := absolute_strictMono (Nat.lt_succ_self m)
    rw [hm] at hvalue
    exact ⟨by linarith, fun _ => by linarith⟩
  · -- A multiple of the step above the number is not the first one with this step.
    have hnormal : k = 0 ∨ hidden < r := by
      apply h.normal.imp_right
      rintro ⟨_, hfirst⟩
      have := lt_of_mul_lt_mul_right (hfirst.trans_lt hless) hstep.le
      exact_mod_cast this
    obtain ⟨n, rfl⟩ : ∃ n, r = n + 1 := by
      apply Nat.exists_eq_succ_of_ne_zero
      rintro rfl
      have := h.pos
      rw [Nat.cast_zero, zero_mul] at hless
      linarith
    have hbelow := h.absolute_eq (n := n) (by have := h.le; omega) (by omega)
    have hm' : k * hidden + n = m := by omega
    have hhalf := h.below
    have hsum : (n : Rat) * step + (n + 1 : Nat) * step = (2 * (n + 1 : Nat) - 1) * step := by
      push_cast
      ring
    rw [hm'] at hbelow
    rw [hm] at hvalue
    rw [hbelow, hvalue, hsum]
    exact ⟨hhalf, fun htie => even_of_even hm (h.even_of_tie (.inl htie))⟩

/-- The number is not nearer to the magnitude above. -/
theorem le_middle {m : Nat} (hm : k * hidden + r = m) :
  2 * q ≤ absolute m + absolute (m + 1) ∧
    (2 * q = absolute m + absolute (m + 1) → m % 2 = 0)
  := by
  have hstep := h.step_pos
  have hvalue := h.absolute_eq h.le (h.normal.imp_right And.left)
  rcases le_or_gt q ((r : Rat) * step) with hle | hless
  · have := absolute_strictMono (Nat.lt_succ_self m)
    rw [hm] at hvalue
    exact ⟨by linarith, fun _ => by linarith⟩
  · -- A multiple of the step below the number is not the last one with this step.
    have hlast : r < 2 * hidden := by
      have := lt_of_mul_lt_mul_right (hless.trans h.lt_next) hstep.le
      exact_mod_cast this
    have habove := h.absolute_eq (n := r + 1) hlast (by have := h.normal; omega)
    have hm' : k * hidden + (r + 1) = m + 1 := by omega
    have hsum : (r : Rat) * step + (r + 1 : Nat) * step = (2 * r + 1) * step := by
      push_cast
      ring
    rw [hm] at hvalue
    rw [hm'] at habove
    rw [hvalue, habove, hsum]
    exact ⟨h.above, fun htie => even_of_even hm (h.even_of_tie (.inr htie))⟩

/-- The multiple of the step that a number is rounded to is nearest, up to the infinity. -/
theorem isNearest :
  IsNearest q (min infinity (k * hidden + r))
  := by
  generalize hm : k * hidden + r = m
  rcases Nat.lt_or_ge infinity m with hover | hm'
  · obtain ⟨n, rfl⟩ : ∃ n, m = n + 1 := Nat.exists_eq_succ_of_ne_zero (by omega)
    have hmiddle := (h.middle_le hm).1
    have hlow := absolute_strictMono.monotone (Nat.le_of_lt_succ hover)
    have hhigh := absolute_strictMono.monotone hover.le
    rw [Nat.min_eq_left hover.le]
    apply isNearest_infinity
    linarith
  · rw [Nat.min_eq_right hm']
    apply isNearest_of_neighbours hm' _ (h.le_middle hm)
    rintro n rfl
    exact h.middle_le hm

end IsRounded

/-- The magnitude that is computed is nearest. -/
theorem isNearest_nearest (hq : 0 ≤ q) :
  IsNearest q (nearest q)
  := by
  rcases hq.eq_or_lt with rfl | hpos
  · have h := isNearest_absolute (Nat.zero_le infinity)
    rwa [absolute_zero] at h
  · obtain ⟨k, t, heq, hnext, hnormal, hnearest⟩ := exists_scaled hpos
    have ht : 0 < t := by
      rw [heq] at hpos
      exact (pos_iff_pos_of_mul_pos hpos).mpr (zpow_pos two_pos _)
    rw [hnearest, heq]
    exact (isRounded_scaled ht hnext hnormal).isNearest

/-- Rounding a number that is not negative gives the nearest magnitude. -/
theorem nearest_eq_iff (hq : 0 ≤ q) :
  nearest q = m ↔ IsNearest q m
  := by
  constructor
  · rintro rfl
    exact isNearest_nearest hq
  · exact (isNearest_nearest hq).unique

theorem nearest_mono {x y : Rat} (hx : 0 ≤ x) (hxy : x ≤ y) :
  nearest x ≤ nearest y
  := (isNearest_nearest hx).mono (isNearest_nearest (hx.trans hxy)) hxy

/-- A number between two numbers that are rounded to the same magnitude is rounded to it. -/
theorem nearest_eq_of_between {x y z : Rat} (hx : 0 ≤ x) (hxy : x ≤ y) (hyz : y ≤ z)
    (hxm : nearest x = m) (hzm : nearest z = m) :
  nearest y = m
  := by
  apply Nat.le_antisymm
  · rw [← hzm]
    exact nearest_mono (hx.trans hxy) hyz
  · rw [← hxm]
    exact nearest_mono hx hxy

theorem nearest_absolute (h : m ≤ infinity) :
  nearest (absolute m) = m
  := (nearest_eq_iff (absolute_nonneg m)).mpr (isNearest_absolute h)

end BraceFormat.Binary64
