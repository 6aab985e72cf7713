import BraceFormat.Proofs.Utf8
import Mathlib.Tactic.SplitIfs

/-!
# The bytes of a character

A character takes one to four bytes. The first of several bytes, the lead, tells how many are due,
and the others carry six bits each. The automaton asks for a narrower range behind some of the
leads: just there the code would fit into fewer bytes, or would be none of a character. So the
bytes that it accepts behind a lead are those of the characters that start with it
(`begin_of_encode`, `encode_of_begin`), and no byte but a lead begins more than itself
(`begin_cases`). The bytes of no character go on with those of another one
(`eq_of_prefix_encode`).
-/

namespace BraceFormat.Utf8

/-- Bytes that complete a character of which `due` are to come, the next one between `low` and
`high`. -/
def Continues : Nat → UInt8 → UInt8 → List UInt8 → Prop
  | due, _, _, [] => due = 0
  | due, low, high, b :: bytes =>
    0 < due ∧ low ≤ b ∧ b ≤ high ∧ Continues (due - 1) 0x80 0xBF bytes

/-- The code of a character, from the bits before some bytes and from those in the bytes. -/
def gathered (code : Nat) (bytes : List UInt8) : Nat :=
  bytes.foldl (fun code b => code * 64 + (b.toNat - 0x80)) code

variable {c : Char} {b : UInt8} {bytes : List UInt8}

/-! ### Bytes behind a lead -/

theorem continues_cons {due : Nat} {low high : UInt8} :
  Continues due low high (b :: bytes) ↔
    0 < due ∧ (low.toNat ≤ b.toNat ∧ b.toNat ≤ high.toNat) ∧
      Continues (due - 1) 0x80 0xBF bytes
  := by
  rw [Continues, UInt8.le_iff_toNat_le, UInt8.le_iff_toNat_le, and_assoc]

theorem gathered_cons (code : Nat) (b : UInt8) (bytes : List UInt8) :
  gathered code (b :: bytes) = gathered (code * 64 + (b.toNat - 0x80)) bytes
  := by
  rw [gathered, List.foldl_cons, gathered]

theorem Continues.length_eq {due : Nat} {low high : UInt8} (h : Continues due low high bytes) :
  bytes.length = due
  := by
  induction bytes generalizing due low high with
  | nil => exact h.symm
  | cons b bytes ih =>
    obtain ⟨hpos, _, hbytes⟩ := continues_cons.mp h
    rw [List.length_cons, ih hbytes, Nat.sub_add_cancel hpos]

theorem exists_continues {low high : UInt8} (h : low ≤ high) (due : Nat) :
  ∃ bytes, Continues due low high bytes
  := by
  induction due generalizing low high with
  | zero => exact ⟨[], rfl⟩
  | succ due ih =>
    have htail : (0x80 : UInt8) ≤ 0xBF := by decide
    obtain ⟨bytes, hbytes⟩ := ih htail
    exact ⟨low :: bytes, Nat.succ_pos due, UInt8.le_refl low, h, hbytes⟩

theorem Continues.exists_cons {due : Nat} {low high : UInt8}
    (h : Continues (due + 1) low high bytes) :
  ∃ x t, bytes = x :: t ∧ (low.toNat ≤ x.toNat ∧ x.toNat ≤ high.toNat) ∧
    Continues due 0x80 0xBF t
  := by
  cases bytes with
  | nil => cases h
  | cons x t =>
    obtain ⟨_, hx, ht⟩ := continues_cons.mp h
    exact ⟨x, t, rfl, hx, ht⟩

theorem Continues.eq_nil {low high : UInt8} (h : Continues 0 low high bytes) :
  bytes = []
  := by
  cases bytes with
  | nil => rfl
  | cons x t => cases (continues_cons.mp h).1

theorem continues_one {low high x : UInt8} :
  Continues 1 low high [x] ↔ low.toNat ≤ x.toNat ∧ x.toNat ≤ high.toNat
  := by
  rw [continues_cons]
  exact ⟨fun h => h.2.1, fun h => ⟨Nat.one_pos, h, rfl⟩⟩

theorem continues_two {low high x y : UInt8} :
  Continues 2 low high [x, y] ↔
    (low.toNat ≤ x.toNat ∧ x.toNat ≤ high.toNat) ∧ 0x80 ≤ y.toNat ∧ y.toNat ≤ 0xBF
  := by
  rw [continues_cons, continues_one]
  exact and_iff_right Nat.two_pos

theorem continues_three {low high x y z : UInt8} :
  Continues 3 low high [x, y, z] ↔
    (low.toNat ≤ x.toNat ∧ x.toNat ≤ high.toNat) ∧ (0x80 ≤ y.toNat ∧ y.toNat ≤ 0xBF) ∧
      0x80 ≤ z.toNat ∧ z.toNat ≤ 0xBF
  := by
  rw [continues_cons, continues_two]
  exact and_iff_right (by decide)

/-! ### The bytes of a character -/

/-- A code is not one of a surrogate. -/
theorem toNat_valid (c : Char) :
  c.toNat < 0xD800 ∨ 0xDFFF < c.toNat ∧ c.toNat < 0x110000
  := c.valid

/-- Every code but those of surrogates is that of a character. -/
theorem exists_toNat_eq {n : Nat} (h : n < 0xD800 ∨ 0xDFFF < n ∧ n < 0x110000) :
  ∃ c : Char, c.toNat = n
  := ⟨Char.ofNatAux n h, rfl⟩

/-- The marker and some bits of a code fit into a byte. -/
theorem toNat_marked (n : Nat) {m marker : Nat} (hm : 0 < m) (h : m + marker ≤ 256) :
  (UInt8.ofNat (n % m + marker)).toNat = n % m + marker
  := by
  have hlt := Nat.mod_lt n hm
  apply UInt8.toNat_ofNat_of_lt'
  change n % m + marker < 256
  omega

theorem utf8EncodeChar_one (h : c.toNat < 0x80) :
  ∃ x, String.utf8EncodeChar c = [x] ∧ x.toNat = c.toNat
  := by
  refine ⟨_, if_pos (Nat.le_of_lt_succ h), ?_⟩
  rw [UInt8.toNat_ofNat_of_lt', Char.toNat_val]
  change c.toNat < 256
  omega

theorem utf8EncodeChar_two (h : 0x80 ≤ c.toNat) (h' : c.toNat < 0x800) :
  ∃ x y, String.utf8EncodeChar c = [x, y] ∧ x.toNat = c.toNat / 64 + 0xC0 ∧
    y.toNat = c.toNat % 64 + 0x80
  := by
  refine ⟨_, _, (if_neg (Nat.not_le_of_lt h)).trans (if_pos (Nat.le_of_lt_succ h')), ?_, ?_⟩
  · rw [toNat_marked _ (by decide) (by decide), Char.toNat_val]
    omega
  · rw [toNat_marked _ (by decide) (by decide), Char.toNat_val]

theorem utf8EncodeChar_three (h : 0x800 ≤ c.toNat) (h' : c.toNat < 0x10000) :
  ∃ x y z, String.utf8EncodeChar c = [x, y, z] ∧ x.toNat = c.toNat / 64 / 64 + 0xE0 ∧
    y.toNat = c.toNat / 64 % 64 + 0x80 ∧ z.toNat = c.toNat % 64 + 0x80
  := by
  have hone : ¬c.toNat ≤ 0x7F := by omega
  refine ⟨_, _, _, (if_neg hone).trans ((if_neg (Nat.not_le_of_lt h)).trans
    (if_pos (Nat.le_of_lt_succ h'))), ?_, ?_, ?_⟩
  · rw [toNat_marked _ (by decide) (by decide), Char.toNat_val]
    omega
  · rw [toNat_marked _ (by decide) (by decide), Char.toNat_val]
  · rw [toNat_marked _ (by decide) (by decide), Char.toNat_val]

theorem utf8EncodeChar_four (h : 0x10000 ≤ c.toNat) :
  ∃ x y z w, String.utf8EncodeChar c = [x, y, z, w] ∧
    x.toNat = c.toNat / 64 / 64 / 64 + 0xF0 ∧ y.toNat = c.toNat / 64 / 64 % 64 + 0x80 ∧
    z.toNat = c.toNat / 64 % 64 + 0x80 ∧ w.toNat = c.toNat % 64 + 0x80
  := by
  have hvalid := toNat_valid c
  have hone : ¬c.toNat ≤ 0x7F := by omega
  have htwo : ¬c.toNat ≤ 0x7FF := by omega
  refine ⟨_, _, _, _, (if_neg hone).trans ((if_neg htwo).trans
    (if_neg (Nat.not_le_of_lt h))), ?_, ?_, ?_, ?_⟩
  · rw [toNat_marked _ (by decide) (by decide), Char.toNat_val]
    omega
  · rw [toNat_marked _ (by decide) (by decide), Char.toNat_val]
    omega
  · rw [toNat_marked _ (by decide) (by decide), Char.toNat_val]
  · rw [toNat_marked _ (by decide) (by decide), Char.toNat_val]

/-! Which bytes are those of a character. -/

section

variable {x y z w : UInt8}

theorem exists_encode_two (hx : 0xC2 ≤ x.toNat ∧ x.toNat < 0xE0)
    (hy : 0x80 ≤ y.toNat ∧ y.toNat ≤ 0xBF) :
  ∃ c, String.utf8EncodeChar c = [x, y]
  := by
  have hcode : ∃ c : Char, c.toNat = (x.toNat - 0xC0) * 64 + (y.toNat - 0x80) := by
    apply exists_toNat_eq
    omega
  obtain ⟨c, hc⟩ := hcode
  obtain ⟨x', y', hbytes, hx', hy'⟩ := utf8EncodeChar_two (c := c) (by omega) (by omega)
  obtain rfl : x' = x := UInt8.toNat_inj.mp (by omega)
  obtain rfl : y' = y := UInt8.toNat_inj.mp (by omega)
  exact ⟨c, hbytes⟩

theorem exists_encode_three (hx : 0xE0 ≤ x.toNat ∧ x.toNat < 0xF0)
    (hy : 0x80 ≤ y.toNat ∧ y.toNat ≤ 0xBF) (hz : 0x80 ≤ z.toNat ∧ z.toNat ≤ 0xBF)
    {bits : Nat} (hbits : bits = (x.toNat - 0xE0) * 64 + (y.toNat - 0x80))
    (hvalid : 0x20 ≤ bits ∧ (bits < 0x360 ∨ 0x380 ≤ bits)) :
  ∃ c, String.utf8EncodeChar c = [x, y, z]
  := by
  have hcode : ∃ c : Char, c.toNat = bits * 64 + (z.toNat - 0x80) := by
    apply exists_toNat_eq
    omega
  obtain ⟨c, hc⟩ := hcode
  obtain ⟨x', y', z', hbytes, hx', hy', hz'⟩ :=
    utf8EncodeChar_three (c := c) (by omega) (by omega)
  obtain rfl : x' = x := UInt8.toNat_inj.mp (by omega)
  obtain rfl : y' = y := UInt8.toNat_inj.mp (by omega)
  obtain rfl : z' = z := UInt8.toNat_inj.mp (by omega)
  exact ⟨c, hbytes⟩

theorem exists_encode_four (hx : 0xF0 ≤ x.toNat)
    (hy : 0x80 ≤ y.toNat ∧ y.toNat ≤ 0xBF) (hz : 0x80 ≤ z.toNat ∧ z.toNat ≤ 0xBF)
    (hw : 0x80 ≤ w.toNat ∧ w.toNat ≤ 0xBF)
    {bits : Nat} (hbits : bits = (x.toNat - 0xF0) * 64 + (y.toNat - 0x80))
    (hvalid : 0x10 ≤ bits ∧ bits < 0x110) :
  ∃ c, String.utf8EncodeChar c = [x, y, z, w]
  := by
  have hcode : ∃ c : Char,
      c.toNat = (bits * 64 + (z.toNat - 0x80)) * 64 + (w.toNat - 0x80) := by
    apply exists_toNat_eq
    omega
  obtain ⟨c, hc⟩ := hcode
  obtain ⟨x', y', z', w', hbytes, hx', hy', hz', hw'⟩ := utf8EncodeChar_four (c := c) (by omega)
  obtain rfl : x' = x := UInt8.toNat_inj.mp (by omega)
  obtain rfl : y' = y := UInt8.toNat_inj.mp (by omega)
  obtain rfl : z' = z := UInt8.toNat_inj.mp (by omega)
  obtain rfl : w' = w := UInt8.toNat_inj.mp (by omega)
  exact ⟨c, hbytes⟩

end

/-! ### Leads -/

theorem lead_cases (b : UInt8) :
  b.toNat < 0x80 ∨ (0x80 ≤ b.toNat ∧ b.toNat < 0xC2 ∨ 0xF5 ≤ b.toNat) ∨
    (0xC2 ≤ b.toNat ∧ b.toNat < 0xE0) ∨ (0xE0 ≤ b.toNat ∧ b.toNat < 0xF0) ∨
    0xF0 ≤ b.toNat ∧ b.toNat < 0xF5
  := by
  omega

theorem begin_one (h : b.toNat < 0x80) :
  begin b = ([Char.ofNat b.toNat], .start)
  := if_pos h

theorem begin_none (h : 0x80 ≤ b.toNat ∧ b.toNat < 0xC2 ∨ 0xF5 ≤ b.toNat) :
  begin b = ([replacement], .start)
  := by
  rw [begin, if_neg (by omega)]
  rcases h with ⟨_, h⟩ | h
  · rw [if_pos h]
  · rw [if_neg (by omega), if_neg (by omega), if_neg (by omega), if_neg (by omega),
      if_neg (by omega), if_neg (by omega), if_neg (by omega), if_neg (by omega)]

theorem begin_two (h : 0xC2 ≤ b.toNat ∧ b.toNat < 0xE0) :
  begin b = ([], .within 1 0x80 0xBF (b.toNat - 0xC0))
  := by
  rw [begin, if_neg (by omega), if_neg (by omega), if_pos h.2]

/-- What may follow the first of three bytes is so that the code does not fit into two bytes and
is not one of a surrogate. -/
theorem begin_three (h : 0xE0 ≤ b.toNat ∧ b.toNat < 0xF0) :
  ∃ low high, begin b = ([], .within 2 low high (b.toNat - 0xE0)) ∧
    ∀ y : UInt8, low.toNat ≤ y.toNat ∧ y.toNat ≤ high.toNat ↔
      (0x80 ≤ y.toNat ∧ y.toNat ≤ 0xBF) ∧
        let bits := (b.toNat - 0xE0) * 64 + (y.toNat - 0x80)
        0x20 ≤ bits ∧ (bits < 0x360 ∨ 0x380 ≤ bits)
  := by
  have h80 : (0x80 : UInt8).toNat = 0x80 := rfl
  have h9F : (0x9F : UInt8).toNat = 0x9F := rfl
  have hA0 : (0xA0 : UInt8).toNat = 0xA0 := rfl
  have hBF : (0xBF : UInt8).toNat = 0xBF := rfl
  rw [begin, if_neg (by omega), if_neg (by omega), if_neg (by omega)]
  by_cases hE0 : b.toNat = 0xE0
  · rw [if_pos hE0]
    refine ⟨_, _, by rw [hE0], ?_⟩
    intro y
    dsimp only
    omega
  · rw [if_neg hE0]
    by_cases hED : b.toNat = 0xED
    · rw [if_pos hED]
      refine ⟨_, _, by rw [hED], ?_⟩
      intro y
      dsimp only
      omega
    · rw [if_neg hED, if_pos h.2]
      refine ⟨_, _, rfl, ?_⟩
      intro y
      dsimp only
      omega

/-- What may follow the first of four bytes is so that the code does not fit into three bytes and
is not beyond the last one. -/
theorem begin_four (h : 0xF0 ≤ b.toNat ∧ b.toNat < 0xF5) :
  ∃ low high, begin b = ([], .within 3 low high (b.toNat - 0xF0)) ∧
    ∀ y : UInt8, low.toNat ≤ y.toNat ∧ y.toNat ≤ high.toNat ↔
      (0x80 ≤ y.toNat ∧ y.toNat ≤ 0xBF) ∧
        let bits := (b.toNat - 0xF0) * 64 + (y.toNat - 0x80)
        0x10 ≤ bits ∧ bits < 0x110
  := by
  have h80 : (0x80 : UInt8).toNat = 0x80 := rfl
  have h8F : (0x8F : UInt8).toNat = 0x8F := rfl
  have h90 : (0x90 : UInt8).toNat = 0x90 := rfl
  have hBF : (0xBF : UInt8).toNat = 0xBF := rfl
  rw [begin, if_neg (by omega), if_neg (by omega), if_neg (by omega), if_neg (by omega),
    if_neg (by omega), if_neg (by omega)]
  by_cases hF0 : b.toNat = 0xF0
  · rw [if_pos hF0]
    refine ⟨_, _, by rw [hF0], ?_⟩
    intro y
    dsimp only
    omega
  · rw [if_neg hF0]
    by_cases hF4 : b.toNat < 0xF4
    · rw [if_pos hF4]
      refine ⟨_, _, rfl, ?_⟩
      intro y
      dsimp only
      omega
    · have hF4' : b.toNat = 0xF4 := by omega
      rw [if_neg hF4, if_pos hF4']
      refine ⟨_, _, by rw [hF4'], ?_⟩
      intro y
      dsimp only
      omega

/-! ### Characters and the automaton -/

/-- The first byte of a character is read as its lead, and the others complete it. -/
theorem begin_of_encode {t : List UInt8} (h : String.utf8EncodeChar c = b :: t) :
  (begin b = ([c], .start) ∧ t = []) ∨
    ∃ due low high code, begin b = ([], .within due low high code) ∧
      Continues due low high t ∧ gathered code t = c.toNat
  := by
  have hvalid := toNat_valid c
  rcases Nat.lt_or_ge c.toNat 0x80 with h1 | h1
  · obtain ⟨x, hbytes, hx⟩ := utf8EncodeChar_one h1
    cases hbytes.symm.trans h
    left
    rw [begin_one (hx ▸ h1), hx, Char.ofNat_toNat]
    exact ⟨rfl, rfl⟩
  right
  rcases Nat.lt_or_ge c.toNat 0x800 with h2 | h2
  · obtain ⟨x, y, hbytes, hx, hy⟩ := utf8EncodeChar_two h1 h2
    cases hbytes.symm.trans h
    refine ⟨_, _, _, _, begin_two (by omega), ?_, ?_⟩
    · rw [continues_one]
      change 0x80 ≤ y.toNat ∧ y.toNat ≤ 0xBF
      omega
    · change (b.toNat - 0xC0) * 64 + (y.toNat - 0x80) = _
      omega
  rcases Nat.lt_or_ge c.toNat 0x10000 with h3 | h3
  · obtain ⟨x, y, z, hbytes, hx, hy, hz⟩ := utf8EncodeChar_three h2 h3
    cases hbytes.symm.trans h
    obtain ⟨low, high, hbegin, hrange⟩ := begin_three (b := b) (by omega)
    refine ⟨_, _, _, _, hbegin, ?_, ?_⟩
    · rw [continues_two, hrange]
      dsimp only
      omega
    · change ((b.toNat - 0xE0) * 64 + (y.toNat - 0x80)) * 64 + (z.toNat - 0x80) = _
      omega
  · obtain ⟨x, y, z, w, hbytes, hx, hy, hz, hw⟩ := utf8EncodeChar_four h3
    cases hbytes.symm.trans h
    obtain ⟨low, high, hbegin, hrange⟩ := begin_four (b := b) (by omega)
    refine ⟨_, _, _, _, hbegin, ?_, ?_⟩
    · rw [continues_three, hrange]
      dsimp only
      omega
    · change (((b.toNat - 0xF0) * 64 + (y.toNat - 0x80)) * 64 + (z.toNat - 0x80)) * 64 +
        (w.toNat - 0x80) = _
      omega

/-- Bytes that complete a lead are those of a character. -/
theorem encode_of_begin {due : Nat} {low high : UInt8} {code : Nat} {t : List UInt8}
    (h : begin b = ([], .within due low high code)) (ht : Continues due low high t) :
  ∃ c : Char, String.utf8EncodeChar c = b :: t
  := by
  obtain h0 | h0 | h2 | h3 | h4 := lead_cases b
  · rw [begin_one h0] at h
    cases h
  · rw [begin_none h0] at h
    cases h
  · rw [begin_two h2] at h
    cases h
    obtain ⟨y, _, rfl, hy, ht⟩ := ht.exists_cons
    obtain rfl := ht.eq_nil
    exact exists_encode_two h2 hy
  · obtain ⟨_, _, hbegin, hrange⟩ := begin_three h3
    cases hbegin.symm.trans h
    obtain ⟨y, _, rfl, hy, ht⟩ := ht.exists_cons
    obtain ⟨z, _, rfl, hz, ht⟩ := ht.exists_cons
    obtain rfl := ht.eq_nil
    obtain ⟨hy, hvalid⟩ := (hrange y).mp hy
    exact exists_encode_three h3 hy hz rfl hvalid
  · obtain ⟨_, _, hbegin, hrange⟩ := begin_four h4
    cases hbegin.symm.trans h
    obtain ⟨y, _, rfl, hy, ht⟩ := ht.exists_cons
    obtain ⟨z, _, rfl, hz, ht⟩ := ht.exists_cons
    obtain ⟨w, _, rfl, hw, ht⟩ := ht.exists_cons
    obtain rfl := ht.eq_nil
    obtain ⟨hy, hvalid⟩ := (hrange y).mp hy
    exact exists_encode_four h4.1 hy hz hw rfl hvalid

/-- A lead leaves some bytes open that may come next. -/
theorem pos_of_begin {due : Nat} {low high : UInt8} {code : Nat}
    (h : begin b = ([], .within due low high code)) :
  0 < due ∧ low ≤ high
  := by
  rw [begin] at h
  split_ifs at h <;> cases h <;> decide

/-- A byte is a character of its own, or no character starts with it, or it is a lead. -/
theorem begin_cases (b : UInt8) :
  (∃ c, begin b = ([c], .start) ∧ String.utf8EncodeChar c = [b]) ∨
    (begin b = ([replacement], .start) ∧ ∀ c t, String.utf8EncodeChar c ≠ b :: t) ∨
    ∃ due low high code, begin b = ([], .within due low high code)
  := by
  have hnone (h : begin b = ([replacement], .start)) (c : Char) (t : List UInt8) :
      String.utf8EncodeChar c ≠ b :: t := by
    intro hbytes
    obtain ⟨hbegin, rfl⟩ | ⟨_, _, _, _, hbegin, _⟩ := begin_of_encode hbytes
    · cases hbegin.symm.trans h
      cases hbytes
    · cases h.symm.trans hbegin
  obtain h0 | h0 | h2 | h3 | h4 := lead_cases b
  · obtain ⟨c, hc⟩ := exists_toNat_eq (n := b.toNat) (by omega)
    obtain ⟨x, hbytes, hx⟩ := utf8EncodeChar_one (hc ▸ h0)
    obtain rfl := UInt8.toNat_inj.mp (hx.trans hc)
    refine .inl ⟨c, ?_, hbytes⟩
    rw [begin_one h0, ← hc, Char.ofNat_toNat]
  · exact .inr (.inl ⟨begin_none h0, hnone (begin_none h0)⟩)
  · exact .inr (.inr ⟨_, _, _, _, begin_two h2⟩)
  · obtain ⟨_, _, hbegin, _⟩ := begin_three h3
    exact .inr (.inr ⟨_, _, _, _, hbegin⟩)
  · obtain ⟨_, _, hbegin, _⟩ := begin_four h4
    exact .inr (.inr ⟨_, _, _, _, hbegin⟩)

/-! ### Prefixes -/

/-- A character is known by its bytes. -/
theorem eq_of_encode_eq {d : Char} (h : String.utf8EncodeChar c = String.utf8EncodeChar d) :
  c = d
  := by
  obtain ⟨b, t, hbytes⟩ := List.exists_cons_of_ne_nil (String.utf8EncodeChar_ne_nil (c := c))
  obtain ⟨hbegin, _⟩ | ⟨due, low, high, code, hbegin, _, hcode⟩ := begin_of_encode hbytes
  · obtain ⟨hbegin', _⟩ | ⟨_, _, _, _, hbegin', _⟩ := begin_of_encode (h.symm.trans hbytes)
    · cases hbegin.symm.trans hbegin'
      rfl
    · cases hbegin.symm.trans hbegin'
  · obtain ⟨hbegin', _⟩ | ⟨_, _, _, _, hbegin', _, hcode'⟩ :=
      begin_of_encode (h.symm.trans hbytes)
    · cases hbegin.symm.trans hbegin'
    · cases hbegin.symm.trans hbegin'
      apply Char.toNat_inj.mp (hcode.symm.trans hcode')

/-- The bytes of no character go on with those of another one. -/
theorem eq_of_prefix_encode {d : Char}
    (h : String.utf8EncodeChar c <+: String.utf8EncodeChar d) :
  c = d
  := by
  obtain ⟨more, hmore⟩ := h
  obtain ⟨b, t, hbytes⟩ := List.exists_cons_of_ne_nil (String.utf8EncodeChar_ne_nil (c := c))
  rw [hbytes, List.cons_append] at hmore
  apply eq_of_encode_eq
  rw [hbytes, ← hmore]
  obtain ⟨hbegin, rfl⟩ | ⟨due, low, high, code, hbegin, ht, _⟩ := begin_of_encode hbytes
  · obtain ⟨_, hnil⟩ | ⟨_, _, _, _, hbegin', _⟩ := begin_of_encode hmore.symm
    · rw [hnil]
    · cases hbegin.symm.trans hbegin'
  · obtain ⟨hbegin', _⟩ | ⟨_, _, _, _, hbegin', ht', _⟩ := begin_of_encode hmore.symm
    · cases hbegin.symm.trans hbegin'
    · cases hbegin.symm.trans hbegin'
      have hlength := ht'.length_eq
      rw [List.length_append, ht.length_eq, Nat.add_eq_left, List.length_eq_zero_iff] at hlength
      rw [hlength, List.append_nil]

end BraceFormat.Utf8
