import BraceFormat.Text.ByteLength
import BraceFormat.Text.Utf8
import Mathlib.Tactic.Use

/-!
# The bytes of a text

A character of ASCII is one byte, its code, and the bytes of any other character are none of
ASCII. So a sort of characters that does not tell those apart, `Bytewise`, can be told from
the bytes alone: a run of such characters is a run of their bytes (`takeWhile_encode`).
-/

namespace BraceFormat.Utf8

variable {c : Char} {b : UInt8} {sort : Char → Bool}

theorem encode_cons (c : Char) (text : List Char) :
  encode (c :: text) = String.utf8EncodeChar c ++ encode text
  := List.flatMap_cons

theorem encode_append (s t : List Char) :
  encode (s ++ t) = encode s ++ encode t
  := List.flatMap_append

/-- The bytes of a text start with a byte of its first character. -/
theorem exists_encode_cons (c : Char) (text : List Char) :
  ∃ b ∈ String.utf8EncodeChar c, ∃ bytes, encode (c :: text) = b :: bytes
  := by
  obtain ⟨b, bytes, hbytes⟩ :=
    List.exists_cons_of_ne_nil (String.utf8EncodeChar_ne_nil (c := c))
  rw [encode_cons, hbytes]
  use b, List.mem_cons_self, bytes ++ encode text
  apply List.cons_append

/-- A text takes as many bytes as its length says. -/
theorem length_encode (text : List Char) :
  (encode text).length = byteLength text
  := by
  induction text with
  | nil => rfl
  | cons c text ih =>
    rw [encode_cons, List.length_append, String.length_utf8EncodeChar, byteLength_cons, ih]

/-- The bytes of a beginning of a text are the first bytes of the text. -/
theorem take_encode {s text : List Char} (h : s <+: text) :
  (encode text).take (byteLength s) = encode s
  := by
  obtain ⟨t, rfl⟩ := h
  rw [encode_append, ← length_encode]
  apply List.take_left

/-- The bytes of an end of a text are the last bytes of the text. -/
theorem drop_encode_append (s t : List Char) :
  (encode (s ++ t)).drop (byteLength s) = encode t
  := by
  rw [encode_append, ← length_encode]
  apply List.drop_left

/-- A text has at most as many characters as bytes. -/
theorem length_le_byteLength (text : List Char) :
  text.length ≤ byteLength text
  := by
  induction text with
  | nil => apply Nat.le_refl
  | cons c text ih =>
    have hpos := c.utf8Size_pos
    rw [List.length_cons, byteLength_cons]
    omega

/-! ### Bytes of ASCII -/

/-- The character whose code is a byte. -/
def byteChar (b : UInt8) : Char := Char.ofNat b.toNat

theorem toNat_byteChar (b : UInt8) :
  (byteChar b).toNat = b.toNat
  := by
  have hlt := b.toNat_lt
  rw [byteChar, Char.ofNat, dif_pos (Or.inl (by omega))]
  rfl

/-- A character of ASCII is one byte. -/
theorem utf8EncodeChar_of_ascii (hc : c.toNat < 128) :
  ∃ b, String.utf8EncodeChar c = [b] ∧ byteChar b = c
  := by
  have hval : c.val.toNat = c.toNat := rfl
  use c.val.toUInt8
  constructor
  · apply String.utf8EncodeChar_eq_singleton
    rw [Char.utf8Size_eq_one_iff, UInt32.le_iff_toNat_le]
    change c.val.toNat ≤ 127
    omega
  · apply Char.toNat_inj.mp
    rw [toNat_byteChar, UInt32.toNat_toUInt8, hval]
    omega

theorem utf8Size_of_ascii (hc : c.toNat < 128) :
  c.utf8Size = 1
  := by
  obtain ⟨b, hb, _⟩ := utf8EncodeChar_of_ascii hc
  rw [← String.length_utf8EncodeChar, hb]
  rfl

/-- Text of ASCII takes a byte for each character. -/
theorem byteLength_of_ascii {text : List Char} (h : ∀ c ∈ text, c.toNat < 128) :
  byteLength text = text.length
  := by
  induction text with
  | nil => rfl
  | cons c text ih =>
    rw [byteLength_cons, utf8Size_of_ascii (h c (.head _)), ih fun d hd => h d (.tail _ hd),
      List.length_cons, Nat.add_comm]

/-- The bytes of a character beyond ASCII are none of ASCII. -/
theorem le_toNat_of_mem_utf8EncodeChar (hc : 128 ≤ c.toNat) (hb : b ∈ String.utf8EncodeChar c) :
  128 ≤ (byteChar b).toNat
  := by
  have hval : c.val.toNat = c.toNat := rfl
  have hhigh (n : Nat) (hlow : 128 ≤ n) (hlt : n < 256) : 128 ≤ (UInt8.ofNat n).toNat := by
    rw [UInt8.toNat_ofNat']
    omega
  rw [toNat_byteChar]
  rw [String.utf8EncodeChar, if_neg (by omega)] at hb
  split at hb
  · simp only [List.mem_cons, List.not_mem_nil, or_false] at hb
    rcases hb with rfl | rfl <;> apply hhigh <;> omega
  · split at hb
    · simp only [List.mem_cons, List.not_mem_nil, or_false] at hb
      rcases hb with rfl | rfl | rfl <;> apply hhigh <;> omega
    · simp only [List.mem_cons, List.not_mem_nil, or_false] at hb
      rcases hb with rfl | rfl | rfl | rfl <;> apply hhigh <;> omega

/-! ### Runs of bytes -/

/-- A sort of characters holds of all characters beyond ASCII or of none. -/
def Bytewise (sort : Char → Bool) : Prop :=
  ∀ c d : Char, 128 ≤ c.toNat → 128 ≤ d.toNat → sort c = sort d

theorem Bytewise.of_ascii (h : ∀ c, sort c = true → c.toNat < 128) :
  Bytewise sort
  := by
  have hfalse (c : Char) (hc : 128 ≤ c.toNat) : sort c = false := by
    apply Bool.eq_false_iff.mpr
    intro hsort
    have := h c hsort
    omega
  intro c d hc hd
  rw [hfalse c hc, hfalse d hd]

theorem Bytewise.not (h : Bytewise sort) :
  Bytewise fun c => !sort c
  := by
  intro c d hc hd
  exact congrArg Bool.not (h c d hc hd)

/-- The bytes of a character are of the sort of the character. -/
theorem Bytewise.byteChar_eq (h : Bytewise sort) (hb : b ∈ String.utf8EncodeChar c) :
  sort (byteChar b) = sort c
  := by
  rcases Nat.lt_or_ge c.toNat 128 with hc | hc
  · obtain ⟨b', hencode, rfl⟩ := utf8EncodeChar_of_ascii hc
    rw [hencode] at hb
    rw [List.mem_singleton.mp hb]
  · apply h _ _ (le_toNat_of_mem_utf8EncodeChar hc hb) hc

/-- A run of characters is a run of bytes. -/
theorem takeWhile_encode (h : Bytewise sort) (text : List Char) :
  (encode text).takeWhile (fun b => sort (byteChar b)) = encode (text.takeWhile sort)
  := by
  induction text with
  | nil => rfl
  | cons c text ih =>
    by_cases hc : sort c = true
    · rw [encode_cons, List.takeWhile_append_of_pos, ih, List.takeWhile_cons_of_pos hc, encode_cons]
      intro b hb
      rw [h.byteChar_eq hb, hc]
    · obtain ⟨b, hb, bytes, hbytes⟩ := exists_encode_cons c text
      rw [List.takeWhile_cons_of_neg hc, hbytes, List.takeWhile_cons_of_neg]
      · rfl
      · rw [h.byteChar_eq hb]
        apply hc

end BraceFormat.Utf8
