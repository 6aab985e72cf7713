import BraceFormat.Proofs.Numeral
import BraceFormat.Proofs.Utf8

/-!
# Guarded access to the bytes of a text

A text is walked by places that count bytes. Taking a part of a text is guarded: it gives
`none` where a place lies outside of the text or within a character, and so is subtracting
where the difference would be negative. Looking at a single byte needs no guard.

`At text place rest` says that a place of a text lies between two characters, in front of
`rest`. At such a place everything succeeds, and nowhere else is text taken
(`textFrom?_eq_some_iff`, `slice?_eq_some_iff`). What is found at such a place about bytes
holds of characters.
-/

namespace BraceFormat.Guarded

open Utf8

/-- A difference that is not negative. -/
def minus? (m n : Nat) : Option Nat := if n ≤ m then some (m - n) else none

/-- The bytes of a text from a place on, which lies within the text or at its end. -/
def bytesFrom? (text : List Char) (place : Nat) : Option (List UInt8) :=
  if place ≤ byteLength text then some ((encode text).drop place) else none

/-- The text from a place on, which lies between two characters. -/
def textFrom? : List Char → Nat → Option (List Char)
  | text, 0 => some text
  | [], _ + 1 => none
  | c :: text, place => if c.utf8Size ≤ place then textFrom? text (place - c.utf8Size) else none

/-- The text up to a place, which lies between two characters. -/
def textUpTo? : List Char → Nat → Option (List Char)
  | _, 0 => some []
  | [], _ + 1 => none
  | c :: text, place =>
    if c.utf8Size ≤ place then (textUpTo? text (place - c.utf8Size)).map (c :: ·) else none

/-- The text between two places, which lie between characters and in this order. -/
def slice? (text : List Char) (start stop : Nat) : Option (List Char) := do
  let rest ← textFrom? text start
  let size ← minus? stop start
  textUpTo? rest size

/-- The byte at a place of a text, if the text goes so far, as the character of this code. -/
def peek (text : List Char) (place : Nat) : Option Char :=
  (encode text)[place]?.map byteChar

/-- The number of bytes in front of the first one of some sort, if there is one. -/
def find? (sort : Char → Bool) (bytes : List UInt8) : Option Nat :=
  let front := (bytes.takeWhile fun b => !sort (byteChar b)).length
  if front < bytes.length then some front else none

/-- The place of the first byte of some sort from a place on, or else the end of the text. -/
def stopFrom? (sort : Char → Bool) (text : List Char) (place : Nat) : Option Nat := do
  let bytes ← bytesFrom? text place
  return (find? sort bytes).elim (byteLength text) (place + ·)

theorem minus?_eq {m n : Nat} (h : n ≤ m) :
  minus? m n = some (m - n)
  := if_pos h

theorem textFrom?_append (front rest : List Char) :
  textFrom? (front ++ rest) (byteLength front) = some rest
  := by
  induction front with
  | nil =>
    rw [List.nil_append, byteLength_nil, textFrom?]
  | cons c front ih =>
    have hpos := c.utf8Size_pos
    rw [List.cons_append, byteLength_cons, textFrom?.eq_3, if_pos (Nat.le_add_right _ _),
      Nat.add_sub_cancel_left, ih]
    omega

theorem textUpTo?_append (front rest : List Char) :
  textUpTo? (front ++ rest) (byteLength front) = some front
  := by
  induction front with
  | nil =>
    rw [List.nil_append, byteLength_nil, textUpTo?]
  | cons c front ih =>
    have hpos := c.utf8Size_pos
    rw [List.cons_append, byteLength_cons, textUpTo?.eq_3, if_pos (Nat.le_add_right _ _),
      Nat.add_sub_cancel_left, ih]
    · rfl
    · omega

/-- Some byte is of a sort just if some character is, and the first such byte is that of the
first such character. -/
theorem find?_encode {sort : Char → Bool} (hsort : Bytewise sort) (text : List Char) :
  find? sort (encode text) =
    match text.dropWhile (!sort ·) with
    | [] => none
    | _ :: _ => some (byteLength (text.takeWhile (!sort ·)))
  := by
  have hlength := congrArg byteLength (List.takeWhile_append_dropWhile (p := (!sort ·)) (l := text))
  rw [byteLength_append] at hlength
  simp only [find?, takeWhile_encode hsort.not, length_encode]
  rcases hdrop : text.dropWhile (!sort ·) with _ | ⟨c, rest⟩
  · rw [hdrop, byteLength_nil] at hlength
    apply if_neg
    omega
  · have hpos := c.utf8Size_pos
    rw [hdrop, byteLength_cons] at hlength
    apply if_pos
    omega

/-! ### Places between characters -/

/-- A place of a text lies between two characters, in front of the rest. -/
def At (text : List Char) (place : Nat) (rest : List Char) : Prop :=
  ∃ front, text = front ++ rest ∧ byteLength front = place

namespace At

variable {text rest part : List Char} {place : Nat}

theorem zero (text : List Char) :
  At text 0 text
  := ⟨[], rfl, rfl⟩

/-- A place moves on by the text that it leaves behind. -/
theorem advance (h : At text place (part ++ rest)) :
  At text (place + byteLength part) rest
  := by
  obtain ⟨front, rfl, rfl⟩ := h
  exact ⟨front ++ part, by rw [List.append_assoc], byteLength_append _ _⟩

/-- A place moves on by a character that it leaves behind. -/
theorem advance_char {c : Char} (h : At text place (c :: rest)) :
  At text (place + c.utf8Size) rest
  := by
  change At text place ([c] ++ rest) at h
  exact h.advance

/-- A run of characters at a place ends where the run behind its first one does. -/
theorem run_cons {c : Char} {sort : Char → Bool} (h : At text place (c :: rest)) :
  At text place ((c :: rest.takeWhile sort) ++ rest.dropWhile sort)
  := by
  rw [List.cons_append, List.takeWhile_append_dropWhile]
  apply h

/-- The bytes in front of a place and those behind it are all of the text. -/
theorem add_byteLength (h : At text place rest) :
  place + byteLength rest = byteLength text
  := by
  obtain ⟨front, rfl, rfl⟩ := h
  rw [byteLength_append]

theorem textFrom?_eq (h : At text place rest) :
  textFrom? text place = some rest
  := by
  obtain ⟨front, rfl, rfl⟩ := h
  apply textFrom?_append

theorem slice?_eq (h : At text place (part ++ rest)) :
  slice? text place (place + byteLength part) = some part
  := by
  rw [slice?, h.textFrom?_eq, minus?_eq (Nat.le_add_right _ _), Nat.add_sub_cancel_left]
  apply textUpTo?_append

theorem slice?_nil (h : At text place rest) :
  slice? text place place = some []
  := by
  change At text place ([] ++ rest) at h
  exact h.slice?_eq

theorem drop_encode (h : At text place rest) :
  (encode text).drop place = encode rest
  := by
  obtain ⟨front, rfl, rfl⟩ := h
  apply drop_encode_append

theorem bytesFrom?_eq (h : At text place rest) :
  bytesFrom? text place = some (encode rest)
  := by
  have hplace := h.add_byteLength
  rw [bytesFrom?, if_pos (by omega), h.drop_encode]

/-- The first byte of some sort is that of the first such character. -/
theorem stopFrom?_eq {sort : Char → Bool} (hsort : Bytewise sort) (h : At text place rest) :
  stopFrom? sort text place = some (place + byteLength (rest.takeWhile (!sort ·)))
  := by
  have hrest := List.takeWhile_append_dropWhile (p := (!sort ·)) (l := rest)
  rw [stopFrom?, h.bytesFrom?_eq]
  simp only [Option.bind_eq_bind, Option.bind_some, find?_encode hsort]
  split
  · next hdrop =>
    rw [hdrop, List.append_nil] at hrest
    rw [hrest, h.add_byteLength]
    rfl
  · rfl

/-! ### The byte at a place -/

theorem peek_eq (h : At text place rest) :
  peek text place = (encode rest).head?.map byteChar
  := by
  rw [peek, ← h.drop_encode, List.head?_drop]

theorem peek_nil (h : At text place []) :
  peek text place = none
  := by
  rw [h.peek_eq]
  rfl

/-- The byte in front of a character is one of its bytes. -/
theorem exists_peek_cons {c : Char} (h : At text place (c :: rest)) :
  ∃ b ∈ String.utf8EncodeChar c, peek text place = some (byteChar b)
  := by
  obtain ⟨b, hb, bytes, hbytes⟩ := exists_encode_cons c rest
  use b, hb
  rw [h.peek_eq, hbytes]
  rfl

theorem isSome_peek_cons {c : Char} (h : At text place (c :: rest)) :
  (peek text place).isSome = true
  := by
  obtain ⟨b, _, hpeek⟩ := h.exists_peek_cons
  rw [hpeek, Option.isSome_some]

/-- The byte at a place is of the sort of the character there. -/
theorem any_peek {sort : Char → Bool} (hsort : Bytewise sort) (h : At text place rest) :
  (peek text place).any sort = rest.head?.any sort
  := by
  cases rest with
  | nil =>
    rw [h.peek_nil]
    rfl
  | cons c rest =>
    obtain ⟨b, hb, hpeek⟩ := h.exists_peek_cons
    rw [hpeek]
    exact hsort.byteChar_eq hb

/-- A byte of ASCII stands at a place just if its character does. -/
theorem peek_eq_some_iff {c : Char} (hc : c.toNat < 128) (h : At text place rest) :
  peek text place = some c ↔ rest.head? = some c
  := by
  have hsort : Bytewise (· == c) := by
    apply Bytewise.of_ascii
    intro d hd
    rw [beq_iff_eq.mp hd]
    apply hc
  have hany := h.any_peek hsort
  rw [Bool.eq_iff_iff] at hany
  simpa only [Option.any_eq_true, beq_iff_eq, exists_eq_right] using hany

end At

/-! ### Where text is taken -/

variable {text rest part : List Char} {place start stop : Nat}

theorem textFrom?_eq_some_iff :
  textFrom? text place = some rest ↔ At text place rest
  := by
  constructor
  · intro h
    induction text generalizing place with
    | nil =>
      cases place with
      | zero =>
        cases h
        apply At.zero
      | succ place => cases h
    | cons c text ih =>
      cases place with
      | zero =>
        cases h
        apply At.zero
      | succ place =>
        rw [textFrom?.eq_3 _ _ _ (by omega)] at h
        split at h
        · next hc =>
          obtain ⟨front, rfl, hfront⟩ := ih h
          refine ⟨c :: front, rfl, ?_⟩
          rw [byteLength_cons]
          omega
        · cases h
  · apply At.textFrom?_eq

theorem textUpTo?_eq_some_iff :
  textUpTo? text place = some part ↔ ∃ rest, text = part ++ rest ∧ byteLength part = place
  := by
  constructor
  · intro h
    induction text generalizing place part with
    | nil =>
      cases place with
      | zero =>
        cases h
        exact ⟨[], rfl, rfl⟩
      | succ place => cases h
    | cons c text ih =>
      cases place with
      | zero =>
        cases h
        exact ⟨c :: text, rfl, rfl⟩
      | succ place =>
        rw [textUpTo?.eq_3 _ _ _ (by omega)] at h
        split at h
        · next hc =>
          obtain ⟨part', hpart, rfl⟩ := Option.map_eq_some_iff.mp h
          obtain ⟨rest, rfl, hsize⟩ := ih hpart
          refine ⟨rest, rfl, ?_⟩
          rw [byteLength_cons]
          omega
        · cases h
  · rintro ⟨rest, rfl, rfl⟩
    apply textUpTo?_append

/-- Text is taken only between two places between characters. -/
theorem slice?_eq_some_iff :
  slice? text start stop = some part ↔
    ∃ rest, At text start (part ++ rest) ∧ start + byteLength part = stop
  := by
  constructor
  · intro h
    simp only [slice?, Option.bind_eq_bind, Option.bind_eq_some_iff, textFrom?_eq_some_iff,
      textUpTo?_eq_some_iff, minus?, Option.ite_none_right_eq_some, Option.some.injEq] at h
    obtain ⟨_, hstart, _, ⟨hle, rfl⟩, rest, rfl, hsize⟩ := h
    exact ⟨rest, hstart, by omega⟩
  · rintro ⟨rest, h, rfl⟩
    apply h.slice?_eq

end BraceFormat.Guarded
