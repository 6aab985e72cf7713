import BraceFormat.Proofs.ArgId
import BraceFormat.Proofs.Guarded.Bytes

/-!
# Guarded reading of argument ids

Numbers and argument ids are read from the bytes at a place of a text. Between two characters
no guard is breached, and what is read is what the text from there on is read as
(`argId?_eq`, `closedId?_eq`).
-/

namespace BraceFormat.Guarded

open Utf8

/-- Reads the digits in front of some bytes onto a number, while it stays below a limit. Gives
the number and the count of digits, or nothing if the limit is reached. -/
def number? (limit : Nat) : Nat → List UInt8 → Option (Option (Nat × Nat))
  | n, [] => some (some (n, 0))
  | n, b :: bytes =>
    if (byteChar b).isDigit then do
      let digit ← minus? b.toNat '0'.toNat
      if 10 * n + digit < limit then
        let outcome ← number? limit (10 * n + digit) bytes
        return outcome.map fun (m, size) => (m, size + 1)
      else return none
    else some (some (n, 0))

/-- Reads the argument id at a place of a text, and gives the place behind it. Fails with the
place at which the id is ill-formed. -/
def argId? (text : List Char) (place : Nat) : Option (Except Nat (ArgId × Nat)) :=
  if peek text place = some '0' then
    if (peek text (place + 1)).any Char.isDigit then some (.error (place + 1))
    else some (.ok (.index 0, place + 1))
  else if (peek text place).any Char.isDigit then do
    match ← number? indexLimit 0 ((encode text).drop place) with
    | some (n, size) => return .ok (.index n, place + size)
    | none => return .error place
  else if (peek text place).any ArgId.isNameStart then do
    let stop ← stopFrom? (!ArgId.isNameRest ·) text place
    let name ← slice? text place stop
    return .ok (.name name, stop)
  else some (.ok (.auto, place))

/-- Reads the argument id at a place of a text and the closing brace behind it. -/
def closedId? (text : List Char) (place : Nat) : Option (Except Nat (ArgId × Nat)) := do
  match ← argId? text place with
  | .error place => return .error place
  | .ok (id, stop) =>
    if peek text stop = some '}' then return .ok (id, stop + 1) else return .error stop

/-! ### Sorts of characters -/

variable {c : Char}

theorem toNat_lt_of_isNameRest (h : ArgId.isNameRest c = true) :
  c.toNat < 128
  := by
  simp only [ArgId.isNameRest, Char.isAlphanum, ArgId.isAlpha_iff_toNat, Char.isDigit_iff_toNat,
    Bool.or_eq_true, decide_eq_true_eq] at h
  have hZ : 'Z'.toNat = 90 := rfl
  have hz : 'z'.toNat = 122 := rfl
  have hnine : '9'.toNat = 57 := rfl
  rcases h with ((h | h) | h) | rfl
  · omega
  · omega
  · omega
  · decide

theorem bytewise_isNameRest :
  Bytewise ArgId.isNameRest
  := by
  apply Bytewise.of_ascii
  intro c
  apply toNat_lt_of_isNameRest

theorem bytewise_isNameStart :
  Bytewise ArgId.isNameStart
  := by
  apply Bytewise.of_ascii
  intro c hc
  apply toNat_lt_of_isNameRest (ArgId.isNameRest_of_isNameStart hc)

theorem toNat_lt_of_isDigit (h : c.isDigit = true) :
  c.toNat < 128
  := toNat_lt_of_isNameRest (ArgId.isNameRest_of_isDigit h)

theorem bytewise_isDigit :
  Bytewise Char.isDigit
  := by
  apply Bytewise.of_ascii
  intro c
  apply toNat_lt_of_isDigit

/-! ### Numbers -/

/-- A run of digits takes a byte for each of them. -/
theorem byteLength_of_digits {digits : List Char} (h : ∀ c ∈ digits, c.isDigit = true) :
  byteLength digits = digits.length
  := by
  apply byteLength_of_ascii
  intro c hc
  apply toNat_lt_of_isDigit (h c hc)

/-- More digits make no number smaller. -/
theorem le_ofDigitChars (digits : List Char) (n : Nat) :
  n ≤ Nat.ofDigitChars 10 digits n
  := by
  rw [Nat.ofDigitChars_eq_ofDigitChars_zero]
  have hpow := Nat.le_mul_of_pos_left n (Nat.pow_pos (n := digits.length) (show 0 < 10 by decide))
  omega

/-- The digits in front of a text are read as the number that they stand for, unless it
reaches the limit. -/
theorem number?_encode {limit n : Nat} (hn : n < limit) (text : List Char) :
  number? limit n (encode text) =
    let digits := text.takeWhile Char.isDigit
    some (if Nat.ofDigitChars 10 digits n < limit then
      some (Nat.ofDigitChars 10 digits n, digits.length) else none)
  := by
  induction text generalizing n with
  | nil => exact congrArg some (if_pos hn).symm
  | cons c text ih =>
    by_cases hc : c.isDigit = true
    · obtain ⟨b, hencode, hb⟩ := utf8EncodeChar_of_ascii (toNat_lt_of_isDigit hc)
      have htoNat : b.toNat = c.toNat := by rw [← hb, toNat_byteChar]
      have hzero : '0'.toNat ≤ c.toNat := (Char.isDigit_iff_toNat.mp hc).1
      have hle := le_ofDigitChars (text.takeWhile Char.isDigit) (10 * n + (c.toNat - '0'.toNat))
      rw [encode_cons, hencode, List.singleton_append, number?, hb, if_pos hc, htoNat,
        minus?_eq hzero, List.takeWhile_cons_of_pos hc]
      simp only [Option.bind_eq_bind, Option.bind_some, Nat.ofDigitChars_cons, List.length_cons]
      split
      · next hlimit =>
        rw [ih hlimit]
        simp only [Option.bind_some]
        split <;> rfl
      · next hlimit =>
        rw [if_neg (by omega)]
        rfl
    · obtain ⟨b, hb, bytes, hbytes⟩ := exists_encode_cons c text
      rw [List.takeWhile_cons_of_neg hc, hbytes, number?, bytewise_isDigit.byteChar_eq hb, if_neg hc]
      exact congrArg some (if_pos hn).symm

variable {text rest : List Char} {place : Nat}

/-- The digits at a place are read with the number of their bytes. -/
theorem number?_eq {limit : Nat} (hlimit : 0 < limit) (h : At text place rest) :
  number? limit 0 ((encode text).drop place) =
    let digits := rest.takeWhile Char.isDigit
    some (if Nat.ofDigitChars 10 digits 0 < limit then
      some (Nat.ofDigitChars 10 digits 0, byteLength digits) else none)
  := by
  have hlength :
      byteLength (rest.takeWhile Char.isDigit) = (rest.takeWhile Char.isDigit).length := by
    apply byteLength_of_digits
    intro d
    apply mem_takeWhile
  simp only [h.drop_encode, number?_encode hlimit, hlength]

/-! ### Argument ids -/

/-- What reading at a place gives, if reading the text from there on gives an outcome. -/
def idOutcome (place : Nat) : Except Nat (ArgId × List Char) → Except Nat (ArgId × Nat)
  | .error inner => .error (place + inner)
  | .ok (id, _) => .ok (id, place + byteLength id.source)

/-- An id is read at a place as from there on. -/
theorem argId?_eq (h : At text place rest) :
  argId? text place = some (idOutcome place (ArgId.read rest))
  := by
  have hzero := h.peek_eq_some_iff (c := '0') (by decide)
  have hdigit := h.any_peek bytewise_isDigit
  have hstart := h.any_peek bytewise_isNameStart
  rw [argId?, hdigit, hstart]
  cases rest with
  | nil =>
    rw [h.peek_nil]
    rfl
  | cons c rest =>
    rw [List.head?_cons, Option.some_inj] at hzero
    rw [List.head?_cons, Option.any_some, Option.any_some]
    by_cases h0 : c = '0'
    · obtain rfl := h0
      have hnext : At text (place + 1) rest := h.advance_char
      rw [if_pos (hzero.mpr rfl), hnext.any_peek bytewise_isDigit, ArgId.read]
      split <;> rfl
    · rw [if_neg (fun hpeek => h0 (hzero.mp hpeek)), ArgId.read.eq_3 _ _ h0]
      by_cases hc : c.isDigit = true
      · have hdigits : ∀ d ∈ rest.takeWhile Char.isDigit, d.isDigit = true := fun d => mem_takeWhile
        have hsource := numeral_of_digits hc h0 hdigits
        rw [if_pos hc, if_pos hc, number?_eq (by decide) h, List.takeWhile_cons_of_pos hc]
        by_cases hlimit :
            Nat.ofDigitChars 10 (c :: rest.takeWhile Char.isDigit) 0 < indexLimit
        · simp only [if_pos hlimit, idOutcome, ArgId.source, hsource]
          rfl
        · simp only [if_neg hlimit]
          rfl
      · rw [if_neg hc, if_neg hc]
        by_cases hname : ArgId.isNameStart c = true
        · have hrun : (c :: rest).takeWhile (fun d => !!ArgId.isNameRest d) =
              c :: rest.takeWhile ArgId.isNameRest := by
            simp only [Bool.not_not]
            apply List.takeWhile_cons_of_pos (ArgId.isNameRest_of_isNameStart hname)
          have hname' : At text place
              ((c :: rest.takeWhile ArgId.isNameRest) ++ rest.dropWhile ArgId.isNameRest) :=
            h.run_cons
          rw [if_pos hname, if_pos hname, h.stopFrom?_eq bytewise_isNameRest.not, hrun]
          simp only [Option.bind_eq_bind, Option.bind_some, hname'.slice?_eq]
          rfl
        · rw [if_neg hname, if_neg hname]
          rfl

/-- What reading a closed id at a place gives, if reading the text from there on gives an
outcome. -/
def closedOutcome (place : Nat) : Except Nat (ArgId × List Char) → Except Nat (ArgId × Nat)
  | .error inner => .error (place + inner)
  | .ok (id, _) => .ok (id, place + byteLength id.source + 1)

/-- A closed id is read at a place as from there on. -/
theorem closedId?_eq (h : At text place rest) :
  closedId? text place = some (closedOutcome place (ArgId.readClosed rest))
  := by
  rw [closedId?, argId?_eq h, ArgId.readClosed]
  rcases hread : ArgId.read rest with inner | ⟨id, after⟩
  · rfl
  · obtain ⟨rfl, _⟩ := ArgId.source_of_read hread
    have hclose := h.advance.peek_eq_some_iff (c := '}') (by decide)
    simp only [Option.bind_eq_bind, Option.bind_some, idOutcome, hclose]
    rcases after with _ | ⟨c, after⟩
    · rfl
    · simp only [List.head?_cons, Option.some_inj]
      by_cases hc : c = '}'
      · obtain rfl := hc
        rfl
      · rw [if_neg hc]
        split
        · next heq =>
          cases heq
        · next heq =>
          cases heq
          contradiction
        · next heq =>
          cases heq
          rfl

end BraceFormat.Guarded
