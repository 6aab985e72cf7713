import BraceFormat.Proofs.Guarded.Exponent
import BraceFormat.Proofs.Guarded.Sink
import BraceFormat.Proofs.Number.Rounded
import BraceFormat.Rendering.Float

/-!
# Guarded layout of decimals

The digits of a number are generated as a text in scientific notation, for precisions up to
the limit only, and the text is taken apart into the digits and the exponent again, which is read
in words. Laying them out counts on from the exponent or from its opposite, and cuts the digits,
which are all of ASCII, at places within them. The least word has no opposite, but the exponents
of finite numbers are far from it (`isReadable_rounded`, `isReadable_shortest`), so no other guard
is ever breached (`decimal?_eq`, `positionalInWords?_eq`, `mantissa?_eq`).
-/

namespace BraceFormat.Guarded

open Utf8

/-- Generates a text with digits of some precision. -/
def generate? (precision : Nat) (text : List Char) : Option (List Char) :=
  if precision ≤ digitLimit then some text else none

/-- The text that the digits of a number are generated as. -/
def generatedText (d : Decimal) : List Char :=
  d.mantissa [] ++ 'e' ::
    ((if d.exponent < 0 then ['-'] else []) ++ Nat.toDigits 10 d.exponent.natAbs)

/-- Takes a text in scientific notation apart, with the exponent in a word. -/
def readInWords? (text : List Char) : Option Decimal := do
  let mantissa := text.takeWhile (· ≠ 'e')
  let exponent := if 'e' ∈ text then (text.dropWhile (· ≠ 'e')).tail else ['0']
  if exponent.head? = some '-' then
    let magnitude ← wordValue? (encode exponent.tail)
    let opposite ← word? (-magnitude)
    return ⟨mantissa.filter Char.isDigit, opposite⟩
  else
    let magnitude ← wordValue? (encode exponent)
    return ⟨mantissa.filter Char.isDigit, magnitude⟩

/-- The digits of a number, generated with some precision. -/
def decimal? (precision : Nat) (d : Decimal) : Option Decimal := do
  let text ← generate? precision (generatedText d)
  readInWords? text

/-- The digits with the point where the exponent, a word, puts it. -/
def positionalInWords? (d : Decimal) : Option (List Char) :=
  if d.exponent < 0 then do
    let opposite ← word? (-d.exponent)
    let zeros ← word? (opposite - 1)
    return ['0', '.'] ++ List.replicate zeros.toNat '0' ++ d.digits
  else do
    let whole ← plus? d.exponent.toNat 1
    let size := byteLength d.digits
    if size ≤ whole then return d.digits ++ List.replicate (whole - size) '0'
    else
      let front ← slice? d.digits 0 whole
      let back ← textFrom? d.digits whole
      return front ++ '.' :: back

/-- The digits with the point after the first one; a single digit is followed by `lone`. -/
def mantissa? (d : Decimal) (lone : List Char) : Option (List Char) := do
  let split := min 1 (byteLength d.digits)
  let first ← textUpTo? d.digits split
  let rest ← textFrom? d.digits split
  if rest = [] then return first ++ lone else return first ++ '.' :: rest

/-! ### Digits of numbers -/

/-- The digits of a decimal are decimal digits. -/
def HasDigits (d : Decimal) : Prop := ∀ c ∈ d.digits, c.isDigit = true

theorem isDigit_of_mem_replicate {n : Nat} {c : Char} (h : c ∈ List.replicate n '0') :
  c.isDigit = true
  := by
  rw [List.eq_of_mem_replicate h]
  rfl

theorem isDigit_of_mem_scaledDigits {q : Rat} {power : Int} {c : Char}
    (h : c ∈ Decimal.scaledDigits q power) :
  c.isDigit = true
  := by
  rw [Decimal.scaledDigits, List.mem_append] at h
  rcases h with h | h
  · apply isDigit_of_mem_numeral h
  · apply isDigit_of_mem_replicate h

theorem hasDigits_rounded (count : Nat) (q : Rat) :
  HasDigits (Decimal.rounded count q)
  := by
  intro c hc
  rw [Decimal.rounded] at hc
  split at hc
  · apply isDigit_of_mem_replicate hc
  · dsimp only at hc
    split at hc
    · apply isDigit_of_mem_scaledDigits hc
    · apply isDigit_of_mem_scaledDigits (List.mem_of_mem_take hc)

theorem hasDigits_ofScaled (n : Nat) (power : Int) :
  HasDigits (Decimal.ofScaled n power)
  := by
  intro c hc
  rw [Decimal.ofScaled] at hc
  split at hc
  · rw [List.mem_singleton.mp hc]
    rfl
  · rw [List.mem_reverse] at hc
    have hmem := (List.dropWhile_suffix _).subset hc
    rw [List.mem_reverse] at hmem
    apply isDigit_of_mem_numeral hmem

theorem hasDigits_of_candidate {magnitude count : Nat} {d : Decimal}
    (h : Decimal.candidate magnitude count = some d) :
  HasDigits d
  := by
  rw [Decimal.candidate] at h
  split at h <;> cases h <;> apply hasDigits_ofScaled

theorem hasDigits_firstCandidate (magnitude fuel count : Nat) :
  HasDigits (Decimal.firstCandidate magnitude fuel count)
  := by
  induction fuel generalizing count with
  | zero => apply hasDigits_rounded
  | succ fuel ih =>
    rw [Decimal.firstCandidate]
    split
    · next h => apply hasDigits_of_candidate h
    · apply ih

theorem hasDigits_shortest (magnitude : Nat) :
  HasDigits (Decimal.shortest magnitude)
  := by
  rw [Decimal.shortest]
  split
  · intro c hc
    rw [List.mem_singleton.mp hc]
    rfl
  · apply hasDigits_firstCandidate

/-! ### Taking a decimal apart -/

variable {d : Decimal}

/-- Of a mantissa the digits remain without the point. -/
theorem filter_mantissa (h : HasDigits d) :
  (d.mantissa []).filter Char.isDigit = d.digits
  := by
  have hall : d.digits.filter Char.isDigit = d.digits := List.filter_eq_self.mpr h
  rw [Decimal.mantissa]
  rcases hdigits : d.digits with _ | ⟨c, _ | ⟨c', rest⟩⟩
  · rfl
  · rw [hdigits] at hall
    apply hall
  · rw [hdigits] at hall
    have hc : c.isDigit = true := h c (by rw [hdigits]; apply List.mem_cons_self)
    rw [List.filter_cons_of_pos hc] at hall ⊢
    rw [List.filter_cons_of_neg (by decide)]
    apply hall

/-- A mantissa has digits and the point. -/
theorem mem_digits_of_mem_mantissa {c : Char} (hc : c ∈ d.mantissa []) :
  c ∈ d.digits ∨ c = '.'
  := by
  rw [Decimal.mantissa] at hc
  rcases hdigits : d.digits with _ | ⟨c', _ | ⟨c'', rest⟩⟩ <;> rw [hdigits] at hc
  · cases hc
  · left
    apply hc
  · simp only [List.mem_cons] at hc ⊢
    rcases hc with hc | hc | hc | hc
    · exact .inl (.inl hc)
    · exact .inr hc
    · exact .inl (.inr (.inl hc))
    · exact .inl (.inr (.inr hc))

/-- What is read from a text are the digits in front of the letter and the number behind it. -/
theorem readInWords?_append {mantissa magnitude : List Char} (hmantissa : ∀ c ∈ mantissa, c ≠ 'e')
    (hne : magnitude ≠ []) (hmagnitude : ∀ c ∈ magnitude, c.isDigit = true)
    (hword : Nat.ofDigitChars 10 magnitude 0 < 0x80000000) (negative : Bool) :
  readInWords? (mantissa ++ 'e' :: ((if negative then ['-'] else []) ++ magnitude)) =
    let value : Nat := Nat.ofDigitChars 10 magnitude 0
    some ⟨mantissa.filter Char.isDigit, if negative then -value else value⟩
  := by
  have hrun : ∀ c ∈ mantissa, decide (c ≠ 'e') = true := fun c hc =>
    decide_eq_true (hmantissa c hc)
  have hstops (text : List Char) : Stops (fun c => decide (c ≠ 'e')) ('e' :: text) :=
    Stops.cons rfl
  have hmem (text : List Char) : 'e' ∈ mantissa ++ 'e' :: text :=
    List.mem_append_right _ (.head _)
  have hvalue := wordValue?_encode hmagnitude hword
  rw [readInWords?]
  simp only [takeWhile_append_of_stops hrun (hstops _), dropWhile_append_of_stops hrun (hstops _),
    if_pos (hmem _), List.tail_cons]
  cases negative with
  | true =>
    have hopposite : word? (-((Nat.ofDigitChars 10 magnitude 0 : Nat) : Int)) =
        some (-((Nat.ofDigitChars 10 magnitude 0 : Nat) : Int)) :=
      word?_eq (by omega) (by omega)
    rw [if_pos rfl, List.singleton_append, List.head?_cons, if_pos rfl, List.tail_cons, hvalue,
      Option.bind_eq_bind, Option.bind_some, hopposite]
    rfl
  | false =>
    have hhead : magnitude.head? ≠ some '-' := by
      obtain ⟨c, rest, rfl⟩ := List.exists_cons_of_ne_nil hne
      have hc := hmagnitude c (.head _)
      rw [List.head?_cons, ne_eq, Option.some_inj]
      rintro rfl
      cases hc
    rw [if_neg Bool.false_ne_true, List.nil_append, if_neg hhead, hvalue, Option.bind_eq_bind,
      Option.bind_some]
    rfl

/-- What is generated of a decimal can be read: its digits are digits, and its exponent is a word
that has an opposite. -/
structure IsReadable (d : Decimal) : Prop where
  digits : HasDigits d
  low : -0x80000000 < d.exponent
  high : d.exponent < 0x80000000

theorem isReadable_rounded {m : Nat} (hm : m < Binary64.infinity) (count : Nat) :
  IsReadable (.rounded count (Binary64.absolute m))
  := by
  have hbounds := Decimal.exponent_rounded_bounds hm count
  exact ⟨hasDigits_rounded count _, by omega, by omega⟩

theorem isReadable_shortest {m : Nat} (hm : m < Binary64.infinity) :
  IsReadable (.shortest m)
  := by
  have hbounds := Decimal.exponent_shortest_bounds hm
  exact ⟨hasDigits_shortest m, by omega, by omega⟩

/-- The digits and the exponent are those of the text that they are generated as. -/
theorem readInWords?_generatedText (h : IsReadable d) :
  readInWords? (generatedText d) = some d
  := by
  have hlow := h.low
  have hhigh := h.high
  have hmantissa : ∀ c ∈ d.mantissa [], c ≠ 'e' := by
    intro c hc
    rcases mem_digits_of_mem_mantissa hc with hc | rfl
    · rintro rfl
      cases h.digits _ hc
    · decide
  have hnumeral : Nat.ofDigitChars 10 (Nat.toDigits 10 d.exponent.natAbs) 0 = d.exponent.natAbs :=
    Nat.ofDigitChars_ten_toDigits
  have hword : Nat.ofDigitChars 10 (Nat.toDigits 10 d.exponent.natAbs) 0 < 0x80000000 := by
    rw [hnumeral]
    omega
  have hread := readInWords?_append hmantissa Nat.toDigits_ne_nil
    (fun _ => isDigit_of_mem_numeral) hword (d.exponent < 0)
  have hvalue : (if d.exponent < 0 then -(d.exponent.natAbs : Int) else d.exponent.natAbs) =
      d.exponent := by
    split <;> omega
  simp only [hnumeral, decide_eq_true_eq, hvalue, filter_mantissa h.digits] at hread
  exact hread

/-- Digits are generated just if the precision is within the limit. -/
theorem decimal?_eq (h : IsReadable d) (precision : Nat) :
  decimal? precision d = if precision ≤ digitLimit then some d else none
  := by
  rw [decimal?, generate?]
  split
  · apply readInWords?_generatedText h
  · rfl

/-! ### Layouts -/

theorem positionalInWords?_eq (h : IsReadable d) :
  positionalInWords? d = some d.positional
  := by
  have hlow := h.low
  have hhigh := h.high
  rw [positionalInWords?, Decimal.positional, byteLength_of_digits h.digits]
  split
  · rw [word?_eq (by omega) (by omega)]
    simp only [Option.bind_eq_bind, Option.bind_some]
    rw [word?_eq (by omega) (by omega)]
    rfl
  · have hsize : UInt64.size = 0x10000000000000000 := rfl
    rw [plus?_eq (by omega)]
    simp only [Option.bind_eq_bind, Option.bind_some]
    split
    · rfl
    · next hlong =>
      have hlength : byteLength (d.digits.take (d.exponent.toNat + 1)) = d.exponent.toNat + 1 := by
        rw [byteLength_of_digits fun c hc => h.digits c (List.mem_of_mem_take hc),
          List.length_take]
        omega
      have hstart : At d.digits 0
          (d.digits.take (d.exponent.toNat + 1) ++ d.digits.drop (d.exponent.toNat + 1)) := by
        rw [List.take_append_drop]
        apply At.zero
      have hfront := hstart.slice?_eq
      have hback := hstart.advance.textFrom?_eq
      rw [hlength, Nat.zero_add] at hfront hback
      rw [hfront, hback]
      rfl

theorem mantissa?_eq (h : HasDigits d) (lone : List Char) :
  mantissa? d lone = some (d.mantissa lone)
  := by
  rw [mantissa?, Decimal.mantissa, byteLength_of_digits h]
  rcases hdigits : d.digits with _ | ⟨c, rest⟩
  · rfl
  · have hc : byteLength [c] = 1 := by
      apply byteLength_of_digits
      intro c' hc'
      apply h
      rw [hdigits, List.mem_singleton.mp hc']
      apply List.mem_cons_self
    have hsplit : min 1 (c :: rest).length = 1 := by
      rw [List.length_cons]
      omega
    have hfirst := textUpTo?_append [c] rest
    have hrest := textFrom?_append [c] rest
    rw [hc, List.singleton_append] at hfirst hrest
    rw [hsplit, hfirst, hrest]
    cases rest with
    | nil => rfl
    | cons c' rest => rfl

end BraceFormat.Guarded
