import BraceFormat.Proofs.Utf8.Sequences

/-!
# Text from bytes

Bytes that are not the bytes of a text are converted to text all the same, with replacement
characters for what is no character. Where no character starts, the longest run is replaced with
which one could have started, or else a single byte, and the conversion goes on behind it.
`Converts` says which text this is, without an automaton; the automaton gives it
(`converts_iff`). Bytes of a text are converted to this text (`Converts.encode`).

The automaton is followed with the bytes that it has read since the last character. It awaits
exactly those bytes that complete them (`Awaits`).
-/

namespace BraceFormat.Utf8

/-! ### Conversion with replacement -/

/-- Bytes that a character starts with, or all of its bytes. -/
def BeginsChar (bytes : List UInt8) : Prop :=
  ∃ c, bytes <+: String.utf8EncodeChar c

/-- Bytes at which no character starts are ill-formed in front of others as far as a character
could have started, and at least the first of them is. -/
structure IsMaximalSubpart (ill rest : List UInt8) : Prop where
  ne_nil : ill ≠ []
  not_char : ∀ c, ¬String.utf8EncodeChar c <+: ill ++ rest
  begins : BeginsChar ill ∨ ill.length = 1
  longest : ∀ bytes, BeginsChar bytes → bytes <+: ill ++ rest → bytes.length ≤ ill.length

/-- Bytes are converted to a text from the first to the last. -/
inductive Converts : List UInt8 → List Char → Prop where
  | nil : Converts [] []
  | char {c : Char} {bytes : List UInt8} {text : List Char} (h : Converts bytes text) :
    Converts (String.utf8EncodeChar c ++ bytes) (c :: text)
  | replaced {ill bytes : List UInt8} {text : List Char} (hill : IsMaximalSubpart ill bytes)
      (h : Converts bytes text) :
    Converts (ill ++ bytes) (replacement :: text)

variable {c d : Char} {s bytes bytes' : List UInt8}

/-- Two characters that the same bytes start with are the same. -/
theorem eq_of_encode_append
    (h : String.utf8EncodeChar c ++ bytes = String.utf8EncodeChar d ++ bytes') :
  c = d
  := by
  have hfront : String.utf8EncodeChar d <+: String.utf8EncodeChar c ++ bytes :=
    ⟨bytes', h.symm⟩
  rcases List.prefix_or_prefix_of_prefix (List.prefix_append _ _) hfront with hcd | hdc
  · apply eq_of_prefix_encode hcd
  · exact (eq_of_prefix_encode hdc).symm

theorem IsMaximalSubpart.length_le {ill ill' : List UInt8} (h : IsMaximalSubpart ill bytes)
    (h' : IsMaximalSubpart ill' bytes') (heq : ill ++ bytes = ill' ++ bytes') :
  ill.length ≤ ill'.length
  := by
  rcases h.begins with hbegins | hone
  · apply h'.longest ill hbegins
    rw [← heq]
    apply List.prefix_append
  · rw [hone]
    apply List.length_pos_iff.mpr h'.ne_nil

/-- Only one front part of some bytes is ill-formed in front of the others. -/
theorem IsMaximalSubpart.unique {ill ill' : List UInt8} (h : IsMaximalSubpart ill bytes)
    (h' : IsMaximalSubpart ill' bytes') (heq : ill ++ bytes = ill' ++ bytes') :
  bytes = bytes'
  := by
  apply (List.append_inj heq _).2
  apply Nat.le_antisymm (h.length_le h' heq) (h'.length_le h heq.symm)

namespace Converts

variable {text : List Char}

theorem eq_nil (h : Converts [] text) :
  text = []
  := by
  generalize hbytes : ([] : List UInt8) = bytes at h
  cases h with
  | nil => rfl
  | char h => cases String.utf8EncodeChar_ne_nil (List.append_eq_nil_iff.mp hbytes.symm).1
  | replaced hill h => cases hill.ne_nil (List.append_eq_nil_iff.mp hbytes.symm).1

/-- A character that bytes start with is what they are converted to first. -/
theorem of_char (h : Converts (String.utf8EncodeChar c ++ bytes) text) :
  ∃ rest, text = c :: rest ∧ Converts bytes rest
  := by
  generalize hbytes : String.utf8EncodeChar c ++ bytes = all at h
  cases h with
  | nil => cases String.utf8EncodeChar_ne_nil (List.append_eq_nil_iff.mp hbytes).1
  | @char d bytes' rest h =>
    obtain rfl := eq_of_encode_append hbytes
    obtain rfl := List.append_cancel_left hbytes
    exact ⟨rest, rfl, h⟩
  | replaced hill h => cases hill.not_char c ⟨bytes, hbytes⟩

/-- What is ill-formed is converted to one replacement character. -/
theorem of_ill {ill : List UInt8} (hill : IsMaximalSubpart ill bytes)
    (h : Converts (ill ++ bytes) text) :
  ∃ rest, text = replacement :: rest ∧ Converts bytes rest
  := by
  generalize hbytes : ill ++ bytes = all at h
  cases h with
  | nil => cases hill.ne_nil (List.append_eq_nil_iff.mp hbytes).1
  | @char d bytes' rest h => cases hill.not_char d ⟨bytes', hbytes.symm⟩
  | @replaced ill' bytes' rest hill' h =>
    obtain rfl := hill.unique hill' hbytes
    exact ⟨rest, rfl, h⟩

/-- Bytes are converted to one text only. -/
theorem unique {text' : List Char} (h : Converts bytes text) (h' : Converts bytes text') :
  text = text'
  := by
  induction h generalizing text' with
  | nil => exact h'.eq_nil.symm
  | char _ ih =>
    obtain ⟨rest, rfl, hrest⟩ := h'.of_char
    rw [ih hrest]
  | replaced hill _ ih =>
    obtain ⟨rest, rfl, hrest⟩ := h'.of_ill hill
    rw [ih hrest]

/-- The bytes of a text are converted to the text. -/
theorem encode (text : List Char) :
  Converts (Utf8.encode text) text
  := by
  induction text with
  | nil => exact .nil
  | cons c text ih => exact .char ih

end Converts

/-! ### The automaton -/

/-- After bytes `s` of a character, the automaton awaits those that complete them. -/
structure Awaits (s : List UInt8) (due : Nat) (low high : UInt8) (code : Nat) : Prop where
  pos : 0 < due
  le : low ≤ high
  completes : ∀ {t}, Continues due low high t → ∃ c, String.utf8EncodeChar c = s ++ t
  completed : ∀ {c t}, String.utf8EncodeChar c = s ++ t →
    Continues due low high t ∧ gathered code t = c.toNat

theorem awaits_lead {b : UInt8} {due : Nat} {low high : UInt8} {code : Nat}
    (h : begin b = ([], .within due low high code)) :
  Awaits [b] due low high code
  := by
  obtain ⟨hpos, hle⟩ := pos_of_begin h
  refine ⟨hpos, hle, fun ht => encode_of_begin h ht, ?_⟩
  intro c t hbytes
  obtain ⟨hbegin, _⟩ | ⟨due', low', high', code', hbegin, ht, hcode⟩ := begin_of_encode hbytes
  · cases h.symm.trans hbegin
  · cases h.symm.trans hbegin
    exact ⟨ht, hcode⟩

namespace Awaits

variable {due : Nat} {low high : UInt8} {code : Nat} {b : UInt8}

/-- The next byte takes its part in the code. -/
theorem step (h : Awaits s due low high code) (hdue : 1 < due) (hb : low ≤ b ∧ b ≤ high) :
  Awaits (s ++ [b]) (due - 1) 0x80 0xBF (code * 64 + (b.toNat - 0x80))
  := by
  refine ⟨Nat.sub_pos_of_lt hdue, by decide, ?_, ?_⟩
  · intro t ht
    obtain ⟨c, hc⟩ := h.completes (t := b :: t) ⟨h.pos, hb.1, hb.2, ht⟩
    exact ⟨c, by rw [hc, List.append_assoc, List.singleton_append]⟩
  · intro c t hbytes
    rw [List.append_assoc, List.singleton_append] at hbytes
    obtain ⟨⟨_, _, _, ht⟩, hcode⟩ := h.completed hbytes
    rw [gathered_cons] at hcode
    exact ⟨ht, hcode⟩

/-- The last byte completes the character. -/
theorem encode_last (h : Awaits s due low high code) (hdue : due ≤ 1) (hb : low ≤ b ∧ b ≤ high) :
  String.utf8EncodeChar (Char.ofNat (code * 64 + (b.toNat - 0x80))) = s ++ [b]
  := by
  have hpos := h.pos
  obtain ⟨c, hc⟩ := h.completes (t := [b]) ⟨hpos, hb.1, hb.2, Nat.sub_eq_zero_of_le hdue⟩
  have hcode := (h.completed hc).2
  rw [gathered_cons, gathered, List.foldl_nil] at hcode
  rw [hcode, Char.ofNat_toNat, hc]

theorem beginsChar (h : Awaits s due low high code) :
  BeginsChar s
  := by
  obtain ⟨t, ht⟩ := exists_continues h.le due
  obtain ⟨c, hc⟩ := h.completes ht
  exact ⟨c, t, hc.symm⟩

/-- No more bytes are those of a character than the automaton has read, if the next one is not
among those that it awaits. -/
theorem length_le (h : Awaits s due low high code)
    (hbytes : ∀ b ∈ bytes.head?, ¬(low ≤ b ∧ b ≤ high)) {r : List UInt8} (hr : BeginsChar r)
    (hfront : r <+: s ++ bytes) :
  r.length ≤ s.length
  := by
  rcases List.prefix_or_prefix_of_prefix hfront (List.prefix_append s bytes) with hrs | hsr
  · apply hrs.length_le
  · obtain ⟨more, rfl⟩ := hsr
    obtain ⟨c, t, hc⟩ := hr
    cases more with
    | nil => exact Nat.le_of_eq (congrArg List.length (List.append_nil s))
    | cons b more =>
      rw [List.append_assoc, List.cons_append] at hc
      obtain ⟨⟨_, hlow, hhigh, _⟩, _⟩ := h.completed hc.symm
      rw [List.prefix_append_right_inj] at hfront
      obtain ⟨behind, rfl⟩ := hfront
      cases hbytes b rfl ⟨hlow, hhigh⟩

/-- What the automaton has read is ill-formed, if the next byte is not among those that it
awaits. -/
theorem isMaximalSubpart (h : Awaits s due low high code) (hne : s ≠ [])
    (hbytes : ∀ b ∈ bytes.head?, ¬(low ≤ b ∧ b ≤ high)) :
  IsMaximalSubpart s bytes
  := by
  have hlongest : ∀ r, BeginsChar r → r <+: s ++ bytes → r.length ≤ s.length :=
    fun r => h.length_le hbytes
  refine ⟨hne, ?_, .inl h.beginsChar, hlongest⟩
  intro c hc
  have hcs : String.utf8EncodeChar c <+: s := by
    apply List.prefix_of_prefix_length_le hc (List.prefix_append s bytes)
    apply hlongest _ ⟨c, List.prefix_rfl⟩ hc
  obtain ⟨t, ht⟩ := exists_continues h.le due
  obtain ⟨d, hd⟩ := h.completes ht
  -- The character would be complete already.
  obtain rfl : c = d := by
    apply eq_of_prefix_encode
    rw [hd]
    apply hcs.trans (List.prefix_append s t)
  have hpos := h.pos
  have hlength := hcs.length_le
  rw [hd, List.length_append, ht.length_eq] at hlength
  omega

end Awaits

/-- The bytes that the automaton has read since the last character. -/
def State.Holds : State → List UInt8 → Prop
  | .start, s => s = []
  | .within due low high code, s => s ≠ [] ∧ Awaits s due low high code

/-- A byte at which no character starts is ill-formed by itself. -/
theorem isMaximalSubpart_singleton {b : UInt8}
    (h : ∀ c t, String.utf8EncodeChar c ≠ b :: t) (bytes : List UInt8) :
  IsMaximalSubpart [b] bytes
  := by
  constructor
  · apply List.cons_ne_nil
  · rintro c ⟨t, hc⟩
    obtain ⟨x, more, hbytes⟩ := List.exists_cons_of_ne_nil (String.utf8EncodeChar_ne_nil (c := c))
    rw [hbytes] at hc
    cases hc
    exact h c more hbytes
  · exact .inr rfl
  · rintro r ⟨c, t, hc⟩ hfront
    cases r with
    | nil => apply Nat.zero_le
    | cons x r =>
      obtain ⟨rfl, _⟩ := List.cons_prefix_cons.mp hfront
      cases h c (r ++ t) hc.symm

/-- Between two characters, the next byte begins anew. -/
theorem converts_begin (b : UInt8) {bytes : List UInt8}
    (h : ∀ (state : State) s, state.Holds s → Converts (s ++ bytes) (state.decode bytes)) :
  Converts (b :: bytes) ((begin b).1 ++ (begin b).2.decode bytes)
  := by
  obtain ⟨c, hbegin, hc⟩ | ⟨hbegin, hnone⟩ | ⟨due, low, high, code, hbegin⟩ := begin_cases b
  · rw [hbegin, ← List.singleton_append, ← hc]
    exact .char (h .start [] rfl)
  · rw [hbegin, ← List.singleton_append]
    exact .replaced (isMaximalSubpart_singleton hnone bytes) (h .start [] rfl)
  · rw [hbegin]
    exact h (.within due low high code) [b] ⟨List.cons_ne_nil _ _, awaits_lead hbegin⟩

/-- The automaton converts what it has read since the last character, and what it reads then. -/
theorem State.converts_decode (state : State) (s bytes : List UInt8) (h : state.Holds s) :
  Converts (s ++ bytes) (state.decode bytes)
  := by
  induction bytes generalizing state s with
  | nil =>
    cases state with
    | start =>
      obtain rfl := h
      exact .nil
    | within due low high code =>
      obtain ⟨hne, hawaits⟩ := h
      have hill : IsMaximalSubpart s [] := hawaits.isMaximalSubpart hne (by rintro b ⟨⟩)
      exact .replaced hill .nil
  | cons b bytes ih =>
    cases state with
    | start =>
      obtain rfl := h
      exact converts_begin b ih
    | within due low high code =>
      obtain ⟨hne, hawaits⟩ := h
      have happend : s ++ b :: bytes = (s ++ [b]) ++ bytes := by
        rw [List.append_assoc, List.singleton_append]
      rw [decode, read]
      by_cases hb : low ≤ b ∧ b ≤ high
      · rw [if_pos hb, happend]
        dsimp only
        by_cases hdue : due ≤ 1
        · rw [if_pos hdue, ← hawaits.encode_last hdue hb]
          exact .char (ih .start [] rfl)
        · rw [if_neg hdue]
          refine ih (.within ..) (s ++ [b]) ⟨?_, hawaits.step (Nat.lt_of_not_le hdue) hb⟩
          apply List.append_ne_nil_of_left_ne_nil hne
      · rw [if_neg hb]
        have hill : IsMaximalSubpart s (b :: bytes) := by
          apply hawaits.isMaximalSubpart hne
          rintro _ ⟨⟩
          exact hb
        exact .replaced hill (converts_begin b ih)

/-- Bytes are converted to the text that the automaton gives, and to no other. -/
theorem converts_iff {text : List Char} :
  Converts bytes text ↔ decodeLossy bytes = text
  := by
  have h : Converts bytes (decodeLossy bytes) := State.start.converts_decode [] bytes rfl
  constructor
  · intro h'
    exact h.unique h'
  · rintro rfl
    exact h

end BraceFormat.Utf8
