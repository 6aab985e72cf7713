import BraceFormat.Numbering
import BraceFormat.Proofs.Numeral

/-!
# Reading argument ids

`ArgId.WellFormed` says which ids can be written: a position below the limit, or a name of
letters, digits and underscores that begins with no digit. Such an id is read back from its
source (`ArgId.read_source`), and whatever id is read was written in front of what follows
(`ArgId.source_of_read`).
-/

namespace BraceFormat.ArgId

/-- The ids that can be written. -/
def WellFormed : ArgId → Prop
  | .auto => True
  | .index n => n < indexLimit
  | .name [] => False
  | .name (c :: rest) => isNameStart c = true ∧ ∀ d ∈ rest, isNameRest d = true

theorem isAlpha_iff_toNat {c : Char} :
  c.isAlpha = true ↔
    'A'.toNat ≤ c.toNat ∧ c.toNat ≤ 'Z'.toNat ∨ 'a'.toNat ≤ c.toNat ∧ c.toNat ≤ 'z'.toNat
  := by
  change (decide ('A'.val ≤ c.val ∧ c.val ≤ 'Z'.val) ||
    (decide ('a'.val ≤ c.val) && decide (c.val ≤ 'z'.val))) = true ↔ _
  rw [Bool.or_eq_true, Bool.and_eq_true]
  simp only [decide_eq_true_iff, UInt32.le_iff_toNat_le, Char.toNat_val]

theorem isNameRest_of_isDigit {c : Char} (h : c.isDigit = true) :
  isNameRest c = true
  := by
  simp [isNameRest, Char.isAlphanum, h]

theorem isNameRest_of_isNameStart {c : Char} (h : isNameStart c = true) :
  isNameRest c = true
  := by
  simp only [isNameStart, Bool.or_eq_true, decide_eq_true_eq] at h
  simp only [isNameRest, Char.isAlphanum, Bool.or_eq_true, decide_eq_true_eq]
  rcases h with h | h
  · left
    left
    apply h
  · right
    apply h

theorem isDigit_of_isNameStart {c : Char} (h : isNameStart c = true) :
  c.isDigit = false
  := by
  rw [← Bool.not_eq_true, Char.isDigit_iff_toNat]
  rintro ⟨hlow, hhigh⟩
  simp only [isNameStart, isAlpha_iff_toNat, Bool.or_eq_true, decide_eq_true_eq] at h
  have hnine : '9'.toNat = 57 := rfl
  have hA : 'A'.toNat = 65 := rfl
  have ha : 'a'.toNat = 97 := rfl
  rcases h with (⟨h, _⟩ | ⟨h, _⟩) | rfl
  · omega
  · omega
  · have : '_'.toNat = 95 := rfl
    omega

/-- A text that neither digits nor names begin with has the empty id. -/
theorem read_of_stops {rest : List Char} (h : Stops isNameRest rest) :
  read rest = .ok (.auto, rest)
  := by
  cases rest with
  | nil => rfl
  | cons c rest =>
    have hrest : isNameRest c = false := h c rfl
    have hdigit : c.isDigit = false := by
      apply Bool.eq_false_iff.mpr
      intro hc
      rw [isNameRest_of_isDigit hc] at hrest
      cases hrest
    have hstart : isNameStart c = false := by
      apply Bool.eq_false_iff.mpr
      intro hc
      rw [isNameRest_of_isNameStart hc] at hrest
      cases hrest
    rw [read]
    · rw [if_neg (by rw [hdigit]; apply Bool.false_ne_true),
        if_neg (by rw [hstart]; apply Bool.false_ne_true)]
    · rintro rfl
      cases hdigit

/-- A well-formed id is read back from its source, in front of a text that does not go on
with it. -/
theorem read_source {id : ArgId} (hid : id.WellFormed) {rest : List Char}
    (hrest : Stops isNameRest rest) :
  read (id.source ++ rest) = .ok (id, rest)
  := by
  have hstops : Stops Char.isDigit rest := hrest.mono fun c => isNameRest_of_isDigit
  cases id with
  | auto => apply read_of_stops hrest
  | index n =>
    obtain ⟨c, digits, hn, hc, hzero⟩ := numeral_eq_cons n
    have hdigits : ∀ d ∈ digits, d.isDigit = true := by
      intro d hd
      apply isDigit_of_mem_numeral (n := n)
      rw [hn]
      apply List.mem_cons_of_mem _ hd
    rw [source, hn, List.cons_append]
    by_cases h0 : c = '0'
    · obtain rfl := h0
      obtain rfl := hzero rfl
      rw [Nat.toDigits_zero, List.cons.injEq] at hn
      have hany : rest.head?.any Char.isDigit = false := by
        cases rest with
        | nil => rfl
        | cons d rest => exact hstops d rfl
      rw [← hn.2, List.nil_append, read, hany, if_neg Bool.false_ne_true]
    · have hvalue : Nat.ofDigitChars 10 (c :: digits) 0 = n := by
        rw [← hn, Nat.ofDigitChars_ten_toDigits]
      rw [read, if_pos hc, takeWhile_append_of_stops hdigits hstops,
        dropWhile_append_of_stops hdigits hstops, hvalue]
      · exact if_pos hid
      · apply h0
  | name text =>
    obtain _ | ⟨c, name⟩ := text
    · cases hid
    · obtain ⟨hstart, hname⟩ := hid
      have hdigit := isDigit_of_isNameStart hstart
      rw [source, List.cons_append, read, if_neg (by rw [hdigit]; apply Bool.false_ne_true),
        if_pos hstart, takeWhile_append_of_stops hname hrest,
        dropWhile_append_of_stops hname hrest]
      rintro rfl
      cases hdigit

/-- An id that is read was written, in a well-formed way, in front of what follows. -/
theorem source_of_read {text rest : List Char} {id : ArgId} (h : read text = .ok (id, rest)) :
  text = id.source ++ rest ∧ id.WellFormed
  := by
  cases text with
  | nil =>
    cases h
    exact ⟨rfl, trivial⟩
  | cons c text =>
    by_cases h0 : c = '0'
    · obtain rfl := h0
      rw [read] at h
      split at h <;> cases h
      constructor
      · rw [source, Nat.toDigits_zero]
        rfl
      · change 0 < UInt64.size
        decide
    · rw [read] at h
      · split at h
        · next hc =>
          dsimp only at h
          split at h <;> cases h
          next hlimit =>
          refine ⟨?_, hlimit⟩
          rw [source, numeral_of_digits hc h0 fun d => mem_takeWhile, List.cons_append,
            List.takeWhile_append_dropWhile]
        · split at h <;> cases h
          · next hstart =>
            refine ⟨?_, hstart, fun d => mem_takeWhile⟩
            rw [source, List.cons_append, List.takeWhile_append_dropWhile]
          · exact ⟨rfl, trivial⟩
      · apply h0

/-- A well-formed id and a closing brace are read back from their text. -/
theorem readClosed_source {id : ArgId} (hid : id.WellFormed) (rest : List Char) :
  readClosed (id.source ++ '}' :: rest) = .ok (id, rest)
  := by
  rw [readClosed, read_source hid (Stops.cons (by decide))]
  rfl

/-- An id and a closing brace that are read were written in front of what follows. -/
theorem source_of_readClosed {text rest : List Char} {id : ArgId}
    (h : readClosed text = .ok (id, rest)) :
  text = id.source ++ '}' :: rest ∧ id.WellFormed
  := by
  rw [readClosed] at h
  split at h
  · cases h
  · next hread =>
    cases h
    apply source_of_read hread
  · cases h

end BraceFormat.ArgId
