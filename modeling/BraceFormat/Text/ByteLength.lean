/-!
# Byte lengths

Text is a list of characters, and every offset and size counts the bytes of its UTF-8
form. `byteLength` is the measure, `fitting` the longest beginning of a text that keeps
within a number of bytes. No character is ever cut in two.
-/

namespace BraceFormat

/-- The number of bytes a text takes in UTF-8. -/
def byteLength : List Char → Nat
  | [] => 0
  | c :: text => c.utf8Size + byteLength text

@[simp] theorem byteLength_nil :
  byteLength [] = 0
  := rfl

@[simp] theorem byteLength_cons (c : Char) (text : List Char) :
  byteLength (c :: text) = c.utf8Size + byteLength text
  := rfl

@[simp] theorem byteLength_append (s t : List Char) :
  byteLength (s ++ t) = byteLength s + byteLength t
  := by
  induction s with
  | nil => simp
  | cons c s ih => simp [ih, Nat.add_assoc]

@[simp] theorem byteLength_replicate (n : Nat) (c : Char) :
  byteLength (List.replicate n c) = n * c.utf8Size
  := by
  induction n with
  | zero => simp
  | succ n ih => simp [List.replicate_succ, ih, Nat.succ_mul, Nat.add_comm]

/-- The longest beginning of a text that takes at most `limit` bytes. -/
def fitting : Nat → List Char → List Char
  | _, [] => []
  | limit, c :: text =>
    if c.utf8Size ≤ limit then c :: fitting (limit - c.utf8Size) text else []

/-- What fits within the limit keeps within it. -/
theorem byteLength_fitting_le (limit : Nat) (text : List Char) :
  byteLength (fitting limit text) ≤ limit
  := by
  induction text generalizing limit with
  | nil => simp [fitting]
  | cons c text ih =>
    unfold fitting
    split
    · have := ih (limit - c.utf8Size)
      simp only [byteLength_cons]
      omega
    · simp

/-- What fits is a beginning of the text. -/
theorem fitting_prefix_self (limit : Nat) (text : List Char) :
  fitting limit text <+: text
  := by
  induction text generalizing limit with
  | nil => simp [fitting]
  | cons c text ih =>
    unfold fitting
    split
    · exact List.cons_prefix_cons.2 ⟨rfl, ih _⟩
    · exact List.nil_prefix

/-- What fits is no longer than the text. -/
theorem byteLength_fitting_le_self (limit : Nat) (text : List Char) :
  byteLength (fitting limit text) ≤ byteLength text
  := by
  obtain ⟨rest, h⟩ := fitting_prefix_self limit text
  have := congrArg byteLength h
  rw [byteLength_append] at this
  omega

/-- A text within the limit fits as a whole. -/
theorem fitting_of_byteLength_le {limit : Nat} {text : List Char} (h : byteLength text ≤ limit) :
  fitting limit text = text
  := by
  induction text generalizing limit with
  | nil => rfl
  | cons c text ih =>
    simp only [byteLength_cons] at h
    unfold fitting
    rw [if_pos (by omega), ih (by omega)]

/-- What fits of two texts: as much of the second as the first one leaves room for, if the
first one fits as a whole. -/
theorem fitting_append (limit : Nat) (s t : List Char) :
  fitting limit (s ++ t) =
    if byteLength s ≤ limit then s ++ fitting (limit - byteLength s) t else fitting limit s
  := by
  induction s generalizing limit with
  | nil => simp
  | cons c s ih =>
    rw [List.cons_append, fitting, fitting, byteLength_cons]
    by_cases hc : c.utf8Size ≤ limit
    · rw [if_pos hc, if_pos hc, ih]
      by_cases hs : byteLength s ≤ limit - c.utf8Size
      · rw [if_pos hs, if_pos (by omega), Nat.sub_sub, List.cons_append]
      · rw [if_neg hs, if_neg (by omega)]
    · rw [if_neg hc, if_neg hc, if_neg (by omega)]

/-- A beginning of a text that keeps within a limit is no longer than what fits. -/
theorem byteLength_le_fitting {limit : Nat} {s text : List Char} (hs : s <+: text)
    (hlimit : byteLength s ≤ limit) :
  byteLength s ≤ byteLength (fitting limit text)
  := by
  obtain ⟨t, rfl⟩ := hs
  rw [fitting_append, if_pos hlimit, byteLength_append]
  apply Nat.le_add_right

/-- Nothing fits without room. -/
theorem fitting_zero (text : List Char) :
  fitting 0 text = []
  := by
  cases text with
  | nil => rfl
  | cons c text =>
    have := c.utf8Size_pos
    rw [fitting, if_neg (by omega)]

/-- As many copies of a character fit as the room holds. -/
theorem fitting_replicate (limit count : Nat) (c : Char) :
  fitting limit (List.replicate count c) = List.replicate (min count (limit / c.utf8Size)) c
  := by
  have hpos := c.utf8Size_pos
  induction count generalizing limit with
  | zero => simp [fitting]
  | succ count ih =>
    rw [List.replicate_succ, fitting]
    by_cases hc : c.utf8Size ≤ limit
    · have hdiv : limit / c.utf8Size = (limit - c.utf8Size) / c.utf8Size + 1 :=
        Nat.div_eq_sub_div hpos hc
      rw [if_pos hc, ih, hdiv, Nat.add_min_add_right, List.replicate_succ]
    · rw [if_neg hc, Nat.div_eq_of_lt (by omega), Nat.min_zero, List.replicate_zero]

end BraceFormat
