import BraceFormat.Output.Limit
import BraceFormat.Proofs.Guarded.Bytes
import BraceFormat.Rendering.Text

/-!
# Guarded cutting of text

A text is cut to a number of bytes by going back from there to a place between two characters.
There is one at the start of the text at the latest, so the place never gets negative, and
what is in front of it is what fits (`truncate?_eq`).
-/

namespace BraceFormat.Guarded

/-- Goes back from a place to one between two characters. -/
def floor? (text : List Char) (place : Nat) : Option Nat :=
  if (textFrom? text place).isSome then some place
  else
    match place with
    | 0 => none
    | place + 1 => floor? text place

/-- A text cut to a number of bytes, if there is one. -/
def truncate? (limit : Option Nat) (text : List Char) : Option (List Char) :=
  match limit with
  | none => some text
  | some limit =>
    if limit < byteLength text then do
      let stop ← floor? text limit
      slice? text 0 stop
    else some text

/-- Lets a text through a limit: what passes, and the limit afterwards. -/
def passText? (limit : Limit) (text : List Char) : Option (List Char × Limit) :=
  match limit with
  | none => some (text, none)
  | some room =>
    if byteLength text ≤ room then do
      let left ← minus? room (byteLength text)
      return (text, some left)
    else do
      let kept ← truncate? (some room) text
      return (kept, some 0)

variable {text : List Char}

/-- A place between two characters is the end of a beginning of the text. -/
theorem isSome_textFrom?_iff {place : Nat} :
  (textFrom? text place).isSome = true ↔ ∃ s, s <+: text ∧ byteLength s = place
  := by
  rw [Option.isSome_iff_exists]
  simp only [textFrom?_eq_some_iff, At]
  constructor
  · rintro ⟨rest, front, rfl, hfront⟩
    exact ⟨front, List.prefix_append front rest, hfront⟩
  · rintro ⟨front, ⟨rest, rfl⟩, hfront⟩
    exact ⟨rest, front, rfl, hfront⟩

/-- Going back ends where what fits does. -/
theorem floor?_eq (text : List Char) (place : Nat) :
  floor? text place = some (byteLength (fitting place text))
  := by
  induction place with
  | zero =>
    rw [fitting_zero, floor?, textFrom?]
    rfl
  | succ place ih =>
    have hle := byteLength_fitting_le (place + 1) text
    rw [floor?]
    by_cases hplace : (textFrom? text (place + 1)).isSome = true
    · obtain ⟨s, hs, hsize⟩ := isSome_textFrom?_iff.mp hplace
      have hge := byteLength_le_fitting hs (Nat.le_of_eq hsize)
      rw [if_pos hplace]
      exact congrArg some (by omega)
    · -- What fits ends in front of the place, and so fits within one byte less.
      have hne : byteLength (fitting (place + 1) text) ≠ place + 1 := by
        intro hsize
        apply hplace
        rw [isSome_textFrom?_iff]
        exact ⟨_, fitting_prefix_self _ _, hsize⟩
      have hge : byteLength (fitting (place + 1) text) ≤ byteLength (fitting place text) := by
        apply byteLength_le_fitting (fitting_prefix_self _ _)
        omega
      have hle' : byteLength (fitting place text) ≤ byteLength (fitting (place + 1) text) := by
        apply byteLength_le_fitting (fitting_prefix_self _ _)
        apply Nat.le_succ_of_le (byteLength_fitting_le place text)
      rw [if_neg hplace, ih]
      exact congrArg some (by omega)

/-- No guard is breached in cutting a text. -/
theorem truncate?_eq (limit : Option Nat) (text : List Char) :
  truncate? limit text = some (truncated limit text)
  := by
  cases limit with
  | none => rfl
  | some limit =>
    rw [truncate?, truncated]
    split
    · obtain ⟨rest, hrest⟩ := fitting_prefix_self limit text
      have hslice : slice? text 0 (0 + byteLength (fitting limit text)) =
          some (fitting limit text) := by
        apply At.slice?_eq
        rw [hrest]
        apply At.zero
      rw [Nat.zero_add] at hslice
      simp only [floor?_eq, Option.bind_eq_bind, Option.bind_some, hslice]
    · next hle =>
      rw [fitting_of_byteLength_le (by omega)]

/-- No guard is breached at a limit. -/
theorem passText?_eq (limit : Limit) (text : List Char) :
  passText? limit text = some (limit.passText text)
  := by
  cases limit with
  | none => rfl
  | some room =>
    rw [passText?, Limit.passText]
    split
    · next hle =>
      rw [minus?_eq hle]
      rfl
    · rw [truncate?_eq]
      rfl

end BraceFormat.Guarded
