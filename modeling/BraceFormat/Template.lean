import BraceFormat.Numbering

/-!
# Templates

A template is a sequence of pieces: runs of literal text, doubled braces that stand for one,
and replacement fields `{id}` or `{id:specifier}`. Within a specifier braces come in pairs.

`Template.read` splits a text into its pieces, up to the byte at which it stops being a
template, if it does. Every piece has a `source`, the text it was read from, so the place of a
piece is the length of the sources before it. The reading asks nothing of the arguments.
-/

namespace BraceFormat

/-- A piece of a template. -/
inductive Piece where
  /-- Text to copy. -/
  | literal (text : List Char)
  /-- A doubled brace, which stands for one. -/
  | brace (c : Char)
  /-- A replacement field: the id of its argument, and its specifier if a colon is written. -/
  | field (id : ArgId) (spec : Option (List Char))
  deriving DecidableEq, Repr

namespace Piece

/-- The text a piece is read from. -/
def source : Piece → List Char
  | .literal text => text
  | .brace c => [c, c]
  | .field id none => '{' :: id.source ++ ['}']
  | .field id (some spec) => '{' :: id.source ++ ':' :: spec ++ ['}']

/-- The specifier of a field with a given id starts this many bytes after the field does. -/
def specOffset (id : ArgId) (spec : Option (List Char)) : Nat :=
  1 + byteLength id.source + if spec.isSome then 1 else 0

/-- Whether a character is a brace. -/
def isBrace (c : Char) : Bool := c = '{' || c = '}'

/-- The number of open pairs after a character. -/
def nesting (depth : Nat) (c : Char) : Nat :=
  if c = '{' then depth + 1 else if c = '}' then depth - 1 else depth

/-- Splits a text at the brace that closes what is open, with `depth` pairs opened within it.
There may be none. -/
def splitClosing (depth : Nat) : List Char → Option (List Char × List Char)
  | [] => none
  | c :: rest =>
    if c = '}' ∧ depth = 0 then some ([], rest)
    else (splitClosing (nesting depth c) rest).map fun (spec, after) => (c :: spec, after)

/-- Reads a field from what follows its opening brace. Fails with the byte, counted from that
brace, at which it is ill-formed; a field without end is so at its opening brace. -/
def readField (text : List Char) : Except Nat (Piece × List Char) :=
  match ArgId.read text with
  | .error place => .error (1 + place)
  | .ok (_, []) => .error 0
  | .ok (id, '}' :: rest) => .ok (.field id none, rest)
  | .ok (id, ':' :: rest) =>
    match splitClosing 0 rest with
    | some (spec, after) => .ok (.field id (some spec), after)
    | none => .error 0
  | .ok (id, _) => .error (1 + byteLength id.source)

/-- Reads the piece a text begins with, and gives what follows it. Fails with the byte at
which the piece is ill-formed. -/
def read : List Char → Except Nat (Piece × List Char)
  | '{' :: '{' :: rest => .ok (.brace '{', rest)
  | '}' :: '}' :: rest => .ok (.brace '}', rest)
  | '}' :: _ => .error 0
  | '{' :: rest => readField rest
  | text => .ok (.literal (text.takeWhile (!isBrace ·)), text.dropWhile (!isBrace ·))

end Piece

/-- The pieces of a template, and the byte at which the text stops being a template, if it
does. -/
structure Template where
  /-- The pieces before the fault. -/
  pieces : List Piece
  /-- Where the fault is. -/
  fault : Option Nat
  deriving DecidableEq, Repr

namespace Template

/-- The template with a piece put in front. -/
def cons (piece : Piece) (template : Template) : Template :=
  ⟨piece :: template.pieces, template.fault.map (byteLength piece.source + ·)⟩

/-! ### Every piece takes something -/

private theorem splitClosing_length {depth : Nat} {text spec rest : List Char}
    (h : Piece.splitClosing depth text = some (spec, rest)) :
  rest.length < text.length
  := by
  induction text generalizing depth spec with
  | nil => simp [Piece.splitClosing] at h
  | cons c text ih =>
    unfold Piece.splitClosing at h
    split at h
    · cases h
      simp
    · obtain ⟨⟨spec', rest'⟩, h', heq⟩ := Option.map_eq_some_iff.1 h
      cases heq
      exact Nat.lt_succ_of_lt (ih h')

private theorem readField_length {text rest : List Char} {piece : Piece}
    (h : Piece.readField text = .ok (piece, rest)) :
  rest.length < text.length + 1
  := by
  unfold Piece.readField at h
  split at h
  · contradiction
  · contradiction
  · next hid =>
    have := ArgId.length_le_of_read hid
    cases h
    simp only [List.length_cons] at this
    omega
  · next hid =>
    have := ArgId.length_le_of_read hid
    split at h <;> cases h
    next hspec =>
    have := splitClosing_length hspec
    simp only [List.length_cons] at *
    omega
  · contradiction

/-- What follows a piece is shorter than the text it was read from. -/
theorem length_lt_of_read {text rest : List Char} {piece : Piece} (hne : text ≠ [])
    (h : Piece.read text = .ok (piece, rest)) :
  rest.length < text.length
  := by
  unfold Piece.read at h
  split at h
  · cases h
    simp only [List.length_cons]
    omega
  · cases h
    simp only [List.length_cons]
    omega
  · contradiction
  · exact readField_length h
  · next hclose hopen =>
    cases h
    match text, hne with
    | c :: text, _ =>
      have hc : Piece.isBrace c = false := by
        simp only [Piece.isBrace, Bool.or_eq_false_iff, decide_eq_false_iff_not]
        exact ⟨fun he => hopen text (he ▸ rfl), fun he => hclose text (he ▸ rfl)⟩
      rw [List.dropWhile_cons_of_pos (by simp [hc])]
      have := (List.dropWhile_suffix (!Piece.isBrace ·) (l := text)).length_le
      simp only [List.length_cons]
      omega

/-- Splits a text into the pieces of a template. -/
def read (text : List Char) : Template :=
  if _hne : text = [] then ⟨[], none⟩
  else
    match _h : Piece.read text with
    | .error place => ⟨[], some place⟩
    | .ok (piece, rest) => (read rest).cons piece
termination_by text.length
decreasing_by exact length_lt_of_read _hne _h

end Template

end BraceFormat
