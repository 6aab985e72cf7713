import BraceFormat.Error
import BraceFormat.Text.ByteLength

/-!
# Argument ids and their numbering

An argument is referred to by a written id: a position, a name, or nothing at all, which
means the next position in order. The ids of one template are either all numbered or all
automatic. `Numbering` is the mode a template is in, and `Numbering.resolve` turns a written
id into a `Reference` and moves the mode on; names leave it as it is.
-/

namespace BraceFormat

/-- The number of argument positions that can be written. -/
def indexLimit : Nat := UInt64.size

/-- An argument id as it is written. -/
inductive ArgId where
  /-- Nothing written: the next argument in order. -/
  | auto
  /-- A position. -/
  | index (n : Nat)
  /-- A name. -/
  | name (text : List Char)
  deriving DecidableEq, Repr

/-- An argument that is referred to, by its position or by its name. -/
inductive Reference where
  | index (n : Nat)
  | name (text : List Char)
  deriving DecidableEq, Repr

namespace ArgId

/-- The characters a name may begin with. -/
def isNameStart (c : Char) : Bool := c.isAlpha || c = '_'

/-- The characters a name may go on with. -/
def isNameRest (c : Char) : Bool := c.isAlphanum || c = '_'

/-- The text of a written id. -/
def source : ArgId → List Char
  | .auto => []
  | .index n => Nat.toDigits 10 n
  | .name text => text

/-- Reads the id a text begins with, and gives what follows it. A position has no leading
zero and is below the limit; a text that begins in no other way has the empty id. Fails with
the byte at which an id is ill-formed: the digit after a leading zero, or the first digit of
a position that is too large. -/
def read : List Char → Except Nat (ArgId × List Char)
  | [] => .ok (.auto, [])
  | '0' :: rest =>
    if rest.head?.any Char.isDigit then .error 1 else .ok (.index 0, rest)
  | c :: rest =>
    if c.isDigit then
      let n := Nat.ofDigitChars 10 (c :: rest.takeWhile Char.isDigit) 0
      if n < indexLimit then .ok (.index n, rest.dropWhile Char.isDigit) else .error 0
    else if isNameStart c then
      .ok (.name (c :: rest.takeWhile isNameRest), rest.dropWhile isNameRest)
    else
      .ok (.auto, c :: rest)

/-- Reads an id and the closing brace after it. Fails with the byte at which the id is
ill-formed or the brace is missing. -/
def readClosed (text : List Char) : Except Nat (ArgId × List Char) :=
  match read text with
  | .error place => .error place
  | .ok (id, '}' :: rest) => .ok (id, rest)
  | .ok (id, _) => .error (byteLength id.source)

/-- What follows an id is no longer than the text it was read from. -/
theorem length_le_of_read {text rest : List Char} {id : ArgId} (h : read text = .ok (id, rest)) :
  rest.length ≤ text.length
  := by
  unfold read at h
  split at h
  · cases h
    simp
  · split at h <;> cases h
    simp
  · next c rest' _ =>
    have hdigits := (List.dropWhile_suffix Char.isDigit (l := rest')).length_le
    have hname := (List.dropWhile_suffix isNameRest (l := rest')).length_le
    split at h
    · dsimp only at h
      split at h <;> cases h
      simp only [List.length_cons]
      omega
    · split at h <;> cases h
      · simp only [List.length_cons]
        omega
      · simp

/-- What follows a closed id is shorter than the text it was read from. -/
theorem length_lt_of_readClosed {text rest : List Char} {id : ArgId}
    (h : readClosed text = .ok (id, rest)) :
  rest.length < text.length
  := by
  unfold readClosed at h
  split at h
  · contradiction
  · next hid =>
    have := length_le_of_read hid
    cases h
    simp only [List.length_cons] at this
    omega
  · contradiction

end ArgId

/-- How the arguments of a template have been numbered so far. The next position has no bound
here. Where it is a number of 64 bits that is not counted beyond the greatest one, the difference
takes a template of `2 ^ 64` bytes: an automatic id takes a byte of it at least. -/
inductive Numbering where
  /-- No numbered and no automatic id has occurred. -/
  | undecided
  /-- Automatic ids have occurred; `next` is the position of the next one. -/
  | automatic (next : Nat)
  /-- Numbered ids have occurred. -/
  | explicit
  deriving DecidableEq, Repr

namespace Numbering

/-- The next automatic position; a conflict among numbered ids. -/
def nextAuto : Numbering → Except ErrorKind (Nat × Numbering)
  | .undecided => .ok (0, .automatic 1)
  | .automatic next => .ok (next, .automatic (next + 1))
  | .explicit => .error .indexingConflict

/-- A numbered position; a conflict among automatic ids. -/
def useIndex (n : Nat) : Numbering → Except ErrorKind (Nat × Numbering)
  | .undecided => .ok (n, .explicit)
  | .automatic _ => .error .indexingConflict
  | .explicit => .ok (n, .explicit)

/-- The argument that a written id refers to, and the numbering after it. -/
def resolve (numbering : Numbering) : ArgId → Except ErrorKind (Reference × Numbering)
  | .auto => (numbering.nextAuto).map fun (n, after) => (.index n, after)
  | .index n => (numbering.useIndex n).map fun (n, after) => (.index n, after)
  | .name text => .ok (.name text, numbering)

end Numbering

end BraceFormat
