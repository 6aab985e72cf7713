/-!
# UTF-8

`encode` writes a text as bytes. `decodeLossy` reads any bytes as text: well-formed
sequences give their characters, and each maximal run that begins a character without
completing it, like each byte that begins none, gives one replacement character `U+FFFD`.

The decoder is an automaton over the bytes. Between characters it is at the `start`;
within one it knows how many bytes are still due, in which range the next one has to lie,
and the bits gathered so far. The ranges exclude overlong forms, surrogates and values
above `U+10FFFF` at the earliest byte that gives them away.
-/

namespace BraceFormat.Utf8

/-- The bytes of a text. -/
def encode (text : List Char) : List UInt8 :=
  text.flatMap String.utf8EncodeChar

/-- The character that stands for bytes that are not text. -/
def replacement : Char := '\uFFFD'

/-- Where the decoder stands. -/
inductive State where
  /-- Between two characters. -/
  | start
  /-- Within a character: `due` bytes are to come, the next one between `low` and `high`,
  and `code` holds the bits of those before. -/
  | within (due : Nat) (low high : UInt8) (code : Nat)
  deriving DecidableEq, Repr

/-- Reads a byte between two characters: what it yields and where the decoder stands then. -/
def begin (b : UInt8) : List Char × State :=
  let code := b.toNat
  if code < 0x80 then ([Char.ofNat code], .start)
  else if code < 0xC2 then ([replacement], .start)
  else if code < 0xE0 then ([], .within 1 0x80 0xBF (code - 0xC0))
  else if code = 0xE0 then ([], .within 2 0xA0 0xBF 0)
  else if code = 0xED then ([], .within 2 0x80 0x9F 0xD)
  else if code < 0xF0 then ([], .within 2 0x80 0xBF (code - 0xE0))
  else if code = 0xF0 then ([], .within 3 0x90 0xBF 0)
  else if code < 0xF4 then ([], .within 3 0x80 0xBF (code - 0xF0))
  else if code = 0xF4 then ([], .within 3 0x80 0x8F 4)
  else ([replacement], .start)

/-- Reads a byte. One that does not continue the character begun ends it, and begins anew. -/
def State.read : State → UInt8 → List Char × State
  | .start, b => begin b
  | .within due low high code, b =>
    if low ≤ b ∧ b ≤ high then
      let code := code * 64 + (b.toNat - 0x80)
      if due ≤ 1 then ([Char.ofNat code], .start) else ([], .within (due - 1) 0x80 0xBF code)
    else
      let (text, state) := begin b
      (replacement :: text, state)

/-- Reads the remaining bytes from a given state. -/
def State.decode : State → List UInt8 → List Char
  | .start, [] => []
  | .within .., [] => [replacement]
  | state, b :: bytes =>
    let (text, state) := state.read b
    text ++ state.decode bytes

/-- The text of some bytes, with `U+FFFD` for what is not text. -/
def decodeLossy (bytes : List UInt8) : List Char :=
  State.start.decode bytes

end BraceFormat.Utf8
