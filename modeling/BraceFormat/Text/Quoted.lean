import BraceFormat.Text.Hidden

/-!
# Quoted characters

A character in a record stands between single quotes. A quote, a backslash and the usual
control characters are escaped by a backslash and a letter, other characters that do not show
by their code in braces.
-/

namespace BraceFormat

/-- A character as it is written between quotes. -/
def escapedChar (c : Char) : List Char :=
  match c with
  | '\x00' => ['\\', '0']
  | '\t' => ['\\', 't']
  | '\n' => ['\\', 'n']
  | '\r' => ['\\', 'r']
  | '\'' => ['\\', '\'']
  | '\\' => ['\\', '\\']
  | c => if isHidden c then ['\\', 'u', '{'] ++ Nat.toDigits 16 c.toNat ++ ['}'] else [c]

/-- A character in quotes. -/
def quotedChar (c : Char) : String :=
  .ofList ('\'' :: escapedChar c ++ ['\''])

end BraceFormat
