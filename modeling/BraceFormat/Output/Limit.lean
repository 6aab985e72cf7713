import BraceFormat.Output.Span

/-!
# Limits on output

A limit lets through a beginning of the text that passes it, of at most a given number of
bytes, and cuts it between two characters. It sees the text in parts; once it has cut one, it
lets nothing more through, so that what passes is always a beginning of the whole.
-/

namespace BraceFormat

/-- The number of bytes that may still pass; `none` is no limit. -/
abbrev Limit := Option Nat

namespace Limit

/-- Lets a text through: what passes, and the limit afterwards. -/
def passText : Limit → List Char → List Char × Limit
  | none, text => (text, none)
  | some room, text =>
    if byteLength text ≤ room then (text, some (room - byteLength text))
    else (fitting room text, some 0)

/-- Lets copies of a character through. -/
def passFill : Limit → Char → Nat → Nat × Limit
  | none, _, count => (count, none)
  | some room, c, count =>
    if count * c.utf8Size ≤ room then (count, some (room - count * c.utf8Size))
    else (room / c.utf8Size, some 0)

/-- Lets a span through. -/
def pass (limit : Limit) : Span → Span × Limit
  | .text chars => let (chars, limit) := limit.passText chars; (.text chars, limit)
  | .fill c count => let (count, limit) := limit.passFill c count; (.fill c count, limit)

/-- Lets output through, span by span. -/
def passAll (limit : Limit) : List Span → List Span × Limit
  | [] => ([], limit)
  | span :: spans =>
    let (span, limit) := limit.pass span
    let (spans, limit) := passAll limit spans
    (span :: spans, limit)

end Limit

end BraceFormat
