import BraceFormat.Directive
import BraceFormat.Output.Span

/-!
# Renderings

A `Rendering` is the text of a value in two parts, a lead (the sign and the base marker) and a
body, together with the fill and the alignment that apply to it. `Rendering.spans` pads it to
a width, which counts characters.
-/

namespace BraceFormat

/-- Numbers of fill characters around the two parts of a rendering. -/
structure Padding where
  /-- In front of the lead. -/
  before : Nat
  /-- Between lead and body. -/
  inner : Nat
  /-- After the body. -/
  after : Nat
  deriving DecidableEq, Repr

/-- Distributes some fill characters as an alignment says. Of an odd number in the middle, the
odd one goes after. -/
def Padding.ofAlign (count : Nat) : Align → Padding
  | .left => ⟨0, 0, count⟩
  | .right => ⟨count, 0, 0⟩
  | .center => ⟨count / 2, 0, count - count / 2⟩
  | .numeric => ⟨0, count, 0⟩

/-- The text of a value, before padding. -/
structure Rendering where
  /-- The sign and the base marker of a number. -/
  lead : List Char
  /-- The digits of a number, or a text. -/
  body : List Char
  fill : Char
  align : Align
  deriving DecidableEq, Repr

namespace Rendering

/-- A rendering that is filled and aligned as a directive says, with an alignment that applies
if none is asked for. -/
def ofDirective (d : Directive) (default : Align) (lead body : List Char) : Rendering :=
  ⟨lead, body, d.fill, d.alignOr default⟩

/-- The rendering padded to a width. -/
def spans (r : Rendering) (width : Nat) : List Span :=
  if width = 0 then [.text r.lead, .text r.body]
  else
    let padding := Padding.ofAlign (width - (r.lead.length + r.body.length)) r.align
    [.fill r.fill padding.before, .text r.lead, .fill r.fill padding.inner, .text r.body,
      .fill r.fill padding.after]

end Rendering

end BraceFormat
