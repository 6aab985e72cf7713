import BraceFormat.Numbering

/-!
# References within a specifier

A specifier that is read by a handler of the host may hold references `{id}` anywhere.
`SpecParts.read` splits it into the text between them and the references, up to the byte at
which a reference is ill-formed, if one is.
-/

namespace BraceFormat

/-- A part of a specifier: text, or a reference to an argument. -/
inductive SpecPart where
  /-- Text without an opening brace. -/
  | literal (text : List Char)
  /-- A reference in braces. -/
  | reference (id : ArgId)
  deriving DecidableEq, Repr

/-- The text a part is read from. -/
def SpecPart.source : SpecPart → List Char
  | .literal text => text
  | .reference id => '{' :: id.source ++ ['}']

/-- A specifier in parts, and the byte at which a reference is ill-formed, if one is. -/
structure SpecParts where
  /-- The parts before the fault. -/
  parts : List SpecPart
  /-- Where the fault is. -/
  fault : Option Nat
  deriving DecidableEq, Repr

namespace SpecParts

/-- The specifier with a part put in front. -/
def cons (part : SpecPart) (spec : SpecParts) : SpecParts :=
  ⟨part :: spec.parts, spec.fault.map (byteLength part.source + ·)⟩

/-- Splits a text into text between references and references. -/
def read (text : List Char) : SpecParts :=
  match _h : text.dropWhile (· ≠ '{') with
  | [] => ⟨[.literal text], none⟩
  | _ :: rest =>
    cons (.literal (text.takeWhile (· ≠ '{'))) <|
      match _hid : ArgId.readClosed rest with
      | .error place => ⟨[], some (1 + place)⟩
      | .ok (id, after) => (read after).cons (.reference id)
termination_by text.length
decreasing_by
  have hrest := (List.dropWhile_suffix (· ≠ '{') (l := text)).length_le
  have hafter := ArgId.length_lt_of_readClosed _hid
  simp only [_h, List.length_cons] at hrest
  omega

end SpecParts

end BraceFormat
