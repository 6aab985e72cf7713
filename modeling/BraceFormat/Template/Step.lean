import BraceFormat.Template

/-!
# Steps of a call

A call goes over its template piece by piece. At each piece it takes a `Step`: it copies text,
or it puts out the argument that the id of a field refers to. The numbering of the arguments
moves on from step to step.

A `Cursor` takes the steps one at a time. A step that fails leaves the cursor and the
numbering where they are.
-/

namespace BraceFormat

/-- A replacement field whose argument is numbered. -/
structure Field where
  argument : Reference
  /-- The specifier, which is empty if none is written. -/
  spec : List Char
  /-- The byte of the opening brace. -/
  start : Nat
  /-- The byte at which the specifier starts, or would. -/
  specStart : Nat
  deriving DecidableEq, Repr

/-- What a call does at a piece of its template. -/
inductive Step where
  /-- It copies text. -/
  | copy (text : List Char)
  /-- It puts out an argument. -/
  | put (field : Field)
  deriving DecidableEq, Repr

/-- The step at a piece that starts at byte `start`, and the numbering after it. Fails if the
id of a field is in conflict with the numbering. -/
def Piece.step (start : Nat) (numbering : Numbering) :
    Piece → Except FormatError (Step × Numbering)
  | .literal text => .ok (.copy text, numbering)
  | .brace c => .ok (.copy [c], numbering)
  | .field id spec =>
    match numbering.resolve id with
    | .error kind => .error (.located kind start)
    | .ok (argument, numbering) =>
      .ok (.put ⟨argument, spec.getD [], start, start + specOffset id spec⟩, numbering)

/-- A cursor over a template. -/
structure Cursor where
  /-- What lies ahead. -/
  ahead : List Piece
  /-- Where the template is at fault, if it is. -/
  fault : Option Nat
  /-- The byte the cursor is at. -/
  position : Nat
  deriving DecidableEq, Repr

namespace Cursor

/-- The cursor at the start of a template. -/
def ofTemplate (template : Template) : Cursor := ⟨template.pieces, template.fault, 0⟩

/-- Takes the next step, if there is one, and numbers its argument. An error leaves the cursor
and the numbering where they are. -/
def next (cursor : Cursor) (numbering : Numbering) :
    Except FormatError (Option Step) × Cursor × Numbering :=
  match cursor.ahead with
  | [] =>
    match cursor.fault with
    | none => (.ok none, cursor, numbering)
    | some place => (.error (.located .malformedTemplate place), cursor, numbering)
  | piece :: ahead =>
    match piece.step cursor.position numbering with
    | .error e => (.error e, cursor, numbering)
    | .ok (step, after) =>
      let position := cursor.position + byteLength piece.source
      (.ok (some step), { cursor with ahead, position }, after)

end Cursor

end BraceFormat
