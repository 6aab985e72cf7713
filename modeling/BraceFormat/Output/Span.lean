import BraceFormat.Text.ByteLength

/-!
# Spans of output

Output is a list of spans, each either text or a number of copies of one character. Copies
are kept apart from text because there may be billions of them, while a destination that
only counts needs no more than their number.
-/

namespace BraceFormat

/-- A stretch of output. -/
inductive Span where
  /-- Text. -/
  | text (chars : List Char)
  /-- A number of copies of a character. -/
  | fill (c : Char) (count : Nat)
  deriving DecidableEq, Repr

/-- The text of a span. -/
def Span.toList : Span → List Char
  | .text chars => chars
  | .fill c count => List.replicate count c

/-- The text of some output. -/
def outputText (spans : List Span) : List Char :=
  spans.flatMap Span.toList

@[simp] theorem outputText_nil :
  outputText [] = []
  := rfl

@[simp] theorem outputText_cons (span : Span) (spans : List Span) :
  outputText (span :: spans) = span.toList ++ outputText spans
  := rfl

@[simp] theorem outputText_append (s t : List Span) :
  outputText (s ++ t) = outputText s ++ outputText t
  := by
  simp [outputText]

end BraceFormat
