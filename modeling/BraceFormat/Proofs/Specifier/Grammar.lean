import BraceFormat.Proofs.ArgId
import BraceFormat.Specifier

/-!
# The grammar of specifiers

A `WrittenSpecifier` consists of the parts of a specifier as they are written, with the
digits of its numbers and the ids of its references. Its `source` is the text of the parts in
their order, and `WrittenSpecifier.WellFormed` says which parts can stand together.
-/

namespace BraceFormat

/-- The character of an alignment. -/
def Align.letter : Align → Char
  | .left => '<'
  | .right => '>'
  | .center => '^'
  | .numeric => '='

/-- The character of a sign mode. -/
def Sign.letter : Sign → Char
  | .minus => '-'
  | .plus => '+'
  | .space => ' '

/-- The character of a presentation. -/
def Presentation.letter : Presentation → Char
  | .string => 's'
  | .char => 'c'
  | .decimal => 'd'
  | .binary => 'b'
  | .binaryUpper => 'B'
  | .octal => 'o'
  | .hex => 'x'
  | .hexUpper => 'X'
  | .exponent => 'e'
  | .exponentUpper => 'E'
  | .fixed => 'f'
  | .fixedUpper => 'F'
  | .general => 'g'
  | .generalUpper => 'G'
  | .percent => '%'
  | .locale => 'n'
  | .pointer => 'p'

theorem Align.ofChar?_eq_some_iff {c : Char} {align : Align} :
  ofChar? c = some align ↔ c = align.letter
  := by
  constructor
  · intro h
    rw [ofChar?.eq_def] at h
    split at h <;> cases h <;> rfl
  · rintro rfl
    cases align <;> rfl

theorem Sign.ofChar?_eq_some_iff {c : Char} {sign : Sign} :
  ofChar? c = some sign ↔ c = sign.letter
  := by
  constructor
  · intro h
    rw [ofChar?.eq_def] at h
    split at h <;> cases h <;> rfl
  · rintro rfl
    cases sign <;> rfl

theorem Presentation.ofChar?_eq_some_iff {c : Char} {presentation : Presentation} :
  ofChar? c = some presentation ↔ c = presentation.letter
  := by
  constructor
  · intro h
    rw [ofChar?.eq_def] at h
    split at h <;> cases h <;> rfl
  · rintro rfl
    cases presentation <;> rfl

/-- Whether a character is an alignment. -/
def isAlign (c : Char) : Bool := (Align.ofChar? c).isSome

/-- Whether a character is a sign mode. -/
def isSign (c : Char) : Bool := (Sign.ofChar? c).isSome

/-- A width or precision as it is written. -/
inductive WrittenCount where
  /-- A run of digits. -/
  | digits (text : List Char)
  /-- A reference in braces. -/
  | reference (id : ArgId)
  deriving DecidableEq, Repr

namespace WrittenCount

/-- The text of a count. -/
def source : WrittenCount → List Char
  | .digits text => text
  | .reference id => '{' :: id.source ++ ['}']

/-- The text of a count, if there is one. -/
def source? : Option WrittenCount → List Char
  | none => []
  | some count => count.source

/-- The counts that can be written: one digit or more, of a number within the limit, or a
well-formed id. -/
def WellFormed : WrittenCount → Prop
  | .digits text =>
    text ≠ [] ∧ (∀ c ∈ text, c.isDigit = true) ∧ Nat.ofDigitChars 10 text 0 ≤ countLimit
  | .reference id => id.WellFormed

/-- The count that is read at byte `place`, and the numbering after it. -/
def number (place : Nat) (numbering : Numbering) :
    WrittenCount → Except ErrorKind (Count × Numbering)
  | .digits text => .ok (.literal (Nat.ofDigitChars 10 text 0), numbering)
  | .reference id =>
    (numbering.resolve id).map fun (argument, after) => (.argument argument place, after)

/-- The count that is read at byte `place`, if there is one, and the numbering after it. -/
def number? (place : Nat) (numbering : Numbering) :
    Option WrittenCount → Except ErrorKind (Option Count × Numbering)
  | none => .ok (none, numbering)
  | some count => (count.number place numbering).map fun (count, after) => (some count, after)

end WrittenCount

/-- The parts of a specifier as they are written. -/
structure WrittenSpecifier where
  fill : Option Char := none
  align : Option Align := none
  sign : Option Sign := none
  /-- The flag `#` is written. -/
  alternate : Bool := false
  /-- The flag `0` is written. -/
  zero : Bool := false
  width : Option WrittenCount := none
  precision : Option WrittenCount := none
  presentation : Option Presentation := none
  deriving DecidableEq, Repr

namespace WrittenSpecifier

/-- The text of the fill and the alignment. -/
def alignSource (s : WrittenSpecifier) : List Char :=
  s.fill.toList ++ (s.align.map Align.letter).toList

/-- The text of the sign mode. -/
def signSource (s : WrittenSpecifier) : List Char := (s.sign.map Sign.letter).toList

/-- The text of the flag `#`. -/
def alternateSource (s : WrittenSpecifier) : List Char := if s.alternate then ['#'] else []

/-- The text of the flag `0`. -/
def zeroSource (s : WrittenSpecifier) : List Char := if s.zero then ['0'] else []

/-- The text of the width. -/
def widthSource (s : WrittenSpecifier) : List Char := WrittenCount.source? s.width

/-- The text of the precision, with the point in front of it. -/
def precisionSource (s : WrittenSpecifier) : List Char :=
  match s.precision with
  | none => []
  | some count => '.' :: count.source

/-- The text of the type. -/
def typeSource (s : WrittenSpecifier) : List Char := (s.presentation.map Presentation.letter).toList

/-- The text of a specifier. -/
def source (s : WrittenSpecifier) : List Char :=
  s.alignSource ++ (s.signSource ++ (s.alternateSource ++ (s.zeroSource ++
    (s.widthSource ++ (s.precisionSource ++ s.typeSource)))))

/-- The parts that can stand together: a fill is no brace, has an alignment and excludes the
flag `0`; without the flag the width does not begin with a zero. -/
structure WellFormed (s : WrittenSpecifier) : Prop where
  fill_align : ∀ c ∈ s.fill, c ≠ '{' ∧ c ≠ '}' ∧ s.align ≠ none ∧ s.zero = false
  width : ∀ count ∈ s.width, count.WellFormed
  width_zero : s.zero = false → Stops (· = '0') s.widthSource
  precision : ∀ count ∈ s.precision, count.WellFormed

/-- The byte at which the width starts, or would. -/
def widthPlace (s : WrittenSpecifier) : Nat :=
  byteLength (s.alignSource ++ (s.signSource ++ (s.alternateSource ++ s.zeroSource)))

/-- The byte of the point in front of the precision, or where it would be. -/
def precisionPlace (s : WrittenSpecifier) : Nat := s.widthPlace + byteLength s.widthSource

/-- Where the parts are written. -/
def places (s : WrittenSpecifier) : Places where
  align := byteLength s.fill.toList
  sign := if s.sign.isSome then byteLength s.alignSource else 0
  alternate := byteLength (s.alignSource ++ s.signSource)
  zero := byteLength (s.alignSource ++ (s.signSource ++ s.alternateSource))
  precision := s.precisionPlace
  presentation := s.precisionPlace + byteLength s.precisionSource

/-- The specifier with given counts in the place of the written ones. -/
def specifier (s : WrittenSpecifier) (width precision : Option Count) : Specifier where
  fill := s.fill
  align := s.align
  sign := s.sign
  alternate := s.alternate
  zero := s.zero
  width := width
  precision := precision
  presentation := s.presentation
  places := s.places

/-- The specifier with its counts numbered, the width first, and the numbering after it. A
reference in conflict with the numbering is an error at its opening brace. -/
def numbered (s : WrittenSpecifier) (numbering : Numbering) :
    Except FormatError Specifier × Numbering :=
  match WrittenCount.number? s.widthPlace numbering s.width with
  | .error kind => (.error (.located kind s.widthPlace), numbering)
  | .ok (width, numbering) =>
    match WrittenCount.number? (s.precisionPlace + 1) numbering s.precision with
    | .error kind => (.error (.located kind (s.precisionPlace + 1)), numbering)
    | .ok (precision, numbering) => (.ok (s.specifier width precision), numbering)

end WrittenSpecifier

end BraceFormat
