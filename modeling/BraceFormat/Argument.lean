import BraceFormat.Formatter
import BraceFormat.Number.Binary64
import BraceFormat.Specifier

/-!
# Arguments

An `Argument` is one value of a formatting call with its kind. The kinds are a fixed set;
values of the host come in as `custom` together with the `Handler` that formats them.
`Arguments` is the list of all arguments of a call, where some may carry a name.
-/

namespace BraceFormat

/-- How the values of the host are formatted: a value and the text of a specifier give a
formatter, which can write but not ask for the position of the sink. The places of its errors
count from the start of that text. -/
structure Handler (H : Host) where
  /-- Formats a value as a specifier says. -/
  format : H.Value → List Char → Formatter H Unit

/-- Text that is given by bytes, which need not be well-formed, at some address. -/
structure ByteText where
  bytes : List UInt8
  address : UInt64
  deriving DecidableEq, Repr

/-- An argument of a formatting call. -/
inductive Argument (H : Host) where
  /-- No argument; formatting it is always an error. -/
  | none
  | bool (value : Bool)
  | char (value : Char)
  | int32 (value : Int32)
  | uint32 (value : UInt32)
  | int64 (value : Int64)
  | uint64 (value : UInt64)
  | float (value : Binary64)
  | byteText (value : ByteText)
  | text (value : List Char)
  /-- An address. -/
  | pointer (address : UInt64)
  /-- A value of the host with its handler. -/
  | custom (value : H.Value) (handler : Handler H)

/-- The kind of an argument. -/
inductive Kind where
  | none | bool | char | int32 | uint32 | int64 | uint64 | float | byteText | text | pointer
  | custom
  deriving DecidableEq, Repr

/-- Whether arguments of the kind are integers. -/
def Kind.isInteger : Kind → Bool
  | .int32 | .uint32 | .int64 | .uint64 => true
  | _ => false

namespace Argument

variable {H : Host}

instance : Inhabited (Argument H) := ⟨.none⟩

/-- The kind of an argument. -/
def kind : Argument H → Kind
  | .none => .none
  | .bool _ => .bool
  | .char _ => .char
  | .int32 _ => .int32
  | .uint32 _ => .uint32
  | .int64 _ => .int64
  | .uint64 _ => .uint64
  | .float _ => .float
  | .byteText _ => .byteText
  | .text _ => .text
  | .pointer _ => .pointer
  | .custom .. => .custom

/-- Whether there is no argument. -/
def isNone : Argument H → Bool
  | .none => true
  | _ => false

/-- The value of an integer argument. -/
def integer? : Argument H → Option Int
  | .int32 value => some value.toInt
  | .uint32 value => some value.toNat
  | .int64 value => some value.toInt
  | .uint64 value => some value.toNat
  | _ => Option.none

/-- The value of an integer argument that is not negative, for a width or precision. -/
def count? (argument : Argument H) : Option Nat :=
  argument.integer?.bind fun n => if 0 ≤ n then some n.toNat else Option.none

end Argument

/-- The types whose values are arguments of a kind of their own. -/
class ToArgument (α : Type) where
  /-- The argument that holds a value. -/
  toArgument {H : Host} : α → Argument H

export ToArgument (toArgument)

instance : ToArgument Bool := ⟨.bool⟩
instance : ToArgument Char := ⟨.char⟩
instance : ToArgument Int8 := ⟨fun value => .int32 value.toInt32⟩
instance : ToArgument Int16 := ⟨fun value => .int32 value.toInt32⟩
instance : ToArgument Int32 := ⟨.int32⟩
instance : ToArgument Int64 := ⟨.int64⟩
instance : ToArgument ISize := ⟨fun value => .int64 value.toInt64⟩
instance : ToArgument UInt8 := ⟨fun value => .uint32 value.toUInt32⟩
instance : ToArgument UInt16 := ⟨fun value => .uint32 value.toUInt32⟩
instance : ToArgument UInt32 := ⟨.uint32⟩
instance : ToArgument UInt64 := ⟨.uint64⟩
instance : ToArgument USize := ⟨fun value => .uint64 value.toUInt64⟩
instance : ToArgument Binary32 := ⟨fun value => .float value.toBinary64⟩
instance : ToArgument Binary64 := ⟨.float⟩
instance : ToArgument String := ⟨fun value => .text value.toList⟩
instance : ToArgument ByteText := ⟨.byteText⟩

/-- The arguments of a formatting call. -/
structure Arguments (H : Host) where
  /-- The arguments, in order. -/
  values : List (Argument H)
  /-- Their names; there are none, or one entry for each argument. -/
  names : List (Option (List Char))
  /-- Names are given for all positions or for none. -/
  length_names : names = [] ∨ names.length = values.length

namespace Arguments

variable {H : Host}

/-- No arguments. -/
def empty : Arguments H := ⟨[], [], .inl rfl⟩

/-- Arguments without names. -/
def ofList (values : List (Argument H)) : Arguments H := ⟨values, [], .inl rfl⟩

/-- Arguments with a name for some positions. Names that do not match the arguments one for
one are left out. -/
def withNames (values : List (Argument H)) (names : List (Option (List Char))) : Arguments H :=
  if h : names.length = values.length then ⟨values, names, .inr h⟩ else ofList values

/-- The number of arguments. -/
def length (args : Arguments H) : Nat := args.values.length

/-- The argument at a position; past the end there is none. -/
def get (args : Arguments H) (n : Nat) : Argument H := args.values[n]?.getD .none

/-- The first position that carries a name. -/
def find? (args : Arguments H) (name : List Char) : Option Nat :=
  args.names.findIdx? (· == some name)

/-- The argument with a name, if there is one. -/
def getNamed (args : Arguments H) (name : List Char) : Argument H :=
  match args.find? name with
  | some n => args.get n
  | none => .none

/-- The argument that is referred to. -/
def lookup (args : Arguments H) : Reference → Argument H
  | .index n => args.get n
  | .name text => args.getNamed text

/-- The width or precision that an argument supplies. -/
def count? (args : Arguments H) (reference : Reference) : Option Nat :=
  (args.lookup reference).count?.filter (· ≤ countLimit)

end Arguments

end BraceFormat
