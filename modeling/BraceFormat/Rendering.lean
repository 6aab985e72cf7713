import BraceFormat.Rendering.Float

/-!
# Rendering arguments

`Argument.rendering` chooses the rendering of an argument by its kind. A truth value or a
character is an integer where the presentation shows integers.
-/

namespace BraceFormat

variable {H : Host}

/-- The rendering of an argument other than a value of the host. -/
def Argument.rendering (argument : Argument H) (d : Directive) (locale : Locale) :
    Except Failure Rendering :=
  let integer (n : Int) : Except Failure Rendering :=
    (Rendering.ofInteger d locale n).mapError .error
  match argument with
  | .none | .custom .. => .error (.error (.unplaced .missingArgument))
  | .bool value =>
    match d.presentation with
    | Option.none | some .string => .ok (Rendering.ofBool d value)
    | some _ => integer value.toNat
  | .char value =>
    match d.presentation with
    | Option.none | some .char => .ok (Rendering.ofChar d value)
    | some _ => integer value.toNat
  | .int32 value => integer value.toInt
  | .uint32 value => integer value.toNat
  | .int64 value => integer value.toInt
  | .uint64 value => integer value.toNat
  | .float value => Rendering.ofFloat d locale value
  | .byteText value => .ok (Rendering.ofByteText d value)
  | .text value => .ok (Rendering.ofText d value)
  | .pointer address => .ok (Rendering.ofAddress d address)

end BraceFormat
