import BraceFormat.Proofs.Guarded.Float
import BraceFormat.Proofs.Guarded.Limit
import BraceFormat.Rendering

/-!
# Guarded rendering of arguments

An argument is rendered by guarded pieces: digits in a buffer or generated within the limit,
and text that is cut at a precision. Of all guards only the limit on generated digits is ever
breached, and it is just where the rendering is cut short (`rendering?_eq`). The padding of a
rendering never is (`spans?_eq`).
-/

namespace BraceFormat.Guarded

variable {H : Host}

/-- The digits of a number as a presentation shows them, if it shows integers by digits. -/
def integerDigits? (presentation : Option Presentation) (locale : Locale) (n : Nat) :
    Option (Option (List Char)) :=
  match presentation with
  | none | some .decimal => (digits? 10 false digitSlots n).map some
  | some .locale => do
    let digits ← digits? 10 false digitSlots n
    (group? locale (byteLength digits) 0 digits).map some
  | some .binary | some .binaryUpper => (digits? 2 false digitSlots n).map some
  | some .octal => (digits? 8 false digitSlots n).map some
  | some .hex => (digits? 16 false digitSlots n).map some
  | some .hexUpper => (digits? 16 true digitSlots n).map some
  | _ => some none

/-- The rendering of an integer. -/
def integer? (d : Directive) (locale : Locale) (n : Int) :
    Option (Except FormatError Rendering) :=
  if d.presentation = some .char then
    match charOfCode? n with
    | some c => some (.ok (Rendering.ofChar d c))
    | none => some (.error (.unplaced .invalidSpecifier))
  else do
    match ← integerDigits? d.presentation locale n.natAbs with
    | some digits =>
      let marker := if d.alternate then baseMarker d.presentation n else []
      let lead := signText (n < 0) d.sign ++ marker
      return .ok (Rendering.ofDirective d .right lead digits)
    | none => return .error (.unplaced .unsupportedPresentation)

/-- The rendering of a floating-point number. -/
def float? (d : Directive) (locale : Locale) (v : Binary64) :
    Option (Except FormatError Rendering) :=
  if v.isFinite then do
    let body ← floatBody? d locale v.magnitude
    return body.map (Rendering.ofDirective d .right (signText v.negative d.sign))
  else guarded (Rendering.ofFloat d locale v)

/-- The rendering of a text. -/
def text? (d : Directive) (text : List Char) : Option (Except FormatError Rendering) := do
  let kept ← truncate? d.precision text
  return .ok (Rendering.ofDirective d .left [] kept)

/-- The rendering of an address. -/
def address? (d : Directive) (address : UInt64) : Option (Except FormatError Rendering) := do
  let digits ← addressDigits? address.toNat 16
  return .ok (Rendering.ofDirective d .right ['0', 'x'] digits)

/-- The rendering of an argument other than a value of the host. -/
def rendering? (argument : Argument H) (d : Directive) (locale : Locale) :
    Option (Except FormatError Rendering) :=
  match argument with
  | .none | .custom .. => some (.error (.unplaced .missingArgument))
  | .bool value =>
    match d.presentation with
    | none | some .string => some (.ok (Rendering.ofBool d value))
    | some _ => integer? d locale value.toNat
  | .char value =>
    match d.presentation with
    | none | some .char => some (.ok (Rendering.ofChar d value))
    | some _ => integer? d locale value.toNat
  | .int32 value => integer? d locale value.toInt
  | .uint32 value => integer? d locale value.toNat
  | .int64 value => integer? d locale value.toInt
  | .uint64 value => integer? d locale value.toNat
  | .float value => float? d locale value
  | .byteText value =>
    match d.presentation with
    | some .pointer => address? d value.address
    | _ => text? d (Utf8.decodeLossy value.bytes)
  | .text value => text? d value
  | .pointer address => address? d address

/-- Distributes some fill characters as an alignment says. -/
def padding? (count : Nat) : Align → Option Padding
  | .left => some ⟨0, 0, count⟩
  | .right => some ⟨count, 0, 0⟩
  | .center => do
    let after ← minus? count (count / 2)
    return ⟨count / 2, 0, after⟩
  | .numeric => some ⟨0, count, 0⟩

/-- A rendering padded to a width. The width may be less than its length. -/
def spans? (r : Rendering) (width : Nat) : Option (List Span) :=
  if width = 0 then some [.text r.lead, .text r.body]
  else do
    let padding ← padding? (width - (r.lead.length + r.body.length)) r.align
    return [.fill r.fill padding.before, .text r.lead, .fill r.fill padding.inner, .text r.body,
      .fill r.fill padding.after]

/-! ### Integers -/

variable {n : Nat} {i : Int}

/-- A number of 64 bits breaches no guard, whatever its digits are shown as. -/
theorem integerDigits?_eq (hn : n < UInt64.size) (presentation : Option Presentation)
    (locale : Locale) :
  integerDigits? presentation locale n = some (integerDigits presentation locale n)
  := by
  have hten : digits? 10 false digitSlots n = some (Nat.toDigits 10 n) :=
    digits?_lower (by decide) (by decide) hn
  rcases presentation with _ | presentation
  · rw [integerDigits?, hten]
    rfl
  · cases presentation
    case decimal =>
      rw [integerDigits?, hten]
      rfl
    case locale =>
      have hsize : 0 + (Nat.toDigits 10 n).length = byteLength (Nat.toDigits 10 n) := by
        rw [Nat.zero_add, byteLength_of_digits fun c => isDigit_of_mem_numeral]
      rw [integerDigits?, hten]
      simp only [Option.bind_eq_bind, Option.bind_some, group?_eq hsize]
      rfl
    case binary | binaryUpper =>
      rw [integerDigits?, digits?_lower (by decide) (by decide) hn]
      rfl
    case octal =>
      rw [integerDigits?, digits?_lower (by decide) (by decide) hn]
      rfl
    case hex =>
      rw [integerDigits?, digits?_lower (by decide) (by decide) hn]
      rfl
    case hexUpper =>
      rw [integerDigits?, digits?_digitSlots (by decide) (by decide) hn]
      rfl
    all_goals rfl

theorem integer?_eq (hi : i.natAbs < UInt64.size) (d : Directive) (locale : Locale) :
  integer? d locale i = some (Rendering.ofInteger d locale i)
  := by
  rw [integer?, Rendering.ofInteger]
  split
  · next hchar =>
    simp only [hchar]
    cases charOfCode? i <;> rfl
  · next hchar =>
    simp only [integerDigits?_eq hi, Option.bind_eq_bind, Option.bind_some]
    cases integerDigits d.presentation locale i.natAbs <;> rfl

/-! ### Other arguments -/

theorem float?_eq (d : Directive) (locale : Locale) (v : Binary64) :
  float? d locale v = guarded (Rendering.ofFloat d locale v)
  := by
  rw [float?]
  split
  · next hv =>
    have hfinite : v.magnitude < Binary64.infinity := of_decide_eq_true hv
    rw [floatBody?_eq hfinite, Rendering.ofFloat, if_pos hv]
    rcases floatBody d locale v.magnitude with (e | _) | text <;> rfl
  · rfl

theorem text?_eq (d : Directive) (text : List Char) :
  text? d text = some (.ok (Rendering.ofText d text))
  := by
  rw [text?, truncate?_eq]
  rfl

theorem address?_eq (d : Directive) (address : UInt64) :
  address? d address = some (.ok (Rendering.ofAddress d address))
  := by
  rw [address?, addressDigits?_eq address.toNat_lt (by decide)]
  rfl

/-- An integer argument has 64 bits at most. -/
theorem natAbs_lt_of_integer? (argument : Argument H) (h : argument.integer? = some i) :
  i.natAbs < UInt64.size
  := by
  have hsize : UInt64.size = 2 ^ 64 := rfl
  cases argument <;> cases h
  case int32 value =>
    have hlow := value.le_toInt
    have hhigh := value.toInt_lt
    omega
  case uint32 value =>
    have hlt := value.toNat_lt
    omega
  case int64 value =>
    have hlow := value.le_toInt
    have hhigh := value.toInt_lt
    omega
  case uint64 value => apply value.toNat_lt

/-- An argument breaches a guard just where its rendering is cut short. -/
theorem rendering?_eq (argument : Argument H) (d : Directive) (locale : Locale) :
  rendering? argument d locale = guarded (argument.rendering d locale)
  := by
  have hinteger (i : Int) (hi : i.natAbs < UInt64.size) :
      integer? d locale i = guarded ((Rendering.ofInteger d locale i).mapError .error) := by
    rw [integer?_eq hi]
    cases Rendering.ofInteger d locale i <;> rfl
  cases hargument : argument
  case none | custom => rfl
  case bool value =>
    have hvalue := hinteger value.toNat (by cases value <;> decide)
    simp only [rendering?, Argument.rendering, hvalue]
    rcases d.presentation with _ | presentation
    · rfl
    · cases presentation <;> rfl
  case char value =>
    have hlt : value.toNat < 2 ^ 64 := by
      have hval := value.val.toNat_lt
      change value.val.toNat < 2 ^ 64
      omega
    have hvalue := hinteger value.toNat hlt
    simp only [rendering?, Argument.rendering, hvalue]
    rcases d.presentation with _ | presentation
    · rfl
    · cases presentation <;> rfl
  case int32 | uint32 | int64 | uint64 =>
    apply hinteger
    apply natAbs_lt_of_integer? argument
    rw [hargument]
    rfl
  case float value => apply float?_eq
  case byteText value =>
    simp only [rendering?, Argument.rendering, Rendering.ofByteText, address?_eq, text?_eq]
    rcases d.presentation with _ | presentation
    · rfl
    · cases presentation <;> rfl
  case text value => apply text?_eq
  case pointer address => apply address?_eq

/-! ### Padding -/

theorem padding?_eq (count : Nat) (align : Align) :
  padding? count align = some (Padding.ofAlign count align)
  := by
  cases align
  case center =>
    rw [padding?, minus?_eq (Nat.div_le_self count 2)]
    rfl
  all_goals rfl

/-- No guard is breached in padding. -/
theorem spans?_eq (r : Rendering) (width : Nat) :
  spans? r width = some (r.spans width)
  := by
  rw [spans?, Rendering.spans]
  split
  · rfl
  · rw [padding?_eq]
    rfl

end BraceFormat.Guarded
