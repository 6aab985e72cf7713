import BraceFormat.Proofs.Guarded.Decimal
import BraceFormat.Proofs.Guarded.Digits

/-!
# Guarded rendering of floating-point numbers

A finite number is rendered by digits that are generated, laid out, and cut again where zeros
are to be left out or separators put in. Of all guards only the limit on generated digits is
ever breached, and it is just where the rendering is cut short (`floatBody?_eq`).
-/

namespace BraceFormat.Guarded

open Utf8

/-- What remains of an outcome if cutting short is a breach. -/
def guarded {α : Type} : Except Failure α → Option (Except FormatError α)
  | .ok a => some (.ok a)
  | .error (.error e) => some (.error e)
  | .error .tooManyDigits => none

/-! ### Numbers -/

/-- The form of a numeral in general notation. Leaving out zeros cuts the numeral. -/
def generalDigits? (alternate : Bool) (numeral : List Char) : Option (List Char) :=
  if ¬alternate ∧ '.' ∈ numeral then slice? numeral 0 (byteLength (withoutFinalZeros numeral))
  else some (generalDigits alternate numeral)

/-- A number in general notation. One digit less than is shown is asked for. -/
def generalForm? (precision : Nat) (alternate upper : Bool) (q : Rat) : Option (List Char) := do
  let count := max 1 precision
  let asked ← minus? count 1
  let d ← decimal? asked (Decimal.rounded count q)
  if d.exponent < -4 ∨ (count : Int) ≤ d.exponent then
    let numeral ← mantissa? d []
    let digits ← generalDigits? alternate numeral
    return digits ++ d.exponentMark upper
  else
    let numeral ← positionalInWords? d
    generalDigits? alternate numeral

/-- A number in scientific notation, with a fixed count of digits after the point. -/
def scientificForm? (precision : Nat) (alternate upper : Bool) (q : Rat) :
    Option (List Char) := do
  let d ← decimal? precision (Decimal.rounded (precision + 1) q)
  let mantissa ← mantissa? d (if alternate then ['.'] else [])
  return mantissa ++ d.exponentMark upper

/-- A finite magnitude in its shortest form. -/
def shortestForm? (alternate : Bool) (magnitude : Nat) : Option (List Char) := do
  let d ← readInWords? (generatedText (Decimal.shortest magnitude))
  if -4 ≤ d.exponent ∧ d.exponent < 16 then
    let numeral ← positionalInWords? d
    return if alternate ∧ '.' ∉ numeral then numeral ++ ['.', '0'] else numeral
  else
    let mantissa ← mantissa? d (if alternate then ['.', '0'] else [])
    return mantissa ++ d.exponentMark false

/-- A finite magnitude where no presentation is given. -/
def plainForm? (precision : Option Nat) (alternate : Bool) (magnitude : Nat) :
    Option (List Char) :=
  match precision with
  | none => shortestForm? alternate magnitude
  | some p => generalForm? p alternate false (Binary64.absolute magnitude)

/-- A number with a fixed count of digits after the point. -/
def fixedForm? (precision : Nat) (alternate : Bool) (q : Rat) : Option (List Char) := do
  let numeral ← generate? precision (fixedPoint precision q)
  return numeral ++ if alternate ∧ precision = 0 then ['.'] else []

/-- A hundred times a finite magnitude. Also the word for infinity is asked for with the
precision. -/
def percentForm? (precision : Nat) (alternate : Bool) (magnitude : Nat) :
    Option (List Char) := do
  let product := Binary64.nearest (Binary64.absolute magnitude * 100)
  let numeral ← generate? precision <|
    if product < Binary64.infinity then fixedPoint precision (Binary64.absolute product)
    else nonFiniteWord false false
  return numeral ++ (if alternate ∧ precision = 0 then ['.'] else []) ++ ['%']

/-- A numeral with the separators of a locale. -/
def localize? (locale : Locale) (numeral : List Char) : Option (List Char) := do
  let size := (find? (!Char.isDigit ·) (encode numeral)).getD (byteLength numeral)
  let whole ← textUpTo? numeral size
  let rest ← textFrom? numeral size
  let grouped ← group? locale (byteLength whole) 0 whole
  return grouped ++ rest.map fun ch => if ch = '.' then locale.point else ch

/-- The text of a finite magnitude. -/
def floatBody? (d : Directive) (locale : Locale) (magnitude : Nat) :
    Option (Except FormatError (List Char)) :=
  let q := Binary64.absolute magnitude
  let precision := d.precision.getD defaultPrecision
  let upper := d.presentation.any Presentation.isUpper
  match d.presentation with
  | none => (plainForm? d.precision d.alternate magnitude).map .ok
  | some .locale => do
    let numeral ← plainForm? d.precision d.alternate magnitude
    (localize? locale numeral).map .ok
  | some .exponent | some .exponentUpper =>
    (scientificForm? precision d.alternate upper q).map .ok
  | some .fixed | some .fixedUpper => (fixedForm? precision d.alternate q).map .ok
  | some .general | some .generalUpper =>
    (generalForm? precision d.alternate upper q).map .ok
  | some .percent => (percentForm? precision d.alternate magnitude).map .ok
  | some _ => some (.error (.unplaced .unsupportedPresentation))

/-! ### General notation -/

theorem withoutFinalZeros_prefix (numeral : List Char) :
  withoutFinalZeros numeral <+: numeral
  := by
  have hkept : numeral.reverse.dropWhile (· = '0') <:+ numeral.reverse := List.dropWhile_suffix _
  rw [withoutFinalZeros, ← List.reverse_suffix, List.reverse_reverse]
  split
  · apply (List.tail_suffix _).trans hkept
  · apply hkept

/-- Leaving out zeros cuts a numeral between two characters. -/
theorem slice?_withoutFinalZeros (numeral : List Char) :
  slice? numeral 0 (byteLength (withoutFinalZeros numeral)) = some (withoutFinalZeros numeral)
  := by
  obtain ⟨rest, hrest⟩ := withoutFinalZeros_prefix numeral
  have hstart : At numeral 0 (withoutFinalZeros numeral ++ rest) := by
    rw [hrest]
    apply At.zero
  have hslice := hstart.slice?_eq
  rw [Nat.zero_add] at hslice
  apply hslice

theorem generalDigits?_eq (alternate : Bool) (numeral : List Char) :
  generalDigits? alternate numeral = some (generalDigits alternate numeral)
  := by
  rw [generalDigits?]
  split
  · next h =>
    rw [slice?_withoutFinalZeros, generalDigits, if_neg h.1, if_pos h.2]
  · rfl

/-- What remains of a text that is computed only if no more digits are asked for than are
generated. -/
theorem guarded_withinDigits (precision : Nat) (text : Unit → List Char) :
  guarded (withinDigits precision text) =
    (if precision ≤ digitLimit then some (text ()) else none).map .ok
  := by
  rw [withinDigits]
  split <;> rfl

section Finite

variable {magnitude : Nat} (hfinite : magnitude < Binary64.infinity)

include hfinite

theorem generalForm?_eq (precision : Nat) (alternate upper : Bool) :
  (generalForm? precision alternate upper (Binary64.absolute magnitude)).map .ok =
    guarded (withinDigits (max 1 precision - 1) fun _ =>
      generalForm precision alternate upper (Binary64.absolute magnitude))
  := by
  have hread := isReadable_rounded hfinite (max 1 precision)
  rw [guarded_withinDigits, generalForm?, generalForm, minus?_eq (Nat.le_max_left 1 precision)]
  simp only [Option.bind_eq_bind, Option.bind_some, decimal?_eq hread]
  split
  · simp only [Option.bind_some, mantissa?_eq hread.digits, positionalInWords?_eq hread,
      generalDigits?_eq]
    split <;> rfl
  · rfl

/-! ### Other notations -/

theorem scientificForm?_eq (precision : Nat) (alternate upper : Bool) :
  (scientificForm? precision alternate upper (Binary64.absolute magnitude)).map .ok =
    guarded (withinDigits precision fun _ =>
      (Decimal.rounded (precision + 1) (Binary64.absolute magnitude)).scientific
        (if alternate then ['.'] else []) upper)
  := by
  have hread := isReadable_rounded hfinite (precision + 1)
  rw [guarded_withinDigits, scientificForm?, decimal?_eq hread]
  split
  · simp only [Option.bind_eq_bind, Option.bind_some, mantissa?_eq hread.digits]
    rfl
  · rfl

theorem shortestForm?_eq (alternate : Bool) :
  shortestForm? alternate magnitude = some (shortestForm alternate magnitude)
  := by
  have hread := isReadable_shortest hfinite
  rw [shortestForm?, shortestForm, readInWords?_generatedText hread]
  simp only [Option.bind_eq_bind, Option.bind_some, mantissa?_eq hread.digits,
    positionalInWords?_eq hread]
  split <;> rfl

theorem plainForm?_eq (precision : Option Nat) (alternate : Bool) :
  (plainForm? precision alternate magnitude).map .ok =
    guarded (plainForm precision alternate magnitude)
  := by
  cases precision with
  | none =>
    rw [plainForm?, shortestForm?_eq hfinite]
    rfl
  | some p => rw [plainForm?, generalForm?_eq hfinite, plainForm]

end Finite

theorem fixedForm?_eq (precision : Nat) (alternate : Bool) (q : Rat) :
  (fixedForm? precision alternate q).map .ok =
    guarded (withinDigits precision fun _ => fixedForm precision alternate q)
  := by
  rw [guarded_withinDigits, fixedForm?, generate?]
  split <;> rfl

theorem percentForm?_eq (precision : Nat) (alternate : Bool) (magnitude : Nat) :
  (percentForm? precision alternate magnitude).map .ok =
    guarded (withinDigits precision fun _ => percentForm precision alternate magnitude)
  := by
  rw [guarded_withinDigits, percentForm?, generate?, percentForm]
  by_cases hlimit : precision ≤ digitLimit
  · rw [if_pos hlimit, if_pos hlimit]
    simp only [Option.bind_eq_bind, Option.bind_some]
    split <;> rfl
  · rw [if_neg hlimit, if_neg hlimit]
    rfl

/-! ### Separators -/

/-- The leading digits of a numeral are cut off behind the last of them. -/
theorem localize?_eq (locale : Locale) (numeral : List Char) :
  localize? locale numeral = some (locale.localize numeral)
  := by
  have hsplit := List.takeWhile_append_dropWhile (p := Char.isDigit) (l := numeral)
  have hsize : (find? (!Char.isDigit ·) (encode numeral)).getD (byteLength numeral) =
      byteLength (numeral.takeWhile Char.isDigit) := by
    rw [find?_encode bytewise_isDigit.not]
    simp only [Bool.not_not]
    split
    · next hdrop =>
      rw [hdrop, List.append_nil] at hsplit
      rw [hsplit]
      rfl
    · rfl
  have hwhole := textUpTo?_append (numeral.takeWhile Char.isDigit) (numeral.dropWhile Char.isDigit)
  have hrest := textFrom?_append (numeral.takeWhile Char.isDigit) (numeral.dropWhile Char.isDigit)
  rw [hsplit] at hwhole hrest
  have hdigits : ∀ c ∈ numeral.takeWhile Char.isDigit, c.isDigit = true := fun c => mem_takeWhile
  rw [localize?, hsize, hwhole, hrest, Locale.localize]
  simp only [Option.bind_eq_bind, Option.bind_some]
  rw [group?_eq (by rw [Nat.zero_add, byteLength_of_digits hdigits])]
  rfl

/-- A form with the separators of a locale. -/
theorem localized_eq {form? : Option (List Char)} {form : Except Failure (List Char)}
    (h : form?.map .ok = guarded form) (locale : Locale) :
  (do
    let numeral ← form?
    (localize? locale numeral).map .ok) = guarded (form.map locale.localize)
  := by
  rcases form with (e | _) | numeral
  · cases form? <;> cases h
  · cases form? with
    | none => rfl
    | some numeral => cases h
  · cases form? with
    | none => cases h
    | some numeral' =>
      cases h
      simp only [Option.bind_eq_bind, Option.bind_some, localize?_eq]
      rfl

/-! ### All notations -/

/-- A finite number breaches a guard just where it is cut short. -/
theorem floatBody?_eq {magnitude : Nat} (hfinite : magnitude < Binary64.infinity) (d : Directive)
    (locale : Locale) :
  floatBody? d locale magnitude = guarded (floatBody d locale magnitude)
  := by
  rw [floatBody?, floatBody]
  rcases d.presentation with _ | presentation
  · apply plainForm?_eq hfinite
  · cases presentation
    case locale =>
      apply localized_eq
      apply plainForm?_eq hfinite
    case exponent | exponentUpper => apply scientificForm?_eq hfinite
    case fixed | fixedUpper => apply fixedForm?_eq
    case general | generalUpper => apply generalForm?_eq hfinite
    case percent => apply percentForm?_eq
    all_goals rfl

end BraceFormat.Guarded
