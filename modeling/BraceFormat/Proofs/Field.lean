import BraceFormat.Field
import BraceFormat.Proofs.Except
import Mathlib.Tactic.SplitIfs

/-!
# Laws of fields

A field looks up its argument, reads a directive for it and checks it. Where the parts of a
specifier are written matters to errors only: neither what is legal nor what is rendered
depends on it.
-/

namespace BraceFormat

variable {H : Host}

/-! ### Arguments -/

/-- What is referred to is an argument, if it is there. -/
theorem Arguments.lookup_eq_none_or_mem (args : Arguments H) (reference : Reference) :
  args.lookup reference = .none ∨ args.lookup reference ∈ args.values
  := by
  have hget (n : Nat) : args.get n = .none ∨ args.get n ∈ args.values := by
    rw [get]
    rcases hn : args.values[n]? with _ | argument
    · left
      rfl
    · right
      apply List.mem_of_getElem? hn
  cases reference with
  | index n => apply hget
  | name text =>
    rw [lookup, getNamed]
    split
    · apply hget
    · left
      rfl

/-! ### Directives -/

/-- A directive is that of the specifier that is read, if its references are looked up and it is
legal. -/
theorem readDirective_iff {kind : Kind} {spec : List Char} {args : Arguments H}
    {numbering after : Numbering} {d : Directive} :
  readDirective kind spec args numbering = .ok (d, after) ↔
    ∃ read, Specifier.read spec numbering = (.ok read, after) ∧ read.resolve args = .ok d ∧
      d.check kind = .ok ()
  := by
  rw [readDirective]
  simp only [bind_eq_ok_iff]
  constructor
  · rintro ⟨read, hread, d', hd', _, hcheck, ⟨⟩⟩
    exact ⟨read, Prod.ext hread rfl, hd', hcheck⟩
  · rintro ⟨read, hread, hd, hcheck⟩
    rw [hread]
    exact ⟨read, rfl, d, hd, (), hcheck, rfl⟩

namespace Directive

variable {d : Directive}

theorem refuseNumericFlags_of_places (places : Places) :
  { d with places }.refuseNumericFlags.mapError FormatError.kind =
    d.refuseNumericFlags.mapError FormatError.kind
  := by
  rw [refuseNumericFlags, refuseNumericFlags]
  dsimp only
  split_ifs <;> rfl

theorem refusePrecision_of_places (places : Places) :
  { d with places }.refusePrecision.mapError FormatError.kind =
    d.refusePrecision.mapError FormatError.kind
  := by
  rw [refusePrecision, refusePrecision]
  dsimp only
  split_ifs <;> rfl

theorem checkPlain_of_places (places : Places) :
  { d with places }.checkPlain.mapError FormatError.kind = d.checkPlain.mapError FormatError.kind
  := by
  rw [checkPlain, checkPlain, mapError_bind, mapError_bind, refuseNumericFlags_of_places,
    refusePrecision_of_places]

theorem checkInteger_of_places (places : Places) :
  { d with places }.checkInteger.mapError FormatError.kind =
    d.checkInteger.mapError FormatError.kind
  := by
  rw [checkInteger, checkInteger]
  dsimp only
  split
  · apply refusePrecision_of_places
  · apply checkPlain_of_places
  · split
    · apply refusePrecision_of_places
    · rfl

/-- A directive is legal, or illegal by the same kind of error, wherever its parts are written. -/
theorem mapError_check_of_places (places : Places) (kind : Kind) :
  ({ d with places }.check kind).mapError FormatError.kind =
    (d.check kind).mapError FormatError.kind
  := by
  cases kind
  case none | custom => rfl
  case int32 | uint32 | int64 | uint64 => apply checkInteger_of_places
  case bool | char =>
    rw [check, check]
    dsimp only
    split
    · apply checkPlain_of_places
    · apply checkPlain_of_places
    · apply checkInteger_of_places
  case float =>
    rw [check, check]
    dsimp only
    split
    · rfl
    · split <;> rfl
  case text =>
    rw [check, check]
    dsimp only
    split
    · apply refuseNumericFlags_of_places
    · apply refuseNumericFlags_of_places
    · rfl
  case byteText =>
    rw [check, check]
    dsimp only
    split
    · apply refuseNumericFlags_of_places
    · apply refuseNumericFlags_of_places
    · apply checkPlain_of_places
    · rfl
  case pointer =>
    rw [check, check]
    dsimp only
    split
    · apply checkPlain_of_places
    · apply checkPlain_of_places
    · rfl

/-- A directive is legal wherever its parts are written. -/
theorem check_of_places {kind : Kind} (places : Places) (h : d.check kind = .ok ()) :
  { d with places }.check kind = .ok ()
  := by
  rw [← mapError_eq_ok_iff, mapError_check_of_places, mapError_eq_ok_iff]
  apply h

end Directive

/-- An argument is rendered in one way wherever the parts of its specifier are written. -/
theorem Argument.rendering_of_places (argument : Argument H) (d : Directive) (places : Places)
    (locale : Locale) :
  argument.rendering { d with places } locale = argument.rendering d locale
  := by
  cases argument
  case float value =>
    rw [rendering, rendering, Rendering.ofFloat, Rendering.ofFloat]
    cases d.zeroPad <;> rfl
  all_goals rfl

/-! ### Putting arguments out -/

/-- An argument with a value that is not one of the host. -/
def Argument.IsBuiltin (argument : Argument H) : Prop :=
  argument.kind ≠ .none ∧ argument.kind ≠ .custom

theorem Argument.eq_none_or_custom_or_isBuiltin (argument : Argument H) :
  argument = .none ∨ (∃ value handler, argument = .custom value handler) ∨ argument.IsBuiltin
  := by
  cases argument
  case none => exact .inl rfl
  case custom value handler => exact .inr (.inl ⟨value, handler, rfl⟩)
  all_goals
    right
    right
    constructor <;> rintro ⟨⟩

/-- Puts out an argument other than a value of the host as a directive says. -/
def Argument.put (argument : Argument H) (d : Directive) (locale : Locale) : Formatter H Unit := do
  let rendering ← Formatter.ofExcept (argument.rendering d locale)
  Formatter.write (rendering.spans d.width)

theorem Argument.put_of_places (argument : Argument H) (d : Directive) (places : Places)
    (locale : Locale) :
  argument.put { d with places } locale = argument.put d locale
  := by
  rw [put, put, rendering_of_places]

theorem formatBuiltin_of_ok {argument : Argument H} {spec : List Char} {args : Arguments H}
    {locale : Locale} {numbering after : Numbering} {d : Directive}
    (h : readDirective argument.kind spec args numbering = .ok (d, after)) :
  formatBuiltin argument spec args locale numbering =
    argument.put d locale >>= fun _ => return after
  := by
  rw [formatBuiltin, h, Argument.put, bind_assoc]
  rfl

/-- Where a specifier is read and its references are looked up, its directive is checked, and the
argument is put out. -/
theorem formatBuiltin_of_resolve {spec : List Char} {args : Arguments H}
    {numbering after : Numbering} {read : Specifier} {d : Directive}
    (hread : Specifier.read spec numbering = (.ok read, after))
    (hresolve : read.resolve args = .ok d) (argument : Argument H) (locale : Locale) :
  formatBuiltin argument spec args locale numbering =
    Formatter.ofChecked (d.check argument.kind) >>= fun _ =>
      argument.put d locale >>= fun _ => return after
  := by
  rcases hcheck : d.check argument.kind with e | _
  · have hd : readDirective argument.kind spec args numbering = .error e := by
      rw [readDirective, hread]
      change (read.resolve args >>= fun d => d.check argument.kind >>= fun _ => _) = _
      rw [hresolve]
      change (d.check argument.kind >>= fun _ => _) = _
      rw [hcheck]
      rfl
    rw [formatBuiltin, hd]
    rfl
  · rw [formatBuiltin_of_ok (readDirective_iff.mpr ⟨read, hread, hresolve, hcheck⟩)]
    rfl

theorem formatField_of_isBuiltin {argument : Argument H} (h : argument.IsBuiltin)
    (spec : List Char) (args : Arguments H) (locale : Locale) (numbering : Numbering) :
  formatField argument spec args locale numbering =
    formatBuiltin argument spec args locale numbering
  := by
  cases argument
  case none => cases h.1 rfl
  case custom => cases h.2 rfl
  all_goals rfl

theorem formatCustom_of_ok {value : H.Value} {handler : Handler H} {spec : List Char}
    {args : Arguments H} {numbering after : Numbering} {parts : Substitution}
    (h : Substitution.read args spec numbering = (.ok parts, after)) :
  formatCustom value handler spec args numbering =
    (handler.format value parts.text).mapError parts.trace >>= fun _ => return after
  := by
  rw [formatCustom, h]
  rfl

/-! ### Handlers -/

/-- A handler reads the specifier, and formats the value by what it finds. -/
theorem Handler.format_ofReader {Spec : Type} (read : List Char → Except FormatError Spec)
    (format : H.Value → Spec → Formatter H Unit) (value : H.Value) (text : List Char) :
  (ofReader read format).format value text = Formatter.ofChecked (read text) >>= format value
  := by
  simp only [ofReader]
  cases read text <;> rfl

end BraceFormat
