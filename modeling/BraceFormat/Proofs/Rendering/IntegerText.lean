import BraceFormat.Proofs.Number.Radix
import BraceFormat.Proofs.Rendering.Denotation
import BraceFormat.Proofs.Rendering.Padding

/-!
# Integers read back

An integer is put out as a sign, the base marker of a `Radix`, and the digits of its absolute
value. `Radix.read?` takes the text of an integer apart again. Without a width, and with whatever
width under the zero flag, the text that is put out reads back as the integer
(`formatField_integer_readsBack`).
-/

namespace BraceFormat

variable {H : Host}

/-- What a sign mode asks for in front of a number that is not negative. -/
def Sign.text : Sign → List Char
  | .minus => []
  | .plus => ['+']
  | .space => [' ']

/-- The sign of a number: that of a negative one, or what a sign mode asks for. -/
theorem signText_eq (n : Int) (sign : Sign) :
  signText (n < 0) sign = if n < 0 then ['-'] else sign.text
  := by
  by_cases hn : n < 0
  · rw [decide_eq_true hn, if_pos hn]
    rfl
  · rw [decide_eq_false hn, if_neg hn]
    cases sign <;> rfl

/-! ### Base markers -/

namespace Radix

/-- The radix in which a presentation shows integers. -/
def ofPresentation? : Option Presentation → Option Radix
  | none | some .decimal => some decimal
  | some .binary => some { alphabet := ['0', '1'], letter := some 'b' }
  | some .binaryUpper => some { alphabet := ['0', '1'], letter := some 'B' }
  | some .octal =>
    some { alphabet := ['0', '1', '2', '3', '4', '5', '6', '7'], zeroMarks := true }
  | some .hex =>
    some {
      alphabet := ['0', '1', '2', '3', '4', '5', '6', '7', '8', '9', 'a', 'b', 'c', 'd', 'e', 'f']
      letter := some 'x' }
  | some .hexUpper =>
    some {
      alphabet := ['0', '1', '2', '3', '4', '5', '6', '7', '8', '9', 'A', 'B', 'C', 'D', 'E', 'F']
      letter := some 'X' }
  | _ => none

variable (r : Radix)

/-- The base marker of a number. -/
def marker (n : Int) : List Char :=
  match r.letter with
  | some letter => ['0', letter]
  | none => if r.zeroMarks ∧ n ≠ 0 then ['0'] else []

/-- A text without the base marker. A marker that is a zero alone counts as a digit. -/
def unmarked (text : List Char) : List Char :=
  match text with
  | '0' :: c :: rest => if r.letter = some c then rest else text
  | _ => text

/-- Reads a whole text as an integer: a sign and the base marker, which may be missing, and one
digit at least. -/
def read? (text : List Char) : Option Int :=
  let signed := Numeral.readSign text
  let digits := r.unmarked signed.2
  if digits ≠ [] ∧ digits.all r.alphabet.contains then
    some (if signed.1 then -(r.value digits : Int) else r.value digits)
  else none

variable {r}

/-- A presentation shows the numeral of its radix. -/
theorem isNumeral_integerDigits {presentation : Option Presentation}
    (h : ofPresentation? presentation = some r) (locale : Locale) (n : Nat) :
  ∃ digits, integerDigits presentation locale n = some digits ∧ r.IsNumeral n digits
  := by
  rw [ofPresentation?.eq_def] at h
  split at h <;> cases h
  case h_7 => exact ⟨_, rfl, isNumeral_map_toDigits (by decide : 1 < 16) rfl (by decide) n⟩
  all_goals exact ⟨_, rfl, isNumeral_toDigits (by decide) rfl (by decide) n⟩

/-- A presentation shows the base marker of its radix. -/
theorem baseMarker_eq {presentation : Option Presentation}
    (h : ofPresentation? presentation = some r) (n : Int) :
  baseMarker presentation n = r.marker n
  := by
  rw [ofPresentation?.eq_def] at h
  split at h <;> cases h
  case h_5 => simp [baseMarker, marker]
  all_goals rfl

/-! ### Reading integers -/

/-- A text of digits has no base marker. -/
theorem unmarked_of_digits {digits : List Char} (h : ∀ c ∈ digits, c ∈ r.alphabet) :
  r.unmarked digits = digits
  := by
  rw [unmarked.eq_def]
  split
  · next c rest =>
    rw [if_neg]
    intro hletter
    apply r.letter_notMem c hletter (h c _)
    exact .tail _ (.head _)
  · rfl

/-- A marker that is written is left out, or else counts as a digit that changes nothing. -/
theorem exists_unmarked_append (n : Int) {digits : List Char} (h : ∀ c ∈ digits, c ∈ r.alphabet) :
  ∃ zeros, r.unmarked (r.marker n ++ digits) = List.replicate zeros '0' ++ digits
  := by
  rw [marker]
  split
  · next letter hletter => exact ⟨0, if_pos hletter⟩
  · split
    · exact ⟨1, unmarked_of_digits (mem_alphabet_zeros_append 1 h)⟩
    · exact ⟨0, unmarked_of_digits h⟩

/-- A marker in front of digits begins with no sign. -/
theorem exists_marked_eq_cons (alternate : Bool) (n : Int) {digits : List Char}
    (hne : digits ≠ []) (h : ∀ c ∈ digits, c ∈ r.alphabet) :
  ∃ c rest, (if alternate then r.marker n else []) ++ digits = c :: rest ∧
    c ∉ ['-', '+', ' ']
  := by
  obtain ⟨d, digits, rfl⟩ := List.exists_cons_of_ne_nil hne
  have hd : d ∉ ['-', '+', ' '] := fun hsign => r.sign_notMem d hsign (h d (.head _))
  cases alternate
  · exact ⟨d, digits, rfl, hd⟩
  · rw [if_pos rfl, marker]
    split
    · exact ⟨'0', _, rfl, by decide⟩
    · split
      · exact ⟨'0', _, rfl, by decide⟩
      · exact ⟨d, digits, rfl, hd⟩

/-- A sign, a marker and the digits of the absolute value are read as the number, whether the
marker is written or not. -/
theorem read?_append {n : Int} {digits : List Char} (hne : digits ≠ [])
    (hmem : ∀ c ∈ digits, c ∈ r.alphabet) (hvalue : r.value digits = n.natAbs) (sign : Sign)
    (alternate : Bool) :
  r.read? (signText (n < 0) sign ++ (if alternate then r.marker n else []) ++ digits) = some n
  := by
  obtain ⟨c, rest, hcons, hc⟩ := r.exists_marked_eq_cons alternate n hne hmem
  have hunmarked : ∃ zeros, r.unmarked ((if alternate then r.marker n else []) ++ digits) =
      List.replicate zeros '0' ++ digits := by
    cases alternate
    · exact ⟨0, unmarked_of_digits hmem⟩
    · apply exists_unmarked_append n hmem
  obtain ⟨zeros, hunmarked⟩ := hunmarked
  have hdigits : List.replicate zeros '0' ++ digits ≠ [] ∧
      (List.replicate zeros '0' ++ digits).all r.alphabet.contains := by
    constructor
    · simp [hne]
    · rw [List.all_eq_true]
      intro d hd
      apply List.contains_iff_mem.mpr
      apply mem_alphabet_zeros_append zeros hmem d hd
  rw [List.append_assoc, hcons, read?, Numeral.readSign_signText _ _ hc, ← hcons]
  dsimp only
  rw [hunmarked, if_pos hdigits, value_zeros_append, hvalue]
  by_cases hn : n < 0
  · rw [decide_eq_true hn, if_pos rfl]
    congr 1
    omega
  · rw [decide_eq_false hn, if_neg Bool.false_ne_true]
    congr 1
    omega

/-- A numeral with a sign and a marker, and with zeros in between, is read as its number. -/
theorem IsNumeral.read?_eq {n : Int} {digits : List Char} (h : r.IsNumeral n.natAbs digits)
    (sign : Sign) (alternate : Bool) (zeros : Nat) :
  r.read? (signText (n < 0) sign ++ (if alternate then r.marker n else []) ++
    List.replicate zeros '0' ++ digits) = some n
  := by
  rw [List.append_assoc]
  apply read?_append
  · simp [h.ne_nil]
  · apply mem_alphabet_zeros_append zeros h.mem_alphabet
  · rw [value_zeros_append, h.value_eq]

end Radix

/-! ### Fields of integers -/

theorem Argument.isBuiltin_of_integer? {argument : Argument H} {n : Int}
    (h : argument.integer? = some n) :
  argument.IsBuiltin
  := by
  cases argument
  case none | custom => cases h
  all_goals constructor <;> rintro ⟨⟩

theorem Argument.rendering_of_integer? {argument : Argument H} {n : Int}
    (h : argument.integer? = some n) (d : Directive) (locale : Locale) :
  argument.rendering d locale = (Rendering.ofInteger d locale n).mapError .error
  := by
  cases argument
  case int32 | uint32 | int64 | uint64 =>
    cases h
    rfl
  all_goals cases h

/-- An integer is rendered as its sign and base marker and the numeral of its absolute value, in
the radix of the presentation. -/
theorem Argument.exists_rendering_of_radix {argument : Argument H} {n : Int}
    (hargument : argument.integer? = some n) {d : Directive} {r : Radix}
    (hr : Radix.ofPresentation? d.presentation = some r) (locale : Locale) :
  ∃ digits, r.IsNumeral n.natAbs digits ∧
    argument.rendering d locale = .ok (.ofDirective d .right
      (signText (n < 0) d.sign ++ if d.alternate then r.marker n else []) digits)
  := by
  obtain ⟨digits, hdigits, hnumeral⟩ := Radix.isNumeral_integerDigits hr locale n.natAbs
  have hchar : d.presentation ≠ some .char := by
    intro hchar
    rw [hchar] at hr
    cases hr
  have hinteger : Rendering.ofInteger d locale n = .ok (.ofDirective d .right
      (signText (n < 0) d.sign ++ if d.alternate then r.marker n else []) digits) := by
    rw [Rendering.ofInteger]
    split
    · next h => cases hchar h
    · rw [hdigits, ← Radix.baseMarker_eq hr]
  refine ⟨digits, hnumeral, ?_⟩
  rw [rendering_of_integer? hargument, hinteger]
  rfl

/-- Where the zero flag is in effect, the fill is the digit zero and stands in front of the
digits. -/
theorem readDirective_zeroPad {kind : Kind} {spec : List Char} {args : Arguments H}
    {numbering after : Numbering} {d : Directive}
    (h : readDirective kind spec args numbering = .ok (d, after)) (hzero : d.zeroPad = true) :
  d.fill = '0' ∧ d.align = some .numeric
  := by
  obtain ⟨read, _, hresolve, _⟩ := readDirective_iff.mp h
  obtain ⟨width, _, hresolve⟩ := bind_eq_ok_iff.mp hresolve
  obtain ⟨precision, _, hresolve⟩ := bind_eq_ok_iff.mp hresolve
  cases hresolve
  have hzero : (read.zero && read.align.isNone) = true := hzero
  rw [hzero]
  exact ⟨rfl, rfl⟩

/-- Where the zero flag is in effect, the padding consists of zeros in front of the digits. -/
theorem padded_of_readDirective {kind : Kind} {spec : List Char} {args : Arguments H}
    {numbering after : Numbering} {d : Directive}
    (hd : readDirective kind spec args numbering = .ok (d, after)) (lead body : List Char) :
  padded d.fill (d.alignOr .right) d.width lead body =
    if d.zeroPad then lead ++ List.replicate (d.width - (lead ++ body).length) '0' ++ body
    else padded d.fill (d.alignOr .right) d.width lead body
  := by
  cases hzero : d.zeroPad with
  | false => rfl
  | true =>
    obtain ⟨hfill, halign⟩ := readDirective_zeroPad hd hzero
    rw [hfill, Directive.alignOr, halign]
    rfl

/-- An integer in a field with a legal specifier, in a base and without the separators of a locale.
Its text is a sign, a base marker if this is asked for, and the numeral of its absolute value;
under the zero flag, which an alignment turns off, zeros make it as long as the width. With or
without them, the text is read as the integer. -/
theorem formatField_integer_readsBack {argument : Argument H} {n : Int}
    (hargument : argument.integer? = some n) {spec : List Char} {args : Arguments H}
    {numbering after : Numbering} {d : Directive}
    (hd : readDirective argument.kind spec args numbering = .ok (d, after)) {r : Radix}
    (hr : Radix.ofPresentation? d.presentation = some r) (locale : Locale) (world : World H) :
  let emission := formatField argument spec args locale numbering world
  let sign := if n < 0 then ['-'] else d.sign.text
  let lead := sign ++ if d.alternate then r.marker n else []
  ∃ digits, r.IsNumeral n.natAbs digits ∧
    (d.width = 0 →
      emission.success? = some (lead ++ digits, after) ∧ r.read? (lead ++ digits) = some n) ∧
    (d.zeroPad = true →
      let zeros := List.replicate (d.width - (lead ++ digits).length) '0'
      emission.success? = some (lead ++ zeros ++ digits, after) ∧
        r.read? (lead ++ zeros ++ digits) = some n)
  := by
  intro emission sign lead
  obtain ⟨digits, hnumeral, hrendering⟩ := argument.exists_rendering_of_radix hargument hr locale
  have hsign : signText (n < 0) d.sign = sign := signText_eq n d.sign
  rw [hsign] at hrendering
  have htext : emission.success? =
      some (padded d.fill (d.alignOr .right) d.width lead digits, after) := by
    have hbuiltin : formatField argument spec args locale numbering =
        formatBuiltin argument spec args locale numbering := by
      cases argument
      case none | custom => cases hargument
      all_goals rfl
    have hput : (argument.put d locale world).success? =
        some (padded d.fill (d.alignOr .right) d.width lead digits, ()) :=
      Argument.success?_put_iff.mpr ⟨_, hrendering, rfl⟩
    simp only [emission]
    rw [hbuiltin, formatBuiltin_of_ok hd, Formatter.success?_bind, hput, Option.bind_some]
    dsimp only
    rw [Formatter.success?_pure, Option.map_some, List.append_nil]
  have hread (zeros : Nat) :
      r.read? (lead ++ List.replicate zeros '0' ++ digits) = some n := by
    have hread := hnumeral.read?_eq d.sign d.alternate zeros
    rwa [hsign] at hread
  refine ⟨digits, hnumeral, fun hwidth => ⟨?_, ?_⟩, fun hzero => ⟨?_, hread _⟩⟩
  · rw [htext, hwidth, padded_zero]
  · rw [← List.append_nil lead]
    apply hread 0
  · obtain ⟨hfill, halign⟩ := readDirective_zeroPad hd hzero
    rw [htext, hfill, Directive.alignOr, halign]
    rfl

/-- The smallest integer of 64 bits in base sixteen, with its marker, under the zero flag. -/
theorem formatField_integer_readsBack_smallest :
  let argument : Argument ⟨Unit, Unit⟩ := .int64 (-9223372036854775808)
  let args : Arguments ⟨Unit, Unit⟩ := .empty
  let spec := ['#', '0', '2', '1', 'X']
  let text := ['-', '0', 'X', '0', '0'] ++ '8' :: List.replicate 15 '0'
  let d : Directive :=
    { fill := '0', align := some .numeric, alternate := true, zeroPad := true, width := 21,
      presentation := some .hexUpper, zeroWritten := true,
      places := { zero := 1, precision := 4, presentation := 4 } }
  let r : Radix :=
    { alphabet := ['0', '1', '2', '3', '4', '5', '6', '7', '8', '9', 'A', 'B', 'C', 'D', 'E', 'F']
      letter := some 'X' }
  argument.integer? = some (-9223372036854775808) ∧
    readDirective argument.kind spec args .undecided = .ok (d, .undecided) ∧
    Radix.ofPresentation? d.presentation = some r ∧
    (formatField argument spec args .c .undecided ⟨none, ()⟩).success? =
      some (text, .undecided) ∧
    r.read? text = some (-9223372036854775808)
  := by
  intro argument args spec text d r
  have hargument : argument.integer? = some (-9223372036854775808) := by decide
  have hd : readDirective argument.kind spec args .undecided = .ok (d, .undecided) := by rfl
  have hr : Radix.ofPresentation? d.presentation = some r := rfl
  obtain ⟨digits, hnumeral, _, hzero⟩ :=
    formatField_integer_readsBack hargument hd hr .c ⟨none, ()⟩
  obtain ⟨htext, hread⟩ := hzero rfl
  have hput : (formatField argument spec args .c .undecided ⟨none, ()⟩).success? =
      some (text, .undecided) := by
    decide +kernel
  rw [(Prod.mk.inj (Option.some.inj (htext.symm.trans hput))).1] at hread
  exact ⟨hargument, hd, hr, hput, hread⟩

end BraceFormat
