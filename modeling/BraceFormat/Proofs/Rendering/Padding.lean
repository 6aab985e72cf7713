import BraceFormat.Proofs.Handler.Display

/-!
# Padding

A value comes out with its text unchanged and, if this is shorter than the width, with copies of
the fill around it or between its lead and its body (`Rendering.outputText_spans`). What the
lead is, and which fill and alignment apply, depends on the value and its specifier alone
(`Argument.parts_of_rendering`); so what a value looks like under a width is known from what it
looks like without one (`Argument.put_padded`).
-/

namespace BraceFormat

variable {H : Host}

/-! ### Padded texts -/

/-- A text in two parts, padded to a width. Of an odd number of copies in the middle the odd one
goes after the text. -/
def padded (fill : Char) (align : Align) (width : Nat) (lead body : List Char) : List Char :=
  let missing := width - (lead ++ body).length
  match align with
  | .left => (lead ++ body) ++ List.replicate missing fill
  | .right => List.replicate missing fill ++ (lead ++ body)
  | .center =>
    List.replicate (missing / 2) fill ++ (lead ++ body) ++
      List.replicate (missing - missing / 2) fill
  | .numeric => lead ++ List.replicate missing fill ++ body

/-- A padded text is as long as the width, or as the text if this is longer. -/
theorem length_padded (fill : Char) (align : Align) (width : Nat) (lead body : List Char) :
  (padded fill align width lead body).length = max width (lead ++ body).length
  := by
  cases align
  all_goals
    simp only [padded, List.length_append, List.length_replicate]
    omega

/-- Without a width nothing is missing. -/
theorem padded_zero (fill : Char) (align : Align) (lead body : List Char) :
  padded fill align 0 lead body = lead ++ body
  := by
  cases align <;> simp [padded]

/-- A rendering is put out as its two parts, padded to the width. -/
theorem Rendering.outputText_spans (r : Rendering) (width : Nat) :
  outputText (r.spans width) = padded r.fill r.align width r.lead r.body
  := by
  rw [spans]
  split
  · next hwidth =>
    rw [hwidth, padded_zero]
    simp [Span.toList]
  · cases halign : r.align <;> simp [padded, Padding.ofAlign, Span.toList]

/-! ### The parts of a rendering -/

namespace Argument

/-- Whether an argument is shown as text: strings, the words for truth values, characters, and
integers that are shown as characters. -/
def isTextual (argument : Argument H) (presentation : Option Presentation) : Bool :=
  match argument with
  | .text _ => true
  | .byteText _ => presentation ≠ some .pointer
  | .bool _ =>
    presentation = Option.none ∨ presentation = some .string ∨ presentation = some .char
  | .char _ => presentation = Option.none ∨ presentation = some .char
  | .int32 _ | .uint32 _ | .int64 _ | .uint64 _ => presentation = some .char
  | .none | .float _ | .pointer _ | .custom .. => false

/-- Whether an argument is an infinity or no number. -/
def isNonFinite : Argument H → Bool
  | .float v => !v.isFinite
  | _ => false

/-- The lead of an argument: the sign and the base marker of a number, the marker of an address,
and nothing in front of a text. -/
def leadText (argument : Argument H) (d : Directive) : List Char :=
  let integer (n : Int) : List Char :=
    signText (n < 0) d.sign ++ if d.alternate then baseMarker d.presentation n else []
  if argument.isTextual d.presentation then []
  else
    match argument with
    | .bool value => integer value.toNat
    | .char value => integer value.toNat
    | .int32 value => integer value.toInt
    | .uint32 value => integer value.toNat
    | .int64 value => integer value.toInt
    | .uint64 value => integer value.toNat
    | .float value => signText value.negative d.sign
    | .byteText _ | .pointer _ => ['0', 'x']
    | .none | .text _ | .custom .. => []

/-- The alignment of an argument if none is asked for: texts are put to the left, numbers and
addresses to the right. -/
def defaultAlign (argument : Argument H) (presentation : Option Presentation) : Align :=
  if argument.isTextual presentation then .left else .right

theorem leadText_of_isTextual {argument : Argument H} {d : Directive}
    (h : argument.isTextual d.presentation = true) :
  argument.leadText d = []
  := if_pos h

theorem defaultAlign_of_isTextual {argument : Argument H} {presentation : Option Presentation}
    (h : argument.isTextual presentation = true) :
  argument.defaultAlign presentation = .left
  := if_pos h

end Argument

/-- A rendering has the lead and the default alignment that are given, and the fill of a
directive. -/
def Rendering.HasParts (r : Rendering) (d : Directive) (lead : List Char) (default : Align) :
    Prop :=
  r.lead = lead ∧ r.fill = d.fill ∧ r.align = d.alignOr default

/-- An integer has a lead just if it is not shown as a character. -/
theorem Rendering.hasParts_ofInteger {d : Directive} {locale : Locale} {n : Int} {r : Rendering}
    (h : ofInteger d locale n = .ok r) :
  (d.presentation = some .char → r.HasParts d [] .left) ∧
    (d.presentation ≠ some .char →
      r.HasParts d
        (signText (n < 0) d.sign ++ if d.alternate then baseMarker d.presentation n else [])
        .right)
  := by
  rw [ofInteger] at h
  split at h
  · next hchar =>
    split at h <;> cases h
    exact ⟨fun _ => ⟨rfl, rfl, rfl⟩, fun hne => absurd hchar hne⟩
  · next hchar =>
    split at h <;> cases h
    exact ⟨fun heq => absurd heq hchar, fun _ => ⟨rfl, rfl, rfl⟩⟩

/-- An argument other than an infinity or no number has its lead, its default alignment, and the
fill of the directive. -/
theorem Argument.hasParts_of_rendering {argument : Argument H} {d : Directive} {locale : Locale}
    {r : Rendering} (h : argument.rendering d locale = .ok r)
    (hfinite : argument.isNonFinite = false) :
  r.HasParts d (argument.leadText d) (argument.defaultAlign d.presentation)
  := by
  have htext (htextual : argument.isTextual d.presentation = true) (hr : r.HasParts d [] .left) :
      r.HasParts d (argument.leadText d) (argument.defaultAlign d.presentation) := by
    rw [leadText_of_isTextual htextual, defaultAlign_of_isTextual htextual]
    exact hr
  have hinteger {n : Int} (h : (Rendering.ofInteger d locale n).mapError Failure.error = .ok r)
      (htextual : argument.isTextual d.presentation = true ↔ d.presentation = some .char)
      (hlead : argument.isTextual d.presentation ≠ true → argument.leadText d =
        signText (n < 0) d.sign ++ if d.alternate then baseMarker d.presentation n else []) :
      r.HasParts d (argument.leadText d) (argument.defaultAlign d.presentation) := by
    obtain ⟨hchar, hdigits⟩ := Rendering.hasParts_ofInteger (mapError_eq_ok_iff.mp h)
    by_cases hp : argument.isTextual d.presentation = true
    · exact htext hp (hchar (htextual.mp hp))
    · rw [hlead hp, defaultAlign, if_neg hp]
      exact hdigits fun hpresentation => hp (htextual.mpr hpresentation)
  cases argument
  case none => cases h
  case custom => cases h
  case int32 value => exact hinteger h (by simp [isTextual]) fun hp => if_neg hp
  case uint32 value => exact hinteger h (by simp [isTextual]) fun hp => if_neg hp
  case int64 value => exact hinteger h (by simp [isTextual]) fun hp => if_neg hp
  case uint64 value => exact hinteger h (by simp [isTextual]) fun hp => if_neg hp
  case bool value =>
    rw [rendering] at h
    split at h
    · next hp =>
      cases h
      exact htext (by simp [isTextual, hp]) ⟨rfl, rfl, rfl⟩
    · next hp =>
      cases h
      exact htext (by simp [isTextual, hp]) ⟨rfl, rfl, rfl⟩
    · next p hstring hp =>
      have hne : p ≠ .string := hstring
      exact hinteger h (by simp [isTextual, hp, hne]) fun hp => if_neg hp
  case char value =>
    rw [rendering] at h
    split at h
    · next hp =>
      cases h
      exact htext (by simp [isTextual, hp]) ⟨rfl, rfl, rfl⟩
    · next hp =>
      cases h
      exact htext (by simp [isTextual, hp]) ⟨rfl, rfl, rfl⟩
    · next hp => exact hinteger h (by simp [isTextual, hp]) fun hp => if_neg hp
  case float v =>
    have hv : v.isFinite = true := by simpa [isNonFinite] using hfinite
    rw [rendering, Rendering.ofFloat, if_pos hv] at h
    rcases hbody : floatBody d locale v.magnitude with failure | body
    · rw [hbody] at h
      cases h
    · rw [hbody] at h
      cases h
      exact ⟨rfl, rfl, rfl⟩
  case byteText value =>
    obtain rfl : Rendering.ofByteText d value = r := Except.ok.inj h
    by_cases hp : d.presentation = some .pointer
    · have haddress : Rendering.ofByteText d value = .ofAddress d value.address := by
        rw [Rendering.ofByteText, hp]
      have hpointer : (Argument.byteText value : Argument H).isTextual d.presentation ≠ true := by
        simp [isTextual, hp]
      rw [haddress, leadText, defaultAlign, if_neg hpointer, if_neg hpointer]
      exact ⟨rfl, rfl, rfl⟩
    · have htextual : Rendering.ofByteText d value =
          .ofText d (Utf8.decodeLossy value.bytes) := by
        rw [Rendering.ofByteText]
        split
        · next h => cases hp h
        · rfl
      apply htext (by simpa [isTextual] using hp)
      rw [htextual]
      exact ⟨rfl, rfl, rfl⟩
  case text value =>
    cases h
    exact htext rfl ⟨rfl, rfl, rfl⟩
  case pointer value =>
    cases h
    exact ⟨rfl, rfl, rfl⟩

/-- The words for infinities and for no number are padded with spaces on the left where others
are padded with zeros. -/
theorem Argument.parts_of_nonFinite {argument : Argument H} {d : Directive} {locale : Locale}
    {r : Rendering} (h : argument.rendering d locale = .ok r)
    (hnonFinite : argument.isNonFinite = true) :
  r.lead = argument.leadText d ∧ r.fill = (if d.zeroPad then ' ' else d.fill) ∧
    r.align = if d.zeroPad then .right else d.alignOr (argument.defaultAlign d.presentation)
  := by
  cases argument
  case float v =>
    have hv : ¬v.isFinite = true := by simpa [isNonFinite] using hnonFinite
    rw [rendering, Rendering.ofFloat, if_neg hv] at h
    cases h
    cases d.zeroPad <;> exact ⟨rfl, rfl, rfl⟩
  all_goals cases hnonFinite

/-! ### Values under a width -/

/-- What an argument puts out is its rendering, padded. -/
theorem Argument.success?_put_iff {argument : Argument H} {d : Directive} {locale : Locale}
    {world : World H} {text : List Char} :
  (argument.put d locale world).success? = some (text, ()) ↔
    ∃ r, argument.rendering d locale = .ok r ∧
      text = padded r.fill r.align d.width r.lead r.body
  := by
  rw [put]
  rcases argument.rendering d locale with failure | r
  · constructor
    · rintro ⟨⟩
    · rintro ⟨_, ⟨⟩, _⟩
  · have hput : ((Formatter.ofExcept (.ok r) >>= fun rendering =>
        Formatter.write (rendering.spans d.width)) world).success? =
        some (padded r.fill r.align d.width r.lead r.body, ()) := by
      rw [← Rendering.outputText_spans]
      rfl
    rw [hput]
    simp [eq_comm]

/-- A field of an argument puts out its rendering, padded. -/
theorem Argument.success?_formatField {argument : Argument H} (hargument : argument.IsBuiltin)
    {spec : List Char} {args : Arguments H} {numbering after : Numbering} {d : Directive}
    (hd : readDirective argument.kind spec args numbering = .ok (d, after)) {locale : Locale}
    {r : Rendering} (hr : argument.rendering d locale = .ok r) (world : World H) :
  (formatField argument spec args locale numbering world).success? =
    some (padded r.fill r.align d.width r.lead r.body, after)
  := by
  have hput : (argument.put d locale world).success? =
      some (padded r.fill r.align d.width r.lead r.body, ()) :=
    success?_put_iff.mpr ⟨r, hr, rfl⟩
  rw [formatField_of_isBuiltin hargument, formatBuiltin_of_ok hd, Formatter.success?_bind, hput,
    Option.bind_some]
  dsimp only
  rw [Formatter.success?_pure, Option.map_some, List.append_nil]

/-- The width has no part in a rendering. -/
theorem Argument.rendering_of_width (argument : Argument H) (d : Directive) (width : Nat)
    (locale : Locale) :
  argument.rendering { d with width } locale = argument.rendering d locale
  := by
  cases argument
  case float value =>
    rw [rendering, rendering, Rendering.ofFloat, Rendering.ofFloat]
    cases d.zeroPad <;> rfl
  all_goals rfl

/-- The padding law. Let an argument be put out as a resolved specifier says, and let `lead` be
its sign and base marker. Without a width its text consists of the lead and a body; with the
width it is the same text with copies of the fill, as many as are missing, after it, before it,
around it, or between lead and body.

Under an effective zero flag the fill is the digit zero between lead and body, except that
infinities and what is no number have spaces before them. Where no alignment is asked for,
texts are put to the left, numbers and addresses to the right. -/
theorem Argument.put_padded {spec : Specifier} {args : Arguments H} {d : Directive}
    (hd : spec.resolve args = .ok d) {argument : Argument H} {locale : Locale} {world : World H}
    {text : List Char} (h : (argument.put d locale world).success? = some (text, ())) :
  let zero : Bool := spec.zero && spec.align.isNone
  let fill : Char :=
    if zero then if argument.isNonFinite then ' ' else '0' else spec.fill.getD ' '
  let align : Align :=
    if zero then if argument.isNonFinite then .right else .numeric
    else spec.align.getD (if argument.isTextual spec.presentation then .left else .right)
  let lead := argument.leadText d
  ∃ body,
    (argument.put { d with width := 0 } locale world).success? = some (lead ++ body, ()) ∧
      text = padded fill align d.width lead body ∧
      text.length = max d.width (lead ++ body).length
  := by
  intro zero fill align lead
  obtain ⟨r, hr, htext⟩ := success?_put_iff.mp h
  obtain ⟨width, _, hd⟩ := bind_eq_ok_iff.mp hd
  obtain ⟨precision, _, hd⟩ := bind_eq_ok_iff.mp hd
  have hzero : d.zeroPad = zero := by cases hd; rfl
  have hfill : d.fill = if zero then '0' else spec.fill.getD ' ' := by cases hd; rfl
  have halign : d.align = if zero then some .numeric else spec.align := by cases hd; rfl
  have hpresentation : d.presentation = spec.presentation := by cases hd; rfl
  have hparts : r.lead = lead ∧ r.fill = fill ∧ r.align = align := by
    cases hfinite : argument.isNonFinite with
    | false =>
      obtain ⟨hlead, hr, halign'⟩ := hasParts_of_rendering hr hfinite
      refine ⟨hlead, ?_, ?_⟩
      · rw [hr, hfill]
        cases hz : zero <;> simp [fill, hz, hfinite]
      · rw [halign', Directive.alignOr, halign, hpresentation]
        cases hz : zero <;> simp [align, hz, hfinite, defaultAlign]
    | true =>
      obtain ⟨hlead, hr, halign'⟩ := parts_of_nonFinite hr hfinite
      refine ⟨hlead, ?_, ?_⟩
      · rw [hr, hzero, hfill]
        cases hz : zero <;> simp [fill, hz, hfinite]
      · rw [halign', hzero, Directive.alignOr, halign, hpresentation]
        cases hz : zero <;> simp [align, hz, hfinite, defaultAlign]
  obtain ⟨hlead, hfill', halign'⟩ := hparts
  rw [hlead, hfill', halign'] at htext
  refine ⟨r.body, ?_, htext, ?_⟩
  · apply success?_put_iff.mpr
    refine ⟨r, by rw [rendering_of_width, hr], ?_⟩
    rw [padded_zero, hlead]
  · rw [htext, length_padded]

/-- A negative number in base sixteen, with its marker, under the zero flag. -/
theorem Argument.put_padded_hex :
  let spec : Specifier :=
    { alternate := true, zero := true, width := some (.literal 8), presentation := some .hex }
  let d : Directive :=
    { fill := '0', align := some .numeric, alternate := true, zeroPad := true, width := 8,
      presentation := some .hex, zeroWritten := true }
  let argument : Argument ⟨Unit, Unit⟩ := .int32 (-43)
  let world : World ⟨Unit, Unit⟩ := ⟨Option.none, ()⟩
  let text := ['-', '0', 'x', '0', '0', '0', '2', 'b']
  spec.resolve (Arguments.empty (H := ⟨Unit, Unit⟩)) = .ok d ∧
    (argument.put d .c world).success? = some (text, ()) ∧
    ∃ body,
      (argument.put { d with width := 0 } .c world).success? =
        some (['-', '0', 'x'] ++ body, ()) ∧
      text = padded '0' .numeric 8 ['-', '0', 'x'] body ∧ text.length = 8
  := by
  intro spec d argument world text
  have hd : spec.resolve (Arguments.empty (H := ⟨Unit, Unit⟩)) = .ok d := rfl
  have htext : (argument.put d .c world).success? = some (text, ()) := rfl
  obtain ⟨body, hnatural, hpadded, _⟩ := put_padded hd htext
  exact ⟨hd, htext, body, hnatural, hpadded, rfl⟩

end BraceFormat
