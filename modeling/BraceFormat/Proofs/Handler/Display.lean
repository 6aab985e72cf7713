import BraceFormat.Proofs.Field
import BraceFormat.Proofs.Output.Appending

/-!
# Values that write themselves as text

A value that writes some text, in whatever chunks, is put out by its handler as the text would
be (`Writer.success?_format`), if the directive is legal for text. Together with the reading of
the specifier this says what becomes of a field, for a text and for such a value.
-/

namespace BraceFormat

variable {H : Host} {α : Type}

/-- The text and the value of an emission, if it succeeds. -/
def Emission.success? (emission : Emission H α) : Option (List Char × α) :=
  match emission.result with
  | .ok a => some (outputText emission.spans, a)
  | .error _ => none

theorem Formatter.success?_pure (a : α) (world : World H) :
  ((Pure.pure a : Formatter H α) world).success? = some ([], a)
  := rfl

theorem Formatter.success?_write (spans : List Span) (world : World H) :
  (write spans world).success? = some (outputText spans, ())
  := rfl

/-- One formatter after another succeeds with the text of both. -/
theorem Formatter.success?_bind {β : Type} (f : Formatter H α) (g : α → Formatter H β)
    (world : World H) :
  ((f >>= g) world).success? = (f world).success?.bind fun (text, a) =>
    (g a (f world).world).success?.map fun (text', b) => (text ++ text', b)
  := by
  change ((f world).andThen g).success? = _
  rw [Emission.andThen, Emission.success?, Emission.success?]
  rcases (f world).result with failure | a
  · rfl
  · simp only [Option.bind_some, Emission.success?]
    rcases (g a (f world).world).result with failure | b
    · rfl
    · simp only [outputText_append]
      rfl

/-- A change of errors changes nothing else. -/
theorem Formatter.success?_mapError (k : FormatError → FormatError) (f : Formatter H α)
    (world : World H) :
  (f.mapError k world).success? = (f world).success?
  := by
  simp only [mapError, Emission.success?]
  cases (f world).result <;> rfl

namespace Writer

/-- The writer writes a text and does not fail, in whatever world. -/
def Writes (writer : Writer H) (text : List Char) : Prop :=
  ∀ world, (writer world).chunks.flatten = text ∧ (writer world).failed = false

variable {writer : Writer H} {text : List Char}

/-- What passes a limit in chunks is the beginning of the text that the limit allows. -/
theorem outputText_passAll (limit : Limit) (chunks : List (List Char)) :
  outputText (limit.passAll (chunks.map .text)).1 = truncated limit chunks.flatten
  := by
  have hchunks : outputText (chunks.map .text) = chunks.flatten := by
    rw [outputText, List.flatMap_map, ← List.flatMap_id]
    rfl
  have hpass : (limit.passText chunks.flatten).1 =
      outputText (limit.passAll (chunks.map .text)).1 := by
    rw [← hchunks, Limit.passAll_eq]
  rw [← hpass]
  cases limit with
  | none => rfl
  | some room =>
    rw [Limit.passText, truncated]
    split
    · next h => rw [fitting_of_byteLength_le h]
    · rfl

theorem Writes.success?_stream (h : writer.Writes text) (limit : Limit) (world : World H) :
  (writer.stream limit world).success? = some (truncated limit text, ())
  := by
  obtain ⟨hchunks, hfailed⟩ := h world
  rw [← hchunks, ← outputText_passAll]
  simp only [stream, Emission.success?, hfailed]
  rfl

theorem Writes.success?_measure (h : writer.Writes text) (limit : Limit) (world : World H) :
  (writer.measure limit world).success? = some ([], (truncated limit text).length)
  := by
  obtain ⟨hchunks, hfailed⟩ := h world
  rw [← hchunks, ← outputText_passAll]
  simp only [measure, stream, Emission.success?, hfailed]
  rfl

/-- The text that a writer writes is cut and padded as the text is, unless the fill were to
stand within it. -/
theorem Writes.success?_format (h : writer.Writes text) {d : Directive}
    (halign : d.align ≠ some .numeric) (world : World H) :
  (writer.format d world).success? = some (outputText ((Rendering.ofText d text).spans d.width), ())
  := by
  rw [format, Rendering.spans]
  split
  · rw [h.success?_stream]
    simp [Rendering.ofText, Rendering.ofDirective, Span.toList]
  · have hinner : (Padding.ofAlign (d.width - (truncated d.precision text).length)
        (d.alignOr .left)).inner = 0 := by
      rw [Directive.alignOr]
      rcases ha : d.align with _ | (_ | _ | _ | _)
      · rfl
      · rfl
      · rfl
      · rfl
      · cases halign ha
    simp only [Formatter.success?_bind, Formatter.success?_write, h.success?_measure,
      h.success?_stream]
    simp [Rendering.ofText, Rendering.ofDirective, Span.toList, hinner]

end Writer

/-! ### Directives that are legal for text -/

namespace Directive

variable {d : Directive}

/-- What is legal for text has no numeric flag and is presented as a string. -/
theorem check_text_iff :
  d.check .text = .ok () ↔ (d.presentation = none ∨ d.presentation = some .string) ∧
    d.signWritten = false ∧ d.alternate = false ∧ d.zeroWritten = false ∧
    d.align ≠ some .numeric
  := by
  have hflags : d.refuseNumericFlags = .ok () ↔ d.signWritten = false ∧ d.alternate = false ∧
      d.zeroWritten = false ∧ d.align ≠ some .numeric := by
    rw [refuseNumericFlags]
    cases d.signWritten
    · cases d.alternate
      · cases d.zeroWritten
        · simp
        · simp
      · simp
    · simp
  rw [check]
  rcases d.presentation with _ | presentation
  · simpa using hflags
  · cases presentation <;> simp [hflags]

end Directive

/-- The handler of values that write themselves reads a specifier as a field of text does, but
has no arguments to look up. -/
theorem readTextual_iff {text : List Char} {d : Directive} :
  Handler.readTextual text = .ok d ↔
    ∃ after, readDirective .text text (Arguments.empty (H := ⟨Empty, Unit⟩)) .undecided =
      .ok (d, after)
  := by
  simp only [Handler.readTextual, Directive.readStandalone, readDirective_iff,
    bind_eq_ok_iff]
  rcases Specifier.read text .undecided with ⟨e | spec, next⟩
  · constructor
    · rintro ⟨_, ⟨⟩, _⟩
    · rintro ⟨_, _, ⟨⟩, _⟩
  · constructor
    · rintro ⟨d', hd', _, hcheck, ⟨⟩⟩
      exact ⟨next, spec, rfl, hd', hcheck⟩
    · rintro ⟨_, _, ⟨⟩, hd, hcheck⟩
      exact ⟨d, hd, (), hcheck, rfl⟩

namespace Handler

variable {writer : H.Value → Writer H} {value : H.Value} {text : List Char}

theorem display_format_of_ok {d : Directive} (h : readTextual text = .ok d) :
  (display writer).format value text = (writer value).format d
  := by
  rw [display, ofReader]
  simp only [h]

theorem display_format_of_error {e : FormatError} (h : readTextual text = .error e) :
  (display writer).format value text = Formatter.raise e
  := by
  rw [display, ofReader]
  simp only [h]

end Handler

/-! ### Fields -/

section Fields

variable {spec text : List Char} {args : Arguments H} {locale : Locale}
  {numbering after : Numbering}

/-- A field of a text succeeds if its specifier is read for text. -/
theorem success?_formatField_text_iff {world : World H} {result : List Char × Numbering} :
  (formatField (.text text) spec args locale numbering world).success? = some result ↔
    ∃ d after, readDirective .text spec args numbering = .ok (d, after) ∧
      result = (outputText ((Rendering.ofText d text).spans d.width), after)
  := by
  change (formatBuiltin (.text text) spec args locale numbering world).success? = _ ↔ _
  rw [formatBuiltin]
  change ((do
    let read ← Formatter.ofChecked (readDirective .text spec args numbering)
    Formatter.write ((Rendering.ofText read.1 text).spans read.1.width)
    return read.2 : Formatter H Numbering) world).success? = _ ↔ _
  rcases readDirective .text spec args numbering with e | ⟨d, after⟩
  · constructor
    · rintro ⟨⟩
    · rintro ⟨_, _, ⟨⟩, _⟩
  · have hresult : ((do
        Formatter.write ((Rendering.ofText d text).spans d.width)
        return after : Formatter H Numbering) world).success? =
        some (outputText ((Rendering.ofText d text).spans d.width), after) := by
      rw [Formatter.success?_bind, Formatter.success?_write, Option.bind_some]
      dsimp only
      rw [Formatter.success?_pure, Option.map_some, List.append_nil]
    constructor
    · intro h
      exact ⟨d, after, rfl, Option.some.inj (h.symm.trans hresult)⟩
    · rintro ⟨_, _, ⟨⟩, rfl⟩
      apply hresult

/-- A field of a value that writes a text succeeds if its references are replaced and its handler
reads the result. -/
theorem success?_formatField_display_iff {value : H.Value} {writer : H.Value → Writer H}
    (hwriter : (writer value).Writes text) {world : World H} {result : List Char × Numbering} :
  (formatField (.custom value (Handler.display writer)) spec args locale numbering
      world).success? = some result ↔
    ∃ parts d after, Substitution.read args spec numbering = (.ok parts, after) ∧
      Handler.readTextual parts.text = .ok d ∧
      result = (outputText ((Rendering.ofText d text).spans d.width), after)
  := by
  change (formatCustom value (Handler.display writer) spec args numbering world).success? = _ ↔ _
  rw [formatCustom]
  rcases Substitution.read args spec numbering with ⟨e | parts, after⟩
  · constructor
    · rintro ⟨⟩
    · rintro ⟨_, _, _, ⟨⟩, _⟩
  · change ((do
      ((Handler.display writer).format value parts.text).mapError parts.trace
      return after : Formatter H Numbering) world).success? = _ ↔ _
    rw [Formatter.success?_bind, Formatter.success?_mapError]
    rcases hread : Handler.readTextual parts.text with e | d
    · rw [Handler.display_format_of_error hread]
      constructor
      · rintro ⟨⟩
      · rintro ⟨_, _, _, ⟨⟩, h, _⟩
        rw [hread] at h
        cases h
    · obtain ⟨_, hd⟩ := readTextual_iff.mp hread
      obtain ⟨_, _, _, hcheck⟩ := readDirective_iff.mp hd
      have halign := (Directive.check_text_iff.mp hcheck).2.2.2.2
      rw [Handler.display_format_of_ok hread, hwriter.success?_format halign, Option.bind_some]
      dsimp only
      rw [Formatter.success?_pure, Option.map_some, List.append_nil, Option.some.injEq]
      constructor
      · rintro rfl
        exact ⟨parts, d, after, rfl, hread, rfl⟩
      · rintro ⟨_, _, _, ⟨⟩, h, rfl⟩
        rw [hread] at h
        cases h
        rfl

end Fields

end BraceFormat
