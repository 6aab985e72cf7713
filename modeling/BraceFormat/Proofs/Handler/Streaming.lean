import BraceFormat.Proofs.Formatter
import BraceFormat.Proofs.Handler.Display
import BraceFormat.Proofs.Handler.Failure
import BraceFormat.Proofs.Specifier.ReferenceFree

/-!
# Values that write themselves are texts

In a field whose specifier has no references, a value that writes itself as text cannot be told
from the text: every sink receives the same from both, and both end in the same way. If the code
of the value fails, a sink has received what was written before, cut to the precision, or nothing
if there is a width (`formatField_streams`).

A value that writes itself for inspection has two texts, and `#` asks for the second one. Apart
from that the flag does nothing: the specifier is read as the one without it.
-/

namespace BraceFormat

variable {H : Host} {α : Type}

/-! ### What sinks receive -/

namespace Formatter

/-- The sink after a formatter has put its output there, and how the formatter ended. -/
def received (f : Formatter H α) (sink : Sink) (world : World H) : Sink × Except Failure α :=
  ((f.into sink world).1, (f.into sink world).2.result)

variable {f g : Formatter H α} {sink : Sink} {world : World H}

theorem received_eq (f : Formatter H α) (sink : Sink) (world : World H) :
  f.received sink world = (sink.append (outputText (f world).spans), (f world).result)
  := by
  rw [received, into, ← Sink.absorb_eq_append]
  apply congrArg (Prod.mk _) (congrFun Except.map_id _)

theorem received_of_success? {text : List Char} {a : α}
    (h : (f world).success? = some (text, a)) :
  f.received sink world = (sink.append text, .ok a)
  := by
  rw [received_eq]
  rw [Emission.success?] at h
  split at h <;> cases h
  next hresult => rw [hresult]

/-- A change of errors changes nothing that a sink receives. -/
theorem received_mapError (k : FormatError → FormatError) :
  (f.mapError k).received sink world =
    ((f.received sink world).1, (f.received sink world).2.mapError (Failure.mapError k))
  := by
  rw [received_eq, received_eq]
  rfl

/-- After a failure a sink receives nothing more. -/
theorem received_bind_of_error {β : Type} {failure : Failure}
    (h : (f world).result = .error failure) (k : α → Formatter H β) :
  (f >>= k).received sink world = ((f.received sink world).1, .error failure)
  := by
  have hresult : ((f >>= k) world).result = .error failure :=
    result_bind_error_iff.mpr (.inl h)
  rw [received_eq, received_eq, spans_bind_of_error h, hresult]

end Formatter

namespace Writer

/-- The writer writes a text and then fails, in whatever world. -/
def FailsAfter (writer : Writer H) (text : List Char) : Prop :=
  ∀ world, (writer world).chunks.flatten = text ∧ (writer world).failed = true

/-- A sink has received what was written before the failure, cut to the precision, unless a width
had the text measured first. -/
theorem FailsAfter.received_format {writer : Writer H} {text : List Char}
    (h : writer.FailsAfter text) (d : Directive) (sink : Sink) (world : World H) :
  (writer.format d).received sink world =
    (if d.width = 0 then sink.append (truncated d.precision text) else sink,
      .error (.error (.unplaced .formatterFailed)))
  := by
  obtain ⟨hchunks, hfailed⟩ := h world
  have hstream : (writer.stream d.precision world).result =
      .error (.error (.unplaced .formatterFailed)) := stream_fails_iff.mpr ⟨hfailed, rfl⟩
  have hmeasure : (writer.measure d.precision world).result =
      .error (.error (.unplaced .formatterFailed)) := measure_fails_iff.mpr ⟨hfailed, rfl⟩
  rw [format]
  split
  · rw [Formatter.received_eq, hstream, stream, outputText_passAll, hchunks]
  · rw [Formatter.received_bind_of_error hmeasure]
    rfl

end Writer

/-! ### Directives that are legal for text -/

namespace Directive

/-- What is illegal for text is so at the place of the part that makes it illegal. -/
theorem check_text_of_places {d : Directive} (places : Places) (move : Nat → Nat)
    (halternate : d.alternate = false)
    (hsign : d.signWritten = true → places.sign = move d.places.sign)
    (hzero : d.zeroWritten = true → places.zero = move d.places.zero)
    (halign : d.zeroWritten = false → d.align = some .numeric →
      places.align = move d.places.align)
    (hpresentation : d.presentation ≠ none →
      places.presentation = move d.places.presentation) :
  { d with places }.check .text =
    (d.check .text).mapError fun e => { e with offset := e.offset.map move }
  := by
  have hflags : { d with places }.refuseNumericFlags =
      d.refuseNumericFlags.mapError fun e => { e with offset := e.offset.map move } := by
    simp only [refuseNumericFlags, halternate]
    cases hs : d.signWritten
    · cases hz : d.zeroWritten
      · by_cases ha : d.align = some .numeric
        · simp only [ha, halign hz ha]
          rfl
        · simp only [ha, if_false]
          rfl
      · simp only [hzero hz]
        rfl
    · simp only [hsign hs]
      rfl
  rw [check, check]
  dsimp only
  split
  · apply hflags
  · apply hflags
  · next h =>
    rw [unsupported, unsupported, hpresentation (h ▸ Option.some_ne_none _)]
    rfl

end Directive

namespace WrittenSpecifier

/-- The specifier without the flag `#`. -/
def plain (s : WrittenSpecifier) : WrittenSpecifier := { s with alternate := false }

/-- Where a place in the specifier without the flag `#` lies with it. -/
def placeBehindFlag (s : WrittenSpecifier) (place : Nat) : Nat :=
  if s.alternate ∧ s.places.alternate ≤ place then place + 1 else place

/-- An error in the specifier without the flag `#`, as one with it. -/
def errorBehindFlag (s : WrittenSpecifier) (e : FormatError) : FormatError :=
  { e with offset := e.offset.map s.placeBehindFlag }

theorem wellFormed_plain {s : WrittenSpecifier} (hs : s.WellFormed) :
  s.plain.WellFormed
  := ⟨hs.fill_align, hs.width, hs.width_zero, hs.precision⟩

theorem withoutReferences_plain {s : WrittenSpecifier} (hs : s.WithoutReferences) :
  s.plain.WithoutReferences
  := ⟨hs.width, hs.precision⟩

variable {s : WrittenSpecifier} {place : Nat}

theorem placeBehindFlag_of_lt (h : place < s.places.alternate) :
  s.placeBehindFlag place = place
  := by
  apply if_neg
  rintro ⟨_, hle⟩
  omega

theorem placeBehindFlag_of_le (h : s.places.alternate ≤ place) :
  s.placeBehindFlag place = place + byteLength s.alternateSource
  := by
  rw [placeBehindFlag, alternateSource]
  cases s.alternate
  · rfl
  · apply if_pos ⟨rfl, h⟩

/-- The parts in front of the flag `#` are not moved by it, those behind it are. -/
theorem places_plain (s : WrittenSpecifier) :
  (s.sign.isSome = true → s.places.sign = s.placeBehindFlag s.plain.places.sign) ∧
    s.places.zero = s.placeBehindFlag s.plain.places.zero ∧
    (s.align ≠ none → s.places.align = s.placeBehindFlag s.plain.places.align) ∧
    s.places.presentation = s.placeBehindFlag s.plain.places.presentation
  := by
  have hplace : s.places.alternate = byteLength s.fill.toList +
      byteLength (s.align.map Align.letter).toList + byteLength s.signSource := by
    simp only [places, alignSource, byteLength_append]
  have hzero : s.plain.places.zero = s.places.alternate := by
    simp only [places, alternateSource, plain, List.append_nil, Bool.false_eq_true, if_false]
    rfl
  have hpresentation : s.plain.places.presentation = s.places.alternate +
      byteLength (s.zeroSource ++ (s.widthSource ++ s.precisionSource)) := by
    simp only [places, precisionPlace, widthPlace, byteLength_append, ← Nat.add_assoc]
    rfl
  have hletter (c : Char) : 0 < byteLength [c] := by
    simpa using c.utf8Size_pos
  refine ⟨fun hsign => ?_, ?_, fun halign => ?_, ?_⟩
  · obtain ⟨sign, hsign⟩ := Option.isSome_iff_exists.mp hsign
    have hsource : s.signSource = [sign.letter] := by
      rw [signSource, hsign]
      rfl
    have hplain : s.plain.places.sign = byteLength s.alignSource :=
      if_pos (Option.isSome_iff_exists.mpr ⟨sign, hsign⟩)
    have hlt : s.plain.places.sign < s.places.alternate := by
      have hletter := hletter sign.letter
      rw [hplain]
      simp only [places, byteLength_append, hsource]
      omega
    rw [placeBehindFlag_of_lt hlt]
    rfl
  · rw [hzero, placeBehindFlag_of_le (Nat.le_refl _)]
    simp only [places, byteLength_append, Nat.add_assoc]
  · obtain ⟨align, halign⟩ := Option.ne_none_iff_exists'.mp halign
    have hlt : s.plain.places.align < s.places.alternate := by
      have hletter := hletter align.letter
      rw [hplace, halign]
      simp only [places, plain, Option.map_some, Option.toList_some]
      omega
    rw [placeBehindFlag_of_lt hlt]
    rfl
  · rw [hpresentation, placeBehindFlag_of_le (Nat.le_add_right _ _)]
    simp only [places, precisionPlace, widthPlace, byteLength_append]
    omega

/-- Without the flag `#` a specifier is legal for text as it is apart from the flag. -/
theorem check_text_plain (s : WrittenSpecifier) :
  { s.ownDirective with alternate := false }.check .text =
    (s.plain.ownDirective.check .text).mapError s.errorBehindFlag
  := by
  obtain ⟨hsign, hzero, halign, hpresentation⟩ := s.places_plain
  apply Directive.check_text_of_places (d := s.plain.ownDirective) s.places s.placeBehindFlag rfl
    hsign (fun _ => hzero) _ (fun _ => hpresentation)
  intro hflag hnumeric
  apply halign
  have hzero : s.zero = false := hflag
  have hnumeric : (if s.zero && s.align.isNone then some .numeric else s.align) =
      some Align.numeric := hnumeric
  rw [hzero, Bool.false_and, if_neg Bool.false_ne_true] at hnumeric
  rw [hnumeric]
  apply Option.some_ne_none

end WrittenSpecifier

/-! ### Fields -/

/-- The handler of values that write themselves reads the specifier of its field as a text does. -/
theorem readDirective_text {spec : List Char} (hspec : ReferenceFree spec) (args : Arguments H)
    (numbering : Numbering) :
  readDirective .text spec args numbering =
    (Handler.readTextual spec).map fun d => (d, numbering)
  := by
  rw [readDirective_of_referenceFree hspec, Handler.readTextual]
  rcases Directive.readStandalone spec with e | d
  · rfl
  · change (d.check .text >>= fun _ => pure (d, numbering)) =
      (d.check .text >>= fun _ => pure d).map _
    cases d.check .text <;> rfl

section Fields

variable {spec : List Char} {args : Arguments H} {locale : Locale} {numbering : Numbering}
  {sink : Sink} {world : World H} {value : H.Value}

/-- A text is put out as its directive says. -/
theorem received_text {d : Directive} {after : Numbering}
    (h : readDirective .text spec args numbering = .ok (d, after)) (text : List Char) :
  (formatField (.text text) spec args locale numbering).received sink world =
    (sink.append (outputText ((Rendering.ofText d text).spans d.width)), .ok after)
  := by
  apply Formatter.received_of_success?
  apply success?_formatField_text_iff.mpr
  exact ⟨d, after, h, rfl⟩

theorem received_text_error {e : FormatError}
    (h : readDirective .text spec args numbering = .error e) (text : List Char) :
  (formatField (.text text) spec args locale numbering).received sink world =
    (sink, .error (.error e))
  := by
  change (formatBuiltin (.text text) spec args locale numbering).received sink world = _
  rw [formatBuiltin, show (Argument.text text : Argument H).kind = .text from rfl, h]
  rfl

/-- What a writer writes is put out as a directive that is legal for text says. -/
theorem Writer.Writes.received_format {writer : Writer H} {text : List Char}
    (h : writer.Writes text) {d : Directive} (halign : d.align ≠ some .numeric) :
  ((writer.format d) >>= fun _ => return numbering : Formatter H Numbering).received sink world =
    (sink.append (outputText ((Rendering.ofText d text).spans d.width)), .ok numbering)
  := by
  apply Formatter.received_of_success?
  rw [Formatter.success?_bind, h.success?_format halign, Option.bind_some]
  dsimp only
  rw [Formatter.success?_pure, Option.map_some, List.append_nil]

/-- A value that writes itself is put out as its handler reads the specifier. -/
theorem formatField_ofReader {Spec : Type} {read : List Char → Except FormatError Spec}
    {format : H.Value → Spec → Formatter H Unit} (hspec : ReferenceFree spec) :
  formatField (.custom value (Handler.ofReader read format)) spec args locale numbering =
    Formatter.ofChecked (read spec) >>= fun d => format value d >>= fun _ => return numbering
  := by
  change formatCustom value (Handler.ofReader read format) spec args numbering = _
  rw [formatCustom_of_referenceFree hspec, Handler.format_ofReader, bind_assoc]

/-- A value that fails does not get to the end of its field. -/
theorem Writer.FailsAfter.received_bind {writer : Writer H} {text : List Char}
    (h : writer.FailsAfter text) (d : Directive) :
  (writer.format d >>= fun _ => return numbering : Formatter H Numbering).received sink world =
    (if d.width = 0 then sink.append (truncated d.precision text) else sink,
      .error (.error (.unplaced .formatterFailed)))
  := by
  have hreceived := h.received_format d sink world
  have hresult : (writer.format d world).result = .error (.error (.unplaced .formatterFailed)) := by
    rw [Formatter.received_eq] at hreceived
    exact (Prod.mk.inj hreceived).2
  rw [Formatter.received_bind_of_error hresult, hreceived]

theorem received_display {writer : H.Value → Writer H} {text : List Char}
    (hspec : ReferenceFree spec) (h : (writer value).Writes text) :
  (formatField (.custom value (Handler.display writer)) spec args locale numbering).received
      sink world =
    (formatField (.text text) spec args locale numbering).received sink world
  := by
  have hdirective := readDirective_text hspec args numbering
  rw [Handler.display, formatField_ofReader hspec]
  rcases hread : Handler.readTextual spec with e | d
  · rw [hread] at hdirective
    rw [received_text_error hdirective]
    rfl
  · rw [hread] at hdirective
    obtain ⟨_, _, _, hcheck⟩ := readDirective_iff.mp hdirective
    rw [received_text hdirective]
    apply h.received_format (Directive.check_text_iff.mp hcheck).2.2.2.2

theorem received_display_of_failsAfter {writer : H.Value → Writer H} {text : List Char}
    {d : Directive} {after : Numbering} (hspec : ReferenceFree spec)
    (h : (writer value).FailsAfter text)
    (hd : readDirective .text spec args numbering = .ok (d, after)) :
  (formatField (.custom value (Handler.display writer)) spec args locale numbering).received
      sink world =
    (if d.width = 0 then sink.append (truncated d.precision text) else sink,
      .error (.error (.unplaced .formatterFailed)))
  := by
  have hdirective := readDirective_text hspec args numbering
  rw [Handler.display, formatField_ofReader hspec]
  rcases hread : Handler.readTextual spec with e | d'
  · rw [hread, hd] at hdirective
    cases hdirective
  · rw [hread, hd] at hdirective
    cases hdirective
    apply h.received_bind d

variable {s : WrittenSpecifier}

/-- The handler of values that write themselves for inspection reads what is legal for text but for
the flag `#`. -/
theorem readInspecting_source (hs : s.WellFormed) (hreferences : s.WithoutReferences) :
  Handler.readInspecting s.source =
    ((s.plain.ownDirective.check .text).mapError s.errorBehindFlag).map fun _ => s.ownDirective
  := by
  rw [Handler.readInspecting, s.readStandalone_source hs hreferences, ← s.check_text_plain]
  change ({ s.ownDirective with alternate := false }.check .text >>=
    fun _ => pure s.ownDirective) = _
  cases { s.ownDirective with alternate := false }.check .text <;> rfl

theorem readDirective_plain (hs : s.WellFormed) (hreferences : s.WithoutReferences) :
  readDirective .text s.plain.source args numbering =
    (s.plain.ownDirective.check .text).map fun _ => (s.plain.ownDirective, numbering)
  := WrittenSpecifier.readDirective_source (s.wellFormed_plain hs)
    (s.withoutReferences_plain hreferences) _ _ _

theorem received_inspect {writer : Bool → H.Value → Writer H} {text : List Char}
    (hs : s.WellFormed) (hspec : ReferenceFree s.source)
    (h : (writer s.alternate value).Writes text) :
  (formatField (.custom value (Handler.inspect writer)) s.source args locale numbering).received
      sink world =
    ((formatField (.text text) s.plain.source args locale numbering).mapError
      s.errorBehindFlag).received sink world
  := by
  have hreferences := WrittenSpecifier.withoutReferences_of_referenceFree hspec
  have hdirective : readDirective .text s.plain.source args numbering = _ :=
    readDirective_plain hs hreferences
  have hread := readInspecting_source hs hreferences
  rw [Handler.inspect, formatField_ofReader hspec, hread, Formatter.received_mapError]
  rcases hcheck : s.plain.ownDirective.check .text with e | _
  · rw [hcheck] at hdirective
    rw [received_text_error hdirective]
    rfl
  · rw [hcheck] at hdirective
    rw [received_text hdirective]
    apply h.received_format (Directive.check_text_iff.mp hcheck).2.2.2.2

theorem received_inspect_of_failsAfter {writer : Bool → H.Value → Writer H} {text : List Char}
    {d : Directive} {after : Numbering} (hs : s.WellFormed) (hspec : ReferenceFree s.source)
    (h : (writer s.alternate value).FailsAfter text)
    (hd : readDirective .text s.plain.source args numbering = .ok (d, after)) :
  (formatField (.custom value (Handler.inspect writer)) s.source args locale numbering).received
      sink world =
    (if d.width = 0 then sink.append (truncated d.precision text) else sink,
      .error (.error (.unplaced .formatterFailed)))
  := by
  have hreferences := WrittenSpecifier.withoutReferences_of_referenceFree hspec
  rw [readDirective_plain hs hreferences] at hd
  rw [Handler.inspect, formatField_ofReader hspec, readInspecting_source hs hreferences]
  rcases hcheck : s.plain.ownDirective.check .text with e | _
  · rw [hcheck] at hd
    cases hd
  · rw [hcheck] at hd
    cases hd
    apply h.received_bind s.ownDirective

/-- A specifier that is ill-formed is an error for each value that writes itself. -/
theorem received_inspect_of_read_error {writer : Bool → H.Value → Writer H} {e : FormatError}
    (hspec : ReferenceFree spec)
    (hread : ∀ numbering, Specifier.read spec numbering = (.error e, numbering)) :
  (formatField (.custom value (Handler.inspect writer)) spec args locale numbering).received
      sink world = (sink, .error (.error e))
  := by
  have hinspect : Handler.readInspecting spec = .error e := by
    rw [Handler.readInspecting, Directive.readStandalone, hread]
    rfl
  rw [Handler.inspect, formatField_ofReader hspec, hinspect]
  rfl

end Fields

/-- In a field without references, a value that writes a text is put out as the text is: a sink
receives the same and the field ends in the same way. If the value fails after its text, then where
the specifier is legal for text the field fails with it; a sink has received the text cut to the
precision, or nothing if there is a width.

The same holds of a value that writes itself for inspection, whose text is chosen by the flag `#`,
with the specifier without the flag. Errors behind the flag lie one byte further on; a specifier
that is ill-formed is the same error in both fields. -/
theorem formatField_streams {spec : List Char} (hspec : ReferenceFree spec) (value : H.Value)
    (args : Arguments H) (locale : Locale) (numbering : Numbering) (sink : Sink)
    (world : World H) :
  let field (argument : Argument H) (spec : List Char) : Formatter H Numbering :=
    formatField argument spec args locale numbering
  let failed (d : Directive) (text : List Char) : Sink × Except Failure Numbering :=
    (if d.width = 0 then sink.append (truncated d.precision text) else sink,
      .error (.error (.unplaced .formatterFailed)))
  (∀ (writer : H.Value → Writer H) (text : List Char),
    ((writer value).Writes text →
      (field (.custom value (Handler.display writer)) spec).received sink world =
        (field (.text text) spec).received sink world) ∧
    ((writer value).FailsAfter text →
      ∀ d after, readDirective .text spec args numbering = .ok (d, after) →
        (field (.custom value (Handler.display writer)) spec).received sink world =
          failed d text)) ∧
  ((∃ e, ∀ (writer : Bool → H.Value → Writer H) (text : List Char),
      (field (.custom value (Handler.inspect writer)) spec).received sink world =
        (sink, .error (.error e)) ∧
      (field (.text text) spec).received sink world = (sink, .error (.error e))) ∨
    ∃ s : WrittenSpecifier, s.WellFormed ∧ spec = s.source ∧
      ∀ (writer : Bool → H.Value → Writer H) (text : List Char),
        ((writer s.alternate value).Writes text →
          (field (.custom value (Handler.inspect writer)) spec).received sink world =
            ((field (.text text) s.plain.source).mapError s.errorBehindFlag).received
              sink world) ∧
        ((writer s.alternate value).FailsAfter text →
          ∀ d after, readDirective .text s.plain.source args numbering = .ok (d, after) →
            (field (.custom value (Handler.inspect writer)) spec).received sink world =
              failed d text))
  := by
  intro field failed
  constructor
  · intro writer text
    constructor
    · intro h
      apply received_display hspec h
    · intro h d after hd
      apply received_display_of_failsAfter hspec h hd
  · rcases hspec.read_error_or_source with ⟨e, hread⟩ | ⟨s, hs, _, rfl⟩
    · left
      refine ⟨e, fun writer text => ⟨?_, ?_⟩⟩
      · apply received_inspect_of_read_error hspec hread
      · apply received_text_error (readDirective_of_read_error (hread numbering) .text args)
    · right
      refine ⟨s, hs, rfl, fun writer text => ⟨?_, ?_⟩⟩
      · intro h
        apply received_inspect hs hspec h
      · intro h d after hd
        apply received_inspect_of_failsAfter hs hspec h hd

/-- A text in two chunks, with a precision that ends within a character of the second one. -/
theorem formatField_streams_chunks :
  let writer : Unit → Writer ⟨Unit, Unit⟩ := fun _ world => ⟨[['a'], ['b', 'é', 'c']], false, world⟩
  let failing : Unit → Writer ⟨Unit, Unit⟩ := fun _ world =>
    ⟨[['a'], ['b', 'é', 'c']], true, world⟩
  let text := ['a', 'b', 'é', 'c']
  let spec := ['^', '5', '.', '3']
  let field (argument : Argument ⟨Unit, Unit⟩) : Formatter ⟨Unit, Unit⟩ Numbering :=
    formatField argument spec .empty .c .undecided
  ReferenceFree spec ∧ (writer ()).Writes text ∧ (failing ()).FailsAfter text ∧
    (field (.custom () (Handler.display writer))).received (.text ['|']) ⟨none, ()⟩ =
      (.text ['|', ' ', 'a', 'b', ' ', ' '], .ok .undecided) ∧
    (field (.custom () (Handler.display failing))).received (.text ['|']) ⟨none, ()⟩ =
      (.text ['|'], .error (.error (.unplaced .formatterFailed)))
  := by
  have htext : (formatField (.text ['a', 'b', 'é', 'c']) ['^', '5', '.', '3']
      (.empty : Arguments ⟨Unit, Unit⟩) .c .undecided).received (.text ['|']) ⟨none, ()⟩ =
      (.text ['|', ' ', 'a', 'b', ' ', ' '], .ok .undecided) := by
    rfl
  intro writer failing text spec field
  have hspec : ReferenceFree spec := by
    simp [ReferenceFree, spec]
  have hwrites : (writer ()).Writes text := fun _ => ⟨rfl, rfl⟩
  have hfails : (failing ()).FailsAfter text := fun _ => ⟨rfl, rfl⟩
  obtain ⟨hdisplay, _⟩ := formatField_streams hspec () .empty .c .undecided (.text ['|'])
    (⟨none, ()⟩ : World ⟨Unit, Unit⟩)
  refine ⟨hspec, hwrites, hfails, ?_, ?_⟩
  · exact ((hdisplay writer text).1 hwrites).trans htext
  · exact (hdisplay failing text).2 hfails _ _ rfl

end BraceFormat
