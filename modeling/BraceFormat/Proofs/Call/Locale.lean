import BraceFormat.Proofs.Reference.Conflict
import BraceFormat.Proofs.Rendering.Locale
import BraceFormat.Proofs.Specifier.Presentation
import BraceFormat.Proofs.Specifier.ReferenceFree
import BraceFormat.Proofs.Template.Concatenation

/-!
# What calls take from the locale

A call takes from the locale what its fields with the presentation `n` do. Without such a field it
is the same in every locale that is given, and where the values of the host do not ask for the
global locale on their own account, it puts out the same and ends in the same way whichever of
these is installed. In a neutral locale also `n` makes no difference (`run_of_locale`). A value
that does ask for the global locale may show it in any field (`run_globalPoint_ne`).
-/

namespace BraceFormat

variable {H : Host} {α β : Type}

/-! ### Worlds that differ in the locale -/

/-- Emissions that differ at most in the global locale they leave. -/
structure Emission.SameButLocale (a b : Emission H α) : Prop where
  spans : a.spans = b.spans
  events : a.events = b.events
  state : a.world.state = b.world.state
  result : a.result = b.result

namespace Formatter

/-- A formatter does the same whichever global locale is installed. -/
def IgnoresLocale (f : Formatter H α) : Prop :=
  ∀ world world', world.state = world'.state → (f world).SameButLocale (f world')

namespace IgnoresLocale

theorem pure (a : α) :
  IgnoresLocale (Pure.pure a : Formatter H α)
  := fun _ _ h => ⟨rfl, rfl, h, rfl⟩

theorem write (spans : List Span) :
  IgnoresLocale (write spans : Formatter H Unit)
  := fun _ _ h => ⟨rfl, rfl, h, rfl⟩

theorem report (event : Event) :
  IgnoresLocale (report event : Formatter H Unit)
  := fun _ _ h => ⟨rfl, rfl, h, rfl⟩

theorem fail (failure : Failure) :
  IgnoresLocale (fail failure : Formatter H α)
  := fun _ _ h => ⟨rfl, rfl, h, rfl⟩

theorem ofChecked (r : Except FormatError α) :
  IgnoresLocale (ofChecked r : Formatter H α)
  := by
  cases r with
  | error e => apply fail
  | ok a => apply pure

theorem ofExcept (r : Except Failure α) :
  IgnoresLocale (ofExcept r : Formatter H α)
  := by
  cases r with
  | error failure => apply fail
  | ok a => apply pure

theorem bind {f : Formatter H α} {g : α → Formatter H β} (hf : f.IgnoresLocale)
    (hg : ∀ a, (g a).IgnoresLocale) :
  IgnoresLocale (f >>= g)
  := by
  intro world world' h
  obtain ⟨hspans, hevents, hstate, hresult⟩ := hf world world' h
  change ((f world).andThen g).SameButLocale ((f world').andThen g)
  rw [Emission.andThen, Emission.andThen, ← hresult]
  rcases (f world).result with failure | a
  · exact ⟨hspans, hevents, hstate, rfl⟩
  · obtain ⟨hspans', hevents', hstate', hresult'⟩ := hg a _ _ hstate
    constructor
    · dsimp only
      rw [hspans, hspans']
    · dsimp only
      rw [hevents, hevents']
    · apply hstate'
    · apply hresult'

theorem mapError {f : Formatter H α} (hf : f.IgnoresLocale) (k : FormatError → FormatError) :
  IgnoresLocale (f.mapError k)
  := by
  intro world world' h
  obtain ⟨hspans, hevents, hstate, hresult⟩ := hf world world' h
  exact ⟨hspans, hevents, hstate, congrArg (Except.mapError (Failure.mapError k)) hresult⟩

theorem reportingError {f : Formatter H α} (hf : f.IgnoresLocale) :
  IgnoresLocale f.reportingError
  := by
  intro world world' h
  have hsame := hf world world' h
  rw [Formatter.reportingError, Formatter.reportingError]
  generalize f world = a, f world' = b at hsame
  obtain ⟨spans, events, after, result⟩ := a
  obtain ⟨spans', events', after', result'⟩ := b
  obtain ⟨rfl, rfl, hstate, rfl⟩ := hsame
  rcases result with (e | _) | a
  · exact ⟨rfl, rfl, hstate, rfl⟩
  · exact ⟨rfl, rfl, hstate, rfl⟩
  · exact ⟨rfl, rfl, hstate, rfl⟩

end IgnoresLocale

end Formatter

/-! ### Values of the host -/

/-- The code of a value does the same whichever global locale is installed. -/
def Writer.IgnoresLocale (writer : Writer H) : Prop :=
  ∀ world world', world.state = world'.state →
    (writer world).chunks = (writer world').chunks ∧
    (writer world).failed = (writer world').failed ∧
    (writer world).world.state = (writer world').world.state

namespace Writer.IgnoresLocale

variable {writer : Writer H}

theorem stream (h : writer.IgnoresLocale) (limit : Limit) :
  (writer.stream limit).IgnoresLocale
  := by
  intro world world' hworld
  obtain ⟨hchunks, hfailed, hstate⟩ := h world world' hworld
  constructor
  · simp only [Writer.stream, hchunks]
  · rfl
  · apply hstate
  · simp only [Writer.stream, hfailed]

theorem measure (h : writer.IgnoresLocale) (limit : Limit) :
  (writer.measure limit).IgnoresLocale
  := by
  intro world world' hworld
  obtain ⟨hspans, hevents, hstate, hresult⟩ := h.stream limit world world' hworld
  constructor
  · rfl
  · apply hevents
  · apply hstate
  · simp only [Writer.measure, hspans, hresult]

theorem format (h : writer.IgnoresLocale) (d : Directive) :
  (writer.format d).IgnoresLocale
  := by
  rw [Writer.format]
  split
  · apply h.stream
  · apply Formatter.IgnoresLocale.bind (h.measure _)
    intro length
    apply Formatter.IgnoresLocale.bind (.write _)
    intro _
    apply Formatter.IgnoresLocale.bind (h.stream _)
    intro _
    apply Formatter.IgnoresLocale.write

end Writer.IgnoresLocale

/-- An argument is built in, or a value that writes itself as text by code that does not ask for
the locale. -/
def Argument.IgnoresLocale (argument : Argument H) : Prop :=
  ∀ value handler, argument = .custom value handler →
    (∃ writer, handler = Handler.display writer ∧ (writer value).IgnoresLocale) ∨
      ∃ writer, handler = Handler.inspect writer ∧
        ∀ alternate, (writer alternate value).IgnoresLocale

/-- All arguments are built in, or write themselves without asking for the locale. -/
def Arguments.IgnoreLocale (args : Arguments H) : Prop :=
  ∀ argument ∈ args.values, argument.IgnoresLocale

theorem Arguments.IgnoreLocale.lookup {args : Arguments H} (h : args.IgnoreLocale)
    (reference : Reference) :
  (args.lookup reference).IgnoresLocale
  := by
  rcases args.lookup_eq_none_or_mem reference with hnone | hmem
  · rw [hnone]
    rintro _ _ ⟨⟩
  · apply h _ hmem

section Fields

variable {args : Arguments H}

theorem formatField_ignoresLocale {argument : Argument H} (h : argument.IgnoresLocale)
    (spec : List Char) (locale : Locale) (numbering : Numbering) :
  (formatField argument spec args locale numbering).IgnoresLocale
  := by
  have hbuiltin : (formatBuiltin argument spec args locale numbering).IgnoresLocale := by
    apply Formatter.IgnoresLocale.bind (.ofChecked _)
    intro _
    apply Formatter.IgnoresLocale.bind (.ofExcept _)
    intro _
    apply Formatter.IgnoresLocale.bind (.write _)
    intro _
    apply Formatter.IgnoresLocale.pure
  cases argument
  case none => apply Formatter.IgnoresLocale.fail
  case custom value handler =>
    have hhandler (text : List Char) : (handler.format value text).IgnoresLocale := by
      rcases h value handler rfl with ⟨writer, rfl, hwriter⟩ | ⟨writer, rfl, hwriter⟩
      · rw [Handler.display, Handler.format_ofReader]
        apply Formatter.IgnoresLocale.bind (.ofChecked _)
        intro d
        apply hwriter.format
      · rw [Handler.inspect, Handler.format_ofReader]
        apply Formatter.IgnoresLocale.bind (.ofChecked _)
        intro d
        apply (hwriter _).format
    apply Formatter.IgnoresLocale.bind (.ofChecked _)
    intro parts
    apply Formatter.IgnoresLocale.bind ((hhandler _).mapError _)
    intro _
    apply Formatter.IgnoresLocale.pure
  all_goals exact hbuiltin

theorem Piece.run_ignoresLocale (h : args.IgnoreLocale) (locale : Locale) (start : Nat)
    (piece : Piece) (numbering : Numbering) :
  (piece.run args locale start numbering).IgnoresLocale
  := by
  apply Formatter.IgnoresLocale.bind (.ofChecked _)
  rintro ⟨text | field, next⟩
  · apply Formatter.IgnoresLocale.bind (.write _)
    intro _
    apply Formatter.IgnoresLocale.pure
  · change (field.run args locale next).IgnoresLocale
    rw [Field.run_eq]
    split
    · apply Formatter.IgnoresLocale.fail
    · exact (formatField_ignoresLocale (h.lookup _) _ _ _).mapError _

theorem runPieces_ignoresLocale (h : args.IgnoreLocale) (locale : Locale) (start : Nat)
    (pieces : List Piece) (numbering : Numbering) :
  (runPieces args locale start pieces numbering).IgnoresLocale
  := by
  induction pieces generalizing start numbering with
  | nil => apply Formatter.IgnoresLocale.pure
  | cons piece pieces ih =>
    rw [runPieces_cons]
    apply Formatter.IgnoresLocale.bind (piece.run_ignoresLocale h locale start numbering)
    intro next
    apply ih

theorem Template.runFrom_ignoresLocale (h : args.IgnoreLocale) (template : Template)
    (locale : Locale) (numbering : Numbering) :
  (template.runFrom args locale numbering).IgnoresLocale
  := by
  apply Formatter.IgnoresLocale.bind (runPieces_ignoresLocale h locale 0 _ numbering)
  intro next
  split
  · apply Formatter.IgnoresLocale.fail
  · apply Formatter.IgnoresLocale.pure

end Fields

/-! ### Specifiers without `n` -/

/-- A specifier does not have the presentation `n`. -/
def PresentsWithoutLocale (spec : List Char) : Prop :=
  ∀ s : WrittenSpecifier, s.WellFormed → spec = s.source → s.presentation ≠ some .locale

/-- No field of a template has the presentation `n`. -/
def Template.PresentsWithoutLocale (template : Template) : Prop :=
  ∀ id spec, .field id (some spec) ∈ template.pieces → BraceFormat.PresentsWithoutLocale spec

theorem presentsWithoutLocale_of_not_mem {spec : List Char} (h : 'n' ∉ spec) :
  PresentsWithoutLocale spec
  := by
  rintro s _ rfl hpresentation
  apply h
  simp [WrittenSpecifier.source, WrittenSpecifier.typeSource, hpresentation, Presentation.letter]

/-- What comes after a computation that may find an error depends on its value only. -/
theorem Formatter.ofChecked_bind_congr {r : Except FormatError α} {f g : α → Formatter H β}
    (h : ∀ a, r = .ok a → f a = g a) :
  ofChecked r >>= f = ofChecked r >>= g
  := by
  cases r with
  | error e => rfl
  | ok a => apply h a rfl

section Locales

variable {args : Arguments H} (locale locale' : Locale)

theorem formatField_of_locale (argument : Argument H) {spec : List Char}
    (h : PresentsWithoutLocale spec) (numbering : Numbering) :
  formatField argument spec args locale numbering = formatField argument spec args locale' numbering
  := by
  have hbuiltin : formatBuiltin argument spec args locale numbering =
      formatBuiltin argument spec args locale' numbering := by
    apply Formatter.ofChecked_bind_congr
    rintro ⟨d, after⟩ hd
    obtain ⟨_, hread, _⟩ := readDirective_iff.mp hd
    obtain ⟨s, hs, rfl⟩ := Specifier.source_of_read hread
    have hpresentation : d.presentation ≠ some .locale := by
      rw [presentation_of_readDirective hs hd]
      apply h s hs rfl
    dsimp only
    rw [Argument.rendering_of_locale hpresentation locale locale']
  cases argument
  case none => rfl
  case custom => rfl
  all_goals exact hbuiltin

/-- A field of a piece has the specifier that is written, or the empty one. -/
theorem Piece.presentsWithoutLocale_of_step {piece : Piece}
    (h : ∀ id spec, piece = .field id (some spec) → PresentsWithoutLocale spec) {start : Nat}
    {numbering next : Numbering} {field : Field}
    (hstep : piece.step start numbering = .ok (.put field, next)) :
  PresentsWithoutLocale field.spec
  := by
  cases piece with
  | literal text => cases hstep
  | brace c => cases hstep
  | field id spec =>
    rw [step] at hstep
    split at hstep
    · cases hstep
    · cases hstep
      cases spec with
      | none => apply presentsWithoutLocale_of_not_mem List.not_mem_nil
      | some spec => apply h id spec rfl

theorem runPieces_of_locale {pieces : List Piece}
    (h : ∀ id spec, .field id (some spec) ∈ pieces → PresentsWithoutLocale spec) (start : Nat)
    (numbering : Numbering) :
  runPieces args locale start pieces numbering = runPieces args locale' start pieces numbering
  := by
  induction pieces generalizing start numbering with
  | nil => rfl
  | cons piece pieces ih =>
    have hpiece (numbering : Numbering) : piece.run args locale start numbering =
        piece.run args locale' start numbering := by
      apply Formatter.ofChecked_bind_congr
      rintro ⟨text | field, next⟩ hstep
      · rfl
      · have hspec := piece.presentsWithoutLocale_of_step
          (fun id spec hpiece => h id spec (hpiece ▸ .head _)) hstep
        change field.run args locale next = field.run args locale' next
        rw [Field.run_eq, Field.run_eq, formatField_of_locale locale locale' _ hspec]
    have hpieces := ih fun id spec hmem => h id spec (.tail _ hmem)
    simp only [runPieces_cons, hpiece, hpieces]

/-- Without a field with the presentation `n` a template is run in one way in every locale. -/
theorem Template.runFrom_of_locale {template : Template} (h : template.PresentsWithoutLocale)
    (numbering : Numbering) :
  template.runFrom args locale numbering = template.runFrom args locale' numbering
  := by
  rw [runFrom, runFrom, runPieces_of_locale locale locale' h]

end Locales

/-- A call in a locale. -/
def runIn (template : List Char) (args : Arguments H) (locale : Locale) : Formatter H Unit := do
  Formatter.report (.formatting (byteLength template) args.length)
  Formatter.reportingError do
    discard <| (Template.read template).runFrom args locale .undecided

/-- Where none is given, the global locale is asked for once. -/
theorem Formatter.report_bind_globalLocale (event : Event) (f : Locale → Formatter H α)
    (world : World H) :
  (report event >>= fun _ => globalLocale >>= f) world =
    (report event >>= fun _ => f world.globalLocale) world
  := rfl

/-- A call is one in the locale that is given, or else in the global one. -/
theorem run_eq_runIn (template : List Char) (args : Arguments H) (locale : Option Locale)
    (world : World H) :
  run template args locale world = runIn template args (locale.getD world.globalLocale) world
  := by
  rw [run, runIn]
  apply Formatter.report_bind_globalLocale

theorem runIn_ignoresLocale {args : Arguments H} (h : args.IgnoreLocale) (template : List Char)
    (locale : Locale) :
  (runIn template args locale).IgnoresLocale
  := by
  apply Formatter.IgnoresLocale.bind (.report _)
  intro _
  apply Formatter.IgnoresLocale.reportingError
  apply Formatter.IgnoresLocale.bind ((Template.read template).runFrom_ignoresLocale h locale _)
  intro _
  apply Formatter.IgnoresLocale.pure

/-! ### The presentation `n` in a neutral locale -/

section

variable {locale : Locale} (h : locale.Neutral) {s : WrittenSpecifier} (hs : s.WellFormed)
  (args : Arguments H) (numbering : Numbering)

include h hs

theorem formatField_integer_of_neutral {argument : Argument H}
    (hkind : argument.kind.isInteger = true ∨ argument.kind = .bool ∨ argument.kind = .char) :
  formatField argument (s.withPresentation (some .locale)).source args locale numbering =
    formatField argument (s.withPresentation (some .decimal)).source args locale numbering
  := by
  cases argument
  case int32 | uint32 | int64 | uint64 | bool | char =>
    apply WrittenSpecifier.formatBuiltin_withPresentation hs
    · intro d
      rfl
    · intro d
      apply Argument.rendering_of_neutral h d hkind
  all_goals simp [Argument.kind, Kind.isInteger] at hkind

theorem formatField_float_of_neutral (v : Binary64) :
  formatField (.float v : Argument H) (s.withPresentation (some .locale)).source args locale
      numbering =
    formatField (.float v) (s.withPresentation none).source args locale numbering
  := by
  apply WrittenSpecifier.formatBuiltin_withPresentation hs
  · intro d
    rfl
  · intro d
    apply Rendering.ofFloat_of_neutral h

end

/-- A template without the presentation `n` is the same call in every locale that is given. Where
no value asks for the locale itself, neither the locale given nor the global one changes what is
put out and how the call ends. By `n`, a neutral locale shows integers, truth values and characters
as in decimal, and floating-point numbers as without a presentation. -/
theorem run_of_locale :
  (∀ (template : List Char) (args : Arguments H),
    (Template.read template).PresentsWithoutLocale →
    (∀ locale locale' : Option Locale, run template args locale = run template args locale') ∧
    (args.IgnoreLocale → ∀ (locale locale' : Option Locale) (world world' : World H),
      world.state = world'.state →
      (run template args locale world).SameButLocale (run template args locale' world'))) ∧
  (∀ locale : Locale, locale.Neutral → ∀ s : WrittenSpecifier, s.WellFormed →
    ∀ (args : Arguments H) (numbering : Numbering),
    (∀ argument : Argument H,
      argument.kind.isInteger = true ∨ argument.kind = .bool ∨ argument.kind = .char →
      formatField argument (s.withPresentation (some .locale)).source args locale numbering =
        formatField argument (s.withPresentation (some .decimal)).source args locale numbering) ∧
    ∀ v : Binary64,
      formatField (.float v) (s.withPresentation (some .locale)).source args locale numbering =
        formatField (.float v) (s.withPresentation none).source args locale numbering)
  := by
  constructor
  · intro template args h
    have hin (locale locale' : Locale) :
        runIn template args locale = runIn template args locale' := by
      rw [runIn, runIn, Template.runFrom_of_locale locale locale' h]
    constructor
    · intro locale locale'
      funext world
      rw [run_eq_runIn, run_eq_runIn, hin]
    · intro hargs locale locale' world world' hworld
      rw [run_eq_runIn, run_eq_runIn, hin _ (locale'.getD world'.globalLocale)]
      apply runIn_ignoresLocale hargs template _ world world' hworld
  · intro locale h s hs args numbering
    constructor
    · intro argument hkind
      apply formatField_integer_of_neutral h hs args numbering hkind
    · intro v
      apply formatField_float_of_neutral h hs args numbering v

/-- A value of the host and a number in hexadecimal, and numbers by `n` in the classic locale. -/
theorem run_of_locale_hexadecimal :
  let writer : Unit → Writer ⟨Unit, Unit⟩ := fun _ world => ⟨[['a']], false, world⟩
  let args : Arguments ⟨Unit, Unit⟩ := .ofList [.custom () (Handler.display writer), .uint64 48879]
  let template := ['{', '}', '{', ':', '#', 'x', '}']
  let field (argument : Argument ⟨Unit, Unit⟩) (spec : List Char) :=
    formatField argument spec .empty .c .undecided
  (Template.read template).PresentsWithoutLocale ∧ args.IgnoreLocale ∧
    run template args none = run template args (some .deDE) ∧
    (run template args none ⟨none, ()⟩).SameButLocale (run template args none ⟨some .deDE, ()⟩) ∧
    Locale.c.Neutral ∧ field (.uint64 48879) ['+', 'n'] = field (.uint64 48879) ['+', 'd'] ∧
    ∀ v : Binary64, field (.float v) ['+', 'n'] = field (.float v) ['+']
  := by
  intro writer args template field
  have hargs : args.IgnoreLocale := by
    rintro argument (_ | ⟨_, _ | ⟨_, ⟨⟩⟩⟩)
    · rintro _ _ ⟨⟩
      exact .inl ⟨writer, rfl, fun _ _ h => ⟨rfl, rfl, h⟩⟩
    · rintro _ _ ⟨⟩
  have htemplate : Template.read template =
      ⟨[.field .auto none, .field .auto (some ['#', 'x'])], none⟩ := by
    have hfirst : Piece.read template = .ok (.field .auto none, ['{', ':', '#', 'x', '}']) := rfl
    have hsecond : Piece.read ['{', ':', '#', 'x', '}'] =
      .ok (.field .auto (some ['#', 'x']), []) := rfl
    rw [Template.read_of_ok (List.cons_ne_nil _ _) hfirst,
      Template.read_of_ok (List.cons_ne_nil _ _) hsecond, Template.read_nil]
    rfl
  have hpresents : (Template.read template).PresentsWithoutLocale := by
    rw [htemplate]
    rintro id spec (_ | ⟨_, _ | ⟨_, ⟨⟩⟩⟩)
    apply presentsWithoutLocale_of_not_mem
    decide
  let s : WrittenSpecifier := ⟨none, none, some .plus, false, false, none, none, none⟩
  have hs : s.WellFormed := by
    constructor
    · rintro _ ⟨⟩
    · rintro _ ⟨⟩
    · intro _
      apply Stops.nil
    · rintro _ ⟨⟩
  obtain ⟨hrun, hneutral⟩ := run_of_locale (H := ⟨Unit, Unit⟩)
  obtain ⟨hgiven, hglobal⟩ := hrun template args hpresents
  obtain ⟨hinteger, hfloat⟩ := hneutral .c ⟨rfl, .inl rfl⟩ s hs .empty .undecided
  exact ⟨hpresents, hargs, hgiven _ _, hglobal hargs none none _ _ rfl, ⟨rfl, .inl rfl⟩,
    hinteger (.uint64 48879) (.inl rfl), hfloat⟩

/-- A value that writes the point of the global locale shows which one is installed, although its
field has no presentation. -/
theorem run_globalPoint_ne :
  let writer : Unit → Writer ⟨Unit, Unit⟩ :=
    fun _ world => ⟨[[world.globalLocale.point]], false, world⟩
  let args : Arguments ⟨Unit, Unit⟩ := .ofList [.custom () (Handler.display writer)]
  let template := ['{', '}']
  let classic := run template args none ⟨none, ()⟩
  let german := run template args none ⟨some .deDE, ()⟩
  args.WriteText ∧ (Template.read template).PresentsWithoutLocale ∧
    outputText classic.spans = ['.'] ∧ outputText german.spans = [','] ∧
    ¬classic.SameButLocale german
  := by
  intro writer args template classic german
  have hargs : args.WriteText := by
    rintro argument (_ | ⟨_, ⟨⟩⟩)
    rintro _ _ ⟨⟩
    exact .inl ⟨writer, rfl⟩
  have hread : Template.read template = ⟨[.field .auto none], none⟩ :=
    Template.read_of_last (List.cons_ne_nil _ _) rfl
  have hpresents : (Template.read template).PresentsWithoutLocale := by
    rw [hread]
    rintro id spec (_ | ⟨_, ⟨⟩⟩)
  have hpiece (locale : Locale) (world : World ⟨Unit, Unit⟩) :
      (Piece.field .auto none).run args locale 0 .undecided world =
        ⟨[.text [world.globalLocale.point]], [], world, .ok (.automatic 1)⟩ := by
    rw [Piece.run_field rfl, Field.run_eq]
    change (formatCustom () (Handler.display writer) [] args (.automatic 1)).mapError _ _ = _
    rw [formatCustom_of_referenceFree referenceFree_nil]
    rfl
  have hrun (world : World ⟨Unit, Unit⟩) :
      outputText (run template args none world).spans = [world.globalLocale.point] := by
    obtain ⟨hspans, -⟩ := run_eq template args none world
    rw [hspans, hread, Template.runFrom, runPieces_cons]
    change outputText ((((Piece.field .auto none).run args _ 0 .undecided world).andThen _).andThen
      _).spans = _
    rw [hpiece]
    rfl
  have hclassic : outputText classic.spans = ['.'] := hrun _
  have hgerman : outputText german.spans = [','] := hrun _
  refine ⟨hargs, hpresents, hclassic, hgerman, fun hsame => ?_⟩
  rw [hsame.spans, hgerman] at hclassic
  cases hclassic

end BraceFormat
