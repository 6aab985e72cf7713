import BraceFormat.Proofs.Guarded.Handler
import BraceFormat.Proofs.Guarded.Substitution
import BraceFormat.Proofs.Guarded.Template

/-!
# Guarded formatting calls

A guarded call is made of guarded parts throughout: the template and the specifiers are read
by guarded access to their bytes, references are replaced and offsets are traced back by
guarded places, arguments are rendered into guarded buffers, and the output goes to a guarded
sink. Its arguments are built in or write themselves as text.

Of all guards only one is ever breached, the limit on generated digits. It is breached just
where the template comes to a field that asks for too many, and every other call ends with
success or with an error (`breach_iff_comesToTooManyDigits`).
-/

namespace BraceFormat.Guarded

variable {H : Host}

/-! ### Arguments -/

/-- An argument that is built in or writes itself as text. -/
inductive StandardArgument (H : Host) where
  /-- An argument other than a value of the host. -/
  | builtin (argument : Argument H) (kind_ne : argument.kind ≠ .custom)
  /-- A value of the host that writes itself as text. -/
  | textual (value : H.Value) (handler : TextHandler H)

/-- The argument that a standard one is. -/
def StandardArgument.argument : StandardArgument H → Argument H
  | .builtin argument _ => argument
  | .textual value handler => .custom value handler.handler

/-- The values that write themselves as text write less than `2 ^ 64` bytes each time. -/
def StandardArgument.Bounded : StandardArgument H → Prop
  | .builtin _ _ => True
  | .textual _ handler => handler.Bounded

/-- Arguments that are all standard ones. -/
structure StandardArguments (H : Host) where
  /-- The arguments, in order. -/
  values : List (StandardArgument H)
  /-- Their names; there are none, or one entry for each argument. -/
  names : List (Option (List Char))
  /-- Names are given for all positions or for none. -/
  length_names : names = [] ∨ names.length = values.length

namespace StandardArguments

/-- The arguments that standard ones are. -/
def arguments (args : StandardArguments H) : Arguments H :=
  ⟨args.values.map StandardArgument.argument, args.names, by
    rw [List.length_map]
    exact args.length_names⟩

/-- The argument at a position; past the end there is none. -/
def get (args : StandardArguments H) (n : Nat) : StandardArgument H :=
  args.values[n]?.getD (.builtin .none (by rintro ⟨⟩))

/-- The argument that is referred to. -/
def lookup (args : StandardArguments H) : Reference → StandardArgument H
  | .index n => args.get n
  | .name text =>
    match args.arguments.find? text with
    | some n => args.get n
    | none => .builtin .none (by rintro ⟨⟩)

/-- All values that write themselves as text write less than `2 ^ 64` bytes each time. -/
def Bounded (args : StandardArguments H) : Prop :=
  ∀ argument ∈ args.values, argument.Bounded

end StandardArguments

/-! ### Fields -/

/-- The directive of a specifier for an argument of some kind, and the numbering after it. -/
def readDirective? (kind : Kind) (spec : List Char) (args : Arguments H)
    (numbering : Numbering) : Option (Except FormatError (Directive × Numbering)) := do
  let (outcome, numbering) ← specifier? spec numbering
  return do
    let d ← (← outcome).resolve args
    d.check kind
    return (d, numbering)

/-- Puts out an argument other than a value of the host. -/
def formatBuiltin? (argument : Argument H) (spec : List Char) (args : Arguments H)
    (locale : Locale) (numbering : Numbering) : Attempt H Numbering := do
  let (d, numbering) ← Attempt.ofOutcome (readDirective? argument.kind spec args numbering)
  let rendering ← Attempt.ofOutcome (rendering? argument d locale)
  let spans ← Attempt.ofOption (spans? rendering d.width)
  Attempt.ofFormatter (Formatter.write spans)
  return numbering

/-- Traces the place of an error, if it has one, back to the written specifier. -/
def Rewriting.trace? (rewriting : Rewriting) (e : FormatError) : Option FormatError :=
  match e.offset with
  | none => some e
  | some offset =>
    (writtenOffset? offset 0 0 rewriting.replaced).map fun place => ⟨e.kind, some place⟩

/-- Puts out a value of the host that writes itself as text. -/
def formatTextual? (value : H.Value) (handler : TextHandler H) (spec : List Char)
    (args : Arguments H) (numbering : Numbering) : Attempt H Numbering := do
  let (outcome, numbering) ← Attempt.ofOption (rewrite? args spec numbering)
  let rewriting ← Attempt.ofOutcome (some outcome)
  Attempt.mapError rewriting.trace? (handler.format? value (rewriting.seen spec))
  return numbering

/-- Puts out an argument as a specifier says. -/
def formatField? (argument : StandardArgument H) (spec : List Char) (args : Arguments H)
    (locale : Locale) (numbering : Numbering) : Attempt H Numbering :=
  match argument with
  | .builtin .none _ => Attempt.ofFormatter (Formatter.raise (.unplaced .missingArgument))
  | .builtin argument _ => formatBuiltin? argument spec args locale numbering
  | .textual value handler => formatTextual? value handler spec args numbering

/-- Puts out a field of a template. -/
def runField? (field : Field) (args : StandardArguments H) (locale : Locale)
    (numbering : Numbering) : Attempt H Numbering :=
  let argument := args.lookup field.argument
  if argument.argument.isNone then
    Attempt.ofFormatter (Formatter.raise (.located .missingArgument field.start))
  else
    Attempt.mapError (fun e => some (e.rebase field.specStart))
      (formatField? argument field.spec args.arguments locale numbering)

/-! ### Calls -/

/-- Takes a step. -/
def runStep? (args : StandardArguments H) (locale : Locale) (numbering : Numbering) :
    Step → Attempt H Numbering
  | .copy text => do
    Attempt.ofFormatter (Formatter.write [.text text])
    return numbering
  | .put field => runField? field args locale numbering

/-- Runs the pieces of a template, the first of which starts at byte `start`. -/
def runPieces? (args : StandardArguments H) (locale : Locale) :
    Nat → List Piece → Numbering → Attempt H Numbering
  | _, [], numbering => return numbering
  | start, piece :: pieces, numbering => do
    let (step, numbering) ← Attempt.ofOutcome (some (piece.step start numbering))
    let numbering ← runStep? args locale numbering step
    runPieces? args locale (start + byteLength piece.source) pieces numbering

/-- Runs a template from some numbering on. -/
def runFrom? (template : Template) (args : StandardArguments H) (locale : Locale)
    (numbering : Numbering) : Attempt H Numbering := do
  let numbering ← runPieces? args locale 0 template.pieces numbering
  match template.fault with
  | some place => Attempt.ofFormatter (Formatter.raise (.located .malformedTemplate place))
  | none => return numbering

/-- A guarded formatting call. -/
def run? (text : List Char) (args : StandardArguments H) (locale : Option Locale) :
    Attempt H Unit := do
  Attempt.ofFormatter (Formatter.report (.formatting (byteLength text) args.arguments.length))
  let global ← Attempt.ofFormatter Formatter.globalLocale
  let template ← Attempt.ofOption (template? text)
  Attempt.reportingError do
    let _ ← runFrom? template args (locale.getD global) .undecided
    return ()

/-- Gives the output of an attempt to a destination. -/
def Attempt.into? {α : Type} (attempt : Attempt H α) (target : Target) (world : World H) :
    Option (Target × Outcome H α) := do
  let emission ← attempt world
  let target ← target.absorb? emission.spans
  return (target, emission.outcome id)

/-! ### Standard arguments -/

namespace StandardArguments

theorem argument_get (args : StandardArguments H) (n : Nat) :
  (args.get n).argument = args.arguments.get n
  := by
  rw [get, Arguments.get, arguments, List.getElem?_map]
  cases args.values[n]? <;> rfl

/-- What is referred to is the same among the arguments that standard ones are. -/
theorem argument_lookup (args : StandardArguments H) (reference : Reference) :
  (args.lookup reference).argument = args.arguments.lookup reference
  := by
  cases reference with
  | index n => apply argument_get
  | name text =>
    rw [lookup, Arguments.lookup, Arguments.getNamed]
    cases args.arguments.find? text with
    | none => rfl
    | some n => apply argument_get

theorem Bounded.lookup {args : StandardArguments H} (h : args.Bounded) (reference : Reference) :
  (args.lookup reference).Bounded
  := by
  have hget (n : Nat) : (args.get n).Bounded := by
    rw [get]
    rcases hn : args.values[n]? with _ | argument
    · trivial
    · apply h argument (List.mem_of_getElem? hn)
  cases reference with
  | index n => apply hget
  | name text =>
    rw [StandardArguments.lookup]
    cases args.arguments.find? text with
    | none => trivial
    | some n => apply hget

theorem neverCutShort (args : StandardArguments H) :
  args.arguments.NeverCutShort
  := by
  intro argument hargument value handler hcustom spec world
  obtain ⟨argument, _, rfl⟩ := List.mem_map.mp hargument
  cases argument with
  | builtin argument hkind =>
    obtain rfl : argument = .custom value handler := hcustom
    cases hkind rfl
  | textual value handler =>
    cases hcustom
    apply TextHandler.not_cutShort

end StandardArguments

/-! ### Guarded calls track calls -/

variable {args : StandardArguments H} {locale : Locale} {numbering : Numbering}

theorem tracks_raise {α : Type} (e : FormatError) :
  (Attempt.ofFormatter (Formatter.raise e : Formatter H α)).Tracks (Formatter.raise e)
  := by
  apply Attempt.Tracks.ofFormatter
  intro world
  apply Formatter.not_cutShort_raise

theorem readDirective?_eq (kind : Kind) (spec : List Char) (args : Arguments H)
    (numbering : Numbering) :
  readDirective? kind spec args numbering = some (readDirective kind spec args numbering)
  := by
  rw [readDirective?, specifier?_eq]
  rfl

theorem tracks_formatBuiltin? (argument : Argument H) (spec : List Char) (args : Arguments H) :
  (formatBuiltin? argument spec args locale numbering).Tracks
    (formatBuiltin argument spec args locale numbering)
  := by
  apply Attempt.Tracks.ofOutcome_bind (readDirective?_eq argument.kind spec args numbering)
  rintro ⟨d, after⟩ _
  apply (Attempt.Tracks.ofOutcome (rendering?_eq argument d locale)).bind
  intro rendering
  apply Attempt.Tracks.ofOption_bind (spans?_eq rendering d.width)
  apply (tracks_write _).bind
  intro _
  apply Attempt.Tracks.pure

theorem trace?_eq (parts : Substitution) (e : FormatError) :
  (rewriting parts).trace? e = some (parts.trace e)
  := by
  rcases e with ⟨kind, _ | offset⟩
  · rfl
  · simp only [Rewriting.trace?, writtenOffset?_eq]
    rfl

theorem tracks_formatTextual? {handler : TextHandler H} (h : handler.Bounded)
    (value : H.Value) (spec : List Char) (args : Arguments H) :
  (formatTextual? value handler spec args numbering).Tracks
    (formatCustom value handler.handler spec args numbering)
  := by
  apply Attempt.Tracks.ofOption_bind (rewrite?_eq args spec numbering)
  rw [formatCustom]
  rcases hread : Substitution.read args spec numbering with ⟨e | parts, after⟩
  · intro world
    rfl
  · apply Attempt.Tracks.ofOption_bind (r := some (rewriting parts)) rfl
    rw [seen_rewriting hread]
    apply ((TextHandler.tracks h value parts.text).mapError (trace?_eq parts)).bind
    intro _
    apply Attempt.Tracks.pure

theorem tracks_formatField? {argument : StandardArgument H} (h : argument.Bounded)
    (spec : List Char) (args : Arguments H) :
  (formatField? argument spec args locale numbering).Tracks
    (formatField argument.argument spec args locale numbering)
  := by
  cases argument with
  | builtin argument hkind =>
    cases argument
    case none => apply tracks_raise
    case custom => cases hkind rfl
    all_goals apply tracks_formatBuiltin?
  | textual value handler => apply tracks_formatTextual? h

theorem tracks_runField? (h : args.Bounded) (field : Field) :
  (runField? field args locale numbering).Tracks (field.run args.arguments locale numbering)
  := by
  rw [runField?, Field.run_eq, ← StandardArguments.argument_lookup]
  split
  · apply tracks_raise
  · apply (tracks_formatField? (h.lookup field.argument) field.spec args.arguments).mapError
    intro e
    rfl

theorem tracks_runStep? (h : args.Bounded) (step : Step) :
  (runStep? args locale numbering step).Tracks (step.run args.arguments locale numbering)
  := by
  cases step with
  | copy text =>
    apply (tracks_write _).bind
    intro _
    apply Attempt.Tracks.pure
  | put field => apply tracks_runField? h

theorem tracks_runPieces? (h : args.Bounded) (start : Nat) (pieces : List Piece) :
  (runPieces? args locale start pieces numbering).Tracks
    (runPieces args.arguments locale start pieces numbering)
  := by
  induction pieces generalizing start numbering with
  | nil => apply Attempt.Tracks.pure
  | cons piece pieces ih =>
    have hstep : some (piece.step start numbering) = some (piece.step start numbering) := rfl
    apply Attempt.Tracks.ofOutcome_bind hstep
    rintro ⟨step, after⟩ _
    apply (tracks_runStep? h step).bind
    intro next
    apply ih

theorem tracks_runFrom? (h : args.Bounded) (template : Template) :
  (runFrom? template args locale numbering).Tracks
    (template.runFrom args.arguments locale numbering)
  := by
  apply (tracks_runPieces? h 0 template.pieces).bind
  intro next
  cases template.fault with
  | none => apply Attempt.Tracks.pure
  | some place => apply tracks_raise

/-- A guarded call breaches a guard just where the call is cut short, and puts out the same
elsewhere. -/
theorem tracks_run? (h : args.Bounded) (text : List Char) (locale : Option Locale) :
  (run? text args locale).Tracks (run text args.arguments locale)
  := by
  have hreport : (Attempt.ofFormatter (Formatter.report
      (.formatting (byteLength text) args.arguments.length)) : Attempt H Unit).Tracks
        (Formatter.report (.formatting (byteLength text) args.arguments.length)) := by
    apply Attempt.Tracks.ofFormatter
    rintro world ⟨⟩
  have hglobal : (Attempt.ofFormatter Formatter.globalLocale : Attempt H Locale).Tracks
      Formatter.globalLocale := by
    apply Attempt.Tracks.ofFormatter
    rintro world ⟨⟩
  apply hreport.bind
  intro _
  apply hglobal.bind
  intro global
  apply Attempt.Tracks.ofOption_bind (template?_eq text)
  apply Attempt.Tracks.reportingError
  apply (tracks_runFrom? h (Template.read text)).bind
  intro _
  apply Attempt.Tracks.pure

/-! ### Where guards are breached -/

/-- An attempt puts out what the formatter it tracks does, to every sink that its output
fits. -/
theorem Attempt.Tracks.into?_eq {α : Type} {attempt : Attempt H α} {f : Formatter H α}
    (h : attempt.Tracks f) {sink : Sink} {world : World H}
    (hsink : Fits sink (byteLength (outputText (f world).spans))) :
  attempt.into? (Target.ofSink sink) world =
    (uncut (f world)).map fun _ =>
      (Target.ofSink (f.into sink world).1, (f.into sink world).2)
  := by
  rw [Attempt.into?, h world]
  rcases hcut : uncut (f world) with _ | emission
  · rfl
  · obtain ⟨rfl, _⟩ := uncut_eq_some_iff.mp hcut
    simp only [Option.bind_eq_bind, Option.bind_some, Target.absorb?_eq hsink]
    rfl

/-- A guarded call breaches a guard just if its template comes to a field that asks for too
many digits. Otherwise it leaves in the sink what the call puts out, and ends with success or
with an error. -/
theorem breach_iff_comesToTooManyDigits (hargs : args.Bounded) {text : List Char}
    {locale : Option Locale} {sink : Sink} {world : World H}
    (hsink : Fits sink
      (byteLength (outputText (run text args.arguments locale world).spans))) :
  ((run? text args locale).into? (Target.ofSink sink) world = none ↔
    ComesToTooManyDigits args.arguments (locale.getD world.globalLocale)
      (Template.read text).pieces .undecided world) ∧
    ∀ target outcome,
      (run? text args locale).into? (Target.ofSink sink) world = some (target, outcome) →
        (∃ sink', (run text args.arguments locale).into sink world = (sink', outcome) ∧
          target = Target.ofSink sink') ∧
        (outcome.result = .ok () ∨ ∃ e, outcome.result = .error (.error e))
  := by
  rw [(tracks_run? hargs text locale).into?_eq hsink]
  constructor
  · rw [Option.map_eq_none_iff, uncut_eq_none_iff, ← run_cutShort_iff args.neverCutShort]
    rfl
  · intro target outcome hsome
    obtain ⟨emission, huncut, houtcome⟩ := Option.map_eq_some_iff.mp hsome
    obtain ⟨rfl, hresult⟩ := uncut_eq_some_iff.mp huncut
    obtain ⟨rfl, rfl⟩ := Prod.mk.inj houtcome
    constructor
    · exact ⟨_, rfl, rfl⟩
    · change Except.map id (run text args.arguments locale world).result = _ ∨ _
      rcases hrun : (run text args.arguments locale world).result with (e | _) | _
      · right
        use e
        change Except.map id (run text args.arguments locale world).result = _
        rw [hrun]
        rfl
      · cases hresult hrun
      · left
        rfl

/-- A call breaches a guard that asks for one digit more, behind the point of a one, than
digits are generated. -/
theorem breach_of_one_digit_more :
  let args : StandardArguments ⟨Empty, Unit⟩ :=
    ⟨[.builtin (.float ⟨0x3FF0000000000000⟩) (by rintro ⟨⟩)], [], .inl rfl⟩
  let spec : List Char := ['.', '6', '5', '5', '3', '6', 'f']
  let text := '{' :: ':' :: spec ++ ['}']
  args.Bounded ∧
    Fits .counter (byteLength (outputText (run text args.arguments none ⟨none, ()⟩).spans)) ∧
    (run? text args none).into? (Target.ofSink .counter) ⟨none, ()⟩ = none
  := by
  intro args spec text
  have hargs : args.Bounded := by
    rintro argument (_ | ⟨_, ⟨⟩⟩)
    trivial
  have hread : Template.read text = ⟨[.field .auto (some spec)], none⟩ := by
    have hpiece : Piece.read text = .ok (.field .auto (some spec), []) := rfl
    have hne : text ≠ [] := List.cons_ne_nil _ _
    rw [Template.read_of_ok hne hpiece, Template.read_nil]
    rfl
  have hspans : (run text args.arguments none ⟨none, ()⟩).spans = [] := by
    rw [run, hread]
    rfl
  have hfits :
      Fits .counter (byteLength (outputText (run text args.arguments none ⟨none, ()⟩).spans)) := by
    rw [hspans]
    exact ⟨by decide, by decide⟩
  refine ⟨hargs, hfits, (breach_iff_comesToTooManyDigits hargs hfits).1.mpr ?_⟩
  rw [hread]
  refine ⟨[], .auto, some spec, [], .undecided, .index 0, .automatic 1, rfl, rfl, rfl, ?_⟩
  refine ⟨⟨0x3FF0000000000000⟩, _, _, rfl, by decide, rfl, ?_⟩
  decide

end BraceFormat.Guarded
