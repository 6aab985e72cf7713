import BraceFormat.Proofs.Guarded.Attempt

/-!
# Places in words

The place of an error is a word of 64 bits. A handler of the host may give any word, so the place
may be no word any more when the error is traced back to the written specifier or moved to the
template. In a call in words these are guarded: there is no error with a place that is no word.

An error that is moved never comes back to a word, so a call in words breaches its guard just where
the call fails at a place that is no word, and is the call elsewhere (`InWords.run_eq`).
-/

namespace BraceFormat

open Guarded

variable {H : Host} {α β : Type}

/-! ### Errors and emissions in words -/

/-- The error, if its place is a word. -/
def FormatError.inWord? (e : FormatError) : Option FormatError :=
  if ∀ place ∈ e.offset, place < UInt64.size then some e else none

theorem FormatError.inWord?_eq_none_iff {e : FormatError} :
  e.inWord? = none ↔ ∃ place, e.offset = some place ∧ UInt64.size ≤ place
  := by
  rw [inWord?, ite_eq_right_iff]
  rcases e with ⟨kind, _ | place⟩ <;> simp

theorem FormatError.eq_of_inWord? {e e' : FormatError} (h : e.inWord? = some e') :
  e' = e
  := by
  rw [inWord?] at h
  split at h <;> cases h
  rfl

/-- An error that is moved on is no nearer to the start. -/
theorem FormatError.inWord?_rebase_of_none {e : FormatError} (base : Nat)
    (h : e.inWord? = none) :
  (e.rebase base).inWord? = none
  := by
  rw [inWord?_eq_none_iff] at h ⊢
  obtain ⟨place, hplace, hle⟩ := h
  refine ⟨_, rfl, ?_⟩
  rw [hplace, Option.getD_some]
  omega

/-- The emission, unless it fails at a place that is no word. -/
def Emission.inWords? (emission : Emission H α) : Option (Emission H α) :=
  match emission.result with
  | .error (.error e) => e.inWord?.map fun _ => emission
  | _ => some emission

theorem Emission.inWords?_eq_none_iff {emission : Emission H α} :
  emission.inWords? = none ↔
    ∃ e place, emission.result = .error (.error e) ∧ e.offset = some place ∧
      UInt64.size ≤ place
  := by
  rcases emission with ⟨spans, events, world, (e | _) | a⟩
  · rw [inWords?, Option.map_eq_none_iff, FormatError.inWord?_eq_none_iff]
    simp
  · simp [inWords?]
  · simp [inWords?]

theorem Emission.eq_of_inWords? {emission emission' : Emission H α}
    (h : emission.inWords? = some emission') :
  emission' = emission
  := by
  rw [inWords?] at h
  split at h
  · obtain ⟨_, _, rfl⟩ := Option.map_eq_some_iff.mp h
    rfl
  · cases h
    rfl

namespace Formatter

/-- The formatter in words. -/
def inWords (f : Formatter H α) : Attempt H α := fun world => (f world).inWords?

/-- Formatters in words are sequenced as the formatters are. -/
theorem inWords_bind (f : Formatter H α) (g : α → Formatter H β) :
  (f >>= g).inWords = f.inWords >>= fun a => (g a).inWords
  := by
  funext world
  change ((f world).andThen g).inWords? = Attempt.bind f.inWords (fun a => (g a).inWords) world
  rw [Attempt.bind, inWords]
  rcases f world with ⟨spans, events, after, (e | _) | a⟩
  · change (e.inWord?.map fun _ => _) = (e.inWord?.map fun _ => _).bind _
    cases e.inWord? <;> rfl
  · rfl
  · change Emission.inWords? ⟨_, _, _, (g a after).result⟩ = (g a after).inWords?.bind _
    rcases g a after with ⟨spans', events', after', (e | _) | b⟩
    · change (e.inWord?.map fun _ => _) = (e.inWord?.map fun _ => _).bind _
      cases e.inWord? <;> rfl
    · rfl
    · rfl

/-- A change of errors in words asks only for the places of the changed errors to be words. -/
theorem inWords_mapError (f : Formatter H α) (k : FormatError → FormatError) :
  (f.mapError k).inWords =
    Attempt.mapError (fun e => (k e).inWord?) (Attempt.ofFormatter f)
  := by
  funext world
  rw [inWords, mapError, Attempt.mapError, Attempt.ofFormatter]
  rcases f world with ⟨spans, events, after, (e | _) | a⟩
  · change ((k e).inWord?.map fun _ => _) = (k e).inWord?.bind _
    rcases hword : (k e).inWord? with _ | e'
    · rfl
    · obtain rfl := FormatError.eq_of_inWord? hword
      rfl
  · rfl
  · rfl

/-- A change that makes no place a word may be made after the guard. -/
theorem inWords_mapError_of_none {k : FormatError → FormatError}
    (h : ∀ e : FormatError, e.inWord? = none → (k e).inWord? = none) (f : Formatter H α) :
  (f.mapError k).inWords = Attempt.mapError (fun e => (k e).inWord?) f.inWords
  := by
  rw [inWords_mapError]
  funext world
  rw [Attempt.mapError, Attempt.mapError, Attempt.ofFormatter, inWords]
  rcases f world with ⟨spans, events, after, (e | _) | a⟩
  · change (k e).inWord?.bind _ = (e.inWord?.map fun _ => _).bind _
    rcases hword : e.inWord? with _ | e'
    · rw [h e hword]
      rfl
    · rfl
  · rfl
  · rfl

theorem inWords_reportingError (f : Formatter H α) :
  f.reportingError.inWords = f.inWords.reportingError
  := by
  funext world
  rw [inWords, reportingError, Attempt.reportingError, inWords]
  rcases f world with ⟨spans, events, after, (e | _) | a⟩
  · change (e.inWord?.map fun _ => _) = (e.inWord?.map fun _ => _).bind _
    cases e.inWord? <;> rfl
  · rfl
  · rfl

end Formatter

/-- Gives the output of an attempt to a sink. -/
def Guarded.Attempt.into (attempt : Attempt H α) (sink : Sink) (world : World H) :
    Option (Sink × Outcome H α) :=
  (attempt world).map fun emission => (sink.absorb emission.spans, emission.outcome id)

/-- What becomes of a formatter in words is decided by how the formatter ends. -/
theorem Formatter.into_inWords (f : Formatter H α) (sink : Sink) (world : World H) :
  f.inWords.into sink world =
    let ended := f.into sink world
    match ended.2.result with
    | .error (.error e) => e.inWord?.map fun _ => ended
    | _ => some ended
  := by
  rw [Attempt.into, inWords, Emission.inWords?, Formatter.into]
  rcases f world with ⟨spans, events, after, (e | _) | a⟩
  · change (e.inWord?.map fun _ => _).map _ = e.inWord?.map _
    rw [Option.map_map]
    rfl
  · rfl
  · rfl

/-! ### Calls in words -/

namespace InWords

/-- Puts out a value of the host. The place that its handler gives is traced back in words. -/
def formatCustom (value : H.Value) (handler : Handler H) (spec : List Char) (args : Arguments H)
    (numbering : Numbering) : Attempt H Numbering := do
  let (outcome, numbering) := Substitution.read args spec numbering
  let parts ← (Formatter.ofChecked outcome).inWords
  Attempt.mapError (fun e => (parts.trace e).inWord?)
    (Attempt.ofFormatter (handler.format value parts.text))
  return numbering

/-- Puts out an argument as a specifier says. -/
def formatField (argument : Argument H) (spec : List Char) (args : Arguments H)
    (locale : Locale) (numbering : Numbering) : Attempt H Numbering :=
  match argument with
  | .custom value handler => formatCustom value handler spec args numbering
  | argument => (BraceFormat.formatField argument spec args locale numbering).inWords

/-- Puts out an argument on its own. -/
def format (argument : Argument H) (spec : List Char) : Attempt H Unit := do
  let locale ← Attempt.ofFormatter Formatter.globalLocale
  let _ ← formatField argument spec Arguments.empty locale .undecided
  return ()

/-- Puts out a field of a template. -/
def runField (field : Field) (args : Arguments H) (locale : Locale) (numbering : Numbering) :
    Attempt H Numbering :=
  let argument := args.lookup field.argument
  if argument.isNone then
    (Formatter.raise (.located .missingArgument field.start)).inWords
  else
    Attempt.mapError (fun e => (e.rebase field.specStart).inWord?)
      (formatField argument field.spec args locale numbering)

/-- Takes a step. -/
def runStep (args : Arguments H) (locale : Locale) (numbering : Numbering) :
    Step → Attempt H Numbering
  | .copy text => do
    Attempt.ofFormatter (Formatter.write [.text text])
    return numbering
  | .put field => runField field args locale numbering

/-- Runs the pieces of a template, the first of which starts at byte `start`. -/
def runPieces (args : Arguments H) (locale : Locale) :
    Nat → List Piece → Numbering → Attempt H Numbering
  | _, [], numbering => return numbering
  | start, piece :: pieces, numbering => do
    let (step, numbering) ← (Formatter.ofChecked (piece.step start numbering)).inWords
    let numbering ← runStep args locale numbering step
    runPieces args locale (start + byteLength piece.source) pieces numbering

/-- Runs a template from some numbering on. -/
def runFrom (template : Template) (args : Arguments H) (locale : Locale)
    (numbering : Numbering) : Attempt H Numbering := do
  let numbering ← runPieces args locale 0 template.pieces numbering
  match template.fault with
  | some place => (Formatter.raise (.located .malformedTemplate place)).inWords
  | none => return numbering

/-- A formatting call. -/
def run (template : List Char) (args : Arguments H) (locale : Option Locale) :
    Attempt H Unit := do
  Attempt.ofFormatter (Formatter.report (.formatting (byteLength template) args.length))
  let global ← Attempt.ofFormatter Formatter.globalLocale
  Attempt.reportingError do
    let _ ← runFrom (Template.read template) args (locale.getD global) .undecided
    return ()

/-! ### Where the guard is breached -/

theorem formatCustom_eq (value : H.Value) (handler : Handler H) (spec : List Char)
    (args : Arguments H) (numbering : Numbering) :
  formatCustom value handler spec args numbering =
    (BraceFormat.formatCustom value handler spec args numbering).inWords
  := by
  rw [formatCustom, BraceFormat.formatCustom]
  rcases Substitution.read args spec numbering with ⟨outcome, next⟩
  simp only [Formatter.inWords_bind, Formatter.inWords_mapError]
  rfl

theorem formatField_eq (argument : Argument H) (spec : List Char) (args : Arguments H)
    (locale : Locale) (numbering : Numbering) :
  formatField argument spec args locale numbering =
    (BraceFormat.formatField argument spec args locale numbering).inWords
  := by
  cases argument
  case custom value handler => apply formatCustom_eq
  all_goals rfl

/-- An argument is put out on its own in words as it is, unless this fails at a place that is no
word. -/
theorem format_eq (argument : Argument H) (spec : List Char) :
  format argument spec = (argument.format spec).inWords
  := by
  rw [format, Argument.format, Formatter.inWords_bind]
  congr 1
  funext locale
  rw [formatField_eq]
  change _ = (BraceFormat.formatField argument spec .empty locale .undecided >>= fun _ =>
    Pure.pure ()).inWords
  rw [Formatter.inWords_bind]
  rfl

section

variable (args : Arguments H) (locale : Locale)

theorem runField_eq (field : Field) (numbering : Numbering) :
  runField field args locale numbering = (field.run args locale numbering).inWords
  := by
  rw [runField, Field.run_eq, formatField_eq]
  split
  · rfl
  · rw [Formatter.inWords_mapError_of_none fun _ => FormatError.inWord?_rebase_of_none _]

theorem runStep_eq (numbering : Numbering) (step : Step) :
  runStep args locale numbering step = (step.run args locale numbering).inWords
  := by
  cases step with
  | copy text =>
    rw [runStep, Step.run, Formatter.inWords_bind]
    rfl
  | put field => apply runField_eq

theorem runPieces_eq (start : Nat) (pieces : List Piece) (numbering : Numbering) :
  runPieces args locale start pieces numbering =
    (BraceFormat.runPieces args locale start pieces numbering).inWords
  := by
  induction pieces generalizing start numbering with
  | nil => rfl
  | cons piece pieces ih =>
    rw [runPieces, BraceFormat.runPieces, Formatter.inWords_bind]
    congr 1
    funext stepped
    simp only [Formatter.inWords_bind, ← runStep_eq, ih]

/-- A template is run in words as it is, unless this fails at a place that is no word. -/
theorem runFrom_eq (template : Template) (numbering : Numbering) :
  runFrom template args locale numbering =
    (template.runFrom args locale numbering).inWords
  := by
  rw [runFrom, Template.runFrom, Formatter.inWords_bind, runPieces_eq]
  congr 1
  funext after
  rcases template.fault with _ | place
  · rfl
  · rfl

end

/-- A call in words is the call, unless this fails at a place that is no word. -/
theorem run_eq (template : List Char) (args : Arguments H) (locale : Option Locale) :
  run template args locale = (BraceFormat.run template args locale).inWords
  := by
  rw [run, BraceFormat.run, Formatter.inWords_bind]
  congr 1
  funext _
  rw [Formatter.inWords_bind]
  congr 1
  funext global
  rw [Formatter.inWords_reportingError, runFrom_eq]
  congr 1
  change _ = ((Template.read template).runFrom args (locale.getD global) .undecided >>= fun _ =>
    Pure.pure ()).inWords
  rw [Formatter.inWords_bind]
  rfl

end InWords

end BraceFormat
