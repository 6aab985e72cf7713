import BraceFormat.Call
import BraceFormat.Proofs.Output.Appending

/-!
# Laws of formatters

A change of errors distributes over sequencing, and two changes make one. Formatters that
write the same text and agree in everything else cannot be told apart by any destination:
`SameOutput` leaves open how the text is cut into spans, and is kept by sequencing and by a
change of errors.
-/

namespace BraceFormat

variable {H : Host} {α β : Type}

/-- Emissions that differ at most in the spans their text comes in. -/
structure Emission.SameOutput (a b : Emission H α) : Prop where
  text : outputText a.spans = outputText b.spans
  events : a.events = b.events
  world : a.world = b.world
  result : a.result = b.result

namespace Formatter

/-- Formatters whose emissions differ at most in the spans their text comes in. -/
def SameOutput (f g : Formatter H α) : Prop :=
  ∀ world, (f world).SameOutput (g world)

namespace SameOutput

theorem refl (f : Formatter H α) :
  SameOutput f f
  := fun _ => ⟨rfl, rfl, rfl, rfl⟩

theorem of_eq {f g : Formatter H α} (h : f = g) :
  SameOutput f g
  := h ▸ refl f

theorem symm {f g : Formatter H α} (h : SameOutput f g) :
  SameOutput g f
  := fun world => ⟨(h world).text.symm, (h world).events.symm, (h world).world.symm,
    (h world).result.symm⟩

theorem trans {f g k : Formatter H α} (h : SameOutput f g) (h' : SameOutput g k) :
  SameOutput f k
  := fun world => ⟨(h world).text.trans (h' world).text, (h world).events.trans (h' world).events,
    (h world).world.trans (h' world).world, (h world).result.trans (h' world).result⟩

theorem bind {f f' : Formatter H α} {g g' : α → Formatter H β} (hf : SameOutput f f')
    (hg : ∀ a, SameOutput (g a) (g' a)) :
  SameOutput (f >>= g) (f' >>= g')
  := by
  intro world
  obtain ⟨htext, hevents, hworld, hresult⟩ := hf world
  change ((f world).andThen g).SameOutput ((f' world).andThen g')
  revert htext hevents hworld hresult
  obtain ⟨spans, events, after, result⟩ := f world
  obtain ⟨spans', events', after', result'⟩ := f' world
  rintro htext ⟨⟩ ⟨⟩ ⟨⟩
  cases result with
  | error failure => exact ⟨htext, rfl, rfl, rfl⟩
  | ok a =>
    obtain ⟨htext', hevents', hworld', hresult'⟩ := hg a after
    constructor
    · simp only [Emission.andThen, outputText_append]
      rw [← htext', ← show outputText spans = outputText spans' from htext]
    · simp only [Emission.andThen, hevents']
    · apply hworld'
    · apply hresult'

theorem mapError {f g : Formatter H α} (h : SameOutput f g) (k : FormatError → FormatError) :
  SameOutput (f.mapError k) (g.mapError k)
  := by
  intro world
  obtain ⟨htext, hevents, hworld, hresult⟩ := h world
  exact ⟨htext, hevents, hworld, congrArg (Except.mapError (Failure.mapError k)) hresult⟩

/-- No destination tells formatters with the same output apart. -/
theorem into_eq {f g : Formatter H α} (h : SameOutput f g) (sink : Sink) (world : World H) :
  f.into sink world = g.into sink world
  := by
  obtain ⟨htext, hevents, hworld, hresult⟩ := h world
  simp only [into, Emission.outcome, Sink.absorb_eq_append, htext, hevents, hworld, hresult]

end SameOutput

/-! ### Changes of errors -/

theorem mapError_pure (k : FormatError → FormatError) (a : α) :
  mapError k (Pure.pure a : Formatter H α) = Pure.pure a
  := rfl

theorem mapError_write (k : FormatError → FormatError) (spans : List Span) :
  mapError k (write spans : Formatter H Unit) = write spans
  := rfl

theorem mapError_raise (k : FormatError → FormatError) (e : FormatError) :
  mapError k (raise e : Formatter H α) = raise (k e)
  := rfl

theorem mapError_bind (k : FormatError → FormatError) (f : Formatter H α)
    (g : α → Formatter H β) :
  mapError k (f >>= g) = mapError k f >>= fun a => mapError k (g a)
  := by
  funext world
  change { (f world).andThen g with
      result := ((f world).andThen g).result.mapError (Failure.mapError k) } =
    (mapError k f world).andThen fun a => mapError k (g a)
  simp only [mapError, Emission.andThen]
  cases (f world).result <;> rfl

theorem mapError_mapError (k l : FormatError → FormatError) (f : Formatter H α) :
  mapError l (mapError k f) = mapError (fun e => l (k e)) f
  := by
  funext world
  simp only [mapError]
  rcases (f world).result with (e | _) | a <;> rfl

/-! ### Results -/

variable {world : World H}

/-- One formatter after another gives a value if both do. -/
theorem result_bind_iff {f : Formatter H α} {g : α → Formatter H β} {b : β} :
  ((f >>= g) world).result = .ok b ↔
    ∃ a, (f world).result = .ok a ∧ (g a (f world).world).result = .ok b
  := by
  change ((f world).andThen g).result = _ ↔ _
  rw [Emission.andThen]
  rcases (f world).result with failure | a
  · simp
  · simp

/-- One formatter after another fails if the first one does, or the second one after it. -/
theorem result_bind_error_iff {f : Formatter H α} {g : α → Formatter H β} {failure : Failure} :
  ((f >>= g) world).result = .error failure ↔
    (f world).result = .error failure ∨
      ∃ a, (f world).result = .ok a ∧ (g a (f world).world).result = .error failure
  := by
  change ((f world).andThen g).result = _ ↔ _
  rw [Emission.andThen]
  rcases (f world).result with failure' | a
  · simp
  · simp

/-- What comes after a failure puts out nothing. -/
theorem spans_bind_of_error {f : Formatter H α} {failure : Failure}
    (h : (f world).result = .error failure) (g : α → Formatter H β) :
  ((f >>= g) world).spans = (f world).spans
  := by
  change ((f world).andThen g).spans = _
  rw [Emission.andThen, h]

theorem spans_bind_of_ok {f : Formatter H α} {a : α} (h : (f world).result = .ok a)
    (g : α → Formatter H β) :
  ((f >>= g) world).spans = (f world).spans ++ (g a (f world).world).spans
  := by
  change ((f world).andThen g).spans = _
  rw [Emission.andThen, h]

theorem result_mapError_iff {k : FormatError → FormatError} {f : Formatter H α} {a : α} :
  (mapError k f world).result = .ok a ↔ (f world).result = .ok a
  := by
  change (f world).result.mapError (Failure.mapError k) = _ ↔ _
  rcases (f world).result with failure | b
  · constructor <;> rintro ⟨⟩
  · exact Iff.rfl

/-- A change of errors changes the error that a formatter fails with. -/
theorem result_mapError_error_iff {k : FormatError → FormatError} {f : Formatter H α}
    {e : FormatError} :
  (mapError k f world).result = .error (.error e) ↔
    ∃ e', (f world).result = .error (.error e') ∧ e = k e'
  := by
  change (f world).result.mapError (Failure.mapError k) = _ ↔ _
  rcases (f world).result with (e' | _) | a
  · constructor
    · rintro ⟨⟩
      exact ⟨e', rfl, rfl⟩
    · rintro ⟨_, ⟨⟩, rfl⟩
      rfl
  · constructor
    · rintro ⟨⟩
    · rintro ⟨_, ⟨⟩, _⟩
  · constructor
    · rintro ⟨⟩
    · rintro ⟨_, ⟨⟩, _⟩

/-- A change of errors changes nothing where there is none. -/
theorem mapError_of_ok {f : Formatter H α} {a : α} (h : (f world).result = .ok a)
    (k : FormatError → FormatError) :
  mapError k f world = f world
  := by
  rw [mapError]
  generalize f world = emission at h
  cases emission
  cases h
  rfl

/-- Giving another value changes the value only. -/
theorem bind_return_of_ok {f : Formatter H α} {a : α} (h : (f world).result = .ok a) (b : β) :
  (f >>= fun _ => return b) world = { f world with result := .ok b }
  := by
  change (f world).andThen (fun _ => Pure.pure b) = _
  generalize f world = emission at h
  cases emission
  cases h
  simp [Emission.andThen, Pure.pure, pure]

end Formatter

/-! ### Calls -/

/-- A call does what its template does in the locale in effect. -/
theorem run_eq (template : List Char) (args : Arguments H) (locale : Option Locale)
    (world : World H) :
  let emission :=
    (Template.read template).runFrom args (locale.getD world.globalLocale) .undecided world
  (run template args locale world).spans = emission.spans ∧
    (run template args locale world).world = emission.world ∧
    (run template args locale world).result = emission.result.map fun _ => ()
  := by
  intro emission
  have hdiscard : (discard ((Template.read template).runFrom args
      (locale.getD world.globalLocale) .undecided) : Formatter H Unit) world =
    emission.andThen fun _ => Pure.pure () := rfl
  have hrun : run template args locale world =
      let inner := Formatter.reportingError (discard ((Template.read template).runFrom args
        (locale.getD world.globalLocale) .undecided)) world
      { inner with events := .formatting (byteLength template) args.length :: inner.events } :=
    rfl
  rw [hrun, Formatter.reportingError, hdiscard]
  rcases emission with ⟨spans, events, after, (e | _) | a⟩
  · exact ⟨rfl, rfl, rfl⟩
  · exact ⟨rfl, rfl, rfl⟩
  · exact ⟨List.append_nil _, rfl, rfl⟩

/-! ### Places -/

/-- Moving an error twice moves it by the sum. -/
theorem FormatError.rebase_rebase (a b : Nat) (e : FormatError) :
  (e.rebase a).rebase b = e.rebase (b + a)
  := by
  rw [rebase, rebase, rebase, Option.getD_some, Nat.add_assoc]

theorem FormatError.rebase_located (base place : Nat) (kind : ErrorKind) :
  (located kind place).rebase base = located kind (base + place)
  := rfl

end BraceFormat
