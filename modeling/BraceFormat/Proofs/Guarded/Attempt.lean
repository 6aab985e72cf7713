import BraceFormat.Proofs.Call.DigitLimit
import BraceFormat.Proofs.Guarded.Float

/-!
# Guarded formatters

An `Attempt` is a formatter with guards: it gives nothing where one of them is breached.
Attempts are sequenced as formatters are, so what is put out before a breach is lost with the
rest.

An attempt tracks a formatter if it breaches a guard just where the formatter is cut short,
and emits the same elsewhere (`Attempt.Tracks`). Tracking is kept by sequencing.
-/

namespace BraceFormat.Guarded

variable {H : Host} {α β : Type}

/-- A guarded formatter. -/
def Attempt (H : Host) (α : Type) := World H → Option (Emission H α)

namespace Attempt

/-- The attempt that writes nothing and gives a value. -/
def pure (a : α) : Attempt H α := fun world => some (Formatter.pure a world)

/-- One attempt after another. -/
def bind (attempt : Attempt H α) (next : α → Attempt H β) : Attempt H β := fun world => do
  let emission ← attempt world
  match emission.result with
  | .error failure => return { emission with result := .error failure }
  | .ok a =>
    let rest ← next a emission.world
    return ⟨emission.spans ++ rest.spans, emission.events ++ rest.events, rest.world, rest.result⟩

instance : Monad (Attempt H) where
  pure := pure
  bind := bind

/-- A formatter that needs no guard. -/
def ofFormatter (f : Formatter H α) : Attempt H α := fun world => some (f world)

/-- Gives a value that is guarded. -/
def ofOption (r : Option α) : Attempt H α := fun world => r.map (Formatter.pure · world)

/-- Gives a value that is guarded, or fails with the error in its place. -/
def ofOutcome (r : Option (Except FormatError α)) : Attempt H α := fun world =>
  r.map (Formatter.ofChecked · world)

/-- Changes the error an attempt fails with. The change is guarded. -/
def mapError (k : FormatError → Option FormatError) (attempt : Attempt H α) : Attempt H α :=
  fun world => do
    let emission ← attempt world
    match emission.result with
    | .error (.error e) =>
      let e ← k e
      return { emission with result := .error (.error e) }
    | _ => return emission

/-- Reports the error an attempt fails with, if it does. -/
def reportingError (attempt : Attempt H α) : Attempt H α := fun world => do
  let emission ← attempt world
  match emission.result with
  | .error (.error e) => return { emission with events := emission.events ++ [.failed e] }
  | _ => return emission

end Attempt

/-- What remains of an emission if being cut short is a breach. -/
def uncut (emission : Emission H α) : Option (Emission H α) :=
  match emission.result with
  | .error .tooManyDigits => none
  | _ => some emission

theorem uncut_eq_none_iff {emission : Emission H α} :
  uncut emission = none ↔ emission.result = .error .tooManyDigits
  := by
  rw [uncut]
  split
  · next h => simp [h]
  · next h =>
    constructor
    · rintro ⟨⟩
    · intro hcut
      cases h hcut

theorem uncut_eq_some_iff {emission emission' : Emission H α} :
  uncut emission = some emission' ↔
    emission = emission' ∧ emission.result ≠ .error .tooManyDigits
  := by
  rw [uncut]
  split
  · next h => simp [h]
  · next h =>
    constructor
    · rintro ⟨⟩
      exact ⟨rfl, h⟩
    · rintro ⟨rfl, _⟩
      rfl

/-- An attempt breaches a guard just where a formatter is cut short, and emits the same as the
formatter elsewhere. -/
def Attempt.Tracks (attempt : Attempt H α) (f : Formatter H α) : Prop :=
  ∀ world, attempt world = uncut (f world)

namespace Attempt.Tracks

/-- A formatter that is never cut short needs no guard. -/
theorem ofFormatter {f : Formatter H α} (h : ∀ world, ¬f.CutShort world) :
  Tracks (Attempt.ofFormatter f) f
  := by
  intro world
  symm
  rw [Attempt.ofFormatter, uncut_eq_some_iff]
  exact ⟨rfl, h world⟩

theorem pure (a : α) :
  Tracks (Pure.pure a : Attempt H α) (Pure.pure a)
  := fun _ => rfl

theorem bind {attempt : Attempt H α} {f : Formatter H α} {next : α → Attempt H β}
    {g : α → Formatter H β} (hf : Tracks attempt f) (hg : ∀ a, Tracks (next a) (g a)) :
  Tracks (attempt >>= next) (f >>= g)
  := by
  intro world
  change Attempt.bind attempt next world = uncut ((f world).andThen g)
  rw [Attempt.bind, hf world]
  obtain ⟨spans, events, after, (e | _) | a⟩ := f world
  · rfl
  · rfl
  · change (next a after).bind _ = uncut _
    rw [hg a after, Emission.andThen]
    dsimp only
    obtain ⟨spans', events', after', (e | _) | b⟩ := g a after
    · rfl
    · rfl
    · rfl

/-- A value within its guards takes no step. -/
theorem ofOption_bind {r : Option α} {a : α} {next : α → Attempt H β} {f : Formatter H β}
    (hr : r = some a) (h : Tracks (next a) f) :
  Tracks (Attempt.ofOption r >>= next) f
  := by
  intro world
  rw [hr, ← h world]
  change Attempt.bind _ next world = _
  rw [Attempt.bind]
  change ((next a world).bind fun rest => some _) = _
  cases next a world <;> rfl

/-- A value within its guards is given, or the error in its place. -/
theorem ofOutcome_bind {r : Option (Except FormatError α)} {r' : Except FormatError α}
    {next : α → Attempt H β} {g : α → Formatter H β} (hr : r = some r')
    (hg : ∀ a, r' = .ok a → Tracks (next a) (g a)) :
  Tracks (Attempt.ofOutcome r >>= next) (Formatter.ofChecked r' >>= g)
  := by
  cases r' with
  | error e =>
    intro world
    rw [hr]
    rfl
  | ok a =>
    rw [hr]
    apply ofOption_bind (r := some a) rfl (hg a rfl)

/-- A value whose guards are breached where it is cut short is given. -/
theorem ofOutcome {r : Option (Except FormatError α)} {r' : Except Failure α}
    (hr : r = guarded r') :
  Tracks (Attempt.ofOutcome r : Attempt H α) (Formatter.ofExcept r')
  := by
  intro world
  rw [hr]
  rcases r' with (e | _) | a <;> rfl

theorem mapError {attempt : Attempt H α} {f : Formatter H α}
    {k? : FormatError → Option FormatError} {k : FormatError → FormatError}
    (h : Tracks attempt f) (hk : ∀ e, k? e = some (k e)) :
  Tracks (Attempt.mapError k? attempt) (f.mapError k)
  := by
  intro world
  rw [Attempt.mapError, h world, Formatter.mapError]
  obtain ⟨spans, events, after, (e | _) | a⟩ := f world
  · change (k? e).bind _ = _
    rw [hk e]
    rfl
  · rfl
  · rfl

theorem reportingError {attempt : Attempt H α} {f : Formatter H α} (h : Tracks attempt f) :
  Tracks (Attempt.reportingError attempt) f.reportingError
  := by
  intro world
  rw [Attempt.reportingError, h world, Formatter.reportingError]
  obtain ⟨spans, events, after, (e | _) | a⟩ := f world <;> rfl

end Attempt.Tracks

end BraceFormat.Guarded
