import BraceFormat.Event
import BraceFormat.Output.Span

/-!
# Formatters

A `Formatter` is a computation that produces output, reports events, may fail, and may read
and change the `World`: the global locale and the state of the host. What it writes and
reports before it fails stays written and reported.

Formatters are sequenced by `bind`: the second one runs only if the first succeeds, and what
it writes follows. Output and reports are only ever added to and cannot be read back, so a
formatter says nothing about where they go. Nor can it ask how much has been put out before: the
position of the sink is no part of the `World`.
-/

namespace BraceFormat

/-- What the surrounding program brings along: the values it formats by rules of its own, and
the state its formatting code keeps. -/
structure Host where
  /-- The values formatted by the host's own code. -/
  Value : Type
  /-- The state of that code. -/
  State : Type

/-- What formatters read and change. -/
structure World (H : Host) where
  /-- The global locale, if one is set. -/
  locale : Option Locale
  /-- The state of the host's formatting code. -/
  state : H.State

/-- The locale in effect where none is given. -/
def World.globalLocale {H : Host} (world : World H) : Locale := world.locale.getD .c

/-- The result of running a formatter. -/
structure Emission (H : Host) (α : Type) where
  /-- The output, up to a failure if there is one. -/
  spans : List Span
  /-- The events reported, the first one first. -/
  events : List Event
  /-- The world afterwards. -/
  world : World H
  /-- The value computed, or why the formatter failed. -/
  result : Except Failure α

/-- A computation that produces output. -/
def Formatter (H : Host) (α : Type) := World H → Emission H α

variable {H : Host} {α β γ : Type}

/-- The formatter that writes nothing and gives a value. -/
def Formatter.pure (a : α) : Formatter H α := fun world => ⟨[], [], world, .ok a⟩

namespace Emission

/-- Goes on with another formatter, unless there has been a failure. -/
def andThen (emission : Emission H α) (g : α → Formatter H β) : Emission H β :=
  match emission.result with
  | .error failure => { emission with result := .error failure }
  | .ok a =>
    let rest := g a emission.world
    ⟨emission.spans ++ rest.spans, emission.events ++ rest.events, rest.world, rest.result⟩

theorem andThen_pure (emission : Emission H α) :
  emission.andThen Formatter.pure = emission
  := by
  obtain ⟨spans, events, world, _ | a⟩ := emission
  · rfl
  · simp [andThen, Formatter.pure]

theorem andThen_assoc (emission : Emission H α) (g : α → Formatter H β) (h : β → Formatter H γ) :
  (emission.andThen g).andThen h = emission.andThen fun a world => (g a world).andThen h
  := by
  obtain ⟨spans, events, world, _ | a⟩ := emission
  · rfl
  · simp only [andThen]
    cases (g a world).result <;> simp

end Emission

namespace Formatter

/-- One formatter after another. -/
def bind (f : Formatter H α) (g : α → Formatter H β) : Formatter H β := fun world =>
  (f world).andThen g

instance : Monad (Formatter H) where
  pure := pure
  bind := bind

theorem pure_bind (a : α) (g : α → Formatter H β) :
  bind (pure a) g = g a
  := rfl

theorem bind_pure (f : Formatter H α) :
  bind f pure = f
  := by
  funext world
  apply Emission.andThen_pure

theorem bind_assoc (f : Formatter H α) (g : α → Formatter H β) (h : β → Formatter H γ) :
  bind (bind f g) h = bind f fun a => bind (g a) h
  := by
  funext world
  apply Emission.andThen_assoc

instance : LawfulMonad (Formatter H) := LawfulMonad.mk' _ bind_pure pure_bind bind_assoc

/-- Writes output. -/
def write (spans : List Span) : Formatter H Unit := fun world => ⟨spans, [], world, .ok ()⟩

/-- Fails. -/
def fail (failure : Failure) : Formatter H α := fun world => ⟨[], [], world, .error failure⟩

/-- Fails with an error. -/
def raise (e : FormatError) : Formatter H α := fail (.error e)

/-- Gives the value of a computation that may fail. -/
def ofExcept : Except Failure α → Formatter H α
  | .ok a => pure a
  | .error failure => fail failure

/-- Gives the value of a computation that may find an error. -/
def ofChecked : Except FormatError α → Formatter H α
  | .ok a => pure a
  | .error e => raise e

/-- Changes the error a formatter fails with. -/
def mapError (f : FormatError → FormatError) (formatter : Formatter H α) : Formatter H α :=
  fun world =>
    let emission := formatter world
    { emission with result := emission.result.mapError (Failure.mapError f) }

/-- Reports an event. -/
def report (event : Event) : Formatter H Unit := fun world => ⟨[], [event], world, .ok ()⟩

/-- Reports the error a formatter fails with, if it does. -/
def reportingError (formatter : Formatter H α) : Formatter H α := fun world =>
  let emission := formatter world
  match emission.result with
  | .error (.error e) => { emission with events := emission.events ++ [.failed e] }
  | _ => emission

/-- The locale in effect where none is given. -/
def globalLocale : Formatter H Locale := fun world => ⟨[], [], world, .ok world.globalLocale⟩

/-- Sets the global locale, and gives the one it replaces. -/
def installLocale (locale : Locale) : Formatter H (Option Locale) := fun world =>
  ⟨[], [.installed locale world.locale.isSome], { world with locale := some locale },
    .ok world.locale⟩

/-- Removes the global locale, and gives it. -/
def removeLocale : Formatter H (Option Locale) := fun world =>
  ⟨[], if world.locale.isSome then [.removed] else [], { world with locale := none },
    .ok world.locale⟩

end Formatter

end BraceFormat
