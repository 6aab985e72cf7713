/-!
# Computations that may fail

A computation in steps succeeds just if each step does. A change of its value changes nothing
about its failures, and a change of its failures nothing about its value.
-/

namespace BraceFormat

variable {ε α β : Type}

theorem bind_eq_ok_iff {x : Except ε α} {f : α → Except ε β} {b : β} :
  x >>= f = .ok b ↔ ∃ a, x = .ok a ∧ f a = .ok b
  := by
  cases x with
  | error e =>
    constructor
    · rintro ⟨⟩
    · rintro ⟨_, ⟨⟩, _⟩
  | ok a =>
    constructor
    · intro h
      exact ⟨a, rfl, h⟩
    · rintro ⟨_, ⟨⟩, h⟩
      apply h

/-- A computation in steps fails if the first one does, or the others after it. -/
theorem bind_eq_error_iff {x : Except ε α} {f : α → Except ε β} {e : ε} :
  x >>= f = .error e ↔ x = .error e ∨ ∃ a, x = .ok a ∧ f a = .error e
  := by
  cases x with
  | error e' =>
    constructor
    · rintro ⟨⟩
      exact .inl rfl
    · rintro (⟨⟨⟩⟩ | ⟨_, ⟨⟩, _⟩)
      rfl
  | ok a =>
    constructor
    · intro h
      exact .inr ⟨a, rfl, h⟩
    · rintro (⟨⟨⟩⟩ | ⟨_, ⟨⟩, h⟩)
      apply h

theorem map_eq_error_iff {f : α → β} {x : Except ε α} {e : ε} :
  x.map f = .error e ↔ x = .error e
  := by
  cases x with
  | error e' => simp [Except.map]
  | ok a => constructor <;> rintro ⟨⟩

theorem mapError_eq_ok_iff {δ : Type} {f : ε → δ} {x : Except ε α} {a : α} :
  x.mapError f = .ok a ↔ x = .ok a
  := by
  cases x with
  | error e => constructor <;> rintro ⟨⟩
  | ok b =>
    constructor
    · rintro ⟨⟩
      rfl
    · rintro ⟨⟩
      rfl

/-- A change of failures distributes over the steps. -/
theorem mapError_bind {δ : Type} (k : ε → δ) (x : Except ε α) (f : α → Except ε β) :
  (x >>= f).mapError k = x.mapError k >>= fun a => (f a).mapError k
  := by
  cases x <;> rfl

end BraceFormat
