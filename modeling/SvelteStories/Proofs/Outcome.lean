/-!
# Computations that answer

A computation that may fail is made of steps.  If it answers, each of its steps has answered; and
what a test finds of an answer, that the computation can be run for, holds of the answer that it
has.

## Key results

- `exists_of_bind_eq_ok`: a first step and what follows it
- `exists_ok_of_any`: an answer that passes a test
-/

namespace SvelteStories

variable {ε α β : Type}

/-- A step of a computation that answers has answered. -/
theorem exists_of_bind_eq_ok {first : Except ε α} {next : α → Except ε β} {b : β}
    (h : first >>= next = .ok b) : ∃ a, first = .ok a ∧ next a = .ok b := by
  cases first with
  | error e => exact nomatch h
  | ok a => exact ⟨a, rfl, h⟩

/-- A step that answers does so whatever its failures are turned into. -/
theorem eq_ok_of_mapError_eq_ok {ε' : Type} {f : ε → ε'} {result : Except ε α} {a : α}
    (h : result.mapError f = .ok a) : result = .ok a := by
  cases result with
  | error e => exact nomatch h
  | ok a' => rw [Except.ok.inj h]

/-- A result that passes a test is an answer. -/
theorem exists_ok_of_any {result : Except ε α} {p : α → Bool}
    (h : result.toOption.any p = true) : ∃ a, result = .ok a ∧ p a = true := by
  cases result with
  | error e => exact nomatch h
  | ok a => exact ⟨a, rfl, h⟩

end SvelteStories
