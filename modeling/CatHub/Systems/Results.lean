/-
# CatHub.Systems.Results — what a computation that may fail has done when it has not failed.

Inversion rules for `Except`: a sequence succeeds when each of its steps does, and fails with the error
of the first one that does not.  `reject` is a check that fails under a condition.
-/
import Mathlib.Data.List.Basic

namespace CatHub.Systems

universe u v

theorem bind_eq_ok {ε : Type u} {α β : Type v} {x : Except ε α} {f : α → Except ε β} {b : β} :
    x >>= f = .ok b ↔ ∃ a, x = .ok a ∧ f a = .ok b := by
  cases x with
  | error e => simp [bind, Except.bind]
  | ok a => simp [bind, Except.bind]

theorem bind_eq_error {ε : Type u} {α β : Type v} {x : Except ε α} {f : α → Except ε β} {e : ε} :
    x >>= f = .error e ↔ x = .error e ∨ ∃ a, x = .ok a ∧ f a = .error e := by
  cases x with
  | error e => simp [bind, Except.bind]
  | ok a => simp [bind, Except.bind]

theorem map_eq_ok {ε : Type u} {α β : Type v} {x : Except ε α} {f : α → β} {b : β} :
    f <$> x = .ok b ↔ ∃ a, x = .ok a ∧ f a = b := by
  cases x with
  | error e => simp [Functor.map, Except.map]
  | ok a => simp [Functor.map, Except.map]

theorem map_eq_error {ε : Type u} {α β : Type v} {x : Except ε α} {f : α → β} {e : ε} :
    f <$> x = .error e ↔ x = .error e := by
  cases x with
  | error e => simp [Functor.map, Except.map]
  | ok a => simp [Functor.map, Except.map]

/-- A computation that is run for its failure only. -/
theorem seq_eq_ok {ε : Type u} {β : Type} {x : Except ε Unit} {y : Except ε β} {b : β} :
    (do x; y) = .ok b ↔ x = .ok () ∧ y = .ok b := by
  cases x with
  | error e => simp [bind, Except.bind]
  | ok a => simp [bind, Except.bind]

/-- Fail with `e` under a condition. -/
def reject {ε : Type u} (condition : Bool) (e : ε) : Except ε Unit :=
  if condition then .error e else .ok ()

theorem reject_eq_ok {ε : Type u} {condition : Bool} {e : ε} :
    reject condition e = .ok () ↔ condition = false := by
  cases condition <;> simp [reject]

end CatHub.Systems
