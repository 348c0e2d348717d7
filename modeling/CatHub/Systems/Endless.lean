/-
# CatHub.Systems.Endless — runs that never end.

An `Endless` run takes a step at every instant.  What no step but a marked one ends holds on for ever
or until a marked step, which is all that the progress arguments need.
-/
import CatHub.Systems.Execution

namespace CatHub.Systems

universe u v w

variable {σ : Type u} {ι : Type v} {ω : Type w}

namespace Machine

/-- A run without an end. -/
structure Endless (M : Machine σ ι ω) where
  state : Nat → σ
  input : Nat → ι
  output : Nat → ω
  steps : ∀ i, M.step (state i) (input i) = some (state (i + 1), output i)

namespace Endless

variable {M : Machine σ ι ω}

/-- What every step keeps holds from then on. -/
theorem lasts {I : σ → Prop} (run : M.Endless)
    (next : ∀ s i o t, I s → M.step s i = some (t, o) → I t) {i : Nat} (start : I (run.state i)) :
    ∀ j, i ≤ j → I (run.state j) := by
  intro j later
  induction later with
  | refl => exact start
  | @step j _ ih => exact next _ _ _ _ ih (run.steps j)

/-- What every step but a marked one keeps holds from then on, or until a marked step. -/
theorem until_marked {I : σ → Prop} {Q : ι → ω → Prop} (run : M.Endless)
    (next : ∀ s i o t, I s → M.step s i = some (t, o) → Q i o ∨ I t) {i : Nat}
    (start : I (run.state i)) :
    (∃ j, i ≤ j ∧ Q (run.input j) (run.output j)) ∨ ∀ j, i ≤ j → I (run.state j) := by
  by_cases marked : ∃ j, i ≤ j ∧ Q (run.input j) (run.output j)
  · exact .inl marked
  · refine .inr (fun j later => ?_)
    induction later with
    | refl => exact start
    | @step j later ih =>
        rcases next _ _ _ _ ih (run.steps j) with now | goesOn
        · exact absurd ⟨j, later, now⟩ marked
        · exact goesOn

/-- A quantity that no step lowers grows along the run. -/
theorem grows {f : σ → Nat} (run : M.Endless)
    (next : ∀ s i o t, M.step s i = some (t, o) → f s ≤ f t) {i j : Nat} (later : i ≤ j) :
    f (run.state i) ≤ f (run.state j) :=
  run.lasts (I := fun s => f (run.state i) ≤ f s)
    (fun s i o t small step => Nat.le_trans small (next s i o t step))
    (Nat.le_refl _) j later

end Endless

end Machine

end CatHub.Systems
