/-
# CatHub.Systems.Execution — guarded machines, their recorded executions, and the invariant rules.

A machine is a partial step function: an input that is not enabled has no successor.  An execution
keeps its whole history, one `Transition` for each step, so that a property may speak about what
was observed so far as well as about the state that was reached.  Interleavings of several parties
are machines whose inputs name the party that moves.

Two rules carry every induction over runs in this development.  `Execution.invariant` is the
ordinary one; `Execution.guarded` is the same rule for the executions whose steps all meet a
condition `G`, which is how a property that holds only under a condition is stated.  `exec` runs a
machine on a list of inputs, and `execution_exec` turns such a run into an execution.

`Execution.simulated` compares two machines.  Where the one takes a step in many parts, it carries out
every execution of the other, part by part.
-/
import Mathlib.Data.List.Basic
import Mathlib.Data.List.Forall2

namespace CatHub.Systems

universe u v w u' v' w'

/-! ## Machines and recorded steps -/

/-- `step s i` is the successor of `s` under the input `i` and what is observed on the way, or
`none` where `i` is not enabled. -/
structure Machine (σ : Type u) (ι : Type v) (ω : Type w) where
  step : σ → ι → Option (σ × ω)

/-- One step as the history of an execution records it. -/
structure Transition (σ : Type u) (ι : Type v) (ω : Type w) where
  before : σ
  input : ι
  output : ω
  after : σ

namespace Machine

variable {σ : Type u} {ι : Type v} {ω : Type w} {M : Machine σ ι ω} {s₀ s t : σ}
  {history : List (Transition σ ι ω)}

/-- `M.Execution s₀ history s`: from `s₀` the machine can take the steps of `history`, in order,
and is then in `s`. -/
inductive Execution (M : Machine σ ι ω) (s₀ : σ) : List (Transition σ ι ω) → σ → Prop
  | start : Execution M s₀ [] s₀
  | next {history : List (Transition σ ι ω)} {s t : σ} {i : ι} {o : ω} :
      Execution M s₀ history s → M.step s i = some (t, o) →
      Execution M s₀ (history ++ [⟨s, i, o, t⟩]) t

/-! ## Invariant rules -/

/-- What the start has and every step whose transition meets `G` keeps, holds after every
execution all of whose transitions meet `G`.  `I` may look at the history. -/
theorem Execution.guarded {G : Transition σ ι ω → Prop}
    {I : List (Transition σ ι ω) → σ → Prop} (run : M.Execution s₀ history s)
    (start : I [] s₀)
    (next : ∀ history s i o t, M.Execution s₀ history s → I history s →
      M.step s i = some (t, o) → G ⟨s, i, o, t⟩ → I (history ++ [⟨s, i, o, t⟩]) t)
    (meets : ∀ e ∈ history, G e) : I history s := by
  induction run with
  | start => exact start
  | @next history s t i o run step ih =>
      have earlier : ∀ e ∈ history, G e := fun e he => meets e (List.mem_append_left _ he)
      have latest : G ⟨s, i, o, t⟩ := meets _ (by simp)
      exact next history s i o t run (ih earlier) step latest

/-- The invariant rule with no condition on the steps. -/
theorem Execution.invariant {I : List (Transition σ ι ω) → σ → Prop}
    (run : M.Execution s₀ history s) (start : I [] s₀)
    (next : ∀ history s i o t, M.Execution s₀ history s → I history s →
      M.step s i = some (t, o) → I (history ++ [⟨s, i, o, t⟩]) t) : I history s :=
  run.guarded (G := fun _ => True) start
    (fun history s i o t r inv step _ => next history s i o t r inv step) (fun _ _ => trivial)

/-- A state invariant kept by the steps that meet `G` puts every step taken from a state that has
it into `P`. -/
theorem Execution.always {I : σ → Prop} {G P : Transition σ ι ω → Prop}
    (run : M.Execution s₀ history s) (start : I s₀)
    (next : ∀ s i o t, I s → M.step s i = some (t, o) → G ⟨s, i, o, t⟩ →
      I t ∧ P ⟨s, i, o, t⟩)
    (meets : ∀ e ∈ history, G e) : I s ∧ ∀ e ∈ history, P e := by
  refine run.guarded (I := fun history s => I s ∧ ∀ e ∈ history, P e) ⟨start, by simp⟩ ?_ meets
  rintro history s i o t - ⟨inv, past⟩ step guard
  obtain ⟨inv', now⟩ := next s i o t inv step guard
  refine ⟨inv', fun e he => ?_⟩
  rcases List.mem_append.mp he with he | he
  · exact past e he
  · rw [List.mem_singleton.mp he]
    exact now

/-- Every recorded transition is a step of the machine. -/
theorem Execution.step_of_mem (run : M.Execution s₀ history s) :
    ∀ e ∈ history, M.step e.before e.input = some (e.after, e.output) :=
  (run.always (I := fun _ => True) (G := fun _ => True) trivial
    (fun _ _ _ _ _ step _ => ⟨trivial, step⟩) (fun _ _ => trivial)).2

/-! ## Prefixes and composition -/

/-- An execution can be put in front of another one. -/
theorem Execution.append {later : List (Transition σ ι ω)} (first : M.Execution s₀ history s)
    (second : M.Execution s later t) : M.Execution s₀ (history ++ later) t := by
  induction second with
  | start => simpa using first
  | next _ step ih =>
      rw [← List.append_assoc]
      exact ih.next step

/-- What happened before a transition is an execution that ends where the transition starts. -/
theorem Execution.before {earlier later : List (Transition σ ι ω)} {e : Transition σ ι ω}
    (run : M.Execution s₀ (earlier ++ e :: later) s) : M.Execution s₀ earlier e.before := by
  generalize whole : earlier ++ e :: later = history at run
  induction run generalizing later with
  | start => simp at whole
  | @next history s t i o run step ih =>
      rcases List.eq_nil_or_concat later with rfl | ⟨front, last, rfl⟩
      · obtain ⟨rfl, here⟩ := List.append_inj' whole rfl
        cases here
        exact run
      · rw [List.concat_eq_append, ← List.cons_append, ← List.append_assoc] at whole
        exact ih (List.append_inj' whole rfl).1

/-- An execution can be cut anywhere. -/
theorem Execution.split {front back : List (Transition σ ι ω)}
    (run : M.Execution s₀ (front ++ back) s) :
    ∃ mid, M.Execution s₀ front mid ∧ M.Execution mid back s := by
  generalize whole : front ++ back = history at run
  induction run generalizing back with
  | start =>
      obtain ⟨rfl, rfl⟩ := List.append_eq_nil_iff.mp whole
      exact ⟨s₀, .start, .start⟩
  | @next history s t i o run step ih =>
      rcases List.eq_nil_or_concat back with rfl | ⟨back, last, rfl⟩
      · rw [List.append_nil] at whole
        subst whole
        exact ⟨t, run.next step, .start⟩
      · rw [List.concat_eq_append, ← List.append_assoc] at whole
        obtain ⟨same, here⟩ := List.append_inj' whole rfl
        obtain ⟨mid, first, second⟩ := ih same
        cases here
        rw [List.concat_eq_append]
        exact ⟨mid, first, second.next step⟩

/-- The last transition of an execution. -/
theorem Execution.last {earlier : List (Transition σ ι ω)} {e : Transition σ ι ω}
    (run : M.Execution s₀ (earlier ++ [e]) s) :
    M.Execution s₀ earlier e.before ∧ M.step e.before e.input = some (e.after, e.output) ∧
      s = e.after := by
  generalize whole : earlier ++ [e] = history at run
  cases run with
  | start => simp at whole
  | next run step =>
      obtain ⟨rfl, here⟩ := List.append_inj' whole rfl
      cases here
      exact ⟨run, step, rfl⟩

theorem Execution.stays (run : M.Execution s₀ [] s) : s = s₀ := by
  generalize nothing : [] = history at run
  cases run with
  | start => rfl
  | next => simp at nothing

/-- The first transition of an execution is a step from its start. -/
theorem Execution.uncons {e : Transition σ ι ω} {later : List (Transition σ ι ω)}
    (run : M.Execution s₀ (e :: later) s) :
    e.before = s₀ ∧ M.step s₀ e.input = some (e.after, e.output) ∧ M.Execution e.after later s := by
  have run : M.Execution s₀ ([e] ++ later) s := run
  obtain ⟨mid, first, rest⟩ := run.split
  generalize single : [e] = history at first
  cases first with
  | start => cases single
  | @next history s _ i o begun step =>
      have alone : history = [] := by
        have length := congrArg List.length single
        simpa using length
      subst alone
      obtain rfl := begun.stays
      cases single
      exact ⟨rfl, step, rest⟩

/-! ## Simulation -/

/-- A step of `M` that meets `G` is carried out by `N`, from every related state, in steps that
`Match` it.  Then so is every execution of `M` whose steps all meet `G`. -/
theorem Execution.simulated {τ : Type u'} {κ : Type v'} {υ : Type w'} {N : Machine τ κ υ} {n₀ : τ}
    {R : σ → τ → Prop} {G : Transition σ ι ω → Prop}
    {Match : Transition σ ι ω → List (Transition τ κ υ) → Prop} (run : M.Execution s₀ history s)
    (start : R s₀ n₀)
    (carried : ∀ s n i o t, R s n → M.step s i = some (t, o) → G ⟨s, i, o, t⟩ →
      ∃ part n', N.Execution n part n' ∧ Match ⟨s, i, o, t⟩ part ∧ R t n')
    (meets : ∀ e ∈ history, G e) :
    ∃ parts n, N.Execution n₀ parts.flatten n ∧ List.Forall₂ Match history parts ∧ R s n := by
  refine run.guarded (I := fun history s => ∃ parts n, N.Execution n₀ parts.flatten n ∧
    List.Forall₂ Match history parts ∧ R s n) ⟨[], n₀, .start, .nil, start⟩ ?_ meets
  rintro history s i o t - ⟨parts, n, taken, matched, related⟩ step guard
  obtain ⟨part, n', next, matching, related'⟩ := carried s n i o t related step guard
  refine ⟨parts ++ [part], n', ?_, List.rel_append matched (.cons matching .nil), related'⟩
  rw [List.flatten_append, List.flatten_singleton]
  exact taken.append next

/-! ## Running a machine on a list of inputs -/

/-- The history and the final state of a run on the given inputs, if they are all enabled. -/
def exec (M : Machine σ ι ω) : σ → List ι → Option (List (Transition σ ι ω) × σ)
  | s, [] => some ([], s)
  | s, i :: is =>
      match M.step s i with
      | none => none
      | some (t, o) =>
          match M.exec t is with
          | none => none
          | some (later, final) => some (⟨s, i, o, t⟩ :: later, final)

theorem execution_of_exec {inputs : List ι} (h : M.exec s inputs = some (history, t)) :
    M.Execution s history t := by
  induction inputs generalizing s history with
  | nil =>
      simp only [exec, Option.some.injEq, Prod.mk.injEq] at h
      obtain ⟨rfl, rfl⟩ := h
      exact .start
  | cons i is ih =>
      simp only [exec] at h
      split at h
      · cases h
      · rename_i u o step
        split at h
        · cases h
        · rename_i later final rest
          simp only [Option.some.injEq, Prod.mk.injEq] at h
          obtain ⟨rfl, rfl⟩ := h
          have first : M.Execution s [⟨s, i, o, u⟩] u := Execution.start.next step
          exact first.append (ih rest)

/-- The run on enabled inputs is an execution. -/
theorem execution_exec (M : Machine σ ι ω) (s : σ) (inputs : List ι)
    (h : (M.exec s inputs).isSome) :
    M.Execution s ((M.exec s inputs).get h).1 ((M.exec s inputs).get h).2 :=
  execution_of_exec (Option.some_get h).symm

theorem inputs_of_exec {inputs : List ι} (h : M.exec s inputs = some (history, t)) :
    history.map (·.input) = inputs := by
  induction inputs generalizing s history t with
  | nil =>
      simp only [exec, Option.some.injEq, Prod.mk.injEq] at h
      obtain ⟨rfl, _⟩ := h
      rfl
  | cons i is ih =>
      simp only [exec] at h
      split at h
      · cases h
      · split at h
        · cases h
        · rename_i later final rest
          simp only [Option.some.injEq, Prod.mk.injEq] at h
          obtain ⟨rfl, _⟩ := h
          exact congrArg (i :: ·) (ih rest)

/-- It records the inputs that it was given. -/
theorem exec_inputs (M : Machine σ ι ω) (s : σ) (inputs : List ι)
    (h : (M.exec s inputs).isSome) :
    ((M.exec s inputs).get h).1.map (·.input) = inputs :=
  inputs_of_exec (Option.some_get h).symm

/-- An execution goes on with an enabled input. -/
theorem Execution.goOn (run : M.Execution s₀ history s) (i : ι) (h : (M.step s i).isSome) :
    M.Execution s₀ (history ++ [⟨s, i, ((M.step s i).get h).2, ((M.step s i).get h).1⟩])
      ((M.step s i).get h).1 :=
  run.next (Option.some_get h).symm

end Machine

end CatHub.Systems
