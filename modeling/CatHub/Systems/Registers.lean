/-
# CatHub.Systems.Registers — logs of keyed entries, and the devices that execute them.

`latest` looks up the last entry of a log that has a given key.  What is appended wins over what was
there, and a log in which no key occurs twice is looked up like a table.

A device executes a log on its registers: each entry overwrites some of them.  A register ends with
what the last entry wrote that covers it, so two logs agree on it whose last covering entry is the
same, from whatever states they are executed.
-/
import Mathlib.Data.List.Basic

namespace CatHub.Systems

variable {α κ : Type*} [DecidableEq κ] (key : α → Option κ)

/-- The last entry of a log that has the key `k`. -/
def latest (log : List α) (k : κ) : Option α := log.reverse.find? (fun x => key x == some k)

@[simp] theorem latest_nil (k : κ) : latest key [] k = none := rfl

theorem latest_append (log more : List α) (k : κ) :
    latest key (log ++ more) k = (latest key more k).or (latest key log k) := by
  unfold latest
  rw [List.reverse_append, List.find?_append]

theorem latest_singleton (x : α) (k : κ) :
    latest key [x] k = if key x = some k then some x else none := by
  simp [latest, List.find?_singleton]

variable {key}

theorem mem_of_latest {log : List α} {k : κ} {x : α} (h : latest key log k = some x) :
    x ∈ log ∧ key x = some k := by
  have found := List.find?_some h
  exact ⟨List.mem_reverse.mp (List.mem_of_find?_eq_some h), by simpa using found⟩

theorem latest_eq_none {log : List α} {k : κ} :
    latest key log k = none ↔ ∀ x ∈ log, key x ≠ some k := by
  simp [latest, List.find?_eq_none]

/-- Two keys that mark the same entries of a log look up the same one. -/
theorem latest_congr {κ' : Type*} [DecidableEq κ'] {key' : α → Option κ'} {log : List α} {k : κ}
    {k' : κ'} (same : ∀ x ∈ log, key x = some k ↔ key' x = some k') :
    latest key log k = latest key' log k' := by
  induction log with
  | nil => rfl
  | cons x log ih =>
      rw [← List.singleton_append, latest_append, latest_append, latest_singleton, latest_singleton,
        ih (fun y hy => same y (List.mem_cons_of_mem x hy))]
      simp only [same x List.mem_cons_self]

/-- The latest entry with a key stands behind all others with that key. -/
theorem latest_append_cons {front back : List α} {x : α} {k : κ} (keyed : key x = some k)
    (none' : ∀ y ∈ back, key y ≠ some k) : latest key (front ++ x :: back) k = some x := by
  rw [← List.singleton_append, latest_append, latest_append, latest_eq_none.mpr none',
    latest_singleton, if_pos keyed]
  rfl

/-- In a log in which no key occurs twice the latest entry with a key is the only one. -/
theorem latest_eq_some {log : List α} (distinct : log.Pairwise (fun x y => key x ≠ key y)) {k : κ}
    {x : α} : latest key log k = some x ↔ x ∈ log ∧ key x = some k := by
  refine ⟨mem_of_latest, ?_⟩
  rintro ⟨mem, keyed⟩
  induction log with
  | nil => cases mem
  | cons y log ih =>
      obtain ⟨apart, distinct⟩ := List.pairwise_cons.mp distinct
      rw [← List.singleton_append, latest_append, latest_singleton]
      rcases List.mem_cons.mp mem with rfl | mem
      · have others : latest key log k = none :=
          latest_eq_none.mpr (fun z hz same => apart z hz (keyed.trans same.symm))
        rw [others, if_pos keyed]
        rfl
      · rw [ih distinct mem]
        rfl

/-! ## Executing a log -/

section Execution

variable {ρ ν : Type*}

/-- Execute a log: `sets x r` is what `x` writes to the register `r`, if it covers it. -/
def execute (sets : α → ρ → Option ν) (s : ρ → ν) (log : List α) : ρ → ν :=
  log.foldl (fun s x r => (sets x r).getD (s r)) s

variable {sets : α → ρ → Option ν} {r : ρ}

theorem execute_append (s : ρ → ν) (log more : List α) :
    execute sets s (log ++ more) = execute sets (execute sets s log) more := List.foldl_append

theorem execute_cons (s : ρ → ν) (x : α) (log : List α) :
    execute sets s (x :: log) = execute sets (fun r => (sets x r).getD (s r)) log := rfl

/-- A register that no entry covers keeps its value. -/
theorem execute_uncovered {log : List α} (uncovered : ∀ x ∈ log, sets x r = none) (s : ρ → ν) :
    execute sets s log r = s r := by
  induction log generalizing s with
  | nil => rfl
  | cons x log ih =>
      rw [execute_cons, ih (fun y hy => uncovered y (List.mem_cons_of_mem x hy)),
        uncovered x List.mem_cons_self]
      rfl

/-- A register has what the last entry wrote that covers it. -/
theorem execute_last {front back : List α} {x : α} {v : ν} (covers : sets x r = some v)
    (uncovered : ∀ y ∈ back, sets y r = none) (s : ρ → ν) :
    execute sets s (front ++ x :: back) r = v := by
  rw [execute_append, execute_cons, execute_uncovered uncovered, covers]
  rfl

end Execution

/-- A property that occurs in a log has a last occurrence. -/
theorem exists_last {log : List α} {P : α → Prop} (occurs : ∃ x ∈ log, P x) :
    ∃ front x back, log = front ++ x :: back ∧ P x ∧ ∀ y ∈ back, ¬ P y := by
  classical
  obtain ⟨x, mem, holds⟩ := occurs
  have some' : (log.reverse.find? (fun x => decide (P x))).isSome := by
    rw [List.find?_isSome]
    exact ⟨x, List.mem_reverse.mpr mem, decide_eq_true holds⟩
  obtain ⟨last, found⟩ := Option.isSome_iff_exists.mp some'
  obtain ⟨holds, back, front, split, others⟩ := List.find?_eq_some_iff_append.mp found
  refine ⟨front.reverse, last, back.reverse, ?_, of_decide_eq_true holds, ?_⟩
  · rw [← List.reverse_reverse log, split]
    simp
  · intro y hy
    simpa using others y (List.mem_reverse.mp hy)

end CatHub.Systems
