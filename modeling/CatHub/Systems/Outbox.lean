/-
# CatHub.Systems.Outbox — changes that are applied first and published later.

Several writers change one state.  Each applies its change and publishes it in a second step, so
changes may be published in another order than they were applied in.  Someone who only reads the log
rebuilds the state, once nothing waits, if changes of one slot are published in the order they were
applied in: `rebuild_publish` moves a published change in front of the waiting ones, with which it
commutes.
-/
import Mathlib.Data.List.Basic

namespace CatHub.Systems

universe u v w x

/-! ## Rebuilding a state from changes -/

section Rebuild

variable {σ : Type u} {χ : Type v} (apply : σ → χ → σ)

/-- The state after the changes, in order. -/
def rebuild (changes : List χ) (s : σ) : σ := changes.foldl apply s

theorem rebuild_append (first second : List χ) (s : σ) :
    rebuild apply (first ++ second) s = rebuild apply second (rebuild apply first s) :=
  List.foldl_append

theorem rebuild_concat (changes : List χ) (c : χ) (s : σ) :
    rebuild apply (changes ++ [c]) s = apply (rebuild apply changes s) c := by
  rw [rebuild_append]
  rfl

/-- A view of the state through which every change factors is rebuilt by itself. -/
theorem rebuild_view {τ : Type w} {view : σ → τ} {after : τ → χ → τ}
    (factors : ∀ s c, view (apply s c) = after (view s) c) (changes : List χ) (s : σ) :
    view (rebuild apply changes s) = rebuild after changes (view s) := by
  induction changes generalizing s with
  | nil => rfl
  | cons c changes ih =>
      calc view (rebuild apply (c :: changes) s)
          = view (rebuild apply changes (apply s c)) := rfl
        _ = rebuild after changes (view (apply s c)) := ih (apply s c)
        _ = rebuild after changes (after (view s) c) := by rw [factors]
        _ = rebuild after (c :: changes) (view s) := rfl

/-- A change can be moved in front of the changes it commutes with. -/
theorem rebuild_front {c : χ} {earlier : List χ}
    (commutes : ∀ d ∈ earlier, ∀ s, apply (apply s d) c = apply (apply s c) d) (s : σ) :
    rebuild apply (earlier ++ [c]) s = rebuild apply (c :: earlier) s := by
  induction earlier generalizing s with
  | nil => rfl
  | cons d earlier ih =>
      obtain ⟨first, others⟩ := List.forall_mem_cons.mp commutes
      calc rebuild apply (d :: earlier ++ [c]) s
          = rebuild apply (earlier ++ [c]) (apply s d) := rfl
        _ = rebuild apply (c :: earlier) (apply s d) := ih others (apply s d)
        _ = rebuild apply earlier (apply (apply s d) c) := rfl
        _ = rebuild apply earlier (apply (apply s c) d) := by rw [first s]
        _ = rebuild apply (c :: d :: earlier) s := rfl

end Rebuild

/-! ## The outbox -/

/-- The changes that wait to be published, oldest first, each with its writer, and the log. -/
structure Outbox (ρ : Type w) (χ : Type v) where
  waiting : List (ρ × χ) := []
  log : List χ := []
  deriving DecidableEq, Repr

namespace Outbox

variable {ρ : Type w} {χ : Type v} {κ : Type x}

/-- Everything that was ever put in: the log, then what waits. -/
def all (o : Outbox ρ χ) : List χ := o.log ++ o.waiting.map Prod.snd

/-- A writer with nothing waiting puts a change in. -/
def put (o : Outbox ρ χ) (r : ρ) (c : χ) : Outbox ρ χ := { o with waiting := o.waiting ++ [(r, c)] }

theorem all_put (o : Outbox ρ χ) (r : ρ) (c : χ) : (o.put r c).all = o.all ++ [c] := by
  simp [all, put, List.append_assoc]

variable [DecidableEq ρ] [DecidableEq κ]

/-- The changes of other writers in front of the first change of `r`. -/
def ahead (o : Outbox ρ χ) (r : ρ) : List (ρ × χ) := o.waiting.takeWhile (·.1 != r)

/-- Whether a change of `r` waits. -/
def busy (o : Outbox ρ χ) (r : ρ) : Bool := o.waiting.any (·.1 == r)

/-- The writer `r` publishes its oldest waiting change. -/
def publish (o : Outbox ρ χ) (r : ρ) : Option (Outbox ρ χ) :=
  match o.waiting.dropWhile (·.1 != r) with
  | [] => none
  | e :: later => some { waiting := o.ahead r ++ later, log := o.log ++ [e.2] }

/-- What `r` publishes next is the oldest waiting change of its slot. -/
def inOrder (slot : χ → κ) (o : Outbox ρ χ) (r : ρ) : Bool :=
  match o.waiting.dropWhile (·.1 != r) with
  | [] => true
  | e :: _ => (o.ahead r).all fun d => slot d.2 != slot e.2

/-- Publishing in order does not change what the log and the waiting changes rebuild to. -/
theorem rebuild_publish {σ : Type u} {apply : σ → χ → σ} {slot : χ → κ}
    (commutes : ∀ c d, slot d ≠ slot c → ∀ s, apply (apply s d) c = apply (apply s c) d)
    {o o' : Outbox ρ χ} {r : ρ} (published : o.publish r = some o')
    (ordered : o.inOrder slot r = true) (s : σ) : rebuild apply o'.all s = rebuild apply o.all s := by
  have waiting : o.waiting = o.ahead r ++ o.waiting.dropWhile (·.1 != r) :=
    List.takeWhile_append_dropWhile.symm
  rw [publish] at published
  rw [inOrder] at ordered
  cases next : o.waiting.dropWhile (·.1 != r) with
  | nil =>
      rw [next] at published
      cases published
  | cons e later =>
      rw [next] at published ordered waiting
      cases published
      have apart : ∀ d ∈ (o.ahead r).map Prod.snd, ∀ t, apply (apply t d) e.2 =
          apply (apply t e.2) d := by
        intro d mem t
        obtain ⟨entry, isAhead, rfl⟩ := List.mem_map.mp mem
        have differs := List.all_eq_true.mp ordered entry isAhead
        exact commutes e.2 entry.2 (bne_iff_ne.mp differs) t
      have before : o.all =
          o.log ++ ((o.ahead r).map Prod.snd ++ [e.2] ++ later.map Prod.snd) := by
        rw [all, waiting]
        simp
      have after : (Outbox.mk (o.ahead r ++ later) (o.log ++ [e.2])).all =
          o.log ++ (e.2 :: (o.ahead r).map Prod.snd ++ later.map Prod.snd) := by
        simp [all]
      rw [before, after, rebuild_append, rebuild_append, rebuild_append, rebuild_append,
        rebuild_front apply apart]

end Outbox

end CatHub.Systems
