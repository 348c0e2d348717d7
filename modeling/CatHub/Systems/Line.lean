/-
# CatHub.Systems.Line — a single-server waiting line: conservation of the arrivals and FIFO service.

The server holds at most one element; the others wait in arrival order.  An element leaves from the
server or is withdrawn while it still waits.  A `Ledger` carries the line together with its books:
what arrived, what began service and what is gone, each in the order in which it happened.

`Balanced` says that the books agree with the line.  Every `Move` keeps it, so a component whose
operations are sequences of moves loses nothing, doubles nothing and serves in arrival order.  No
result asks the elements to be distinct; where the arrivals are, `Balanced.places_eq_one` puts each
of them in exactly one place.
-/
import Mathlib.Data.List.Perm.Basic
import Mathlib.Logic.Relation

namespace CatHub.Systems

variable {α : Type*}

/-! ## Lines, books and moves -/

/-- A waiting line with its books. -/
structure Ledger (α : Type*) where
  arrived : List α
  begun : List α
  gone : List α
  serving : Option α
  waiting : List α

namespace Ledger

/-- The elementary changes of a line. -/
inductive Move : Ledger α → Ledger α → Prop
  | arrive (l : Ledger α) (a : α) :
      Move l { l with arrived := l.arrived ++ [a], waiting := l.waiting ++ [a] }
  | serve (l : Ledger α) {a : α} {rest : List α} :
      l.serving = none → l.waiting = a :: rest →
      Move l { l with begun := l.begun ++ [a], serving := some a, waiting := rest }
  | depart (l : Ledger α) {a : α} :
      l.serving = some a → Move l { l with gone := l.gone ++ [a], serving := none }
  | withdraw (l : Ledger α) {kept dropped : List α} :
      kept.Sublist l.waiting → l.waiting.Perm (dropped ++ kept) →
      Move l { l with gone := l.gone ++ dropped, waiting := kept }

/-- Any number of moves. -/
abbrev Moves : Ledger α → Ledger α → Prop := Relation.ReflTransGen Move

/-- Serving a block at the front of the line, one element after the other, to the end. -/
theorem Moves.serve_block (l : Ledger α) {block rest : List α} (idle : l.serving = none)
    (waits : l.waiting = block ++ rest) :
    Moves l { l with begun := l.begun ++ block, gone := l.gone ++ block, waiting := rest } := by
  induction block generalizing l with
  | nil =>
      have same : { l with begun := l.begun ++ [], gone := l.gone ++ [], waiting := rest } = l := by
        simpa using congrArg (fun w => { l with waiting := w }) waits.symm
      rw [same]
  | cons a block ih =>
      let busy : Ledger α :=
        { l with begun := l.begun ++ [a], serving := some a, waiting := block ++ rest }
      have serve : Move l busy := .serve l idle waits
      have depart : Move busy _ := .depart busy rfl
      have later := ih { l with begun := l.begun ++ [a], gone := l.gone ++ [a],
                                waiting := block ++ rest } idle rfl
      simp only [List.append_assoc, List.singleton_append] at later
      refine .head serve (.head depart ?_)
      simpa only [idle] using later

/-! ## The books agree with the line -/

/-- The books of `l` agree with the line: what arrived is what is gone, what is served and what
waits; and what began service, followed by what waits, is in arrival order. -/
structure Balanced (l : Ledger α) : Prop where
  conserved : l.arrived.Perm (l.gone ++ (l.serving.toList ++ l.waiting))
  fifo : (l.begun ++ l.waiting).Sublist l.arrived

theorem Move.balanced {l m : Ledger α} (move : Move l m) (h : l.Balanced) : m.Balanced := by
  cases move with
  | arrive a =>
      refine ⟨?_, ?_⟩
      · simpa only [List.append_assoc] using h.conserved.append_right [a]
      · simpa only [List.append_assoc] using h.fifo.append_right [a]
  | @serve a rest idle head =>
      refine ⟨?_, ?_⟩
      · simpa only [idle, head, Option.toList_none, Option.toList_some, List.nil_append,
          List.singleton_append] using h.conserved
      · simpa only [head, List.append_assoc, List.singleton_append] using h.fifo
  | @depart a busy =>
      refine ⟨?_, h.fifo⟩
      simpa only [busy, Option.toList_none, Option.toList_some, List.nil_append,
        List.append_assoc] using h.conserved
  | @withdraw kept dropped sub perm =>
      refine ⟨?_, ?_⟩
      · have swap : (l.serving.toList ++ (dropped ++ kept)).Perm
            (dropped ++ (l.serving.toList ++ kept)) := by
          rw [← List.append_assoc, ← List.append_assoc]
          exact List.perm_append_comm.append_right kept
        have split := (perm.append_left l.serving.toList).trans swap
        simpa only [List.append_assoc] using h.conserved.trans (split.append_left l.gone)
      · exact (sub.append_left l.begun).trans h.fifo

theorem Moves.balanced {l m : Ledger α} (moves : Moves l m) (h : l.Balanced) : m.Balanced := by
  induction moves with
  | refl => exact h
  | tail _ move ih => exact move.balanced ih

/-- The empty line. -/
def empty : Ledger α := ⟨[], [], [], none, []⟩

theorem empty_balanced : (empty : Ledger α).Balanced := ⟨.refl _, .refl _⟩

/-! ## What the balance gives -/

/-- Any order of the arrivals is an order of service. -/
theorem Balanced.begun_pairwise {l : Ledger α} {r : α → α → Prop} (h : l.Balanced)
    (arrivals : l.arrived.Pairwise r) : l.begun.Pairwise r :=
  (arrivals.sublist h.fifo).sublist (List.sublist_append_left _ _)

section Count

variable [DecidableEq α]

/-- How often `a` is in the line or in the book of the elements that are gone. -/
def places (l : Ledger α) (a : α) : Nat :=
  l.serving.toList.count a + l.waiting.count a + l.gone.count a

theorem Balanced.places_eq_count {l : Ledger α} (h : l.Balanced) (a : α) :
    l.places a = l.arrived.count a := by
  have count := h.conserved.count_eq a
  simp only [List.count_append] at count
  unfold places
  omega

/-- An element that arrived once is in exactly one place. -/
theorem Balanced.places_eq_one {l : Ledger α} (h : l.Balanced) {a : α}
    (once : l.arrived.count a = 1) : l.places a = 1 := by
  rw [h.places_eq_count, once]

end Count

end Ledger

end CatHub.Systems
