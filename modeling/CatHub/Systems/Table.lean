/-
# CatHub.Systems.Table — tables whose entries are kept in ascending key order.

A `Table` carries the order of its keys, so that two tables with the same entries are equal and a walk
through one meets every key once, in order.  `insert` puts an entry where its key belongs and hands back
what it replaced.
-/
import Mathlib.Order.Lattice

namespace CatHub.Systems

universe u v

/-- Entries with strictly ascending keys. -/
@[ext] structure Table (κ : Type u) (β : Type v) [LT κ] where
  entries : List (κ × β)
  ascending : entries.Pairwise (fun a b => a.1 < b.1)

namespace Table

variable {κ : Type u} {β : Type v} [LinearOrder κ]

instance [DecidableEq β] : DecidableEq (Table κ β) := fun s t =>
  decidable_of_iff (s.entries = t.entries) Table.ext_iff.symm

def empty : Table κ β := ⟨[], .nil⟩

def find? (t : Table κ β) (key : κ) : Option β :=
  (t.entries.find? (fun e => e.1 = key)).map Prod.snd

/-! ## Insertion -/

/-- The entries with `key` set to `value`. -/
def place (key : κ) (value : β) : List (κ × β) → List (κ × β)
  | [] => [(key, value)]
  | e :: rest =>
      if key < e.1 then (key, value) :: e :: rest
      else if key = e.1 then (key, value) :: rest
      else e :: place key value rest

theorem mem_place {key : κ} {value : β} {entries : List (κ × β)} {e : κ × β}
    (mem : e ∈ place key value entries) : e = (key, value) ∨ e ∈ entries := by
  induction entries with
  | nil => exact .inl (List.mem_singleton.mp mem)
  | cons head rest ih =>
      rw [place] at mem
      split at mem
      · exact List.mem_cons.mp mem
      · split at mem
        · exact (List.mem_cons.mp mem).imp_right (List.mem_cons_of_mem head)
        · rcases List.mem_cons.mp mem with rfl | later
          · exact .inr List.mem_cons_self
          · exact (ih later).imp_right (List.mem_cons_of_mem _)

theorem place_ascending (key : κ) (value : β) {entries : List (κ × β)}
    (ascending : entries.Pairwise (fun a b => a.1 < b.1)) :
    (place key value entries).Pairwise (fun a b => a.1 < b.1) := by
  induction ascending with
  | nil => exact List.pairwise_singleton _ _
  | @cons head rest first order ih =>
      rw [place]
      split
      · rename_i before
        refine .cons (fun e mem => ?_) (.cons first order)
        rcases List.mem_cons.mp mem with rfl | later
        · exact before
        · exact lt_trans before (first e later)
      · split
        · rename_i same
          exact .cons (fun e mem => same ▸ first e mem) order
        · rename_i notBefore notSame
          refine .cons (fun e mem => ?_) ih
          rcases mem_place mem with rfl | later
          · exact lt_of_le_of_ne (not_lt.mp notBefore) (Ne.symm notSame)
          · exact first e later

/-- A key above all others goes to the end. -/
theorem place_above {key : κ} (value : β) {entries : List (κ × β)}
    (above : ∀ e ∈ entries, e.1 < key) : place key value entries = entries ++ [(key, value)] := by
  induction entries with
  | nil => rfl
  | cons head rest ih =>
      have later : head.1 < key := above head List.mem_cons_self
      rw [place, if_neg (lt_asymm later), if_neg (ne_of_gt later),
        ih (fun e mem => above e (List.mem_cons_of_mem head mem)), List.cons_append]

/-- The value that was there under the key, and the table with the new one. -/
def insert (t : Table κ β) (key : κ) (value : β) : Option β × Table κ β :=
  (t.find? key, ⟨place key value t.entries, place_ascending key value t.ascending⟩)

theorem find?_above {t : Table κ β} {key : κ} (above : ∀ e ∈ t.entries, e.1 < key) :
    t.find? key = none := by
  rw [find?, Option.map_eq_none_iff, List.find?_eq_none]
  intro e mem
  simpa using ne_of_lt (above e mem)

end Table

end CatHub.Systems
