/-
# CatHub.Systems.Framing — cutting a stream into pieces of announced length, at once or as it comes.

A `Framing` looks at what stands at the front of a stream: it needs more, it finds a fault from which
there is no way on, or it finds a piece.  What it finds depends on nothing that comes later
(`settled`), and that is all the incremental reader needs.

`split` cuts a whole stream, up to the first fault.  `run` answers calls in any order: chunks are
pushed into a buffer, and `next` takes one piece out of it.  `run_split` is the invariant that ties the
two together; `run_drained` reads it off when the buffer holds nothing more to be found.
-/
import Mathlib.Data.List.Basic

namespace CatHub.Systems

universe u v

/-! ## Framings -/

/-- What stands at the front of a stream. -/
inductive Verdict (β : Type v) where
  | more
  | fault (b : β)
  | piece (size : Nat)

/-- The results are in `β`: what a piece decodes to, and the faults, after which nothing follows. -/
structure Framing (α : Type u) (β : Type v) where
  verdict : List α → Verdict β
  decode : List α → β
  stops : β → Bool
  idle : verdict [] = .more
  filled {s : List α} {n : Nat} : verdict s = .piece n → 0 < n ∧ n ≤ s.length
  settled {s : List α} (later : List α) : verdict s ≠ .more → verdict (s ++ later) = verdict s
  stops_fault {s : List α} {b : β} : verdict s = .fault b → stops b = true
  goes_on {s : List α} {n : Nat} : verdict s = .piece n → stops (decode (s.take n)) = false

/-- The elements up to the first that stops, which is the last one taken. -/
def through {β : Type v} (stops : β → Bool) : List β → List β
  | [] => []
  | b :: rest => if stops b then [b] else b :: through stops rest

theorem through_append {β : Type v} {stops : β → Bool} {front : List β}
    (some_ : front.any stops = true) (back : List β) :
    through stops (front ++ back) = through stops front := by
  induction front with
  | nil => cases some_
  | cons b front ih =>
      rw [List.cons_append, through, through]
      split
      · rfl
      · rename_i goes
        rw [List.any_cons, Bool.or_eq_true, or_iff_right goes] at some_
        rw [ih some_]

theorem through_none {β : Type v} {stops : β → Bool} {list : List β}
    (none_ : list.any stops = false) : through stops list = list := by
  induction list with
  | nil => rfl
  | cons b list ih =>
      rw [List.any_cons, Bool.or_eq_false_iff] at none_
      rw [through, none_.1, if_neg Bool.false_ne_true, ih none_.2]

theorem any_through {β : Type v} (stops : β → Bool) (list : List β) :
    (through stops list).any stops = list.any stops := by
  induction list with
  | nil => rfl
  | cons b list ih =>
      rw [through]
      split
      · rename_i here
        rw [List.any_cons, List.any_cons, here, Bool.true_or, Bool.true_or]
      · rw [List.any_cons, List.any_cons, ih]

/-- What a reader is asked to do. -/
inductive FramingCall (α : Type u) where
  | push (chunk : List α)
  | next

namespace Framing

variable {α : Type u} {β : Type v} (F : Framing α β)

/-! ## At once -/

/-- The results of a stream up to its first fault, and what is left of it. -/
def split (stream : List α) : List β × List α :=
  match _h : F.verdict stream with
  | .more => ([], stream)
  | .fault b => ([b], stream)
  | .piece n =>
      let later := split (stream.drop n)
      (F.decode (stream.take n) :: later.1, later.2)
termination_by stream.length
decreasing_by
  all_goals
    have size := F.filled _h
    rw [List.length_drop]
    omega

variable {F} {s : List α} {b : β} {n : Nat}

theorem split_more (h : F.verdict s = .more) : F.split s = ([], s) := by
  rw [split]
  split <;> simp_all

theorem split_fault (h : F.verdict s = .fault b) : F.split s = ([b], s) := by
  rw [split]
  split <;> simp_all

theorem split_piece (h : F.verdict s = .piece n) :
    F.split s = (F.decode (s.take n) :: (F.split (s.drop n)).1, (F.split (s.drop n)).2) := by
  rw [split]
  split <;> simp_all

theorem through_split (s : List α) : through F.stops (F.split s).1 = (F.split s).1 := by
  fun_induction Framing.split F s with
  | case1 => rfl
  | case2 s b h => rw [through, if_pos (F.stops_fault h)]
  | case3 s n h later ih => rw [through, F.goes_on h, if_neg Bool.false_ne_true, ih]

/-- What comes later does not change the verdict. -/
theorem settled_fault (F : Framing α β) (h : F.verdict s = .fault b) {later : List α} :
    F.verdict (s ++ later) = .fault b := by
  rw [F.settled later (by rw [h]; exact nofun), h]

theorem settled_piece (F : Framing α β) (h : F.verdict s = .piece n) {later : List α} :
    F.verdict (s ++ later) = .piece n := by
  rw [F.settled later (by rw [h]; exact nofun), h]

theorem split_ahead (h : F.verdict s = .piece n) (later : List α) :
    F.split (s ++ later) =
      (F.decode (s.take n) :: (F.split (s.drop n ++ later)).1, (F.split (s.drop n ++ later)).2) := by
  have inside := (F.filled h).2
  rw [split_piece (F.settled_piece h), List.take_append_of_le_length inside,
    List.drop_append_of_le_length inside]

/-- Pieces that stand one behind the other. -/
theorem split_flatten {pieces : List (List α)}
    (whole : ∀ p ∈ pieces, F.verdict p = .piece p.length) :
    F.split pieces.flatten = (pieces.map F.decode, []) := by
  induction pieces with
  | nil => exact split_more F.idle
  | cons p pieces ih =>
      have first := whole p List.mem_cons_self
      rw [List.flatten_cons, split_ahead first, List.take_length, List.drop_length, List.nil_append,
        ih (fun q mem => whole q (List.mem_cons_of_mem p mem)), List.map_cons]

/-- Where every piece can be read off its result, the results and the rest are the stream. -/
theorem split_spells {spell : β → List α}
    (sound : ∀ {s : List α} {b : β}, F.verdict s ≠ .fault b)
    (faithful : ∀ {s : List α} {n : Nat}, F.verdict s = .piece n →
      spell (F.decode (s.take n)) = s.take n)
    (s : List α) : (F.split s).1.flatMap spell ++ (F.split s).2 = s := by
  fun_induction Framing.split F s with
  | case1 => rfl
  | case2 s b h => exact absurd h sound
  | case3 s n h later ih =>
      rw [List.flatMap_cons, faithful h, List.append_assoc, ih, List.take_append_drop]

theorem split_forall {P : β → Prop} (sound : ∀ {s : List α} {b : β}, F.verdict s ≠ .fault b)
    (each : ∀ {s : List α} {n : Nat}, F.verdict s = .piece n → P (F.decode (s.take n)))
    (s : List α) : ∀ b ∈ (F.split s).1, P b := by
  fun_induction Framing.split F s with
  | case1 => exact nofun
  | case2 s b h => exact absurd h sound
  | case3 s n h later ih => exact List.forall_mem_cons.mpr ⟨each h, ih⟩

theorem split_rest (sound : ∀ {s : List α} {b : β}, F.verdict s ≠ .fault b) (s : List α) :
    F.verdict (F.split s).2 = .more := by
  fun_induction Framing.split F s with
  | case1 s h => exact h
  | case2 s b h => exact absurd h sound
  | case3 s n h later ih => exact ih

/-! ## As it comes -/

variable (F) in
/-- One result, where there is one, and the buffer after it. -/
def next (buffer : List α) : Option β × List α :=
  match F.verdict buffer with
  | .more => (none, buffer)
  | .fault b => (some b, buffer)
  | .piece n => (some (F.decode (buffer.take n)), buffer.drop n)

theorem next_more (h : F.verdict s = .more) : F.next s = (none, s) := by
  rw [next, h]

theorem next_fault (h : F.verdict s = .fault b) : F.next s = (some b, s) := by
  rw [next, h]

theorem next_piece (h : F.verdict s = .piece n) :
    F.next s = (some (F.decode (s.take n)), s.drop n) := by
  rw [next, h]

variable (F) in
/-- The results of the calls and the buffer after them. -/
def run (buffer : List α) : List (FramingCall α) → List β × List α
  | [] => ([], buffer)
  | .push chunk :: calls => run (buffer ++ chunk) calls
  | .next :: calls =>
      let later := run (F.next buffer).2 calls
      ((F.next buffer).1.toList ++ later.1, later.2)

/-- All that is pushed. -/
def pushed : List (FramingCall α) → List α
  | [] => []
  | .push chunk :: calls => chunk ++ pushed calls
  | .next :: calls => pushed calls

theorem pushed_append (front back : List (FramingCall α)) :
    pushed (front ++ back) = pushed front ++ pushed back := by
  induction front with
  | nil => rfl
  | cons call front ih =>
      cases call with
      | push chunk => rw [List.cons_append, pushed, pushed, ih, List.append_assoc]
      | next => exact ih

theorem pushed_asking (n : Nat) : pushed (List.replicate n (.next : FramingCall α)) = [] := by
  induction n with
  | zero => rfl
  | succ n ih => exact ih

theorem run_next {b : Option β} {after : List α} {buffer : List α} (h : F.next buffer = (b, after))
    (calls : List (FramingCall α)) :
    F.run buffer (.next :: calls) =
      (b.toList ++ (F.run after calls).1, (F.run after calls).2) := by
  rw [run, h]

/-- Whatever the chunks and whenever a result is asked for, the results so far and those still in the
buffer are those of the whole stream. -/
theorem run_split (buffer : List α) (calls : List (FramingCall α)) :
    through F.stops ((F.run buffer calls).1 ++ (F.split (F.run buffer calls).2).1) =
      (F.split (buffer ++ pushed calls)).1 := by
  induction calls generalizing buffer with
  | nil =>
      rw [run, pushed, List.nil_append, List.append_nil, through_split]
  | cons call calls ih =>
      cases call with
      | push chunk =>
          rw [run, pushed, ← List.append_assoc]
          exact ih (buffer ++ chunk)
      | next =>
          rw [pushed]
          cases h : F.verdict buffer with
          | more =>
              rw [run_next (next_more h)]
              exact ih buffer
          | fault b =>
              rw [run_next (next_fault h), split_fault (F.settled_fault h), Option.toList_some,
                List.append_assoc, List.singleton_append, through, if_pos (F.stops_fault h)]
          | piece n =>
              rw [run_next (next_piece h), split_ahead h, Option.toList_some, List.append_assoc,
                List.singleton_append, through, F.goes_on h, if_neg Bool.false_ne_true, ih]

/-- Where no fault was met, the buffer holds what the stream holds behind the results. -/
theorem run_rest (buffer : List α) (calls : List (FramingCall α))
    (sound : (F.run buffer calls).1.any F.stops = false) :
    (F.split (F.run buffer calls).2).2 = (F.split (buffer ++ pushed calls)).2 := by
  induction calls generalizing buffer with
  | nil => rw [run, pushed, List.append_nil]
  | cons call calls ih =>
      cases call with
      | push chunk =>
          rw [run] at sound ⊢
          rw [pushed, ← List.append_assoc]
          exact ih (buffer ++ chunk) sound
      | next =>
          rw [pushed]
          cases h : F.verdict buffer with
          | more =>
              rw [run_next (next_more h)] at sound ⊢
              exact ih buffer sound
          | fault b =>
              rw [run_next (next_fault h), Option.toList_some, List.singleton_append, List.any_cons,
                F.stops_fault h, Bool.true_or] at sound
              cases sound
          | piece n =>
              rw [run_next (next_piece h)] at sound ⊢
              rw [Option.toList_some, List.singleton_append, List.any_cons, F.goes_on h,
                Bool.false_or] at sound
              rw [split_ahead h]
              exact ih (buffer.drop n) sound

/-! ## Draining -/

variable (F) in
/-- Nothing more is to be found: the buffer waits for bytes, or a fault was met. -/
def Drained (outcome : List β × List α) : Prop :=
  F.verdict outcome.2 = .more ∨ outcome.1.any F.stops = true

/-- A reader that was asked often enough has the results of the stream, however it was cut. -/
theorem run_drained {buffer : List α} {calls : List (FramingCall α)}
    (drained : F.Drained (F.run buffer calls)) :
    through F.stops (F.run buffer calls).1 = (F.split (buffer ++ pushed calls)).1 := by
  rw [← run_split]
  rcases drained with waits | met
  · rw [split_more waits, List.append_nil]
  · rw [through_append met]

/-- A drained reader of a stream without faults has all results of the stream and keeps its rest. -/
theorem run_sound {buffer : List α} {calls : List (FramingCall α)}
    (drained : F.Drained (F.run buffer calls))
    (sound : (F.split (buffer ++ pushed calls)).1.any F.stops = false) :
    F.run buffer calls = F.split (buffer ++ pushed calls) := by
  have given := run_drained drained
  have none_ : (F.run buffer calls).1.any F.stops = false := by
    rw [← any_through, given]
    exact sound
  have waits : F.verdict (F.run buffer calls).2 = .more := drained.resolve_right (by simp [none_])
  have rest := run_rest buffer calls none_
  rw [split_more waits] at rest
  rw [through_none none_] at given
  exact Prod.ext given rest

/-- Asking often enough drains any buffer. -/
theorem exists_drained (buffer : List α) :
    ∃ n, F.Drained (F.run buffer (List.replicate n .next)) := by
  cases h : F.verdict buffer with
  | more => exact ⟨0, .inl h⟩
  | fault b =>
      refine ⟨1, .inr ?_⟩
      rw [List.replicate_one, run_next (next_fault h)]
      simp [F.stops_fault h]
  | piece n =>
      obtain ⟨k, later⟩ := exists_drained (buffer.drop n)
      refine ⟨k + 1, ?_⟩
      rw [List.replicate_succ, run_next (next_piece h)]
      exact later.imp_right (fun met => by simp [met])
termination_by buffer.length
decreasing_by
  have size := F.filled h
  rw [List.length_drop]
  omega

theorem run_append (buffer : List α) (front back : List (FramingCall α)) :
    F.run buffer (front ++ back) =
      ((F.run buffer front).1 ++ (F.run (F.run buffer front).2 back).1,
        (F.run (F.run buffer front).2 back).2) := by
  induction front generalizing buffer with
  | nil => rfl
  | cons call front ih =>
      cases call with
      | push chunk => exact ih (buffer ++ chunk)
      | next =>
          rw [List.cons_append, run, run, ih]
          simp only [List.append_assoc]

end Framing

end CatHub.Systems
