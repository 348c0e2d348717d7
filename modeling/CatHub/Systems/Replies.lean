/-
# CatHub.Systems.Replies — replies that are read by counting their lines.

A request is answered with as many lines as it announces, or with fewer, the last of which is a status.
A reader who knows what each request announces takes the replies apart again, whatever their number and
however many of them failed (`readAll_flatten`).
-/
import Mathlib.Data.List.Forall2

namespace CatHub.Systems

variable {α : Type} (status : α → Bool)

/-- A reply to a request that announces `n` lines. -/
structure Complete (n : Nat) (reply : List α) : Prop where
  bounded : reply.length ≤ n
  quiet : ∀ line ∈ reply.dropLast, status line = false
  ends : reply.length = n ∨ ∃ line, reply.getLast? = some line ∧ status line = true

/-- Take a reply off a stream of lines. -/
def takeReply : Nat → List α → List α × List α
  | 0, stream => ([], stream)
  | _ + 1, [] => ([], [])
  | n + 1, line :: stream =>
      if status line then ([line], stream)
      else
        let (reply, rest) := takeReply n stream
        (line :: reply, rest)

/-- Take a reply for each request. -/
def readAll : List Nat → List α → List (List α)
  | [], _ => []
  | n :: announced, stream =>
      let (reply, rest) := takeReply status n stream
      reply :: readAll announced rest

variable {status}

theorem complete_nil : Complete status 0 ([] : List α) :=
  ⟨Nat.le_refl 0, by simp, .inl rfl⟩

/-- A single status answers every request that announces something. -/
theorem complete_status {n : Nat} {line : α} (some_ : 0 < n) (is : status line = true) :
    Complete status n [line] :=
  ⟨some_, by simp, .inr ⟨line, rfl, is⟩⟩

theorem complete_data {n : Nat} {reply : List α} (length : reply.length = n)
    (data : ∀ line ∈ reply, status line = false) : Complete status n reply :=
  ⟨Nat.le_of_eq length, fun line mem => data line (List.dropLast_subset reply mem), .inl length⟩

/-- A reply is taken off a stream as a whole. -/
theorem takeReply_append {n : Nat} {reply : List α} (complete : Complete status n reply)
    (rest : List α) : takeReply status n (reply ++ rest) = (reply, rest) := by
  induction reply generalizing n with
  | nil =>
      obtain rfl : n = 0 := by
        rcases complete.ends with same | ⟨line, last, -⟩
        · exact same.symm
        · cases last
      rfl
  | cons line reply ih =>
      cases n with
      | zero => exact absurd complete.bounded (by simp)
      | succ n =>
          rw [List.cons_append, takeReply]
          cases reply with
          | nil =>
              cases is : status line with
              | true => rfl
              | false =>
                  -- the only line is no status, so it is all that was announced
                  obtain rfl : n = 0 := by
                    rcases complete.ends with same | ⟨last, here, isStatus⟩
                    · simpa using same.symm
                    · obtain rfl : line = last := Option.some.inj here
                      rw [is] at isStatus
                      cases isStatus
                  rfl
          | cons next reply =>
              have first : status line = false := complete.quiet line List.mem_cons_self
              have later : Complete status n (next :: reply) := by
                refine ⟨Nat.le_of_succ_le_succ complete.bounded, fun x mem => ?_, ?_⟩
                · exact complete.quiet x (List.mem_cons_of_mem line mem)
                · refine complete.ends.imp (fun same => Nat.succ.inj same) ?_
                  rintro ⟨last, here, isStatus⟩
                  exact ⟨last, by rwa [List.getLast?_cons_cons] at here, isStatus⟩
              rw [first, ih later]
              rfl

/-- **Replies are taken apart as they were put together.** -/
theorem readAll_flatten {announced : List Nat} {replies : List (List α)}
    (complete : List.Forall₂ (Complete status) announced replies) :
    readAll status announced replies.flatten = replies := by
  induction complete with
  | nil => rfl
  | cons here _ ih =>
      rw [List.flatten_cons, readAll, takeReply_append here]
      exact congrArg _ ih

end CatHub.Systems
