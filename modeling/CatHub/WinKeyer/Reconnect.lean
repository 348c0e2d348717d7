/-
# CatHub.WinKeyer.Reconnect — how often a lost keyer is tried.

After the end of a session the actor sleeps before it opens the transport again, and twice as long after each
attempt that fails.  It goes on to serve requests meanwhile, and every request starts the sleep anew: so an
attempt comes only after a silence of the whole delay (`reopened_after_silence`), and clients that keep asking
keep the keyer away.  The spacing of the attempts is the one of `Systems.Backoff`.
-/
import CatHub.Systems.Backoff
import CatHub.WinKeyer.ActorCalls
import CatHub.WinKeyer.Turns

namespace CatHub.WinKeyer

open Systems Ptt Retrier

/-! ## The actor and its sleep -/

def reconnectDelays : Backoff where
  initial := 250
  longest := 5000
  ordered := by decide

/-- An actor, the delay of its reconnect loop, and when its loop last went round. -/
structure Sleeper where
  actor : Actor
  reconnectDelay : Nat := reconnectDelays.initial
  asleep : Nat

/-- Whether the actor's loop takes the input. -/
def ActorInput.isTurn : ActorInput → Bool
  | .station _ => false
  | _ => true

def ActorInput.isReopen : ActorInput → Bool
  | .reopen _ _ => true
  | _ => false

/-- The delay after a turn of the loop that ends with `a`. -/
def Sleeper.nextDelay (s : Sleeper) (input : ActorInput) (a : Actor) : Nat :=
  if input.isReopen then
    if a.loop = .session then reconnectDelays.initial else min (s.reconnectDelay * 2) reconnectDelays.longest
  else s.reconnectDelay

/-- The actor, with an attempt to reopen the transport only after a sleep of the whole delay. -/
def sleeping : Machine Sleeper ActorInput Observation where
  step s input :=
    match actor.step s.actor input with
    | none => none
    | some (a, o) =>
        if input.isReopen ∧ a.clock < s.asleep + s.reconnectDelay then none
        else some (⟨a, s.nextDelay input a, if input.isTurn then a.clock else s.asleep⟩, o)

def reconnecting : Retrier Sleeper where
  clock s := s.actor.clock
  wake s := if s.actor.loop = .reconnecting then some (s.asleep + s.reconnectDelay) else none

def reopens (e : Transition Sleeper ActorInput Observation) : Bool := e.input.isReopen

section Steps

variable {s t : Sleeper} {input : ActorInput} {o : Observation} {wake : Nat}

theorem sleeping_step (step : sleeping.step s input = some (t, o)) :
    actor.step s.actor input = some (t.actor, o) ∧
      (input.isReopen → s.asleep + s.reconnectDelay ≤ t.actor.clock) ∧
      t.reconnectDelay = s.nextDelay input t.actor ∧
      t.asleep = if input.isTurn then t.actor.clock else s.asleep := by
  simp only [sleeping] at step
  split at step
  · cases step
  · rename_i a o' took
    simp only [Option.ite_none_left_eq_some, Option.some.injEq, Prod.mk.injEq] at step
    obtain ⟨rested, rfl, rfl⟩ := step
    refine ⟨took, fun tried => ?_, rfl, rfl⟩
    by_contra early
    exact rested ⟨tried, Nat.lt_of_not_le early⟩

/-- Only the reconnect loop opens the transport, and only a turn of the actor ends a session. -/
theorem reopen_step {a a' : Actor} (tried : input.isReopen) (step : actor.step a input = some (a', o)) :
    a.loop = .reconnecting := by
  cases input with
  | reopen now outcome =>
      simp only [actor, Option.ite_none_right_eq_some] at step
      exact step.1.1
  | _ => cases tried

theorem loss_step {a a' : Actor} (live : a.loop = .session) (lost : a'.loop = .reconnecting)
    (step : actor.step a input = some (a', o)) : input.isTurn ∧ input.isReopen = false := by
  cases input with
  | station call =>
      simp only [actor, Option.ite_none_right_eq_some, Option.some.injEq, Prod.mk.injEq] at step
      obtain ⟨-, rfl, -⟩ := step
      cases live.symm.trans lost
  | reopen now outcome => cases live.symm.trans (reopen_step rfl step)
  | _ => exact ⟨rfl, rfl⟩

/-- A session begins with an opened transport. -/
theorem awake_before {a a' : Actor} (live : a'.loop = .session) (other : input.isReopen = false)
    (step : actor.step a input = some (a', o)) : a.loop = .session := by
  cases actor_move step with
  | turn before | lost before => exact before
  | sunk _ _ _ _ _ _ _ loop =>
      cases loop with
      | inl off => cases live.symm.trans off
      | inr stopped => cases live.symm.trans stopped
  | left => cases live
  | unopened _ _ _ _ _ _ off | refailed _ _ _ _ _ off => cases live.symm.trans off
  | reopened => cases other
  | foreign _ _ _ _ _ loop => exact loop.symm.trans live

/-- The loop went round in the past, and outside an outage the delay is the first one. -/
structure Sleeper.Rested (s : Sleeper) : Prop where
  sound : Sound s.actor
  past : s.asleep ≤ s.actor.clock
  first : s.actor.loop = .session → s.reconnectDelay = reconnectDelays.initial

theorem rested_step (rested : s.Rested) (step : sleeping.step s input = some (t, o)) :
    t.Rested ∧ s.actor.clock ≤ t.actor.clock ∧ s.asleep ≤ t.asleep := by
  obtain ⟨took, -, delay, asleep⟩ := sleeping_step step
  obtain ⟨sound, onward, -⟩ := actor_calls rested.sound took
  have later : s.asleep ≤ t.asleep ∧ t.asleep ≤ t.actor.clock := by
    rw [asleep]
    split
    · exact ⟨rested.past.trans onward, le_rfl⟩
    · exact ⟨le_rfl, rested.past.trans onward⟩
  refine ⟨⟨sound, later.2, fun live => ?_⟩, onward, later.1⟩
  rw [delay, Sleeper.nextDelay]
  cases tried : input.isReopen with
  | true => rw [if_pos rfl, if_pos live]
  | false =>
      rw [if_neg (by decide)]
      exact rested.first (awake_before live tried took)

/-- What can happen in an outage. -/
theorem outage_step (rested : s.Rested) (off : s.actor.loop = .reconnecting)
    (step : sleeping.step s input = some (t, o)) (still : t.actor.loop = .reconnecting) :
    reconnecting.Stays (min (s.reconnectDelay * 2) reconnectDelays.longest) s t (reopens ⟨s, input, o, t⟩) ∧
      t.reconnectDelay = if reopens ⟨s, input, o, t⟩ then min (s.reconnectDelay * 2) reconnectDelays.longest
        else s.reconnectDelay := by
  obtain ⟨-, onward, later⟩ := rested_step rested step
  obtain ⟨-, due, delay, asleep⟩ := sleeping_step step
  have here : reconnecting.wake s = some (s.asleep + s.reconnectDelay) := if_pos off
  have there : reconnecting.wake t = some (t.asleep + t.reconnectDelay) := if_pos still
  cases tried : input.isReopen with
  | false =>
      have same : t.reconnectDelay = s.reconnectDelay := by simp [delay, Sleeper.nextDelay, tried]
      have waits : reopens ⟨s, input, o, t⟩ = false := tried
      rw [waits]
      exact ⟨.waits here there (by rw [same]; exact Nat.add_le_add_right later _) onward, same⟩
  | true =>
      have turn : input.isTurn = true := by
        cases input with
        | reopen => rfl
        | _ => cases tried
      have fails : reopens ⟨s, input, o, t⟩ = true := tried
      have doubled : t.reconnectDelay = min (s.reconnectDelay * 2) reconnectDelays.longest := by
        simp [delay, Sleeper.nextDelay, tried, still]
      rw [turn, if_pos rfl] at asleep
      rw [asleep, doubled] at there
      rw [fails]
      exact ⟨.fails here (due tried) there onward, doubled⟩

end Steps

/-! ## Runs -/

section Runs

variable {s t : Sleeper} {past front run : List (Transition Sleeper ActorInput Observation)}
  {loss attempt : Transition Sleeper ActorInput Observation} {maxTx start now : Nat} {ptt : Option PttManager}
  {reconnect : Bool} {firmware : UInt8} {outcome : Reopening}

theorem rested_run (rested : s.Rested) (run : sleeping.Execution s front t) : t.Rested :=
  run.invariant (I := fun _ => Sleeper.Rested) rested (fun _ _ _ _ _ _ rested step => (rested_step rested step).1)

theorem rested_spawn : Sleeper.Rested { actor := .spawn maxTx ptt reconnect firmware start, asleep := start } where
  sound := sound_spawn
  past := Nat.le_refl _
  first := fun _ => rfl

/-- What an outage that began at `since` keeps: the delay is the one that the attempts so far make due, and
the sleep began after every turn. -/
structure Outage (since : Nat) (front : List (Transition Sleeper ActorInput Observation)) (t : Sleeper) : Prop where
  rested : t.Rested
  off : t.actor.loop = .reconnecting
  due : t.reconnectDelay = reconnectDelays.delay (failures reopens front)
  begun : since ≤ t.asleep
  silent : ∀ e ∈ front, e.input.isTurn → e.after.actor.clock ≤ t.asleep

theorem outage_run (rested : s.Rested) (off : s.actor.loop = .reconnecting)
    (first : s.reconnectDelay = reconnectDelays.initial) (run : sleeping.Execution s front t)
    (down : ∀ e ∈ front, e.after.actor.loop = .reconnecting) : Outage s.asleep front t := by
  refine run.guarded (I := Outage s.asleep) (G := fun e => e.after.actor.loop = .reconnecting)
    ⟨rested, off, first, le_rfl, by simp⟩ ?_ down
  intro front _ input o t _ outage step still
  obtain ⟨rested, -, later⟩ := rested_step outage.rested step
  have after := (outage_step outage.rested outage.off step still).2
  obtain ⟨-, -, -, asleep⟩ := sleeping_step step
  refine ⟨rested, still, ?_, outage.begun.trans later, ?_⟩
  · rw [after, outage.due, failures_concat]
    split
    · rfl
    · rfl
  · intro e mem turn
    cases List.mem_append.mp mem with
    | inl earlier => exact (outage.silent e earlier turn).trans later
    | inr latest =>
        rw [List.mem_singleton.mp latest] at turn ⊢
        have turn : input.isTurn = true := turn
        rw [turn, if_pos rfl] at asleep
        exact asleep.ge

/-- **A keyer is tried after a silence.**  The attempt of an outage that follows its `n`th failure comes no
sooner than all delays so far together, and no sooner than the last of them after anything that the actor did
meanwhile: a client that asks more often keeps the transport closed. -/
theorem reopened_after_silence
    (past : sleeping.Execution { actor := .spawn maxTx ptt reconnect firmware start, asleep := start } past s)
    (live : s.actor.loop = .session) (run : sleeping.Execution s (loss :: front ++ [attempt]) t)
    (down : ∀ e ∈ loss :: front, e.after.actor.loop = .reconnecting)
    (tried : attempt.input = .reopen now outcome) :
    loss.after.actor.clock + ∑ i ∈ Finset.range (failures reopens front + 1), reconnectDelays.delay i
        ≤ attempt.after.actor.clock ∧
      ∀ e ∈ loss :: front, e.input.isTurn →
        e.after.actor.clock + reconnectDelays.delay (failures reopens front) ≤ attempt.after.actor.clock := by
  have rested := rested_run rested_spawn past
  obtain ⟨-, broke, run⟩ := Machine.Execution.uncons run
  obtain ⟨run, last, -⟩ := run.last
  have off := down loss (by simp)
  have still : ∀ e ∈ front, e.after.actor.loop = .reconnecting := fun e mem => down e (List.mem_cons_of_mem _ mem)
  obtain ⟨took, -, delay, asleep⟩ := sleeping_step broke
  obtain ⟨turn, other⟩ := loss_step live off took
  have lost := (rested_step rested broke).1
  have first : loss.after.reconnectDelay = reconnectDelays.initial := by
    rw [delay, Sleeper.nextDelay, other]
    exact rested.first live
  rw [turn, if_pos rfl] at asleep
  have here : reconnecting.wake loss.after = some (loss.after.actor.clock + reconnectDelays.delay 0) := by
    rw [← asleep]
    exact (if_pos off).trans (by rw [first]; rfl)
  obtain ⟨wake, due, spaced⟩ := reconnecting.failures_spaced reopens (fun n => reconnectDelays.delay (n + 1)) run
    here (by
      intro earlier e later whole
      rw [whole] at run
      have before := outage_run lost off first run.before
        (fun e mem => still e (whole ▸ List.mem_append_left _ mem))
      have stays := (outage_step (o := e.output) before.rested before.off (run.step_of_mem e (by simp))
        (still e (by simp [whole]))).1
      rw [before.due] at stays
      exact stays)
  have outage := outage_run lost off first run still
  have woken : reconnecting.wake attempt.before = some (attempt.before.asleep +
      reconnectDelays.delay (failures reopens front)) := (if_pos outage.off).trans (by rw [outage.due])
  obtain ⟨-, rest, -, -⟩ := sleeping_step last
  have rest := rest (by rw [tried]; rfl)
  rw [outage.due] at rest
  obtain rfl := Option.some.inj (woken.symm.trans due)
  refine ⟨?_, fun e mem turn => ?_⟩
  · rw [Finset.sum_range_succ', ← Nat.add_assoc, Nat.add_right_comm]
    exact spaced.trans rest
  · refine (Nat.add_le_add_right ?_ _).trans rest
    cases List.mem_cons.mp mem with
    | inl isLoss => exact isLoss ▸ asleep ▸ outage.begun
    | inr inFront => exact outage.silent e inFront turn

private def plugged : Sleeper := { actor := .spawn 60000 none true 23 0, asleep := 0 }

/-- The keyer is unplugged; a client comes at 100, the attempt at 350 fails, and the one at 850 succeeds. -/
private def unplugged : List (Transition Sleeper ActorInput Observation) :=
  ((sleeping.exec plugged [.readError "unplugged", .request (.register 1 false) 100 100 none,
    .reopen 350 (.openFailed "no such port"), .reopen 850 (.opened 23 none)]).get (by decide)).1

theorem reopened_after_silence_unplugged :
    let loss := unplugged.head (by decide)
    let front := unplugged.tail.dropLast
    let attempt := unplugged.getLast (by decide)
    loss.after.actor.clock + ∑ i ∈ Finset.range (failures reopens front + 1), reconnectDelays.delay i
        ≤ attempt.after.actor.clock ∧
      ∀ e ∈ loss :: front, e.input.isTurn →
        e.after.actor.clock + reconnectDelays.delay (failures reopens front) ≤ attempt.after.actor.clock := by
  intro loss front attempt
  have run := sleeping.execution_exec plugged [.readError "unplugged", .request (.register 1 false) 100 100 none,
    .reopen 350 (.openFailed "no such port"), .reopen 850 (.opened 23 none)] (by decide)
  have run : sleeping.Execution plugged (loss :: front ++ [attempt]) attempt.after := run
  exact reopened_after_silence .start rfl run (by decide) rfl

end Runs

end CatHub.WinKeyer
