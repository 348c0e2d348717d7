/-
# CatHub.WinKeyer.Turnover — no job waits for ever.

The broker starts its jobs in the order in which it took them in, and a tick of the session ends a job that
has been active for the ceiling.  A session that ticks at least every `gap` therefore gets through its jobs,
whatever the keyer answers, whatever clients ask for and whatever else goes on: `jobs_move` bounds how long
a job can wait.  The argument is that of `Systems.Waiting`; what it needs of the actor is how one step
changes the line of jobs.
-/
import CatHub.Systems.Waiting
import CatHub.WinKeyer.Admission
import CatHub.WinKeyer.Ceiling
import CatHub.WinKeyer.Completion
import CatHub.WinKeyer.Settlement

namespace CatHub.WinKeyer

open Systems Ptt BrokerCore

/-! ## The line of jobs -/

/-- The jobs keep their order, with the accepted ones behind; and another job is active only when the first
has gone. -/
structure Advances (core : BrokerCore) (accepted : List Nat) (core' : BrokerCore) : Prop where
  order : core'.held.Sublist (core.held ++ accepted)
  next : ∀ y, core'.active = some y →
    (∃ x, core.active = some x ∧ x.startedAt = y.startedAt) ∨
      core'.held.Sublist (core.held.tail ++ accepted)

namespace Advances

variable {core core' core'' : BrokerCore} {accepted more : List Nat}

/-- Nothing is left. -/
theorem emptied (idle : core'.active = none) (none_ : core'.held = []) : Advances core accepted core' where
  order := by
    rw [none_]
    exact List.nil_sublist _
  next := by
    intro y active
    rw [idle] at active
    cases active

/-- The active job stays, and jobs leave or join behind it. -/
theorem stays (order : core'.held.Sublist (core.held ++ accepted))
    (kept : ∀ y, core'.active = some y → ∃ x, core.active = some x ∧ x.startedAt = y.startedAt) :
    Advances core accepted core' := ⟨order, fun y active => .inl (kept y active)⟩

theorem same (same : SameSchedule core core') : Advances core [] core' := by
  refine stays ?_ (fun y active => ?_)
  · rw [List.append_nil, held_eq_jobs, held_eq_jobs, same.jobs]
  · obtain ⟨x, before, -, start⟩ := same.symm.busy active
    exact ⟨x, before, start⟩

/-- Without its first job the line moves on. -/
theorem moves (part : core'.held.Sublist (core.held.tail ++ accepted)) : Advances core accepted core' :=
  ⟨part.trans ((List.tail_sublist _).append_right _), fun _ _ => .inr part⟩

theorem trans (first : Advances core accepted core') (second : Advances core' more core'') :
    Advances core (accepted ++ more) core'' := by
  have behind : ∀ {front : List Nat}, core'.held.Sublist (front ++ accepted) →
      core''.held.Sublist (front ++ (accepted ++ more)) := by
    intro front part
    rw [← List.append_assoc]
    exact second.order.trans (part.append_right _)
  refine ⟨behind first.order, fun z active => ?_⟩
  rcases second.next z active with ⟨y, before, same⟩ | part
  · rcases first.next y before with ⟨x, active', start⟩ | part
    · exact .inl ⟨x, active', start.trans same⟩
    · exact .inr (behind part)
  · refine .inr ?_
    rw [← List.append_assoc]
    exact part.trans ((Counter.tail_sublist first.order).append_right _)

end Advances

/-- The ids behind an active job. -/
theorem tail_held {core : BrokerCore} {a : ActiveJob} (active : core.active = some a) :
    core.held.tail = core.queue.map (·.id) := by
  simp [BrokerCore.held, BrokerCore.activeJobId, active]

/-- What one call of the core does to the line. -/
theorem Effect.advances {core core' : BrokerCore} {op : BrokerOp} {answer : Answer}
    (effect : Effect core op answer core') (busy : core.queue ≠ [] → core.active.isSome) :
    Advances core answer.accepted.toList core' := by
  cases effect with
  | quiet ws same => exact .same same
  | @grewActive a payload _ _ _ active =>
      refine .stays ?_ (fun y grown => ?_)
      · simp [BrokerCore.held, BrokerCore.activeJobId, active, Job.grow]
      · obtain rfl := Option.some.inj grown
        exact ⟨a, active, rfl⟩
  | @grewTail front queued payload _ _ _ queue =>
      refine .stays ?_ (fun y active => ⟨y, active, rfl⟩)
      simp [BrokerCore.held, BrokerCore.activeJobId, queue, Job.grow]
  | @queued job =>
      refine .stays ?_ (fun y active => ⟨y, active, rfl⟩)
      simp [BrokerCore.held, BrokerCore.activeJobId]
  | @opened job _ _ _ _ _ idle _ begins =>
      have empty : core.queue = [] := by
        by_contra queued
        have active := busy queued
        rw [idle] at active
        cases active
      refine .moves ?_
      rw [held_eq_jobs, (begins.jobs idle).1]
      simp [empty]
  | withdrew p ws active queue =>
      refine .stays ?_ (fun y active' => ⟨y, active.symm.trans active', rfl⟩)
      rw [BrokerCore.held, BrokerCore.held, BrokerCore.activeJobId, active, queue]
      exact ((List.filter_sublist.map _).append_left _).trans (List.sublist_append_left _ _)
  | ended p active idle queue _ _ _ begins =>
      refine .moves ?_
      rw [tail_held active, held_eq_jobs, (begins.jobs idle).1, queue]
      exact (List.filter_sublist.map _).trans (List.sublist_append_left _ _)
  | halted clear ws _ idle empty =>
      exact .emptied idle (by simp [BrokerCore.held, BrokerCore.activeJobId, idle, empty])

/-- Nothing survives the loss of the link. -/
theorem advances_lost (core : BrokerCore) (accepted : List Nat) (other : BrokerCore) (message : String) :
    Advances core accepted (other.physicalError message).1 := .emptied rfl rfl

theorem call_advances {core : BrokerCore} (r : core.Represented) (op : BrokerOp) :
    Advances core (op.apply core).2.accepted.toList (op.apply core).1 := by
  cases within : op.within with
  | true => exact (effect_within core within).advances r.busy
  | false =>
      cases op with
      | connectPhysical => exact .same ⟨rfl, rfl, rfl, rfl⟩
      | physicalError message => exact advances_lost core _ core message
      | restoreForeground => exact .same (restoreForegroundSpeed_spec core).1
      | _ => cases within

theorem calls_advance {core : BrokerCore} (r : core.Represented) (ops : List BrokerOp) :
    Advances core ((core.callsOf ops).filterMap (·.output.accepted)) (core.afterCalls ops) := by
  induction ops generalizing core with
  | nil => exact .same .rfl
  | cons op ops ih =>
      have rest := ih (represented_step r op)
      have joined : (core.callsOf (op :: ops)).filterMap (·.output.accepted) =
          (op.apply core).2.accepted.toList ++
            ((op.apply core).1.callsOf ops).filterMap (·.output.accepted) := by
        rw [callsOf, List.filterMap_cons]
        cases (op.apply core).2.accepted <;> rfl
      rw [joined, afterCalls_cons]
      exact (call_advances r op).trans rest

/-- **What a step does to the line of jobs.** -/
theorem actor_advances {a a' : Actor} {input : ActorInput} {o : Observation} (r : a.core.Represented)
    (step : actor.step a input = some (a', o)) : Advances a.core o.accepted.toList a'.core := by
  have decided : ∀ {later now : Nat} {trigger : Trigger} {mid : Actor} {o₀ : Observation}
      {actions : List PhysicalAction}, (a.atTime later).Decides now later trigger mid o₀ actions →
      a'.core = mid.core → o.accepted = o₀.accepted → Advances a.core o.accepted.toList a'.core := by
    intro later now trigger mid o₀ actions decides core accepted
    rw [core, decides.core, accepted, decides.accepted]
    exact calls_advance r _
  cases actor_move step with
  | turn _ _ _ turn =>
      cases turn with
      | goesOn decides core _ _ _ _ _ _ accepted => exact decided decides core accepted
      | fails | misread => exact advances_lost ..
      | leaves decides _ core _ _ _ accepted => exact decided decides core accepted
  | sunk _ _ _ decides core _ _ _ _ _ _ accepted => exact decided decides core accepted
  | left _ _ accepted =>
      rw [accepted]
      exact .same .rfl
  | lost => exact advances_lost ..
  | unopened _ _ _ core | refailed _ _ core =>
      rw [core]
      exact advances_lost ..
  | @reopened _ firmware _ _ _ _ _ core _ _ _ _ _ _ accepted =>
      rw [core, accepted]
      exact calls_advance r (reopening firmware)
  | foreign _ _ core _ _ _ _ _ _ accepted =>
      rw [core, accepted]
      exact .same .rfl

/-! ## Ticks -/

/-- A tick at which the active job is as old as the ceiling ends all jobs. -/
theorem tick_ends {a a' : Actor} {now later : Nat} {fault : Option WriteFault} {o : Observation}
    {x : ActiveJob} (step : actor.step a (.tick now later fault) = some (a', o))
    (active : a.core.active = some x) (old : x.startedAt + a.core.maxTx ≤ now) :
    a'.core.active = none := by
  have fires : a.core.active.any (fun x => now - x.startedAt ≥ a.core.maxTx) = true := by
    rw [active]
    exact decide_eq_true (by omega)
  have stopped : ((BrokerOp.watchdog now).apply a.core).1.active = none := by
    show (a.core.watchdog now).1.active = none
    rw [BrokerCore.watchdog, if_pos fires]
    rfl
  have settled : (a.core.afterCalls [.watchdog now, .confirmIdleAfterSettle now shortJobSettle later]).active =
      none := by
    rw [afterCalls_cons, afterCalls_cons, afterCalls_nil]
    show BrokerCore.active (BrokerCore.confirmIdleAfterSettle _ now shortJobSettle later).1 = none
    rw [BrokerCore.confirmIdleAfterSettle, stopped, Option.any_none, if_neg (by simp)]
    exact stopped
  generalize given : ActorInput.tick now later fault = input at step
  cases actor_move step with
  | @turn trigger now' later' _ _ _ _ _ _ turn =>
      cases trigger with
      | request | byte => cases given
      | tick =>
          cases given
          cases turn with
          | goesOn decides core =>
              rw [core, decides.core]
              exact settled
          | fails => rfl
          | leaves _ shutdown => cases shutdown
          | misread _ wrong => exact wrong.elim
  | _ => cases given

theorem tick_time {a a' : Actor} {now later : Nat} {fault : Option WriteFault} {o : Observation}
    (s : Sound a) (step : actor.step a (.tick now later fault) = some (a', o)) :
    a.clock ≤ now ∧ now ≤ a'.clock := by
  simp only [actor] at step
  split at step
  · rename_i timed
    have onward := (Sound.session (s.onTime later) timed.1
      (Actor.session_tick { a with clock := later } now fault)).time
    obtain ⟨rfl, rfl⟩ := Prod.mk.inj (Option.some.inj step)
    exact ⟨timed.2.1, Nat.le_trans timed.2.2 onward⟩
  · cases step

/-! ## Sessions that tick -/

/-- An actor, and when its session last ticked, or began. -/
structure Ticking where
  actor : Actor
  lastTick : Nat

/-- When the input is a tick. -/
def ActorInput.ticked : ActorInput → Option Nat
  | .tick now _ _ => some now
  | _ => none

/-- The actor, with sessions that tick at least every `gap`. -/
def ticking (gap : Nat) : Machine Ticking ActorInput Observation where
  step s input :=
    match actor.step s.actor input with
    | none => none
    | some (a, o) =>
        if s.actor.loop = .session ∧ s.lastTick + gap < a.clock then none
        else
          some (⟨a, if s.actor.loop = .session then input.ticked.getD s.lastTick else a.clock⟩, o)

/-- The jobs of the broker as a line: the active one is served. -/
def jobLine : Counter Ticking Observation Nat where
  line s := s.actor.core.held
  since s := s.actor.core.active.map (·.startedAt)
  clock s := s.actor.clock
  joined o := o.accepted.toList

section Runs

variable {maxTx : Nat} {ptt : Option PttManager} {reconnect : Bool} {firmware : UInt8} {start gap : Nat}
  {s s' t : Ticking} {input : ActorInput} {o : Observation}
  {earlier history : List (Transition Ticking ActorInput Observation)}

theorem ticking_step (step : (ticking gap).step s input = some (s', o)) :
    actor.step s.actor input = some (s'.actor, o) ∧
      (s.actor.loop = .session → s'.actor.clock ≤ s.lastTick + gap) ∧
      s'.lastTick = if s.actor.loop = .session then input.ticked.getD s.lastTick else s'.actor.clock := by
  simp only [ticking] at step
  split at step
  · cases step
  · rename_i a o' took
    simp only [Option.ite_none_left_eq_some, Option.some.injEq, Prod.mk.injEq] at step
    obtain ⟨prompt, rfl, rfl⟩ := step
    refine ⟨took, fun live => ?_, rfl⟩
    by_contra late
    exact prompt ⟨live, Nat.lt_of_not_le late⟩

/-- The end of an actor is for good. -/
theorem stays_stopped {a a' : Actor} (step : actor.step a input = some (a', o)) (stopped : a.loop = .stopped) :
    a'.loop = .stopped := by
  have elsewhere : ∀ {loop : Loop}, a.loop = loop → loop ≠ .stopped → a'.loop = .stopped :=
    fun here other => absurd (here.symm.trans stopped) other
  cases actor_move step with
  | turn live | lost live => exact elsewhere live (by decide)
  | sunk off | unopened off | refailed off | reopened off => exact elsewhere off (by decide)
  | left => rfl
  | foreign _ _ _ _ _ loop => exact loop.trans stopped

/-- Without an active job nothing waits. -/
theorem held_idle {core : BrokerCore} (r : core.Represented) (idle : core.active = none) : core.held = [] := by
  rw [held_eq_jobs, jobs_idle r idle]
  rfl

/-- The last tick is near, and no active job was older than the ceiling then. -/
structure Punctual (maxTx gap : Nat) (s : Ticking) : Prop where
  sound : Sound s.actor
  represented : s.actor.core.Represented
  ceiling : s.actor.core.maxTx = maxTx
  started : StartedBy s.actor.clock s.actor.core
  past : s.lastTick ≤ s.actor.clock
  near : s.actor.loop = .session → s.actor.clock ≤ s.lastTick + gap
  young : s.actor.loop ≠ .stopped → ∀ x, s.actor.core.active = some x → s.lastTick ≤ x.startedAt + maxTx

/-- An active job was active before, or it has just begun. -/
theorem slot_start {e : ActorStep} (slot : ActorSlot e) {y : ActiveJob}
    (active : e.after.core.active = some y) :
    (∃ x, e.before.core.active = some x ∧ x.startedAt = y.startedAt) ∨ y.startedAt = e.after.clock := by
  cases slot with
  | kept same => exact .inl ⟨y, same ▸ active, rfl⟩
  | emptied none_ =>
      rw [none_] at active
      cases active
  | begun began =>
      rw [began] at active
      obtain rfl := Option.some.inj active
      exact .inr rfl
  | grown before _ grew =>
      rw [grew] at active
      obtain rfl := Option.some.inj active
      exact .inl ⟨_, before, rfl⟩
  | observed _ before saw =>
      rw [saw] at active
      obtain rfl := Option.some.inj active
      exact .inl ⟨_, before, rfl⟩

/-- What is true of a live actor with an active job: it is in a session. -/
theorem Punctual.live (p : Punctual maxTx gap s) (running : s.actor.loop ≠ .stopped) {x : ActiveJob}
    (active : s.actor.core.active = some x) : s.actor.loop = .session := by
  cases loop : s.actor.loop with
  | session => rfl
  | stopped => exact absurd loop running
  | reconnecting =>
      have idle := (p.sound.offline loop).2.active
      rw [active] at idle
      cases idle

theorem Punctual.due (p : Punctual maxTx gap s) (running : s.actor.loop ≠ .stopped) {x : ActiveJob}
    (active : s.actor.core.active = some x) {clock : Nat}
    (soon : s.actor.loop = .session → clock ≤ s.lastTick + gap) : clock ≤ x.startedAt + (maxTx + gap) := by
  have near := soon (p.live running active)
  have young := p.young running x active
  omega

theorem Punctual.step (p : Punctual maxTx gap s) (step : (ticking gap).step s input = some (s', o)) :
    Punctual maxTx gap s' := by
  obtain ⟨took, prompt, last⟩ := ticking_step step
  obtain ⟨sound, time, calls⟩ := actor_calls p.sound took
  have represented : s'.actor.core.Represented := by
    obtain ⟨calls, driven, -⟩ := calls
    refine driven.invariant (I := fun _ core => core.Represented) p.represented ?_
    intro _ core op answer core' _ r called
    simp only [broker, Option.ite_none_left_eq_some, Option.some.injEq] at called
    have after : core' = (op.apply core).1 := (congrArg Prod.fst called.2).symm
    rw [after]
    exact represented_step r op
  have ceiling : s'.actor.core.maxTx = maxTx := by
    obtain ⟨calls, driven, -⟩ := calls
    refine driven.invariant (I := fun _ core => core.maxTx = maxTx) p.ceiling ?_
    intro _ core op answer core' _ same called
    exact (step_maxTx called).trans same
  have started : StartedBy s'.actor.clock s'.actor.core :=
    calls_started calls (fun x active => Nat.le_trans (p.started x active) time)
  -- when the last tick was
  have between : s.lastTick ≤ s'.lastTick ∧ s'.lastTick ≤ s'.actor.clock ∧
      (s'.actor.loop = .session → s'.actor.clock ≤ s'.lastTick + gap) := by
    by_cases live : s.actor.loop = .session
    · rw [if_pos live] at last
      have prompt := prompt live
      cases ticks : input.ticked with
      | none =>
          rw [ticks, Option.getD_none] at last
          have past := p.past
          refine ⟨by omega, by omega, fun _ => by omega⟩
      | some now =>
          rw [ticks, Option.getD_some] at last
          cases input with
          | tick now' later fault =>
              obtain rfl := Option.some.inj ticks
              obtain ⟨early, late⟩ := tick_time p.sound took
              have past := p.past
              refine ⟨by omega, by omega, fun _ => by omega⟩
          | _ => cases ticks
    · rw [if_neg live] at last
      have past := p.past
      refine ⟨by omega, by omega, fun _ => by omega⟩
  refine ⟨sound, represented, ceiling, started, between.2.1, between.2.2, fun running' y active => ?_⟩
  have running : s.actor.loop ≠ .stopped := fun over_ => running' (stays_stopped took over_)
  rcases slot_start (actor_slot p.sound took) active with ⟨x, before, same⟩ | began
  · have same : x.startedAt = y.startedAt := same
    have young := p.young running x before
    rw [if_pos (p.live running before)] at last
    cases input with
    | tick now later fault =>
        -- had it been older than the ceiling, the tick would have ended it
        by_contra old
        have last : s'.lastTick = now := last
        have ended := tick_ends took before (by rw [p.ceiling]; omega)
        rw [ended] at active
        cases active
    | _ =>
        have last : s'.lastTick = s.lastTick := last
        omega
  · have began : y.startedAt = s'.actor.clock := began
    have late := between.2.1
    omega

theorem Punctual.serves (p : Punctual maxTx gap s) (running : s.actor.loop ≠ .stopped)
    (step : (ticking gap).step s input = some (s', o)) : jobLine.Serves (maxTx + gap) s o s' := by
  obtain ⟨took, prompt, -⟩ := ticking_step step
  have advances := actor_advances p.represented took
  refine ⟨advances.order, fun idle => ?_, fun start since => ?_, fun start since => ?_⟩
  · exact held_idle p.represented (Option.map_eq_none_iff.mp idle)
  · obtain ⟨x, active, rfl⟩ := Option.map_eq_some_iff.mp since
    exact p.due running active prompt
  · obtain ⟨y, active, rfl⟩ := Option.map_eq_some_iff.mp since
    rcases advances.next y active with ⟨x, before, same⟩ | part
    · refine .inl ?_
      show s.actor.core.active.map (·.startedAt) = _
      rw [before, Option.map_some, same]
    · exact .inr ⟨(p.step step).started y active, part⟩

end Runs

end CatHub.WinKeyer
