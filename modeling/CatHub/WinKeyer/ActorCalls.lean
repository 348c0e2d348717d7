/-
# CatHub.WinKeyer.ActorCalls — every turn of the actor as calls of its core.

The actor owns a `BrokerCore` and drives it through one turn after another.  This module says once
what a turn can do to the core: it is a sequence of calls of the `broker` machine (`actor_calls`),
so that every run of the actor is a run of the core and what holds of those holds here.

`Sound` collects what the actor keeps between turns: a session has a connected core, the reconnect
loop a disconnected core without work, and during maintenance nothing is active or queued.  The
decision on a request is described by `Serves`; `claims` singles out the one request that takes the
station lease.  `actor_effect` says once what a step of the actor can do.
-/
import CatHub.WinKeyer.Actor
import CatHub.WinKeyer.BrokerEffect

namespace CatHub.WinKeyer

open Systems Ptt

/-! ## Sequences of calls -/

/-- The core gets from `core` to `core'` by calls with clock readings up to `clock`, and every
action they return satisfies `P`. -/
def Calls (clock : Nat) (P : PhysicalAction → Prop) (core core' : BrokerCore) : Prop :=
  ∃ calls, broker.Execution core calls core' ∧
    ∀ call ∈ calls, call.input.clock ≤ clock ∧ ∀ action ∈ call.output.actions, P action

namespace Calls

variable {clock : Nat} {P Q : PhysicalAction → Prop} {core mid core' : BrokerCore}

theorem refl : Calls clock P core core := ⟨[], .start, by simp⟩

theorem trans (first : Calls clock P core mid) (second : Calls clock P mid core') :
    Calls clock P core core' := by
  obtain ⟨calls, run, kept⟩ := first
  obtain ⟨calls', run', kept'⟩ := second
  refine ⟨calls ++ calls', run.append run', ?_⟩
  intro call h
  rcases List.mem_append.mp h with h | h
  · exact kept call h
  · exact kept' call h

theorem imp (calls : Calls clock P core core') (h : ∀ action, P action → Q action) :
    Calls clock Q core core' := by
  obtain ⟨calls, run, kept⟩ := calls
  refine ⟨calls, run, ?_⟩
  intro call hc
  exact ⟨(kept call hc).1, fun action ha => h action ((kept call hc).2 action ha)⟩

/-- One enabled call. -/
theorem one (op : BrokerOp) (enabled : op = .restoreForeground → core.active = none)
    (reading : op.clock ≤ clock) (returns : ∀ action ∈ (op.apply core).2.actions, P action) :
    Calls clock P core (op.apply core).1 := by
  have step : broker.step core op = some (op.apply core) := by
    refine if_neg ?_
    rintro ⟨restores, busy⟩
    cases op with
    | restoreForeground => simp [enabled rfl] at busy
    | _ => simp at restores
  refine ⟨_, Machine.Execution.start.next step, ?_⟩
  intro call h
  obtain rfl := List.mem_singleton.mp h
  exact ⟨reading, returns⟩

end Calls

/-! ## What a call keeps -/

namespace BrokerCore

/-- Nothing is active or queued. -/
structure Vacant (core : BrokerCore) : Prop where
  active : core.active = none
  queue : core.queue = []

/-- `b` has the connection and the ceiling of `a`. -/
structure SameLink (a b : BrokerCore) : Prop where
  connected : b.connected = a.connected
  maxTx : b.maxTx = a.maxTx

theorem applyProfileOf_link (core : BrokerCore) (clientId : ClientId) :
    core.SameLink (core.applyProfileOf clientId) := by
  unfold applyProfileOf
  split <;> exact ⟨rfl, rfl⟩

theorem startNextOrRestore_link (core : BrokerCore) (clock : Nat) :
    core.SameLink (core.startNextOrRestore clock).1 := by
  unfold startNextOrRestore
  split
  · rename_i job rest _
    have link := applyProfileOf_link { core with queue := rest } job.clientId
    refine ⟨?_, ?_⟩
    · show BrokerCore.connected (if _ then _ else _) = core.connected
      split
      · exact link.connected
      · rfl
    · show BrokerCore.maxTx (if _ then _ else _) = core.maxTx
      split
      · exact link.maxTx
      · rfl
  · exact ⟨rfl, rfl⟩

theorem completeActive_link (core : BrokerCore) (clock : Nat) :
    core.SameLink (core.completeActive clock).1 := by
  unfold completeActive
  split
  · exact ⟨rfl, rfl⟩
  · obtain ⟨connected, maxTx⟩ := startNextOrRestore_link { core with active := none } clock
    exact ⟨connected, maxTx⟩

end BrokerCore

open BrokerCore

/-- The calls within a session that never start a job while nothing is active. -/
def BrokerOp.routine : BrokerOp → Bool
  | .connectPhysical _ => false
  | .physicalError _ => false
  | .enqueue _ _ _ _ _ _ => false
  | .restoreForeground => false
  | _ => true

theorem enqueue_link {core core' : BrokerCore} {clientId : ClientId} {payload : TransmitPayload}
    {speed : Option SpeedMode} {stream : Bool} {now clock jobId : Nat}
    {actions : List PhysicalAction}
    (h : core.enqueue clientId payload speed stream now clock = some (core', jobId, actions)) :
    core.connected = true ∧ core.SameLink core' := by
  refine ⟨(enqueue_checks h).2.2.1, ?_⟩
  cases enqueue_cases h with
  | joinedActive | joinedTail | waits => exact ⟨rfl, rfl⟩
  | starts _ _ _ _ opened =>
      subst opened
      obtain ⟨connected, maxTx⟩ := startNextOrRestore_link (core.withJob _) clock
      exact ⟨connected, maxTx⟩

/-- A routine call keeps the connection and the ceiling. -/
theorem apply_link {op : BrokerOp} (core : BrokerCore) (routine : op.routine = true) :
    core.SameLink (op.apply core).1 := by
  have started : ∀ mid clock, core.SameLink mid →
      core.SameLink (BrokerCore.startNextOrRestore mid clock).1 := by
    intro mid clock same
    obtain ⟨connected, maxTx⟩ := startNextOrRestore_link mid clock
    exact ⟨connected.trans same.connected, maxTx.trans same.maxTx⟩
  cases op with
  | connectPhysical | physicalError | enqueue | restoreForeground => cases routine
  | recordSafetyAction | observePot | activeOwnerCommand => exact ⟨rfl, rfl⟩
  | registerClient =>
      show core.SameLink (core.registerClient _ _).1
      unfold BrokerCore.registerClient
      split <;> exact ⟨rfl, rfl⟩
  | unregisterClient clientId clock =>
      show core.SameLink (core.unregisterClient clientId clock).1
      cases active : core.active with
      | none =>
          simp only [BrokerCore.unregisterClient, active]
          exact ⟨rfl, rfl⟩
      | some a =>
          by_cases owner : a.job.clientId = clientId
          · simp only [BrokerCore.unregisterClient, active, owner, if_true]
            exact started _ clock ⟨rfl, rfl⟩
          · simp only [BrokerCore.unregisterClient, active, owner, if_false]
            exact ⟨rfl, rfl⟩
  | setClientSpeed =>
      show core.SameLink (core.setClientSpeed _ _).1
      unfold BrokerCore.setClientSpeed
      split <;> exact ⟨rfl, rfl⟩
  | setClientCommand clientId command =>
      simp only [BrokerOp.apply]
      split
      · rename_i set
        unfold BrokerCore.setClientCommand at set
        split at set
        · cases set
        split at set
        · cases set
        split at set
        · cases set
          cases speedPotMinimum command <;> exact ⟨rfl, rfl⟩
        · split at set <;> cases set <;> exact ⟨rfl, rfl⟩
      · exact ⟨rfl, rfl⟩
  | cancelClient clientId includeActive clock =>
      show core.SameLink (core.cancelClient _ _ _).1
      unfold BrokerCore.cancelClient
      split
      · split
        · exact started _ clock ⟨rfl, rfl⟩
        · exact ⟨rfl, rfl⟩
      · split <;> exact ⟨rfl, rfl⟩
  | cancelJob clientId jobId clock =>
      show core.SameLink (core.cancelJob _ _ _).1
      unfold BrokerCore.cancelJob
      split
      · exact started _ clock ⟨rfl, rfl⟩
      · exact ⟨rfl, rfl⟩
  | emergencyStop => exact ⟨rfl, rfl⟩
  | observeStatus status clock =>
      show core.SameLink (core.observeStatus _ _).1
      unfold BrokerCore.observeStatus
      split
      · exact ⟨rfl, rfl⟩
      · split
        · exact ⟨rfl, rfl⟩
        · split
          · obtain ⟨connected, maxTx⟩ := completeActive_link _ clock
            exact ⟨connected, maxTx⟩
          · exact ⟨rfl, rfl⟩
  | confirmIdleAfterSettle now settle clock =>
      show core.SameLink (core.confirmIdleAfterSettle _ _ _).1
      unfold BrokerCore.confirmIdleAfterSettle
      split
      · exact completeActive_link core clock
      · exact ⟨rfl, rfl⟩
  | watchdog =>
      show core.SameLink (core.watchdog _).1
      unfold BrokerCore.watchdog
      split <;> exact ⟨rfl, rfl⟩

/-- No call changes the ceiling. -/
theorem step_maxTx {core core' : BrokerCore} {op : BrokerOp} {answer : Answer}
    (step : broker.step core op = some (core', answer)) : core'.maxTx = core.maxTx := by
  simp only [broker, Option.ite_none_left_eq_some, Option.some.injEq] at step
  have after : core' = (op.apply core).1 := (congrArg Prod.fst step.2).symm
  subst after
  by_cases routine : op.routine = true
  · exact (apply_link core routine).maxTx
  cases op with
  | connectPhysical | physicalError | restoreForeground => rfl
  | enqueue =>
      simp only [BrokerOp.apply]
      split
      · rename_i accepted
        exact (enqueue_link accepted).2.maxTx
      · rfl
  | _ => exact absurd rfl routine

/-- A routine call is enabled and has one of the effects. -/
theorem effect_of_routine {op : BrokerOp} (core : BrokerCore) (routine : op.routine = true) :
    Effect core op (op.apply core).2 (op.apply core).1 := by
  refine broker_effect (if_neg ?_)
  rintro ⟨restores, _⟩
  cases op with
  | restoreForeground => cases routine
  | _ => simp at restores

/-- A routine call starts nothing while nothing is active. -/
theorem Effect.idle {core core' : BrokerCore} {op : BrokerOp} {answer : Answer}
    (effect : Effect core op answer core') (routine : op.routine = true)
    (idle : core.active = none) : core'.active = none := by
  cases effect with
  | quiet ws same _ => exact same.idle idle
  | grewActive | grewTail | queued | opened => cases routine
  | withdrew p ws active => rw [active, idle]
  | ended p active => simp [idle] at active
  | halted clear ws _ active => exact active

theorem Effect.vacant {core core' : BrokerCore} {op : BrokerOp} {answer : Answer}
    (effect : Effect core op answer core') (routine : op.routine = true) (vacant : core.Vacant) :
    core'.Vacant := by
  refine ⟨effect.idle routine vacant.active, ?_⟩
  cases effect with
  | quiet ws same _ => rw [same.queue, vacant.queue]
  | grewActive | grewTail | queued | opened => cases routine
  | withdrew p ws _ queue => rw [queue, vacant.queue]; rfl
  | ended p active => simp [vacant.active] at active
  | halted clear ws _ _ queue => exact queue

/-- One routine call. -/
theorem Calls.routine {clock : Nat} {P : PhysicalAction → Prop} {core : BrokerCore} (op : BrokerOp)
    (routine : op.routine = true) (reading : op.clock ≤ clock)
    (returns : ∀ action ∈ (op.apply core).2.actions, P action) :
    Calls clock P core (op.apply core).1 := by
  refine .one op ?_ reading returns
  rintro rfl
  cases routine

/-! ## The decision on a request -/

namespace Actor

/-- The request takes the station lease: an enqueue that passes the checks while the keyer shows no
activity and the lease is not refused. -/
def claims (a : Actor) : Request → Bool
  | .enqueue _ payload _ _ =>
      !a.inMaintenance && !payload.wireBytes.isEmpty && payload.wireBytes.length ≤ maxJobBytes &&
        a.core.queue.length < maxQueuedJobs && keyerIdle a.core && !a.stationTxBusy
  | _ => false

/-- What the decision on a request does. -/
structure Serves (a : Actor) (now later : Nat) (request : Request) (h : Handled) : Prop where
  calls : Calls later (· ∈ h.actions.getD []) a.core h.actor.core
  connected : h.actor.core.connected = a.core.connected
  loop : h.actor.loop = a.loop
  clock : h.actor.clock = a.clock
  ptt : h.actor.ptt = if a.claims request then (a.keyStation now).ptt else a.ptt
  idle : a.core.active = none → a.claims request = false → h.actor.core.active = none
  vacant : a.core.Vacant → a.claims request = false ∨ a.core.connected = false →
    h.actor.core.Vacant
  maintenance : (a.inMaintenance = true → a.core.Vacant) → h.actor.inMaintenance = true →
    h.actor.core.Vacant

namespace Serves

variable {a : Actor} {now later : Nat} {request : Request} {h : Handled}

/-- The core is left alone. -/
theorem aside (core : h.actor.core = a.core) (loop : h.actor.loop = a.loop)
    (clock : h.actor.clock = a.clock)
    (ptt : h.actor.ptt = if a.claims request then (a.keyStation now).ptt else a.ptt)
    (maintenance : h.actor.inMaintenance = true → a.inMaintenance = true ∨ a.core.Vacant) :
    Serves a now later request h where
  calls := by rw [core]; exact .refl
  connected := by rw [core]
  loop := loop
  clock := clock
  ptt := ptt
  idle := by rw [core]; exact fun idle _ => idle
  vacant := by rw [core]; exact fun vacant _ => vacant
  maintenance := by
    intro kept inside
    rw [core]
    exact (maintenance inside).elim kept id

/-- The request is one call of the core. -/
theorem called (op : BrokerOp) (routine : op.routine = true) (reading : op.clock ≤ later)
    (core : h.actor.core = (op.apply a.core).1)
    (actions : ∀ action ∈ (op.apply a.core).2.actions, action ∈ h.actions.getD [])
    (loop : h.actor.loop = a.loop) (clock : h.actor.clock = a.clock) (ptt : h.actor.ptt = a.ptt)
    (unclaimed : a.claims request = false)
    (maintenance : h.actor.inMaintenance = true → a.inMaintenance = true) :
    Serves a now later request h := by
  have effect := effect_of_routine a.core routine
  refine {
    calls := by rw [core]; exact .routine op routine reading actions
    connected := by rw [core, (apply_link a.core routine).connected]
    loop := loop
    clock := clock
    ptt := by rw [unclaimed, ptt]; rfl
    idle := fun idle _ => by rw [core]; exact effect.idle routine idle
    vacant := fun vacant _ => by rw [core]; exact effect.vacant routine vacant
    maintenance := fun kept busy => by
      rw [core]
      exact effect.vacant routine (kept (maintenance busy)) }

end Serves

/-- The refusal of an enqueue that claims nothing. -/
theorem serves_refuse {a : Actor} {now later : Nat} {request : Request} (error : BrokerError)
    (unclaimed : a.claims request = false) : Serves a now later request (a.refuse error) :=
  .aside rfl rfl rfl (by rw [unclaimed]; rfl) Or.inl

/-- Handing the job to the core, with the lease as `keyed` has it. -/
theorem serves_submit {a keyed : Actor} {now later : Nat} {clientId : ClientId}
    {payload : TransmitPayload} {speed : Option SpeedMode} {stream : Bool}
    (core : keyed.core = a.core) (loop : keyed.loop = a.loop) (clock : keyed.clock = a.clock)
    (free : keyed.inMaintenance = false)
    (ptt : keyed.ptt =
      if a.claims (.enqueue clientId payload speed stream) then (a.keyStation now).ptt else a.ptt)
    (busy : a.claims (.enqueue clientId payload speed stream) = false → a.core.active.isSome) :
    Serves a now later (.enqueue clientId payload speed stream)
      (keyed.submitJob clientId payload speed stream now later) := by
  unfold submitJob
  rw [core]
  split
  · rename_i core' jobId actions accepted
    obtain ⟨before, link⟩ := enqueue_link accepted
    have apply : (BrokerOp.enqueue clientId payload speed stream now later).apply a.core =
        (core', { accepted := some jobId, actions }) := by
      simp only [BrokerOp.apply, accepted]
    have call : Calls later (· ∈ actions) a.core
        ((BrokerOp.enqueue clientId payload speed stream now later).apply a.core).1 := by
      refine .one _ (fun h => by cases h) (Nat.le_refl _) ?_
      rw [apply]
      exact fun _ h => h
    rw [apply] at call
    refine {
      calls := call
      connected := link.connected
      loop := loop
      clock := clock
      ptt := ptt
      idle := fun idle unclaimed => ?_
      vacant := ?_
      maintenance := fun _ inside => absurd (inside.symm.trans free) (by decide) }
    · have active := busy unclaimed
      rw [idle] at active
      cases active
    · rintro vacant (unclaimed | off)
      · have active := busy unclaimed
        rw [vacant.active] at active
        cases active
      · rw [before] at off
        cases off
  · refine .aside core loop clock ptt ?_
    intro inside
    exact absurd (inside.symm.trans free) (by decide)

theorem serves_enqueue (a : Actor) (clientId : ClientId) (payload : TransmitPayload)
    (speed : Option SpeedMode) (stream : Bool) (now later : Nat) :
    Serves a now later (.enqueue clientId payload speed stream)
      (a.handleEnqueue clientId payload speed stream now later) := by
  unfold handleEnqueue
  simp only []
  split
  · rename_i maintained
    exact serves_refuse _ (by simp [claims, maintained])
  rename_i free
  split
  · rename_i invalid
    refine serves_refuse _ ?_
    rcases Bool.or_eq_true_iff.mp invalid with empty | long
    · simp [claims, empty]
    · have long : ¬ payload.wireBytes.length ≤ maxJobBytes := by simpa using long
      simp [claims, long]
  rename_i valid
  split
  · rename_i full
    have full : ¬ a.core.queue.length < maxQueuedJobs := by
      simpa [snapshot] using (Bool.and_eq_true_iff.mp full).1
    exact serves_refuse _ (by simp [claims, full])
  rename_i room
  split
  · rename_i busy
    refine serves_refuse _ ?_
    have : keyerIdle a.core = false := by
      simp only [snapshot, Bool.and_eq_true, Bool.or_eq_true] at busy
      simp only [keyerIdle, snapshot]
      grind
    simp [claims, this]
  rename_i quiet
  split
  · rename_i taken
    refine serves_refuse _ ?_
    simp [claims, (Bool.and_eq_true_iff.mp taken).2]
  rename_i granted
  have free : a.inMaintenance = false := by simpa using free
  cases active : a.core.active with
  | some b =>
      have job : a.core.snapshot.activeJobId.isNone = false := by
        simp [snapshot, BrokerCore.activeJobId, active]
      have unclaimed : a.claims (.enqueue clientId payload speed stream) = false := by
        simp [claims, keyerIdle, active]
      simp only [job, Bool.false_eq_true, if_false]
      exact serves_submit rfl rfl rfl free (by rw [unclaimed]; rfl) (fun _ => by rw [active]; rfl)
  | none =>
      have job : a.core.snapshot.activeJobId.isNone = true := by
        simp [snapshot, BrokerCore.activeJobId, active]
      have claimed : a.claims (.enqueue clientId payload speed stream) = true := by
        have length : a.core.queue.length < maxQueuedJobs := by
          simpa [snapshot, BrokerCore.activeClientId, active] using room
        have idle : keyerIdle a.core = true := by
          simpa [keyerIdle, job, active] using quiet
        have lease : a.stationTxBusy = false := by simpa [job] using granted
        simpa [claims, free, length, idle, lease] using valid
      simp only [job, if_true]
      refine serves_submit rfl rfl rfl free (by rw [claimed]; rfl) ?_
      intro unclaimed
      rw [claimed] at unclaimed
      cases unclaimed

/-- Every request is served so. -/
theorem serves_request (a : Actor) (now later : Nat) (request : Request) :
    Serves a now later request (a.handleRequest now later request) := by
  cases request with
  | register clientId primary =>
      exact .called (.registerClient clientId primary) rfl (Nat.zero_le _) rfl
        (by simp [BrokerOp.apply])
        rfl rfl rfl rfl id
  | unregister clientId =>
      simp only [handleRequest]
      split
      · rename_i owner
        refine .called (.unregisterClient clientId later) rfl (Nat.le_refl _) rfl ?_ rfl rfl rfl rfl ?_
        · exact fun _ h => List.mem_cons_of_mem _ h
        · intro _
          simp [inMaintenance, owner]
      · exact .called (.unregisterClient clientId later) rfl (Nat.le_refl _) rfl (fun _ h => h)
          rfl rfl rfl rfl id
  | setSpeed clientId speed =>
      simp only [handleRequest]
      split
      · exact serves_refuse _ rfl
      · exact .called (.setClientSpeed clientId speed) rfl (Nat.zero_le _) rfl (fun _ h => h)
          rfl rfl rfl rfl id
  | enqueue clientId payload speed stream => exact serves_enqueue _ _ _ _ _ _ _
  | cancel clientId includeActive =>
      exact .called (.cancelClient clientId includeActive later) rfl (Nat.le_refl _) rfl
        (fun _ h => h) rfl rfl rfl rfl id
  | cancelJob clientId jobId =>
      exact .called (.cancelJob clientId jobId later) rfl (Nat.le_refl _) rfl
        (fun _ h => h) rfl rfl rfl rfl id
  | emergencyStop reason =>
      refine .called (.emergencyStop reason) rfl (Nat.zero_le _) rfl (fun _ h => h) rfl rfl rfl rfl ?_
      intro inside
      cases inside
  | configure clientId command =>
      simp only [handleRequest]
      split
      · exact .aside rfl rfl rfl rfl Or.inl
      split
      · rename_i core actions set
        have apply : (BrokerOp.setClientCommand clientId command).apply a.core =
            (core, { actions }) := by
          simp only [BrokerOp.apply, set]
        refine .called (.setClientCommand clientId command) rfl (Nat.zero_le _) ?_ ?_ rfl rfl rfl rfl id
        · rw [apply]
        · rw [apply]
          exact fun _ h => h
      · exact .aside rfl rfl rfl rfl Or.inl
  | activeOwnerCommand clientId command =>
      simp only [handleRequest]
      split
      · exact .aside rfl rfl rfl rfl Or.inl
      split <;> exact .aside rfl rfl rfl rfl Or.inl
  | maintenanceCommand clientId command =>
      simp only [handleRequest]
      split
      · exact .aside rfl rfl rfl rfl Or.inl
      rename_i vacant
      split
      · exact .aside rfl rfl rfl rfl Or.inl
      · have vacant : (a.maintenanceOwner.any (· != clientId) = false ∧ a.core.active = none) ∧
            a.core.queue = [] := by simpa using vacant
        exact .aside rfl rfl rfl rfl (fun _ => Or.inr ⟨vacant.1.2, vacant.2⟩)
  | releaseMaintenance clientId =>
      simp only [handleRequest]
      split
      · rename_i owner
        refine .aside rfl rfl rfl rfl (fun _ => Or.inl ?_)
        simp [inMaintenance, owner]
      · exact .aside rfl rfl rfl rfl Or.inl
  | shutdown =>
      exact .called (.emergencyStop "WinKeyer broker shutdown") rfl (Nat.zero_le _) rfl
        (fun _ h => h) rfl rfl rfl rfl id

/-- Only a shutdown stops the actor. -/
theorem stop_shutdown {a : Actor} {now later : Nat} {request : Request}
    (stop : (a.handleRequest now later request).stop = true) : request = .shutdown := by
  cases request with
  | shutdown => rfl
  | register | cancel | cancelJob | emergencyStop => cases stop
  | unregister | setSpeed | releaseMaintenance =>
      simp only [handleRequest] at stop
      split at stop <;> cases stop
  | configure | activeOwnerCommand | maintenanceCommand =>
      simp only [handleRequest] at stop
      split at stop
      · cases stop
      · split at stop <;> cases stop
  | enqueue =>
      simp only [handleRequest, handleEnqueue, submitJob, refuse] at stop
      repeat' split at stop
      all_goals cases stop

/-! ## The decision of a session turn -/

/-- What the decision of any session turn does: `mid` is the actor when the actions are performed.
Either the lease stays, or the station takes or refreshes it. -/
structure Decided (a : Actor) (now : Nat) (actions : List PhysicalAction) (mid : Actor) : Prop where
  calls : Calls a.clock (· ∈ actions) a.core mid.core
  connected : a.core.connected = true → mid.core.connected = true
  loop : mid.loop = a.loop
  clock : mid.clock = a.clock
  maintenance : (a.inMaintenance = true → a.core.Vacant) → mid.inMaintenance = true →
    mid.core.Vacant
  lease : mid.ptt = a.ptt ∨ mid.ptt = (a.keyStation now).ptt ∧ a.stationTxBusy = false
  started : a.core.active = none → mid.core.active.isSome →
    mid.ptt = (a.keyStation now).ptt ∧ a.stationTxBusy = false

theorem claims_lease {a : Actor} {request : Request} (h : a.claims request = true) :
    a.stationTxBusy = false := by
  cases request with
  | enqueue =>
      simp only [claims, Bool.and_eq_true, Bool.not_eq_true'] at h
      exact h.2
  | _ => cases h

theorem Serves.decided {a : Actor} {now later : Nat} {request : Request} {h : Handled}
    (s : Serves a now later request h) (reading : later = a.clock) :
    Decided a now (h.actions.getD []) h.actor where
  calls := reading ▸ s.calls
  connected := fun connected => s.connected.trans connected
  loop := s.loop
  clock := s.clock
  maintenance := s.maintenance
  lease := by
    by_cases claimed : a.claims request = true
    · exact Or.inr ⟨by rw [s.ptt, if_pos claimed], claims_lease claimed⟩
    · exact Or.inl (by rw [s.ptt, if_neg claimed])
  started := by
    intro idle started
    by_cases claimed : a.claims request = true
    · exact ⟨by rw [s.ptt, if_pos claimed], claims_lease claimed⟩
    · rw [s.idle idle (Bool.eq_false_iff.mpr claimed)] at started
      cases started

/-- A decision that makes one routine call, with the lease as `claimed` has it. -/
theorem Decided.routine {a claimed : Actor} {now : Nat} {actions : List PhysicalAction}
    (op : BrokerOp) (routine : op.routine = true) (reading : op.clock ≤ a.clock)
    (core : claimed.core = a.core) (loop : claimed.loop = a.loop)
    (clock : claimed.clock = a.clock) (inside : claimed.inMaintenance = a.inMaintenance)
    (lease : claimed.ptt = a.ptt ∨ claimed.ptt = (a.keyStation now).ptt ∧ a.stationTxBusy = false)
    (returns : ∀ action ∈ (op.apply claimed.core).2.actions, action ∈ actions) :
    Decided a now actions { claimed with core := (op.apply claimed.core).1 } where
  calls := by rw [core] at returns ⊢; exact .routine op routine reading returns
  connected := by rw [core]; exact fun connected => (apply_link _ routine).connected.trans connected
  loop := loop
  clock := clock
  maintenance := by
    intro kept busy
    rw [core]
    exact (effect_of_routine a.core routine).vacant routine (kept (inside.symm.trans busy))
  lease := lease
  started := by
    intro idle started
    rw [core, (effect_of_routine a.core routine).idle routine idle] at started
    cases started

/-- A second routine call after a decision. -/
theorem Decided.andThen {a mid : Actor} {now : Nat} {actions more : List PhysicalAction}
    (d : Decided a now actions mid) (op : BrokerOp) (routine : op.routine = true)
    (reading : op.clock ≤ a.clock) (sub : ∀ action ∈ actions, action ∈ more)
    (returns : ∀ action ∈ (op.apply mid.core).2.actions, action ∈ more) :
    Decided a now more { mid with core := (op.apply mid.core).1 } where
  calls := (d.calls.imp sub).trans (.routine op routine reading returns)
  connected := fun connected => (apply_link _ routine).connected.trans (d.connected connected)
  loop := d.loop
  clock := d.clock
  maintenance := fun kept busy =>
    (effect_of_routine mid.core routine).vacant routine (d.maintenance kept busy)
  lease := d.lease
  started := by
    intro idle started
    cases active : mid.core.active with
    | none =>
        have still := (effect_of_routine mid.core routine).idle routine active
        rw [still] at started
        cases started
    | some b => exact d.started idle (by rw [active]; rfl)

theorem decided_tick (a : Actor) {now later : Nat} (reading : later = a.clock) :
    Decided a now (a.tickActions now later).2 (a.tickActions now later).1 := by
  subst reading
  have watched : Decided a now (a.core.watchdog now).2 { a with core := (a.core.watchdog now).1 } :=
    .routine (.watchdog now) rfl (Nat.zero_le _) rfl rfl rfl rfl (Or.inl rfl) (fun _ h => h)
  let settling := (a.core.watchdog now).1.confirmIdleAfterSettle now shortJobSettle a.clock
  have settled : Decided a now ((a.core.watchdog now).2 ++ settling.2)
      { a with core := settling.1 } :=
    watched.andThen (.confirmIdleAfterSettle now shortJobSettle a.clock) rfl (Nat.le_refl _)
      (fun _ h => List.mem_append_left _ h) (fun _ h => List.mem_append_right _ h)
  unfold tickActions
  simp only []
  split
  · exact ⟨settled.calls.imp (fun _ h => List.mem_append_left _ h), settled.connected, rfl, rfl,
      settled.maintenance, settled.lease, settled.started⟩
  · exact settled

/-- A decision that calls nothing and leaves the lease alone. -/
theorem Decided.still {a : Actor} {now : Nat} {actions : List PhysicalAction} :
    Decided a now actions a where
  calls := .refl
  connected := id
  loop := rfl
  clock := rfl
  maintenance := fun kept inside => kept inside
  lease := Or.inl rfl
  started := by
    intro idle started
    rw [idle] at started
    cases started

theorem decided_claim (a : Actor) (status : DeviceStatus) (now : Nat) :
    Decided a now [] (a.claimForPaddle status now).1 := by
  unfold claimForPaddle
  split
  · rename_i activity
    have idle : a.core.active = none := by simpa using (Bool.and_eq_true_iff.mp activity).2
    split
    · exact .routine (.recordSafetyAction conflictMessage) rfl (Nat.zero_le _) rfl
        rfl rfl rfl (Or.inl rfl) (fun _ h => h)
    · rename_i granted
      have granted : a.stationTxBusy = false := by simpa using granted
      refine ⟨.refl, id, rfl, rfl, fun kept inside => kept inside,
        Or.inr ⟨rfl, granted⟩, fun _ _ => ⟨rfl, granted⟩⟩
  · exact .still

theorem decided_byte (a : Actor) (byte : UInt8) {now later : Nat} (reading : later = a.clock) :
    Decided a now (a.observeByte byte now later).2.2 (a.observeByte byte now later).1 := by
  subst reading
  unfold observeByte
  split
  · rename_i value _
    exact .routine (.observePot value) rfl (Nat.zero_le _) rfl rfl
      rfl rfl (Or.inl rfl) (fun _ h => h)
  · rename_i status _
    exact (decided_claim a status now).andThen (.observeStatus status a.clock) rfl
      (Nat.le_refl _) (fun _ h => by cases h) (fun _ h => h)
  · exact .still

/-- A fresh connection of a core without work: the foreground is restored. -/
theorem calls_connect {core : BrokerCore} (vacant : core.Vacant) (clock : Nat) (firmware : UInt8)
    {P : PhysicalAction → Prop}
    (returns : ∀ action ∈ (core.connectPhysical firmware).restoreForeground.2, P action) :
    Calls clock P core (core.connectPhysical firmware).restoreForeground.1 := by
  have connected : Calls clock P core (core.connectPhysical firmware) :=
    .one (.connectPhysical firmware) (fun h => by cases h) (Nat.zero_le _) (by simp [BrokerOp.apply])
  exact connected.trans (.one .restoreForeground (fun _ => vacant.active) (Nat.zero_le _) returns)

theorem vacant_connect {core : BrokerCore} (vacant : core.Vacant) (firmware : UInt8) :
    (core.connectPhysical firmware).restoreForeground.1.Vacant := by
  obtain ⟨same, _⟩ := restoreForegroundSpeed_spec (core.connectPhysical firmware)
  exact ⟨same.idle vacant.active, same.queue.trans vacant.queue⟩

theorem decided_reopen {a : Actor} (now : Nat) (byte : UInt8) (vacant : a.core.Vacant)
    {actions : List PhysicalAction}
    (returns : ∀ action ∈ (a.core.connectPhysical byte).restoreForeground.2, action ∈ actions) :
    Decided a now actions { a with
      core := (a.core.connectPhysical byte).restoreForeground.1
      maintenanceReopenPending := false } where
  calls := calls_connect vacant a.clock byte returns
  connected := fun _ => rfl
  loop := rfl
  clock := rfl
  maintenance := fun _ _ => vacant_connect vacant byte
  lease := Or.inl rfl
  started := by
    intro _ started
    rw [(vacant_connect vacant byte).active] at started
    cases started

/-! ## The turns of a session -/

/-- How a session turn ends once its actions are performed: the session goes on, fails, or the
actor leaves. -/
inductive Closes (mid : Actor) (p : Performed) : Actor → Prop
  | goesOn {a' : Actor} :
      p.failure = none → a'.core = mid.core → a'.loop = mid.loop → a'.clock = mid.clock →
      a'.inMaintenance = mid.inMaintenance →
      (a'.ptt = mid.ptt ∨ keyerIdle mid.core = true ∧ a'.ptt = mid.unkeyStation.ptt) →
      Closes mid p a'
  | fails (message : String) : Closes mid p (mid.failSession message).1
  | leaves {a' : Actor} :
      mid.core.Vacant → a'.core = mid.core → a'.loop = .stopped → a'.clock = mid.clock →
      a'.inMaintenance = mid.inMaintenance → a'.ptt = mid.unkeyStation.ptt → Closes mid p a'

/-- One turn of a session: a decision, its actions, and the end of the turn. -/
def SessionTurn (a : Actor) (now : Nat) (a' : Actor) (o : Observation) : Prop :=
  ∃ mid actions fault, Decided a now actions mid ∧ Closes mid (applyActions actions fault) a' ∧
    ∀ event ∈ (applyActions actions fault).events, event ∈ o.events

/-- The bookkeeping at the end of a turn. -/
theorem closes_goesOn {mid a' : Actor} {p : Performed} (ok : p.failure = none)
    (h : a' = mid.publishSnapshot ∨ a' = mid.publishSnapshot.releaseStationTxIfIdle ∨
      a' = mid.releaseStationTxIfIdle.publishSnapshot) : Closes mid p a' := by
  have release : ∀ b : Actor, b.core = mid.core → b.loop = mid.loop → b.clock = mid.clock →
      b.inMaintenance = mid.inMaintenance → b.ptt = mid.ptt →
      Closes mid p b.releaseStationTxIfIdle.publishSnapshot ∧ Closes mid p b.releaseStationTxIfIdle := by
    intro b core loop clock inside ptt
    unfold releaseStationTxIfIdle
    rw [core]
    split
    · rename_i idle
      have unkeyed : b.unkeyStation.ptt = mid.unkeyStation.ptt := by
        simp only [unkeyStation, ptt]
      exact ⟨.goesOn ok core loop clock inside (Or.inr ⟨idle, unkeyed⟩),
        .goesOn ok core loop clock inside (Or.inr ⟨idle, unkeyed⟩)⟩
    · exact ⟨.goesOn ok core loop clock inside (Or.inl ptt),
        .goesOn ok core loop clock inside (Or.inl ptt)⟩
  rcases h with rfl | rfl | rfl
  · exact .goesOn ok rfl rfl rfl rfl (Or.inl rfl)
  · exact (release mid.publishSnapshot rfl rfl rfl rfl rfl).2
  · exact (release mid rfl rfl rfl rfl rfl).1

theorem closes_finish {mid next : Actor} {p : Performed} (message : String → String)
    (h : p.failure = none → Closes mid p next) :
    Closes mid p (mid.finishTurn next p message).1 := by
  unfold finishTurn
  split
  · rename_i ok
    exact h ok
  · exact .fails _

theorem session_request (a : Actor) (request : Request) (now : Nat) (fault : Option WriteFault) :
    SessionTurn a now (a.requestTurn request now a.clock fault).1
      (a.requestTurn request now a.clock fault).2 := by
  have decided := (serves_request a now a.clock request).decided rfl
  have vacant : (a.handleRequest now a.clock request).stop = true →
      (a.handleRequest now a.clock request).actor.core.Vacant := by
    intro stop
    rw [stop_shutdown stop]
    exact ⟨rfl, rfl⟩
  unfold requestTurn
  simp only []
  generalize a.handleRequest now a.clock request = h at decided vacant ⊢
  split
  · rename_i early
    rw [early] at decided
    exact ⟨_, _, none, decided, closes_goesOn rfl (Or.inr (Or.inr rfl)), fun _ h => by cases h⟩
  · rename_i actions performed
    rw [performed] at decided
    refine ⟨_, _, fault, decided, ?_⟩
    split
    · rename_i stop
      exact ⟨.leaves (vacant stop) rfl rfl rfl rfl rfl, fun _ h => h⟩
    · exact ⟨closes_finish _ (fun ok => closes_goesOn ok (Or.inr (Or.inr rfl))),
        fun _ h => List.mem_append_left _ h⟩

theorem session_tick (a : Actor) (now : Nat) (fault : Option WriteFault) :
    SessionTurn a now (a.tickTurn now a.clock fault).1 (a.tickTurn now a.clock fault).2 := by
  have decided := @decided_tick a now a.clock rfl
  exact ⟨_, _, fault, decided,
    closes_finish _ (fun ok => closes_goesOn ok (Or.inr (Or.inl rfl))),
    fun _ h => List.mem_append_left _ h⟩

theorem session_byte {a : Actor} (byte : UInt8) (now : Nat) (fault : Option WriteFault)
    (maintained : a.inMaintenance = true → a.core.Vacant) :
    SessionTurn a now (a.byteTurn byte now a.clock fault).1
      (a.byteTurn byte now a.clock fault).2 := by
  unfold byteTurn
  split
  · rename_i pending
    have vacant := maintained (by simp [inMaintenance, pending])
    unfold reopenTurn
    split
    · refine ⟨{ a with maintenanceReopenPending := false }, [], none, ?_, .fails _,
        fun _ h => by cases h⟩
      exact ⟨.refl, id, rfl, rfl, fun _ _ => vacant, Or.inl rfl, fun idle started => by
        rw [idle] at started; cases started⟩
    · refine ⟨_, _, fault, decided_reopen now byte vacant (fun _ h => List.mem_cons_of_mem _ h),
        closes_finish _ (fun ok => closes_goesOn ok (Or.inl rfl)), ?_⟩
      intro event h
      exact List.mem_append_left _ (List.mem_append_left _ h)
  · split
    · exact ⟨a, [], none, .still, .goesOn rfl rfl rfl rfl rfl (Or.inl rfl), fun _ h => by cases h⟩
    · refine ⟨_, _, fault, decided_byte a byte rfl,
        closes_finish _ (fun ok => closes_goesOn ok (Or.inr (Or.inl rfl))), ?_⟩
      intro event h
      exact List.mem_append_left _ (List.mem_append_right _ h)

end Actor

theorem Actor.sinkTurn_core (a : Actor) (request : Request) (now later : Nat) :
    (a.sinkTurn request now later).1.core = (a.handleRequest now later request).actor.core := by
  unfold Actor.sinkTurn
  simp only []
  split <;> rfl

/-! ## What the actor keeps -/

/-- The event a notification is sent as. -/
def PhysicalAction.event? : PhysicalAction → Option BrokerEvent
  | .write _ => none
  | .completed jobId clientId => some (.completed jobId clientId)
  | .canceled jobId clientId => some (.canceled jobId clientId)

/-- When nothing failed, every notification was sent. -/
theorem applyActions_events {actions : List PhysicalAction} {fault : Option WriteFault}
    (ok : (applyActions actions fault).failure = none) {action : PhysicalAction}
    (h : action ∈ actions) {event : BrokerEvent} (sent : action.event? = some event) :
    event ∈ (applyActions actions fault).events := by
  induction actions generalizing fault with
  | nil => cases h
  | cons first rest ih =>
      rcases List.mem_cons.mp h with rfl | later
      · cases action with
        | write => cases sent
        | completed =>
            cases sent
            exact List.mem_cons_self
        | canceled =>
            cases sent
            exact List.mem_cons_self
      · cases first with
        | write =>
            rcases fault with _ | ⟨_ | writes, bytes, error⟩
            · exact ih ok later
            · cases ok
            · exact ih ok later
        | completed => exact List.mem_cons_of_mem _ (ih ok later)
        | canceled => exact List.mem_cons_of_mem _ (ih ok later)

/-- When nothing failed, every write was made. -/
theorem applyActions_written {actions : List PhysicalAction} {fault : Option WriteFault}
    (ok : (applyActions actions fault).failure = none) :
    (applyActions actions fault).written = writes actions := by
  induction actions generalizing fault with
  | nil => rfl
  | cons first rest ih =>
      cases first with
      | write chunk =>
          rcases fault with _ | ⟨_ | writes, bytes, error⟩
          · exact congrArg (chunk :: ·) (ih ok)
          · cases ok
          · exact congrArg (chunk :: ·) (ih ok)
      | completed => exact ih ok
      | canceled => exact ih ok

/-- While a job is active, the notification of the action was sent. -/
def Told (a : Actor) (o : Observation) (action : PhysicalAction) : Prop :=
  a.core.active.isSome → ∀ event, action.event? = some event → event ∈ o.events

/-- What the actor keeps between turns. -/
structure Sound (a : Actor) : Prop where
  connected : a.loop = .session → a.core.connected = true
  offline : a.loop = .reconnecting → a.core.connected = false ∧ a.core.Vacant
  maintenance : a.inMaintenance = true → a.core.Vacant

namespace Sound

variable {a a' : Actor} {o : Observation}

/-- A running actor with a connected core is in a session. -/
theorem live (s : Sound a) (running : a.loop ≠ .stopped) (online : a.core.connected = true) :
    a.loop = .session := by
  cases loop : a.loop with
  | session => rfl
  | reconnecting =>
      rw [(s.offline loop).1] at online
      cases online
  | stopped => exact absurd loop running

/-- The actor after a turn is sound, time has not gone back, and the core was driven by calls. -/
structure Steps (a a' : Actor) (o : Observation) : Prop where
  sound : Sound a'
  time : a.clock ≤ a'.clock
  calls : Calls a'.clock (Told a' o) a.core a'.core

theorem told_idle {action : PhysicalAction} (idle : a'.core.active = none) : Told a' o action := by
  intro active
  rw [idle] at active
  cases active

/-- The core loses its connection and its work. -/
theorem lost {mid : Actor} {P : PhysicalAction → Prop} (message : String)
    (calls : Calls a'.clock P a.core mid.core) (time : a.clock ≤ a'.clock)
    (core : a'.core = (mid.core.physicalError message).1) (loop : a'.loop = .reconnecting) :
    Steps a a' o := by
  have vacant : a'.core.Vacant := by
    rw [core]
    exact ⟨rfl, rfl⟩
  refine ⟨⟨fun h => ?_, fun _ => ⟨by rw [core]; rfl, vacant⟩, fun _ => vacant⟩, time, ?_⟩
  · rw [loop] at h
    cases h
  · have told : ∀ action, Told a' o action := fun _ => told_idle vacant.active
    refine (calls.imp (fun action _ => told action)).trans ?_
    rw [core]
    exact .one (.physicalError message) (fun h => by cases h) (Nat.zero_le _)
      (fun action _ => told action)

/-- The actor is sound in the middle of a turn, too. -/
theorem decided {mid : Actor} {now : Nat} {actions : List PhysicalAction} (s : Sound a)
    (live : a.loop = .session) (d : a.Decided now actions mid) : Sound mid := by
  refine ⟨fun _ => d.connected (s.connected live), fun off => ?_, d.maintenance s.maintenance⟩
  rw [d.loop, live] at off
  cases off

/-- Soundness is about the core, the loop and the maintenance. -/
theorem of_same (s : Sound a) (core : a'.core = a.core) (loop : a'.loop = a.loop)
    (inside : a'.inMaintenance = a.inMaintenance) : Sound a' := by
  refine ⟨?_, ?_, ?_⟩
  · rw [loop, core]
    exact s.connected
  · rw [loop, core]
    exact s.offline
  · rw [inside, core]
    exact s.maintenance

theorem session {now : Nat} (s : Sound a) (live : a.loop = .session)
    (turn : a.SessionTurn now a' o) : Steps a a' o := by
  obtain ⟨mid, actions, fault, decided, closes, sent⟩ := turn
  cases closes with
  | goesOn ok core loop clock inside _ =>
      refine ⟨(s.decided live decided).of_same core loop inside,
        Nat.le_of_eq (clock.trans decided.clock).symm, ?_⟩
      · rw [core, clock, decided.clock]
        refine decided.calls.imp (fun action h => ?_)
        exact fun _ event e => sent event (applyActions_events ok h e)
  | fails message =>
      have clock : (mid.failSession message).1.clock = a.clock := decided.clock
      exact lost message (by rw [clock]; exact decided.calls) (Nat.le_of_eq clock.symm) rfl rfl
  | leaves vacant core loop clock inside _ =>
      refine ⟨⟨fun h => ?_, fun h => ?_, fun _ => by rw [core]; exact vacant⟩,
        Nat.le_of_eq (clock.trans decided.clock).symm, ?_⟩
      · rw [loop] at h
        cases h
      · rw [loop] at h
        cases h
      · have idle : a'.core.active = none := by
          rw [core]
          exact vacant.active
        rw [core, clock, decided.clock]
        exact decided.calls.imp (fun _ _ => told_idle idle)

/-- A step that leaves the core alone. -/
theorem kept (s : Sound a) (core : a'.core = a.core) (time : a.clock ≤ a'.clock)
    (loop : a'.loop = a.loop ∨ a'.loop = .stopped) (inside : a'.inMaintenance = a.inMaintenance) :
    Steps a a' o := by
  refine ⟨⟨?_, ?_, ?_⟩, time, by rw [core]; exact .refl⟩
  · rw [core]
    rcases loop with same | stopped
    · rw [same]
      exact s.connected
    · rw [stopped]
      exact fun h => by cases h
  · rw [core]
    rcases loop with same | stopped
    · rw [same]
      exact s.offline
    · rw [stopped]
      exact fun h => by cases h
  · rw [core, inside]
    exact s.maintenance

/-- A request in the reconnect loop. -/
theorem sink (s : Sound a) (off : a.loop = .reconnecting) (request : Request) (now : Nat)
    (turn : a' = (a.sinkTurn request now a.clock).1) : Steps a a' o := by
  obtain ⟨disconnected, vacant⟩ := s.offline off
  have served := Actor.serves_request a now a.clock request
  have vacant' := served.vacant vacant (Or.inr disconnected)
  have parts : a'.core = (a.handleRequest now a.clock request).actor.core ∧
      (a'.loop = .stopped ∨ a'.loop = (a.handleRequest now a.clock request).actor.loop) ∧
      a'.clock = (a.handleRequest now a.clock request).actor.clock := by
    rw [turn, Actor.sinkTurn]
    split
    · exact ⟨rfl, Or.inl rfl, rfl⟩
    · exact ⟨rfl, Or.inr rfl, rfl⟩
  obtain ⟨core, loop, clock⟩ := parts
  refine ⟨⟨fun h => ?_, fun _ => ?_, fun _ => by rw [core]; exact vacant'⟩,
    Nat.le_of_eq (clock.trans served.clock).symm, ?_⟩
  · rcases loop with stopped | same
    · rw [stopped] at h
      cases h
    · rw [same, served.loop, off] at h
      cases h
  · rw [core]
    exact ⟨served.connected.trans disconnected, vacant'⟩
  · have idle : a'.core.active = none := by
      rw [core]
      exact vacant'.active
    rw [core, clock, served.clock]
    exact served.calls.imp (fun _ _ => told_idle idle)

/-- An attempt to reopen the transport. -/
theorem reopen (s : Sound a) (off : a.loop = .reconnecting) (now : Nat) (outcome : Reopening)
    (turn : a' = (a.reopenTransport now outcome).1) : Steps a a' o := by
  obtain ⟨_, vacant⟩ := s.offline off
  subst turn
  cases outcome with
  | openFailed error => exact lost _ (P := fun _ => True) .refl (Nat.le_refl _) rfl off
  | initializationFailed stage error => exact lost _ (P := fun _ => True) .refl (Nat.le_refl _) rfl off
  | opened firmware fault =>
      have calls := Actor.calls_connect vacant a.clock firmware
        (P := fun _ => True) (fun _ _ => trivial)
      unfold Actor.reopenTransport
      simp only []
      split
      · let restored : Actor :=
          { a with core := (a.core.connectPhysical firmware).restoreForeground.1 }
        exact @lost a _ o restored _ _ calls (Nat.le_refl _) rfl off
      · have vacant' := Actor.vacant_connect vacant firmware
        refine ⟨⟨fun _ => rfl, fun h => (by cases h), fun _ => vacant'⟩, Nat.le_refl _, ?_⟩
        exact calls.imp (fun _ _ => told_idle vacant'.active)

end Sound

/-- A turn starts with the clock moved on. -/
theorem Sound.onTime {a : Actor} (s : Sound a) (clock : Nat) : Sound { a with clock } :=
  ⟨s.connected, s.offline, s.maintenance⟩

/-- A turn that started later. -/
theorem Sound.Steps.later {a a' : Actor} {o : Observation} {clock : Nat}
    (steps : Steps { a with clock } a' o) (h : a.clock ≤ clock) : Steps a a' o :=
  ⟨steps.sound, Nat.le_trans h steps.time, steps.calls⟩

/-! ## What a step can do -/

/-- The inputs a session serves in a turn. -/
def ActorInput.inTurn : ActorInput → Bool
  | .request _ _ _ _ => true
  | .byte _ _ _ _ => true
  | .tick _ _ _ => true
  | _ => false

/-- What a step of the actor can do. -/
inductive ActorEffect (a : Actor) : ActorInput → Observation → Actor → Prop
  /-- A turn of a session. -/
  | turn {input : ActorInput} {now clock : Nat} {o : Observation} {a' : Actor} :
      a.loop = .session → input.inTurn = true → a.clock ≤ clock →
      { a with clock }.SessionTurn now a' o → ActorEffect a input o a'
  /-- A request in the reconnect loop. -/
  | sunk (request : Request) {now later : Nat} {fault : Option WriteFault} {o : Observation} :
      a.loop = .reconnecting → a.clock ≤ later →
      ActorEffect a (.request request now later fault) o
        ({ a with clock := later }.sinkTurn request now later).1
  | left {o : Observation} : ActorEffect a .requestsClosed o a.leave
  | lost (error : String) {o : Observation} : a.loop = .session →
      ActorEffect a (.readError error) o (a.failSession s!"read failed: {error}").1
  /-- An attempt to reopen the transport. -/
  | reopened {now : Nat} (outcome : Reopening) {o : Observation} :
      a.loop = .reconnecting → a.clock ≤ now →
      ActorEffect a (.reopen now outcome) o ({ a with clock := now }.reopenTransport now outcome).1
  /-- Another task's call on the lease. -/
  | foreign (call : TimedCall) {o : Observation} : foreignCall call = true → a.clock ≤ call.time →
      ActorEffect a (.station call) o
        { a with ptt := a.ptt.map (·.apply call), clock := call.time }

/-- **Every step has one of the effects.** -/
theorem actor_effect {a a' : Actor} {input : ActorInput} {o : Observation} (s : Sound a)
    (step : actor.step a input = some (a', o)) : ActorEffect a input o a' := by
  cases input with
  | request request now later fault =>
      simp only [actor] at step
      split at step
      · rename_i timed
        have onward := Nat.le_trans timed.1 timed.2
        split at step
        · rename_i live
          obtain ⟨rfl, rfl⟩ := Prod.mk.inj (Option.some.inj step)
          exact .turn live rfl onward
            (Actor.session_request { a with clock := later } request now fault)
        · rename_i off
          obtain ⟨rfl, rfl⟩ := Prod.mk.inj (Option.some.inj step)
          exact .sunk request off onward
        · cases step
      · cases step
  | requestsClosed =>
      simp only [actor] at step
      split at step
      · cases step
        exact .left
      · cases step
        exact .left
      · cases step
  | byte byte now later fault =>
      simp only [actor] at step
      split at step
      · rename_i live
        obtain ⟨rfl, rfl⟩ := Prod.mk.inj (Option.some.inj step)
        exact .turn live.1 rfl (Nat.le_trans live.2.1 live.2.2)
          (Actor.session_byte byte now fault (s.onTime later).maintenance)
      · cases step
  | readError error =>
      simp only [actor] at step
      split at step
      · rename_i live
        cases step
        exact .lost error live
      · cases step
  | tick now later fault =>
      simp only [actor] at step
      split at step
      · rename_i live
        obtain ⟨rfl, rfl⟩ := Prod.mk.inj (Option.some.inj step)
        exact .turn live.1 rfl (Nat.le_trans live.2.1 live.2.2)
          (Actor.session_tick { a with clock := later } now fault)
      · cases step
  | reopen now outcome =>
      simp only [actor] at step
      split at step
      · rename_i off
        obtain ⟨rfl, rfl⟩ := Prod.mk.inj (Option.some.inj step)
        exact .reopened outcome off.1 off.2.2
      · cases step
  | station call =>
      simp only [actor] at step
      split at step
      · rename_i foreign
        cases step
        exact .foreign call foreign.1 foreign.2
      · cases step

/-- **Every step of the actor is a sequence of calls of its core**, and while a job is active every
notification of those calls was sent. -/
theorem actor_calls {a a' : Actor} {input : ActorInput} {o : Observation} (s : Sound a)
    (step : actor.step a input = some (a', o)) : Sound.Steps a a' o := by
  cases actor_effect s step with
  | @turn _ _ clock _ _ live _ onward turn => exact ((s.onTime clock).session live turn).later onward
  | @sunk request now later _ _ off onward =>
      exact ((s.onTime later).sink off request now rfl).later onward
  | left => exact s.kept rfl (Nat.le_refl _) (Or.inr rfl) rfl
  | lost error live => exact Sound.lost _ (P := fun _ => True) .refl (Nat.le_refl _) rfl rfl
  | @reopened now outcome _ off onward => exact ((s.onTime now).reopen off now outcome rfl).later onward
  | foreign call _ onward => exact s.kept rfl onward (Or.inl rfl) rfl

/-! ## Every run -/

section Runs

variable {maxTx : Nat} {ptt : Option PttManager} {reconnect : Bool} {firmware : UInt8} {start : Nat}
  {history : List ActorStep} {a : Actor}

theorem sound_spawn : Sound (.spawn maxTx ptt reconnect firmware start) :=
  ⟨fun _ => rfl, fun h => (by cases h), fun h => (by cases h)⟩

theorem sound_of_execution
    (run : actor.Execution (.spawn maxTx ptt reconnect firmware start) history a) : Sound a := by
  refine run.invariant (I := fun _ a => Sound a) sound_spawn ?_
  intro history a input o a' _ s step
  exact (actor_calls s step).sound

theorem maxTx_of_execution
    (run : actor.Execution (.spawn maxTx ptt reconnect firmware start) history a) :
    a.core.maxTx = maxTx := by
  refine run.invariant (I := fun _ a => a.core.maxTx = maxTx) rfl ?_
  intro history a input o a' earlier kept step
  obtain ⟨calls, driven, _⟩ := (actor_calls (sound_of_execution earlier) step).calls
  rw [← kept]
  refine driven.invariant (I := fun _ core => core.maxTx = a.core.maxTx) rfl ?_
  intro _ core op answer core' _ same called
  exact (step_maxTx called).trans same

/-- **A run of the actor is a run of its core.** -/
theorem core_of_execution
    (run : actor.Execution (.spawn maxTx ptt reconnect firmware start) history a) :
    ∃ calls, broker.Execution (.new maxTx) calls a.core := by
  refine run.invariant (I := fun _ a => ∃ calls, broker.Execution (.new maxTx) calls a.core) ?_ ?_
  · have connected : Calls start (fun _ => True) (.new maxTx)
        ((BrokerCore.new maxTx).connectPhysical firmware) :=
      .one (.connectPhysical firmware) (fun h => by cases h) (Nat.zero_le _) (fun _ _ => trivial)
    obtain ⟨calls, run, _⟩ := connected
    exact ⟨calls, run⟩
  · rintro history a input o a' earlier ⟨calls, driven⟩ step
    obtain ⟨more, later, _⟩ := (actor_calls (sound_of_execution earlier) step).calls
    exact ⟨calls ++ more, driven.append later⟩

end Runs

/-- A keyer with a station lease and a ceiling of 60, as the runs on fixed inputs start. -/
def leased : Actor := .spawn 60 (some { maxTx := 60 }) true 31 0

end CatHub.WinKeyer
