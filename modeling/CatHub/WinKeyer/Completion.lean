/-
# CatHub.WinKeyer.Completion — a job is completed on evidence about its last bytes.

A completion is sound when the evidence of the active job is about the bytes that were written last.
`Witnessed` says so of the whole history: behind the step that put the active job's last bytes on
the air there is a status step for every flag that is set.

A stream chunk that joins the active job breaks this, since it resets none of the three.
`completion_sound` holds for the runs in which a chunk joins only while the job has no evidence yet
and the clock still reads as it did at the start.
-/
import CatHub.WinKeyer.Evidence
import CatHub.WinKeyer.Settlement

namespace CatHub.WinKeyer

open Systems Ptt BrokerCore

/-! ## What is observed and what is put on the air -/

/-- The status that a step observes.  During maintenance nothing is observed. -/
def observed? (e : ActorStep) : Option DeviceStatus :=
  match e.input with
  | .byte byte _ _ _ =>
      if e.before.inMaintenance then none
      else
        match DeviceEvent.fromByte byte with
        | .status status => some status
        | _ => none
  | _ => none

/-- The job ends and something is written. -/
def handsOver (e : ActorStep) (job : Job) : Bool :=
  !e.output.written.isEmpty && tells e.output.events job

/-- The job whose payload bytes a step writes: it has just become active, or it has grown.  The job
counter saturates, so the job that takes the place of another may be equal to it. -/
def airs (e : ActorStep) : Option Job :=
  (e.after.core.active.map (·.job)).filter
    (fun job => e.before.core.active.map (·.job) != some job || handsOver e job)

/-- The clock reading an input is served at. -/
def ActorInput.now : ActorInput → Nat
  | .request _ now _ _ => now
  | .byte _ now _ _ => now
  | .tick now _ _ => now
  | .reopen now _ => now
  | .station call => call.time
  | .requestsClosed | .readError _ => 0

/-! ## The property and the condition -/

/-- A busy status was observed and later an idle one. -/
def BusyThenIdle (steps : List ActorStep) : Prop :=
  ∃ front b back i, steps = front ++ b :: back ∧ (observed? b).any (·.sending) = true ∧ i ∈ back ∧
    (observed? i).any (!·.sending) = true

/-- An idle status was observed. -/
def SeenIdle (steps : List ActorStep) : Prop :=
  ∃ i ∈ steps, (observed? i).any (!·.sending) = true

/-- A JobCompleted event of the step `e`, after the steps `earlier`, rests on what was observed since
the last payload bytes of its job. -/
def CompletesSoundly (earlier : List ActorStep) (e : ActorStep) : Prop :=
  ∀ id clientId, .completed id clientId ∈ e.output.events →
    ∃ front g since job, earlier = front ++ g :: since ∧
      airs g = some job ∧ job.id = id ∧ job.clientId = clientId ∧ (∀ h ∈ since, airs h = none) ∧
      (BusyThenIdle (since ++ [e]) ∨
        (g.after.clock + shortJobSettle ≤ e.input.now ∧ SeenIdle (since ++ [e])))

/-- A chunk joins the active job although a status was observed for it, or at a later clock reading
than its start. -/
def GrowsLate (e : ActorStep) : Bool :=
  match e.input with
  | .request (.enqueue clientId payload _ true) _ later none =>
      e.before.core.active.any fun a =>
        a.job.isStreamOf clientId && !payload.wireBytes.isEmpty &&
          decide (a.job.payload.wireBytes.length + payload.wireBytes.length ≤ maxJobBytes) &&
          (a.sawBusy || a.observedStatus || decide (a.startedAt < later))
  | _ => false

/-! ## Every step -/

/-- What a step does to the active job and its evidence. -/
inductive ActorSlot (e : ActorStep) : Prop
  | kept : e.after.core.active = e.before.core.active → e.after.core.status = e.before.core.status →
      (∀ b, e.before.core.active = some b → handsOver e b.job = false) → ActorSlot e
  | emptied : e.after.core.active = none → ActorSlot e
  | begun {job : Job} :
      e.after.core.active =
        some { job, sawBusy := false, observedStatus := false, startedAt := e.after.clock } →
      (∀ b, e.before.core.active = some b → handsOver e b.job = true) → ActorSlot e
  | grown {b : ActiveJob} {payload : TransmitPayload} : e.before.core.active = some b →
      payload.wireBytes ≠ [] → e.after.core.active = some { b with job := b.job.grow payload } →
      e.after.core.status = e.before.core.status →
      (GrowsLate e = false →
        b.sawBusy = false ∧ b.observedStatus = false ∧ e.after.clock ≤ b.startedAt) → ActorSlot e
  | observed {b : ActiveJob} {status : DeviceStatus} : observed? e = some status →
      e.before.core.active = some b →
      e.after.core.active =
        some { b with observedStatus := true, sawBusy := b.sawBusy || status.sending } →
      e.after.core.status = status → (b.sawBusy = true → status.sending = true) →
      handsOver e b.job = false → ActorSlot e

theorem handsOver_untold {e : ActorStep} (untold : outcomes e.output.events = []) (job : Job) :
    handsOver e job = false := by
  unfold handsOver
  rw [← tells_outcomes, untold]
  exact Bool.and_false _

/-- A call takes the slot as it is. -/
theorem Slot.of_same {core core₀ core' : BrokerCore} {op : BrokerOp} {actions : List PhysicalAction}
    (slot : Slot core op actions core') (active : core.active = core₀.active)
    (status : core.status = core₀.status) : Slot core₀ op actions core' := by
  cases slot with
  | kept active' status' quiet => exact .kept (active'.trans active) (status'.trans status) quiet
  | emptied idle => exact .emptied idle
  | begun starts active' wrote ends =>
      exact .begun starts active' wrote (fun a busy => ends a (active.trans busy))
  | grown busy streams some' fits active' status' =>
      exact .grown (active.symm.trans busy) streams some' fits active' (status'.trans status)
  | observed busy active' status' seen =>
      exact .observed (active.symm.trans busy) active' status' seen

/-- With nothing active before, a call starts a job or leaves the slot empty. -/
theorem slot_idle {e : ActorStep} {op : BrokerOp} {actions : List PhysicalAction}
    (slot : Slot e.before.core op actions e.after.core) (idle : e.before.core.active = none)
    (clock : op.starts = true → op.clock = e.after.clock) : ActorSlot e := by
  cases slot with
  | kept active => exact .emptied (active.trans idle)
  | emptied idle' => exact .emptied idle'
  | begun starts active =>
      rw [clock starts] at active
      exact .begun active (fun b busy => by rw [idle] at busy; cases busy)
  | grown busy => simp [idle] at busy
  | observed busy => simp [idle] at busy

/-- The step of one call, with at most a poll behind what the call writes. -/
theorem slot_called {e : ActorStep} {op : BrokerOp} {actions : List PhysicalAction}
    {poll : List (List UInt8)} (slot : Slot e.before.core op actions e.after.core)
    (clock : op.starts = true → op.clock = e.after.clock)
    (events : outcomes e.output.events = sentBy actions)
    (written : e.output.written = writes actions ++ poll) (polls : op.withdraws = true → poll = [])
    (grows : ∀ clientId payload speed now clock, op = .enqueue clientId payload speed true now clock →
      actions ≠ [] →
        e.input = .request (.enqueue clientId payload speed true) now e.after.clock none)
    (observes : ∀ status clock, op = .observeStatus status clock → observed? e = some status) :
    ActorSlot e := by
  have told : ∀ job, tells e.output.events job = tells (sentBy actions) job := by
    intro job
    rw [← tells_outcomes, events]
  cases slot with
  | kept active status quiet =>
      refine .kept active status (fun b _ => ?_)
      unfold handsOver
      rcases quiet with unsent | ⟨withdraws, unwritten⟩
      · rw [told, unsent]
        exact Bool.and_false _
      · rw [written, unwritten, polls withdraws]
        rfl
  | emptied idle => exact .emptied idle
  | begun starts active wrote ends =>
      rw [clock starts] at active
      refine .begun active (fun b busy => ?_)
      unfold handsOver
      rw [told, ends b busy, written]
      simp [wrote]
  | @grown b payload speed now time _ busy streams some' fits active status =>
      refine .grown busy some' active status (fun early => ?_)
      have input := grows _ _ _ _ _ rfl (List.cons_ne_nil _ _)
      have nonempty : payload.wireBytes.isEmpty = false := by
        simpa using some'
      simp only [GrowsLate, input, busy, Option.any_some, Job.isStreamOf, beq_self_eq_true, streams,
        Bool.true_and, nonempty, Bool.not_false, fits, decide_true, Bool.or_eq_false_iff,
        decide_eq_false_iff_not, Nat.not_lt] at early
      exact ⟨early.1.1, early.1.2, early.2⟩
  | observed busy active status seen =>
      refine .observed (observes _ _ rfl) busy active status seen ?_
      exact handsOver_untold events _

section Decisions

variable {a mid a' : Actor} {now later : Nat} {trigger : Trigger} {fault : Option WriteFault}
  {o o₀ : Observation} {actions : List PhysicalAction}

/-- A decision of one call, performed. -/
theorem slot_one (s : Sound a)
    (decides : (a.atTime later).Decides now later trigger mid o₀ actions) (core : a'.core = mid.core)
    (clock : a'.clock = later) (written : o.written = writes actions)
    (events : outcomes o.events = sentBy actions) (op : BrokerOp) (untimed : trigger ≠ .tick)
    (calls : (a.atTime later).decisionOps now later trigger = [op])
    (starts : op.starts = true → op.clock = later)
    (grows : ∀ clientId payload speed now' clock, op = .enqueue clientId payload speed true now' clock →
      actions ≠ [] → inputOf trigger now later fault =
        .request (.enqueue clientId payload speed true) now' later none)
    (observes : ∀ status clock, op = .observeStatus status clock →
      observed? ⟨a, inputOf trigger now later fault, o, a'⟩ = some status) :
    ActorSlot ⟨a, inputOf trigger now later fault, o, a'⟩ := by
  have core' : a'.core = (op.apply a.core).1 := by
    rw [core, decides.core, calls]
    rfl
  have slot : Slot a.core op (op.apply a.core).2.actions a'.core := by
    rw [core']
    exact apply_slot a.core op
  have starts' : op.starts = true → op.clock = a'.clock := fun h => (starts h).trans clock.symm
  cases active : a.core.active with
  | none => exact slot_idle slot active starts'
  | some b =>
      have own : (a.atTime later).ownWrites trigger = [] := by
        refine Classical.byContradiction (fun own => ?_)
        have idle : a.core.active = none := (ownWrites_vacant (s.onTime later) own).active
        rw [active] at idle
        cases idle
      have poll : (a.atTime later).pollWrites now later trigger = [] := by
        cases trigger with
        | tick => exact absurd rfl untimed
        | request | byte => rfl
      have same : actions = (op.apply a.core).2.actions := by
        rw [decides.actions, own, poll, calls]
        show [] ++ ((op.apply a.core).2.actions ++ []) ++ [] = _
        simp
      rw [same] at written events grows
      refine @slot_called _ _ _ [] slot starts' events ?_ (fun _ => rfl) ?_ observes
      · rw [List.append_nil]
        exact written
      · intro clientId payload speed now' clock' enqueues some'
        rw [clock]
        exact grows clientId payload speed now' clock' enqueues some'

/-- A decision without a call, performed. -/
theorem slot_aside (decides : (a.atTime later).Decides now later trigger mid o₀ actions)
    (core : a'.core = mid.core) (events : outcomes o.events = sentBy actions)
    (calls : (a.atTime later).decisionOps now later trigger = []) :
    ActorSlot ⟨a, inputOf trigger now later fault, o, a'⟩ := by
  have core' : a'.core = a.core := by
    rw [core, decides.core, calls]
    rfl
  refine .kept (congrArg BrokerCore.active core') (congrArg BrokerCore.status core') (fun b _ => ?_)
  refine handsOver_untold ?_ _
  rw [events, decides.actions, calls, sentBy_append, sentBy_append, sentBy_writes, sentBy_writes]
  rfl

/-- A tick, performed. -/
theorem slot_tick (decides : (a.atTime later).Decides now later .tick mid o₀ actions)
    (core : a'.core = mid.core) (clock : a'.clock = later) (written : o.written = writes actions)
    (events : outcomes o.events = sentBy actions) : ActorSlot ⟨a, .tick now later fault, o, a'⟩ := by
  have core' : a'.core =
      ((a.core.watchdog now).1.confirmIdleAfterSettle now shortJobSettle later).1 := by
    rw [core, decides.core]
    rfl
  have returned : actions = (a.core.watchdog now).2 ++
      ((a.core.watchdog now).1.confirmIdleAfterSettle now shortJobSettle later).2 ++
      ((a.atTime later).pollWrites now later .tick).map .write := by
    rw [decides.actions]
    simp [Actor.ownWrites, Actor.decisionOps, BrokerOp.apply, Actor.atTime]
  by_cases stops : a.core.active.any (fun active => now - active.startedAt ≥ a.core.maxTx) = true
  · have idle : (a.core.watchdog now).1.active = none := by
      unfold BrokerCore.watchdog
      rw [if_pos stops]
      rfl
    refine .emptied ?_
    show a'.core.active = none
    rw [core']
    simp [BrokerCore.confirmIdleAfterSettle, idle]
  · have quiet : a.core.watchdog now = (a.core, []) := if_neg stops
    rw [quiet] at core' returned
    have slot : Slot a.core (.confirmIdleAfterSettle now shortJobSettle later)
        (a.core.confirmIdleAfterSettle now shortJobSettle later).2 a'.core := by
      rw [core']
      exact apply_slot a.core (.confirmIdleAfterSettle now shortJobSettle later)
    refine @slot_called _ _ _ ((a.atTime later).pollWrites now later .tick) slot
      (fun _ => clock.symm) ?_ ?_ (fun h => by cases h) (fun _ _ _ _ _ h => by cases h)
      (fun _ _ h => by cases h)
    · rw [events, returned, sentBy_append, sentBy_writes]
      simp
    · show o.written = _
      rw [written, returned, writes_append, writes_map]
      rfl

/-- A device byte, performed. -/
theorem slot_byte {byte : UInt8} (s : Sound a)
    (decides : (a.atTime later).Decides now later (.byte byte) mid o₀ actions)
    (read : ¬ (a.atTime later).Misread (.byte byte)) (core : a'.core = mid.core)
    (clock : a'.clock = later) (written : o.written = writes actions)
    (events : outcomes o.events = sentBy actions) :
    ActorSlot ⟨a, .byte byte now later fault, o, a'⟩ := by
  have aside := @slot_aside a mid a' now later _ fault o o₀ actions decides core events
  cases inside : a.inMaintenance with
  | true =>
      have idle : a.core.active = none := (s.maintenance inside).active
      cases pending : a.maintenanceReopenPending with
      | true =>
          have calls : (a.atTime later).decisionOps now later (.byte byte) =
              [.connectPhysical byte, .restoreForeground] := by
            have other : byte ≠ 0xff := fun misread => read ⟨pending, misread⟩
            simp [Actor.decisionOps, Actor.atTime, pending, other]
          refine .emptied ?_
          show a'.core.active = none
          rw [core, decides.core, calls]
          exact idle
      | false =>
          have owned : a.maintenanceOwner.isSome = true := by
            simpa [Actor.inMaintenance, pending] using inside
          exact aside (by simp [Actor.decisionOps, Actor.atTime, pending, owned])
  | false =>
      have outside : (a.atTime later).inMaintenance = false := inside
      have calls := Actor.decisionOps_byte outside now later byte
      cases classified : DeviceEvent.fromByte byte with
      | echo raw =>
          rw [classified] at calls
          exact aside calls
      | speedPot raw value =>
          rw [classified] at calls
          exact slot_one s decides core clock written events _ (fun h => by cases h) calls
            (fun h => by cases h) (fun _ _ _ _ _ h => by cases h) (fun _ _ h => by cases h)
      | status status =>
          rw [classified] at calls
          have seen : observed? ⟨a, .byte byte now later fault, o, a'⟩ = some status := by
            simp [observed?, inside, classified]
          by_cases conflict : ((status.busy || status.breakIn || status.keyDown) &&
              a.core.active.isNone && a.stationTxBusy) = true
          · -- the conflict is noted while nothing is active
            have idle : a.core.active = none := by
              simp only [Bool.and_eq_true, Option.isNone_iff_eq_none] at conflict
              exact conflict.1.2
            have both : (a.atTime later).decisionOps now later (.byte byte) =
                [.recordSafetyAction conflictMessage, .observeStatus status later] := by
              rw [calls]
              exact congrArg (· ++ _) (if_pos conflict)
            let noted : BrokerCore := a.core.recordSafetyAction conflictMessage
            have core' : a'.core = ((BrokerOp.observeStatus status later).apply noted).1 := by
              rw [core, decides.core, both]
              rfl
            have slot := apply_slot noted (.observeStatus status later)
            rw [← core'] at slot
            exact slot_idle (slot.of_same rfl rfl) idle (fun _ => clock.symm)
          · have single : (a.atTime later).decisionOps now later (.byte byte) =
                [.observeStatus status later] := by
              rw [calls]
              exact congrArg (· ++ _) (if_neg conflict)
            refine slot_one s decides core clock written events _ (fun h => by cases h) single
              (fun _ => rfl) (fun _ _ _ _ _ h => by cases h) (fun _ _ h => ?_)
            cases h
            exact seen

/-- A decision that is performed. -/
theorem slot_decided (s : Sound a)
    (decides : (a.atTime later).Decides now later trigger mid o₀ actions)
    (read : ¬ (a.atTime later).Misread trigger) (core : a'.core = mid.core) (clock : a'.clock = later)
    (written : o.written = writes actions) (events : outcomes o.events = sentBy actions)
    (unfailed : fault.isSome → actions = []) :
    ActorSlot ⟨a, inputOf trigger now later fault, o, a'⟩ := by
  have aside := @slot_aside a mid a' now later _ fault o o₀ actions decides core events
  have called : ∀ op : BrokerOp, trigger ≠ .tick →
      (a.atTime later).decisionOps now later trigger = [op] →
      (op.starts = true → op.clock = later) → op.neutral = true →
      ActorSlot ⟨a, inputOf trigger now later fault, o, a'⟩ := by
    intro op untimed calls starts neutral
    refine slot_one s decides core clock written events op untimed calls starts ?_ ?_
    · rintro clientId payload speed now' clock' rfl
      cases neutral
    · rintro status clock' rfl
      cases neutral
  cases trigger with
  | tick => exact slot_tick decides core clock written events
  | byte byte => exact slot_byte s decides read core clock written events
  | request request =>
      cases request with
      | maintenanceCommand | releaseMaintenance => exact aside rfl
      | register clientId primary =>
          exact called _ (fun h => by cases h) rfl (fun h => by cases h)
            rfl
      | unregister clientId | cancel clientId includeActive | cancelJob clientId jobId =>
          exact called _ (fun h => by cases h) rfl (fun _ => rfl)
            rfl
      | emergencyStop reason | shutdown =>
          exact called _ (fun h => by cases h) rfl (fun h => by cases h)
            rfl
      | setSpeed clientId speed =>
          by_cases barred : (a.atTime later).maintenanceBars clientId = true
          · exact aside (if_pos barred)
          · exact called _ (fun h => by cases h) (if_neg barred) (fun h => by cases h)
              rfl
      | configure clientId command =>
          by_cases barred : (a.atTime later).maintenanceBars clientId = true
          · exact aside (if_pos barred)
          · exact called _ (fun h => by cases h) (if_neg barred) (fun h => by cases h)
              rfl
      | activeOwnerCommand clientId command =>
          by_cases barred : (a.atTime later).inMaintenance = true
          · exact aside (if_pos barred)
          · exact called _ (fun h => by cases h) (if_neg barred) (fun h => by cases h)
              rfl
      | enqueue clientId payload speed stream =>
          by_cases admitted : (a.atTime later).admitsJob clientId payload stream = true
          · refine slot_one s decides core clock written events _ (fun h => by cases h)
              (if_pos admitted) (fun _ => rfl) ?_ (fun _ _ h => by cases h)
            intro clientId payload speed now' clock' enqueues some'
            cases enqueues
            -- Something is performed, so nothing has failed.
            cases fault with
            | none => rfl
            | some f => exact absurd (unfailed rfl) some'
          · exact aside (if_neg admitted)

end Decisions

/-- **What a step does to the active slot.** -/
theorem actor_slot {a a' : Actor} {input : ActorInput} {o : Observation} (s : Sound a)
    (step : actor.step a input = some (a', o)) : ActorSlot ⟨a, input, o, a'⟩ := by
  cases actor_move step with
  | turn live _ _ turn =>
      cases turn with
      | goesOn decides core _ _ _ clock written events _ read unfailed =>
          exact slot_decided s decides read core (clock.trans decides.clock) written events unfailed
      | fails | misread => exact .emptied rfl
      | leaves decides shutdown core =>
          subst shutdown
          refine .emptied ?_
          show a'.core.active = none
          rw [core, decides.core]
          rfl
  | @sunk request now later _ mid _ _ _ _ off _ _ decides core =>
      obtain ⟨disconnected, vacant⟩ := s.offline off
      have served := Actor.serves_request (a.atTime later) now later request
      have vacant' := served.vacant vacant (Or.inr disconnected)
      have same := ((a.atTime later).decides_request now later request).core
      refine .emptied ?_
      show a'.core.active = none
      rw [core, decides.core, ← same]
      exact vacant'.active
  | left _ events => exact .kept rfl rfl (fun b _ => handsOver_untold events _)
  | lost => exact .emptied rfl
  | unopened _ _ _ core => exact .emptied (by rw [core]; rfl)
  | refailed _ _ core => exact .emptied (by rw [core]; rfl)
  | reopened off _ core =>
      refine .emptied ?_
      show a'.core.active = none
      rw [core]
      exact (s.offline off).2.active
  | foreign _ _ core _ _ _ _ _ events =>
      exact .kept (congrArg _ core) (congrArg _ core) (fun b _ => handsOver_untold events _)

/-! ## Which steps complete a job -/

/-- The evidence on which a step completes the active job. -/
def Evident (e : ActorStep) (x : ActiveJob) : Prop :=
  (x.sawBusy = true ∧ (observed? e).any (!·.sending) = true) ∨
    (x.observedStatus = true ∧ e.before.core.status.sending = false ∧
      x.startedAt + shortJobSettle ≤ e.input.now)

/-- The step completes the job that is active before it, on evidence. -/
def CompletesEvidently (e : ActorStep) (id : Nat) (clientId : ClientId) : Prop :=
  ∃ x, e.before.core.active = some x ∧ x.job.id = id ∧ x.job.clientId = clientId ∧ Evident e x

theorem completed_mem {events : List BrokerEvent} {actions : List PhysicalAction} {id : Nat}
    {clientId : ClientId} (sent : (outcomes events).Sublist (sentBy actions))
    (completed : .completed id clientId ∈ events) : (id, clientId) ∈ completions actions := by
  have shown : .completed id clientId ∈ outcomes events :=
    List.mem_filter.mpr ⟨completed, rfl⟩
  obtain ⟨action, mem, event⟩ := List.mem_filterMap.mp (sent.subset shown)
  cases action with
  | write | canceled => cases event
  | completed jobId owner =>
      cases event
      exact mem_completions.mpr mem

/-- What some calls complete, one of them completes. -/
theorem completions_returned {core : BrokerCore} {ops : List BrokerOp} {id : Nat}
    {clientId : ClientId} (completed : (id, clientId) ∈ completions (core.returned ops)) :
    ∃ op ∈ ops, ∃ at', Completes at' op id clientId := by
  induction ops generalizing core with
  | nil => cases completed
  | cons op ops ih =>
      rw [returned_cons, completions_append, List.mem_append] at completed
      rcases completed with now | later
      · exact ⟨op, List.mem_cons_self, core, apply_completes core op now⟩
      · obtain ⟨op', mem, completes⟩ := ih later
        exact ⟨op', List.mem_cons_of_mem _ mem, completes⟩

/-- No request completes a job. -/
theorem completions_request (a : Actor) (now later : Nat) (request : Request) :
    completions (a.core.returned (a.decisionOps now later (.request request))) = [] := by
  refine List.eq_nil_iff_forall_not_mem.mpr ?_
  rintro ⟨id, clientId⟩ completed
  obtain ⟨op, mem, at', completes⟩ := completions_returned completed
  cases completes with
  | settled | elapsed => cases request <;> simp [Actor.decisionOps] at mem

section Decisions

variable {a mid a' : Actor} {now later : Nat} {trigger : Trigger} {fault : Option WriteFault}
  {o o₀ : Observation} {actions : List PhysicalAction} {id : Nat} {clientId : ClientId}

/-- A status completes the job that is active when it is observed. -/
theorem completes_status {byte : UInt8} {status : DeviceStatus} {core : BrokerCore}
    (seen : observed? ⟨a, .byte byte now later fault, o, a'⟩ = some status)
    (active : core.active = a.core.active)
    (completed : (id, clientId) ∈
      completions ((BrokerOp.observeStatus status later).apply core).2.actions) :
    CompletesEvidently ⟨a, .byte byte now later fault, o, a'⟩ id clientId := by
  cases apply_completes core _ completed with
  | @settled x _ _ busy sawBusy quiet =>
      refine ⟨x, active.symm.trans busy, rfl, rfl, Or.inl ⟨sawBusy, ?_⟩⟩
      rw [seen]
      simp [quiet]

theorem completes_byte {byte : UInt8}
    (completed : (id, clientId) ∈
      completions (a.core.returned ((a.atTime later).decisionOps now later (.byte byte)))) :
    CompletesEvidently ⟨a, .byte byte now later fault, o, a'⟩ id clientId := by
  cases inside : a.inMaintenance with
  | true =>
      -- Maintenance observes nothing; at its end the foreground is restored.
      obtain ⟨op, mem, at', completes⟩ := completions_returned completed
      have held : a.maintenanceReopenPending = true ∨ a.maintenanceOwner.isSome = true :=
        (Bool.or_eq_true_iff.mp inside).symm
      have restores : op = .connectPhysical byte ∨ op = .restoreForeground := by
        cases pending : a.maintenanceReopenPending with
        | true =>
            by_cases misread : byte = 0xff
            · simp [Actor.decisionOps, Actor.atTime, pending, misread] at mem
            · simpa [Actor.decisionOps, Actor.atTime, pending, misread] using mem
        | false =>
            have owned : a.maintenanceOwner.isSome = true := by simpa [pending] using held
            simp [Actor.decisionOps, Actor.atTime, pending, owned] at mem
      rcases restores with rfl | rfl <;> cases completes
  | false =>
      have outside : (a.atTime later).inMaintenance = false := inside
      rw [Actor.decisionOps_byte outside] at completed
      cases classified : DeviceEvent.fromByte byte with
      | echo | speedPot =>
          rw [classified] at completed
          cases completed
      | status status =>
          have seen : observed? ⟨a, .byte byte now later fault, o, a'⟩ = some status := by
            simp [observed?, inside, classified]
          rw [classified] at completed
          simp only [] at completed
          split at completed
          · let noted : BrokerCore := a.core.recordSafetyAction conflictMessage
            have both : (id, clientId) ∈ completions
                ([] ++ (((BrokerOp.observeStatus status later).apply noted).2.actions ++ [])) :=
              completed
            rw [List.nil_append, List.append_nil] at both
            have active : noted.active = a.core.active := rfl
            exact completes_status seen active both
          · exact completes_status seen rfl (by simpa using completed)

theorem completes_tick
    (completed : (id, clientId) ∈
      completions (a.core.returned ((a.atTime later).decisionOps now later .tick))) :
    CompletesEvidently ⟨a, .tick now later fault, o, a'⟩ id clientId := by
  have parts : (id, clientId) ∈ completions ((BrokerOp.watchdog now).apply a.core).2.actions ∨
      (id, clientId) ∈ completions ((BrokerOp.confirmIdleAfterSettle now shortJobSettle later).apply
        ((BrokerOp.watchdog now).apply a.core).1).2.actions := by
    rw [← List.mem_append, ← completions_append]
    simpa [Actor.decisionOps] using completed
  rcases parts with watched | confirmed
  · cases apply_completes _ _ watched
  · cases apply_completes _ _ confirmed with
    | @elapsed x _ _ _ active seen passed quiet =>
        change (a.core.watchdog now).1.active = some x at active
        change (a.core.watchdog now).1.status.sending = false at quiet
        have same : a.core.watchdog now = (a.core, []) := by
          unfold BrokerCore.watchdog at active ⊢
          split at active
          · cases active
          · rename_i goesOn
            exact if_neg goesOn
        rw [same] at active quiet
        refine ⟨x, active, rfl, rfl, Or.inr ⟨seen, quiet, ?_⟩⟩
        show x.startedAt + shortJobSettle ≤ now
        have settle : shortJobSettle = 250 := rfl
        omega

/-- What a decision completes, it completes on evidence. -/
theorem completes_decided (decides : (a.atTime later).Decides now later trigger mid o₀ actions)
    (completed : (id, clientId) ∈ completions actions) :
    CompletesEvidently ⟨a, inputOf trigger now later fault, o, a'⟩ id clientId := by
  have returned : (id, clientId) ∈
      completions ((a.atTime later).core.returned
        ((a.atTime later).decisionOps now later trigger)) := by
    rw [decides.actions, completions_append, completions_append, completions_writes,
      completions_writes] at completed
    simpa using completed
  cases trigger with
  | tick => exact completes_tick returned
  | byte byte => exact completes_byte returned
  | request request =>
      have none' := completions_request (a.atTime later) now later request
      rw [none'] at returned
      cases returned

end Decisions

/-- **Every completion is on evidence.** -/
theorem completed_step {a a' : Actor} {input : ActorInput} {o : Observation}
    (step : actor.step a input = some (a', o)) {id : Nat} {clientId : ClientId}
    (completed : .completed id clientId ∈ o.events) :
    CompletesEvidently ⟨a, input, o, a'⟩ id clientId := by
  have lost : ∀ core : BrokerCore, ∀ message,
      ¬ (outcomes o.events).Sublist (sentBy (core.physicalError message).2) := by
    intro core message sent
    have mem := completed_mem sent completed
    rw [completions_physicalError] at mem
    cases mem
  have untold : outcomes o.events ≠ [] := by
    intro none'
    have mem : (id, clientId) ∈ completions [] :=
      completed_mem (by rw [none']; exact List.nil_sublist _) completed
    cases mem
  have restores : ∀ firmware,
      ¬ (outcomes o.events).Sublist (sentBy (a.core.returned (reopening firmware))) := by
    intro firmware sent
    obtain ⟨op, mem, at', completes⟩ := completions_returned (completed_mem sent completed)
    simp only [reopening, List.mem_cons, List.not_mem_nil, or_false] at mem
    rcases mem with rfl | rfl <;> cases completes
  cases actor_move step with
  | turn live _ _ turn =>
      cases turn with
      | goesOn decides _ _ _ _ _ _ events =>
          exact completes_decided decides (completed_mem (by rw [events]) completed)
      | @fails mid _ _ actions message decides _ _ _ events =>
          have mem : (id, clientId) ∈
              completions (actions ++ (mid.core.physicalError message).2) := by
            refine completed_mem ?_ completed
            rw [events, sentBy_append]
            exact (applyActions_sublist _ _).append_right _
          rw [completions_append, completions_physicalError, List.append_nil] at mem
          exact completes_decided decides mem
      | leaves decides _ _ _ _ events =>
          refine completes_decided decides (completed_mem ?_ completed)
          rw [events]
          exact applyActions_sublist _ _
      | misread message _ _ events => exact absurd (by rw [events]) (lost _ message)
  | @sunk request now later fault _ _ _ _ _ _ _ _ decides _ _ _ _ _ _ events =>
      exact @completes_decided a _ a' now later (.request request) _ o _ _ _ _ decides
        (completed_mem (by rw [events]) completed)
  | left _ events => exact absurd events untold
  | lost _ _ events => exact absurd (by rw [events]) (lost _ _)
  | unopened _ _ _ _ _ _ _ _ _ events => exact absurd events untold
  | refailed _ _ _ _ _ _ _ events =>
      exact absurd (by rw [events]; exact applyActions_sublist _ _) (restores _)
  | reopened _ _ _ _ _ _ _ _ events => exact absurd (by rw [events]) (restores _)
  | foreign _ _ _ _ _ _ _ _ events => exact absurd events untold

/-! ## Every run -/

/-- Behind the step that wrote the active job's last bytes there is a status for every flag. -/
def Witnessed (history : List ActorStep) (a : Actor) : Prop :=
  ∀ x, a.core.active = some x →
    (x.sawBusy = true → a.core.status.sending = true) ∧
    ∃ front g since, history = front ++ g :: since ∧ airs g = some x.job ∧
      (∀ h ∈ since, airs h = none) ∧ g.after.clock ≤ x.startedAt ∧
      (x.sawBusy = true → ∃ h ∈ since, (observed? h).any (·.sending) = true) ∧
      (x.observedStatus = true → x.sawBusy = false → SeenIdle since)

theorem airs_eq {e : ActorStep} {x : ActiveJob} (active : e.after.core.active = some x)
    (written : ∀ b, e.before.core.active = some b → b.job = x.job → handsOver e b.job = true) :
    airs e = some x.job := by
  unfold airs
  rw [active, Option.map_some, Option.filter_some, if_pos]
  rw [Bool.or_eq_true, bne_iff_ne]
  by_cases same : e.before.core.active.map (·.job) = some x.job
  · obtain ⟨b, busy, job⟩ := Option.map_eq_some_iff.mp same
    exact Or.inr (job ▸ written b busy job)
  · exact Or.inl same

theorem airs_none {e : ActorStep} {x b : ActiveJob} (active : e.after.core.active = some x)
    (busy : e.before.core.active = some b) (job : x.job = b.job)
    (silent : handsOver e b.job = false) : airs e = none := by
  unfold airs
  rw [active, busy, Option.map_some, Option.map_some, Option.filter_some, if_neg]
  rw [job, silent]
  simp

/-- **What a step does to the evidence.** -/
theorem witnessed_step {history : List ActorStep} {e : ActorStep}
    (witnessed : Witnessed history e.before) (slot : ActorSlot e) (early : GrowsLate e = false) :
    Witnessed (history ++ [e]) e.after := by
  intro x active
  -- A step that writes the job's bytes is its own witness.
  have fresh : airs e = some x.job → e.after.clock ≤ x.startedAt → x.sawBusy = false →
      x.observedStatus = false →
      ∃ front g since, history ++ [e] = front ++ g :: since ∧ airs g = some x.job ∧
        (∀ h ∈ since, airs h = none) ∧ g.after.clock ≤ x.startedAt ∧
        (x.sawBusy = true → ∃ h ∈ since, (observed? h).any (·.sending) = true) ∧
        (x.observedStatus = true → x.sawBusy = false → SeenIdle since) := by
    intro writes timely unseen unobserved
    refine ⟨history, e, [], rfl, writes, by simp, timely, ?_, ?_⟩
    · simp [unseen]
    · simp [unobserved]
  cases slot with
  | emptied idle =>
      rw [idle] at active
      cases active
  | kept same status quiet =>
      have busy : e.before.core.active = some x := same.symm.trans active
      obtain ⟨sends, front, g, since, rfl, writes, silent, timely, seen, idle⟩ := witnessed x busy
      refine ⟨fun h => by rw [status]; exact sends h, front, g, since ++ [e], by simp, writes, ?_,
        timely, ?_, ?_⟩
      · intro h mem
        rcases List.mem_append.mp mem with before | now
        · exact silent h before
        · obtain rfl := List.mem_singleton.mp now
          exact airs_none active busy rfl (quiet x busy)
      · intro saw
        obtain ⟨h, mem, sending⟩ := seen saw
        exact ⟨h, List.mem_append_left _ mem, sending⟩
      · intro observed unseen
        obtain ⟨h, mem, resting⟩ := idle observed unseen
        exact ⟨h, List.mem_append_left _ mem, resting⟩
  | begun active' ended =>
      obtain rfl := Option.some.inj (active'.symm.trans active)
      refine ⟨(fun h => by cases h), fresh ?_ (Nat.le_refl _) rfl rfl⟩
      exact airs_eq active (fun b busy _ => ended b busy)
  | @grown b payload busy some' active' status evidence =>
      obtain rfl := Option.some.inj (active'.symm.trans active)
      obtain ⟨unseen, unobserved, timely⟩ := evidence early
      refine ⟨(fun h => by rw [unseen] at h; cases h), fresh ?_ timely unseen unobserved⟩
      refine airs_eq active (fun b' busy' same => ?_)
      obtain rfl := Option.some.inj (busy.symm.trans busy')
      -- The job has grown by at least a byte.
      have longer := congrArg (fun job => job.payload.wireBytes.length) same
      simp only [Job.grow, TransmitPayload.append, List.length_append] at longer
      have some'' : payload.wireBytes.length ≠ 0 := by simpa using some'
      omega
  | @observed b status sees busy active' status' stays quiet =>
      obtain rfl := Option.some.inj (active'.symm.trans active)
      obtain ⟨sends, front, g, since, rfl, writes, silent, timely, seen, idle⟩ := witnessed b busy
      refine ⟨?_, front, g, since ++ [e], by simp, writes, ?_, timely, ?_, ?_⟩
      · intro saw
        rw [status']
        rcases Bool.or_eq_true_iff.mp saw with old | new
        · exact stays old
        · exact new
      · intro h mem
        rcases List.mem_append.mp mem with before | now
        · exact silent h before
        · obtain rfl := List.mem_singleton.mp now
          exact airs_none active busy rfl quiet
      · intro saw
        rcases Bool.or_eq_true_iff.mp saw with old | new
        · obtain ⟨h, mem, sending⟩ := seen old
          exact ⟨h, List.mem_append_left _ mem, sending⟩
        · exact ⟨e, by simp, by rw [sees]; simpa using new⟩
      · intro _ unseen
        have resting : status.sending = false := (Bool.or_eq_false_iff.mp unseen).2
        exact ⟨e, by simp, by rw [sees]; simp [resting]⟩

/-- A completion on evidence is sound after a history that bears the evidence out. -/
theorem completesSoundly_of_witnessed {earlier : List ActorStep} {e : ActorStep}
    (witnessed : Witnessed earlier e.before)
    (evident : ∀ id clientId, .completed id clientId ∈ e.output.events →
      CompletesEvidently e id clientId) : CompletesSoundly earlier e := by
  intro id clientId completed
  obtain ⟨x, active, rfl, rfl, evidence⟩ := evident id clientId completed
  obtain ⟨sends, front, g, since, rfl, writes, silent, timely, seen, idle⟩ := witnessed x active
  refine ⟨front, g, since, x.job, rfl, writes, rfl, rfl, silent, ?_⟩
  rcases evidence with ⟨saw, resting⟩ | ⟨observed, resting, settled⟩
  · obtain ⟨b, mem, sending⟩ := seen saw
    obtain ⟨before, after, rfl⟩ := List.append_of_mem mem
    exact Or.inl ⟨before, b, after ++ [e], e, by simp, sending, by simp, resting⟩
  · have unseen : x.sawBusy = false := by
      refine Bool.eq_false_iff.mpr (fun saw => ?_)
      rw [sends saw] at resting
      cases resting
    obtain ⟨i, mem, quiet⟩ := idle observed unseen
    exact Or.inr ⟨by omega, i, List.mem_append_left _ mem, quiet⟩

section Runs

variable {maxTx : Nat} {ptt : Option PttManager} {reconnect : Bool} {firmware : UInt8} {start : Nat}
  {history : List ActorStep} {a : Actor}

/-- **Completion soundness.**  In every run in which no chunk joins the active job after a status was
observed for it, or at a later clock reading than its start, every JobCompleted event rests on what
was observed since the last payload bytes of its job. -/
theorem completion_sound
    (run : actor.Execution (.spawn maxTx ptt reconnect firmware start) history a)
    (early : ∀ e ∈ history, GrowsLate e = false) :
    ∀ earlier e later, history = earlier ++ e :: later → CompletesSoundly earlier e := by
  rintro earlier e later rfl
  have witnessed : Witnessed earlier e.before := by
    refine run.before.guarded (I := fun history a => Witnessed history a) ?_ ?_
      (fun h mem => early h (List.mem_append_left _ mem))
    · intro x active
      cases active
    · intro history a input o a' past witnessed step timely
      exact witnessed_step witnessed (actor_slot (sound_of_execution past) step) timely
  refine completesSoundly_of_witnessed witnessed (fun id clientId completed => ?_)
  exact completed_step (run.step_of_mem e (by simp)) completed

end Runs

/-- A stream of two chunks is seen busy and idle, and a short job settles. -/
theorem completion_sound_settled :
    ∃ history a, actor.Execution (.spawn 60000 none true 31 0) history a ∧
      (∀ earlier e later, history = earlier ++ e :: later → CompletesSoundly earlier e) ∧
      terminals history = [1, 2] := by
  have run := actor.execution_exec (.spawn 60000 none true 31 0)
    [.request (.register 1 true) 0 0 none, .request (.enqueue 1 ⟨[69], [69]⟩ none true) 1 1 none,
      .request (.enqueue 1 ⟨[84], [84]⟩ none true) 1 1 none, .byte 0xc4 2 2 none,
      .byte 0xc0 3 3 none, .request (.enqueue 1 ⟨[69], [69]⟩ none false) 4 4 none,
      .byte 0xc0 5 5 none, .tick 254 254 none] (by decide)
  exact ⟨_, _, run, completion_sound run (by decide), by decide⟩

/-- A completion is not sound directly behind a step that wrote bytes of the job. -/
theorem not_completesSoundly {front : List ActorStep} {g e : ActorStep} {id : Nat}
    {clientId : ClientId} (completed : .completed id clientId ∈ e.output.events)
    (writes : airs g ≠ none) (soon : e.input.now < g.after.clock + shortJobSettle) :
    ¬ CompletesSoundly (front ++ [g]) e := by
  intro sound
  obtain ⟨front', g', since, job, split, _, _, _, silent, evidence⟩ := sound id clientId completed
  rcases List.eq_nil_or_concat since with rfl | ⟨rest, last, rfl⟩
  · obtain ⟨_, same⟩ := List.append_inj' split rfl
    cases same
    rcases evidence with ⟨before, b, back, i, one, _, mem, _⟩ | ⟨settled, _⟩
    · have short := congrArg List.length one
      have some' := List.length_pos_of_mem mem
      simp at short
      omega
    · omega
  · have last' : g = last := by
      rw [List.concat_eq_append, ← List.cons_append, ← List.append_assoc] at split
      obtain ⟨_, same⟩ := List.append_inj' split rfl
      exact List.cons.inj same |>.1
    exact writes (last' ▸ silent last (by simp))

/-- A chunk joins a job that was seen busy, and the next idle status completes the job. -/
theorem not_completion_sound : ∃ history a, actor.Execution leased history a ∧
    ¬ ∀ earlier e later, history = earlier ++ e :: later → CompletesSoundly earlier e := by
  have busy := actor.execution_exec leased
    [.request (.register 1 true) 0 0 none, .request (.enqueue 1 ⟨[69], [69]⟩ none true) 1 1 none,
      .byte 0xc4 2 2 none] (by decide)
  have grown := busy.goOn (.request (.enqueue 1 ⟨[84], [84]⟩ none true) 3 3 none) (by decide)
  have run := grown.goOn (.byte 0xc0 4 4 none) (by decide)
  refine ⟨_, _, run, fun sound => ?_⟩
  have completes := sound _ _ [] rfl
  exact @not_completesSoundly _ _ _ 1 1 (by decide) (by decide) (by decide) completes

end CatHub.WinKeyer
