/-
# CatHub.WinKeyer.Evidence — what one call of the broker core does to the active job's evidence.

The active job carries its evidence: whether a status was observed, whether a busy one was, and when
the job was started.  `Slot` lists what a call can do to the active slot: leave it, empty it, start a
job in it, let the job grow, or observe a status for it.  `Completes` lists the two ways in which a
call completes the active job.

Like the other modules on single calls this one unfolds the operations once; the results about runs
use `apply_slot` and `apply_completes`.
-/
import CatHub.WinKeyer.Decisions

namespace CatHub.WinKeyer

open Systems Ptt BrokerCore

/-- The keyer is sending, or about to. -/
def DeviceStatus.sending (status : DeviceStatus) : Bool :=
  status.busy || status.waiting || status.keyDown

/-- The events tell the end of the job. -/
def tells (events : List BrokerEvent) (job : Job) : Bool :=
  events.contains (.completed job.id job.clientId) || events.contains (.canceled job.id job.clientId)

/-! ## What a call does to the active slot -/

/-- The call may start a job. -/
def BrokerOp.starts : BrokerOp → Bool
  | .unregisterClient _ _ => true
  | .enqueue _ _ _ _ _ _ => true
  | .cancelClient _ _ _ => true
  | .cancelJob _ _ _ => true
  | .observeStatus _ _ => true
  | .confirmIdleAfterSettle _ _ _ => true
  | _ => false

/-- Neither an enqueue nor a status. -/
def BrokerOp.neutral : BrokerOp → Bool
  | .enqueue _ _ _ _ _ _ => false
  | .observeStatus _ _ => false
  | _ => true

/-- The call may cancel queued jobs and leave the active one alone. -/
def BrokerOp.withdraws : BrokerOp → Bool
  | .unregisterClient _ _ => true
  | .cancelClient _ _ _ => true
  | .cancelJob _ _ _ => true
  | _ => false

theorem tells_append (events more : List BrokerEvent) (job : Job) :
    tells (events ++ more) job = (tells events job || tells more job) := by
  unfold tells
  rw [List.contains_append, List.contains_append]
  ac_rfl

theorem tells_outcomes (events : List BrokerEvent) (job : Job) :
    tells (outcomes events) job = tells events job := by
  simp [tells, outcomes, BrokerEvent.settles]

theorem sentBy_append (actions more : List PhysicalAction) :
    sentBy (actions ++ more) = sentBy actions ++ sentBy more := List.filterMap_append

theorem sentBy_writes (chunks : List (List UInt8)) : sentBy (chunks.map .write) = [] := by
  induction chunks with
  | nil => rfl
  | cons chunk chunks ih => exact ih

theorem tells_cancellation (front : List PhysicalAction) (job : Job) :
    tells (sentBy (front ++ [cancellation job])) job = true := by
  rw [sentBy_append, tells_append]
  have last : tells (sentBy [cancellation job]) job = true := by
    simp [tells, sentBy, cancellation, PhysicalAction.event?]
  rw [last, Bool.or_true]

/-- What a call does to the active job and its evidence, with the actions it returns. -/
inductive Slot (core : BrokerCore) : BrokerOp → List PhysicalAction → BrokerCore → Prop
  | kept {op : BrokerOp} {actions : List PhysicalAction} {core' : BrokerCore} :
      core'.active = core.active → core'.status = core.status →
      sentBy actions = [] ∨ op.withdraws = true ∧ writes actions = [] → Slot core op actions core'
  | emptied {op : BrokerOp} {actions : List PhysicalAction} {core' : BrokerCore} :
      core'.active = none → Slot core op actions core'
  | begun {op : BrokerOp} {job : Job} {actions : List PhysicalAction} {core' : BrokerCore} :
      op.starts = true →
      core'.active = some { job, sawBusy := false, observedStatus := false, startedAt := op.clock } →
      writes actions ≠ [] → (∀ a, core.active = some a → tells (sentBy actions) a.job = true) →
      Slot core op actions core'
  | grown {a : ActiveJob} {payload : TransmitPayload} {speed : Option SpeedMode} {now clock : Nat}
      {core' : BrokerCore} : core.active = some a → a.job.stream = true → payload.wireBytes ≠ [] →
      a.job.payload.wireBytes.length + payload.wireBytes.length ≤ maxJobBytes →
      core'.active = some { a with job := a.job.grow payload } → core'.status = core.status →
      Slot core (.enqueue a.job.clientId payload speed true now clock)
        [.write payload.wireBytes] core'
  | observed {a : ActiveJob} {status : DeviceStatus} {clock : Nat} {core' : BrokerCore} :
      core.active = some a →
      core'.active = some { a with observedStatus := true, sawBusy := a.sawBusy || status.sending } →
      core'.status = status → (a.sawBusy = true → status.sending = true) →
      Slot core (.observeStatus status clock) [] core'

/-- Going on from an idle core starts a job or leaves the slot empty. -/
theorem slot_begins {core mid core' : BrokerCore} {op : BrokerOp}
    {ending started : List PhysicalAction} (starts : op.starts = true)
    (begins : Begins mid op.clock core' started) (idle : mid.active = none)
    (ends : ∀ a, core.active = some a → tells (sentBy ending) a.job = true) :
    Slot core op (ending ++ started) core' := by
  cases begins with
  | drained ws empty same => exact .emptied (same.idle idle)
  | @started job rest head active =>
      refine .begun starts active ?_ ?_
      · simp only [writes_append]
        have opening : writes [.write job.payload.wireBytes, .write [0x15]] =
            [job.payload.wireBytes, [0x15]] := rfl
        rw [opening]
        simp
      · intro a busy
        rw [sentBy_append, tells_append, ends a busy]
        rfl

theorem slot_next {core mid : BrokerCore} {op : BrokerOp} (ending : List PhysicalAction)
    (starts : op.starts = true) (idle : mid.active = none)
    (ends : ∀ a, core.active = some a → tells (sentBy ending) a.job = true) :
    Slot core op (ending ++ (mid.startNextOrRestore op.clock).2)
      (mid.startNextOrRestore op.clock).1 :=
  slot_begins starts (startNextOrRestore_begins mid op.clock) idle ends

theorem slot_completeActive {core mid : BrokerCore} {op : BrokerOp} (starts : op.starts = true)
    (same : mid.active.map (·.job) = core.active.map (·.job)) (active : mid.active.isSome) :
    Slot core op (mid.completeActive op.clock).2 (mid.completeActive op.clock).1 := by
  obtain ⟨b, active⟩ := Option.isSome_iff_exists.mp active
  simp only [BrokerCore.completeActive, active]
  refine slot_next [.completed b.job.id b.job.clientId] starts rfl ?_
  intro a busy
  rw [active, busy, Option.map_some, Option.map_some, Option.some.injEq] at same
  rw [same]
  simp [tells, sentBy, PhysicalAction.event?]

theorem slot_enqueue {core core' : BrokerCore} {clientId : ClientId} {payload : TransmitPayload}
    {speed : Option SpeedMode} {stream : Bool} {now clock jobId : Nat}
    {actions : List PhysicalAction}
    (h : core.enqueue clientId payload speed stream now clock = some (core', jobId, actions)) :
    Slot core (.enqueue clientId payload speed stream now clock) actions core' := by
  cases enqueue_cases h with
  | joinedActive streams joins fits =>
      subst streams
      obtain ⟨active, rfl, stream⟩ := activeStream?_eq_some.mp joins
      exact .grown active stream (enqueue_checks h).1 fits rfl rfl
  | joinedTail | waits => exact .kept rfl rfl (Or.inl rfl)
  | starts _ _ _ idle opened =>
      subst opened
      refine @slot_next core _ (.enqueue clientId payload speed stream now clock) [] rfl idle ?_
      intro a busy
      rw [idle] at busy
      cases busy

theorem slot_unregisterClient (core : BrokerCore) (clientId : ClientId) (clock : Nat) :
    Slot core (.unregisterClient clientId clock) (core.unregisterClient clientId clock).2
      (core.unregisterClient clientId clock).1 := by
  cases active : core.active with
  | none =>
      simp only [BrokerCore.unregisterClient, active]
      exact .emptied rfl
  | some a =>
      by_cases owner : a.job.clientId = clientId
      · simp only [BrokerCore.unregisterClient, active, owner, if_true]
        refine @slot_next core _ (.unregisterClient clientId clock) _ rfl rfl ?_
        intro b busy
        obtain rfl := Option.some.inj (active.symm.trans busy)
        have last : (jobsOf core.queue clientId).map cancellation ++
            [.write [0x0a], cancellation a.job] =
            ((jobsOf core.queue clientId).map cancellation ++ [.write [0x0a]]) ++
              [cancellation a.job] := by simp
        rw [last]
        exact tells_cancellation _ _
      · simp only [BrokerCore.unregisterClient, active, owner, if_false]
        exact .kept active.symm rfl (Or.inr ⟨rfl, writes_cancellations _⟩)

theorem slot_cancelClient (core : BrokerCore) (clientId : ClientId) (includeActive : Bool)
    (clock : Nat) : Slot core (.cancelClient clientId includeActive clock)
      (core.cancelClient clientId includeActive clock).2
      (core.cancelClient clientId includeActive clock).1 := by
  cases active : core.active with
  | none =>
      simp only [BrokerCore.cancelClient, active]
      split <;> exact .emptied rfl
  | some a =>
      simp only [BrokerCore.cancelClient, active]
      split
      · refine @slot_next core _ (.cancelClient clientId includeActive clock) _ rfl rfl ?_
        intro b busy
        obtain rfl := Option.some.inj (active.symm.trans busy)
        exact tells_cancellation (.write [0x0a] :: (jobsOf core.queue clientId).map cancellation) _
      · exact .kept active.symm rfl (Or.inr ⟨rfl, writes_cancellations _⟩)

theorem slot_cancelJob (core : BrokerCore) (clientId : ClientId) (jobId clock : Nat) :
    Slot core (.cancelJob clientId jobId clock) (core.cancelJob clientId jobId clock).2.2
      (core.cancelJob clientId jobId clock).1 := by
  unfold BrokerCore.cancelJob
  split
  · rename_i a joins
    refine @slot_next core _ (.cancelJob clientId jobId clock) [.write [0x0a], cancellation a.job]
      rfl rfl ?_
    intro b busy
    obtain rfl := Option.some.inj ((Option.filter_eq_some_iff.mp joins).1.symm.trans busy)
    exact tells_cancellation [.write [0x0a]] _
  · exact .kept rfl rfl (Or.inr ⟨rfl, writes_cancellations _⟩)

theorem slot_observeStatus (core : BrokerCore) (status : DeviceStatus) (clock : Nat) :
    Slot core (.observeStatus status clock) (core.observeStatus status clock).2
      (core.observeStatus status clock).1 := by
  cases active : core.active with
  | none =>
      simp only [BrokerCore.observeStatus, active]
      exact .emptied rfl
  | some a =>
      simp only [BrokerCore.observeStatus, active]
      split
      · rename_i busy
        have sending : status.sending = true := busy
        refine .observed active ?_ rfl (fun _ => sending)
        simp [sending]
      · rename_i idle
        have quiet : status.sending = false := by simpa [DeviceStatus.sending] using idle
        split
        · exact @slot_completeActive core _ (.observeStatus status clock) rfl
            (by rw [active]; rfl) rfl
        · rename_i unseen
          refine .observed active ?_ rfl (fun seen => absurd seen unseen)
          simp [quiet]

theorem slot_setClientCommand {core core' : BrokerCore} {clientId : ClientId} {command : List UInt8}
    {actions : List PhysicalAction}
    (h : core.setClientCommand clientId command = some (core', actions)) :
    Slot core (.setClientCommand clientId command) actions core' := by
  unfold BrokerCore.setClientCommand at h
  split at h
  · cases h
  split at h
  · cases h
  split at h
  · cases h
    cases speedPotMinimum command <;> exact .kept rfl rfl (Or.inl rfl)
  · split at h <;> cases h <;> exact .kept rfl rfl (Or.inl rfl)

/-- **What a call does to the active slot.** -/
theorem apply_slot (core : BrokerCore) (op : BrokerOp) :
    Slot core op (op.apply core).2.actions (op.apply core).1 := by
  cases op with
  | connectPhysical | recordSafetyAction | observePot => exact .kept rfl rfl (Or.inl rfl)
  | activeOwnerCommand clientId command =>
      refine .kept rfl rfl (Or.inl ?_)
      show sentBy ((core.activeOwnerCommand clientId command).getD []) = []
      rcases activeOwnerCommand_actions core clientId command with same | same
      · rw [same]
        rfl
      · rw [same]
        rfl
  | restoreForeground =>
      refine .kept rfl rfl (Or.inl ?_)
      obtain ⟨_, ws, restores⟩ := restoreForegroundSpeed_spec core
      show sentBy core.restoreForegroundSpeed.2 = []
      rw [restores]
      exact sentBy_writes ws
  | physicalError | emergencyStop => exact .emptied rfl
  | registerClient clientId primary =>
      show Slot core _ [] (core.registerClient clientId primary).1
      unfold BrokerCore.registerClient
      split <;> exact .kept rfl rfl (Or.inl rfl)
  | unregisterClient clientId clock => exact slot_unregisterClient core clientId clock
  | setClientSpeed clientId speed =>
      show Slot core _ (core.setClientSpeed clientId speed).2 (core.setClientSpeed clientId speed).1
      unfold BrokerCore.setClientSpeed
      split
      · exact .kept rfl rfl (Or.inl rfl)
      · refine .kept rfl rfl (Or.inl ?_)
        simp only []
        split <;> rfl
  | setClientCommand clientId command =>
      simp only [BrokerOp.apply]
      split
      · rename_i set
        exact slot_setClientCommand set
      · exact .kept rfl rfl (Or.inl rfl)
  | enqueue clientId payload speed stream now clock =>
      simp only [BrokerOp.apply]
      split
      · rename_i accepted
        exact slot_enqueue accepted
      · exact .kept rfl rfl (Or.inl rfl)
  | cancelClient clientId includeActive clock =>
      exact slot_cancelClient core clientId includeActive clock
  | cancelJob clientId jobId clock => exact slot_cancelJob core clientId jobId clock
  | observeStatus status clock => exact slot_observeStatus core status clock
  | confirmIdleAfterSettle now settle clock =>
      show Slot core _ (core.confirmIdleAfterSettle now settle clock).2
        (core.confirmIdleAfterSettle now settle clock).1
      unfold BrokerCore.confirmIdleAfterSettle
      split
      · rename_i due
        refine @slot_completeActive core core (.confirmIdleAfterSettle now settle clock) rfl rfl ?_
        simp only [Bool.and_eq_true] at due
        cases active : core.active with
        | none => simp [active] at due
        | some a => rfl
      · exact .kept rfl rfl (Or.inl rfl)
  | watchdog now =>
      show Slot core _ (core.watchdog now).2 (core.watchdog now).1
      unfold BrokerCore.watchdog
      split
      · exact .emptied rfl
      · exact .kept rfl rfl (Or.inl rfl)

/-! ## Which calls complete a job -/

/-- The jobs that some actions complete. -/
def completions (actions : List PhysicalAction) : List (Nat × ClientId) :=
  actions.filterMap fun
    | .completed jobId clientId => some (jobId, clientId)
    | _ => none

@[simp] theorem completions_append (actions more : List PhysicalAction) :
    completions (actions ++ more) = completions actions ++ completions more := List.filterMap_append

@[simp] theorem completions_writes (chunks : List (List UInt8)) :
    completions (chunks.map .write) = [] := by
  induction chunks with
  | nil => rfl
  | cons chunk chunks ih => exact ih

@[simp] theorem completions_cancellations (jobs : List Job) :
    completions (jobs.map cancellation) = [] := by
  induction jobs with
  | nil => rfl
  | cons job jobs ih => exact ih

theorem mem_completions {actions : List PhysicalAction} {id : Nat} {clientId : ClientId} :
    (id, clientId) ∈ completions actions ↔ .completed id clientId ∈ actions := by
  unfold completions
  rw [List.mem_filterMap]
  constructor
  · rintro ⟨action, mem, same⟩
    cases action with
    | completed jobId owner =>
        cases same
        exact mem
    | write | canceled => cases same
  · exact fun mem => ⟨_, mem, rfl⟩

theorem OnlyWrites.completes {actions : List PhysicalAction} (writes : OnlyWrites actions) :
    completions actions = [] := by
  obtain ⟨chunks, rfl⟩ := writes
  exact completions_writes chunks

/-- The two ways to complete the active job. -/
inductive Completes (core : BrokerCore) : BrokerOp → Nat → ClientId → Prop
  /-- An idle status after a busy one. -/
  | settled {a : ActiveJob} {status : DeviceStatus} {clock : Nat} : core.active = some a →
      a.sawBusy = true → status.sending = false →
      Completes core (.observeStatus status clock) a.job.id a.job.clientId
  /-- The settle time has passed, and the last status was idle. -/
  | elapsed {a : ActiveJob} {now settle clock : Nat} : core.active = some a →
      a.observedStatus = true → now - a.startedAt ≥ settle → core.status.sending = false →
      Completes core (.confirmIdleAfterSettle now settle clock) a.job.id a.job.clientId

theorem completions_completeActive {core : BrokerCore} {a : ActiveJob} (active : core.active = some a)
    (clock : Nat) : completions (core.completeActive clock).2 = [(a.job.id, a.job.clientId)] := by
  simp only [BrokerCore.completeActive, active]
  show (a.job.id, a.job.clientId) :: completions (BrokerCore.startNextOrRestore _ clock).2 = _
  rw [(OnlyWrites.begins (startNextOrRestore_begins _ clock)).completes]

theorem completions_physicalError (core : BrokerCore) (message : String) :
    completions (core.physicalError message).2 = [] := by
  show completions (_ ++ _) = []
  rw [completions_append, completions_cancellations]
  cases core.active <;> rfl

theorem completions_restore (core : BrokerCore) : completions core.restoreForegroundSpeed.2 = [] := by
  obtain ⟨_, ws, restores⟩ := restoreForegroundSpeed_spec core
  rw [restores, completions_writes]

theorem completions_emergencyStop (core : BrokerCore) (reason : String) :
    completions (core.emergencyStop reason).2 = [] := by
  have active : completions (core.active.toList.map (fun active => cancellation active.job)) = [] := by
    cases core.active <;> rfl
  have parts : completions (core.emergencyStop reason).2 =
      completions (core.active.toList.map (fun active => cancellation active.job)) ++
        completions (core.queue.map cancellation) ++
        completions (BrokerCore.restoreForegroundSpeed
          { core with active := none, queue := [], lastSafetyAction := some reason }).2 := by
    rw [← completions_append, ← completions_append]
    rfl
  rw [parts, active, completions_cancellations, completions_restore]
  rfl

/-- A call that ends the active job with Clear Buffer. -/
theorem completions_cleared {ending started : List PhysicalAction} {mid core : BrokerCore}
    {clock : Nat} (none' : completions ending = []) (begins : Begins mid clock core started) :
    completions (ending ++ started) = [] := by
  rw [completions_append, none', (OnlyWrites.begins begins).completes]
  rfl

theorem completions_watchdog (core : BrokerCore) (now : Nat) :
    completions (core.watchdog now).2 = [] := by
  unfold BrokerCore.watchdog
  split
  · exact completions_emergencyStop core _
  · rfl

theorem completions_unregisterClient (core : BrokerCore) (clientId : ClientId) (clock : Nat) :
    completions (core.unregisterClient clientId clock).2 = [] := by
  cases active : core.active with
  | none =>
      simp only [BrokerCore.unregisterClient, active]
      exact completions_cancellations _
  | some a =>
      by_cases owner : a.job.clientId = clientId
      · simp only [BrokerCore.unregisterClient, active, owner, if_true]
        refine completions_cleared ?_ (startNextOrRestore_begins _ clock)
        rw [completions_append, completions_cancellations]
        rfl
      · simp only [BrokerCore.unregisterClient, active, owner, if_false]
        exact completions_cancellations _

theorem completions_cancelClient (core : BrokerCore) (clientId : ClientId) (includeActive : Bool)
    (clock : Nat) : completions (core.cancelClient clientId includeActive clock).2 = [] := by
  unfold BrokerCore.cancelClient
  split
  · split
    · refine completions_cleared ?_ (startNextOrRestore_begins _ clock)
      show completions ((jobsOf core.queue clientId).map cancellation ++ [cancellation _]) = []
      rw [completions_append, completions_cancellations]
      rfl
    · exact completions_cancellations _
  · split
    · exact completions_cancellations (jobsOf core.queue clientId)
    · exact completions_cancellations _

theorem completions_cancelJob (core : BrokerCore) (clientId : ClientId) (jobId clock : Nat) :
    completions (core.cancelJob clientId jobId clock).2.2 = [] := by
  unfold BrokerCore.cancelJob
  split
  · exact completions_cleared (by rfl) (startNextOrRestore_begins _ clock)
  · exact completions_cancellations _

theorem observeStatus_completes {core : BrokerCore} {status : DeviceStatus} {clock id : Nat}
    {clientId : ClientId}
    (completed : (id, clientId) ∈ completions (core.observeStatus status clock).2) :
    Completes core (.observeStatus status clock) id clientId := by
  cases active : core.active with
  | none =>
      simp only [BrokerCore.observeStatus, active] at completed
      cases completed
  | some a =>
      simp only [BrokerCore.observeStatus, active] at completed
      split at completed
      · cases completed
      · rename_i quiet
        split at completed
        · rename_i seen
          rw [completions_completeActive rfl] at completed
          obtain ⟨rfl, rfl⟩ := Prod.mk.inj (List.mem_singleton.mp completed)
          exact @Completes.settled core a status clock active seen
            (by simpa [DeviceStatus.sending] using quiet)
        · cases completed

theorem confirmIdleAfterSettle_completes {core : BrokerCore} {now settle clock id : Nat}
    {clientId : ClientId}
    (completed : (id, clientId) ∈ completions (core.confirmIdleAfterSettle now settle clock).2) :
    Completes core (.confirmIdleAfterSettle now settle clock) id clientId := by
  unfold BrokerCore.confirmIdleAfterSettle at completed
  split at completed
  · rename_i due
    simp only [Bool.and_eq_true, Bool.not_eq_true', Option.any_eq_true, decide_eq_true_eq] at due
    obtain ⟨⟨⟨⟨a, active, observed, passed⟩, busy⟩, waiting⟩, key⟩ := due
    rw [completions_completeActive active] at completed
    obtain ⟨rfl, rfl⟩ := Prod.mk.inj (List.mem_singleton.mp completed)
    exact .elapsed active observed passed (by simp [DeviceStatus.sending, busy, waiting, key])
  · cases completed

/-- **Which calls complete a job.** -/
theorem apply_completes (core : BrokerCore) (op : BrokerOp) {id : Nat} {clientId : ClientId}
    (completed : (id, clientId) ∈ completions (op.apply core).2.actions) :
    Completes core op id clientId := by
  have never : completions (op.apply core).2.actions = [] → Completes core op id clientId := by
    intro none'
    rw [none'] at completed
    cases completed
  cases op with
  | connectPhysical | registerClient | recordSafetyAction | observePot => exact never rfl
  | physicalError message => exact never (completions_physicalError core message)
  | restoreForeground => exact never (completions_restore core)
  | setClientSpeed | setClientCommand | activeOwnerCommand | enqueue =>
      exact never (OnlyWrites.handedIn core rfl).completes
  | emergencyStop reason => exact never (completions_emergencyStop core reason)
  | watchdog now => exact never (completions_watchdog core now)
  | unregisterClient c clock => exact never (completions_unregisterClient core c clock)
  | cancelClient c all clock => exact never (completions_cancelClient core c all clock)
  | cancelJob c jobId clock => exact never (completions_cancelJob core c jobId clock)
  | observeStatus => exact observeStatus_completes completed
  | confirmIdleAfterSettle => exact confirmIdleAfterSettle_completes completed

end CatHub.WinKeyer
