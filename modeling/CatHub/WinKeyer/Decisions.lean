/-
# CatHub.WinKeyer.Decisions — the decision of every turn, spelled out.

`ActorCalls` says that a turn is some sequence of calls of the core.  Here the calls are explicit:
`decisionOps` lists those of each decision, `ownWrites` and `pollWrites` what the actor writes in
front of and behind the chunks the core returns, and `maintenanceAfter` what becomes of the two
maintenance flags.  `decides_begin` shows that every decision is what they say.
-/
import CatHub.WinKeyer.Conservation
import CatHub.WinKeyer.Representation
import CatHub.WinKeyer.Station

namespace CatHub.WinKeyer

open Systems Ptt

/-! ## Recorded calls -/

namespace BrokerCore

/-- The calls as a history records them. -/
def callsOf (core : BrokerCore) : List BrokerOp → BrokerHistory
  | [] => []
  | op :: rest => ⟨core, op, (op.apply core).2, (op.apply core).1⟩ :: callsOf (op.apply core).1 rest

/-- All actions some calls return. -/
def returned (core : BrokerCore) (ops : List BrokerOp) : List PhysicalAction :=
  (core.callsOf ops).flatMap (·.output.actions)

@[simp] theorem afterCalls_nil (core : BrokerCore) : core.afterCalls [] = core := rfl

@[simp] theorem afterCalls_cons (core : BrokerCore) (op : BrokerOp) (ops : List BrokerOp) :
    core.afterCalls (op :: ops) = (op.apply core).1.afterCalls ops := rfl

@[simp] theorem returned_nil (core : BrokerCore) : core.returned [] = [] := rfl

@[simp] theorem returned_cons (core : BrokerCore) (op : BrokerOp) (ops : List BrokerOp) :
    core.returned (op :: ops) = (op.apply core).2.actions ++ (op.apply core).1.returned ops := rfl

end BrokerCore

open BrokerCore

/-! ## What is shown of the jobs -/

/-- The job an event settles. -/
def BrokerEvent.settles : BrokerEvent → Option Nat
  | .completed jobId _ => some jobId
  | .canceled jobId _ => some jobId
  | _ => none

/-- The JobCompleted and JobCanceled events among some events. -/
def outcomes (events : List BrokerEvent) : List BrokerEvent := events.filter (·.settles.isSome)

/-- The ids they are about. -/
def settledIn (events : List BrokerEvent) : List Nat := events.filterMap (·.settles)

/-- The events that some actions send. -/
def sentBy (actions : List PhysicalAction) : List BrokerEvent := actions.filterMap (·.event?)

/-- The job id a request is answered with. -/
def Reply.job? : Reply → Option Nat
  | .job jobId => some jobId
  | _ => none

def Observation.accepted (o : Observation) : Option Nat := o.reply.bind (·.job?)

@[simp] theorem outcomes_append (xs ys : List BrokerEvent) :
    outcomes (xs ++ ys) = outcomes xs ++ outcomes ys := List.filter_append xs ys

theorem settledIn_outcomes (events : List BrokerEvent) :
    settledIn (outcomes events) = settledIn events := by
  unfold settledIn outcomes
  rw [List.filterMap_filter]
  congr 1
  funext event
  cases event <;> rfl

theorem settledIn_append (xs ys : List BrokerEvent) :
    settledIn (xs ++ ys) = settledIn xs ++ settledIn ys := List.filterMap_append

/-- The events settle what the actions settle. -/
theorem settledIn_sentBy (actions : List PhysicalAction) :
    settledIn (sentBy actions) = settledBy actions := by
  unfold settledIn sentBy settledBy
  rw [List.filterMap_filterMap]
  congr 1
  funext action
  cases action <;> rfl

/-- Performing actions sends nothing but outcomes. -/
theorem outcomes_applyActions (actions : List PhysicalAction) (fault : Option WriteFault) :
    outcomes (applyActions actions fault).events = (applyActions actions fault).events := by
  induction actions generalizing fault with
  | nil => rfl
  | cons first rest ih =>
      cases first with
      | write chunk =>
          rcases fault with _ | ⟨_ | writes, bytes, error⟩
          · exact ih none
          · rfl
          · exact ih (some ⟨writes, bytes, error⟩)
      | completed jobId clientId => exact congrArg (.completed jobId clientId :: ·) (ih fault)
      | canceled jobId clientId => exact congrArg (.canceled jobId clientId :: ·) (ih fault)

/-- When nothing failed, every notification was sent. -/
theorem applyActions_sent {actions : List PhysicalAction} {fault : Option WriteFault}
    (ok : (applyActions actions fault).failure = none) :
    (applyActions actions fault).events = sentBy actions := by
  induction actions generalizing fault with
  | nil => rfl
  | cons first rest ih =>
      cases first with
      | write chunk =>
          rcases fault with _ | ⟨_ | writes, bytes, error⟩
          · exact ih ok
          · cases ok
          · exact ih ok
      | completed jobId clientId => exact congrArg (.completed jobId clientId :: ·) (ih ok)
      | canceled jobId clientId => exact congrArg (.canceled jobId clientId :: ·) (ih ok)

theorem applyActions_none (actions : List PhysicalAction) :
    (applyActions actions none).failure = none := by
  induction actions with
  | nil => rfl
  | cons first rest ih => cases first <;> exact ih

/-- A failure behind the last write is one of the flush, so every fault fails. -/
theorem applyActions_failure (actions : List PhysicalAction) (fault : Option WriteFault) :
    (applyActions actions fault).failure.isSome = fault.isSome := by
  induction actions generalizing fault with
  | nil => cases fault <;> rfl
  | cons first rest ih =>
      cases first with
      | write chunk =>
          rcases fault with _ | ⟨_ | writes, bytes, error⟩
          · exact ih none
          · rfl
          · exact ih (some ⟨writes, bytes, error⟩)
      | completed | canceled => exact ih fault

/-- The loss of a session sends the cancellations that the core returns. -/
theorem outcomes_failSession (a : Actor) (message : String) :
    outcomes (a.failSession message).2 = sentBy (a.core.physicalError message).2 := by
  show outcomes (applyActions (a.core.physicalError message).2 none).events = _
  rw [outcomes_applyActions, applyActions_sent (applyActions_none _)]

/-- Everything that is held is canceled then. -/
theorem settledBy_physicalError (core : BrokerCore) (message : String) :
    settledBy (core.physicalError message).2 = core.held := by
  show settledBy (_ ++ _) = _
  rw [settledBy_append, settledBy_cancellations]
  unfold BrokerCore.held BrokerCore.activeJobId
  cases core.active <;> rfl

/-! ## Decisions -/

namespace Actor

/-- The checks of an enqueue that come before the core is asked. -/
def admitsJob (a : Actor) (clientId : ClientId) (payload : TransmitPayload) (stream : Bool) : Bool :=
  !a.inMaintenance && !(payload.wireBytes.isEmpty || decide (payload.wireBytes.length > maxJobBytes)) &&
    !(decide (a.core.queue.length ≥ maxQueuedJobs) &&
      !(stream && a.core.activeClientId == some clientId)) &&
    !(a.core.active.isNone &&
      (a.core.snapshot.busy || a.core.snapshot.breakIn || a.core.snapshot.keyDown)) &&
    !(a.core.active.isNone && a.stationTxBusy)

/-- The calls of the core that a decision makes, in order. -/
def decisionOps (a : Actor) (now later : Nat) : Trigger → List BrokerOp
  | .request (.register clientId primary) => [.registerClient clientId primary]
  | .request (.unregister clientId) => [.unregisterClient clientId later]
  | .request (.setSpeed clientId speed) =>
      if a.maintenanceBars clientId then [] else [.setClientSpeed clientId speed]
  | .request (.enqueue clientId payload speed stream) =>
      if a.admitsJob clientId payload stream then
        [.enqueue clientId payload speed stream now later]
      else []
  | .request (.cancel clientId includeActive) => [.cancelClient clientId includeActive later]
  | .request (.cancelJob clientId jobId) => [.cancelJob clientId jobId later]
  | .request (.emergencyStop reason) => [.emergencyStop reason]
  | .request (.configure clientId command) =>
      if a.maintenanceBars clientId then [] else [.setClientCommand clientId command]
  | .request (.activeOwnerCommand clientId command) =>
      if a.inMaintenance then [] else [.activeOwnerCommand clientId command]
  | .request (.maintenanceCommand _ _) => []
  | .request (.releaseMaintenance _) => []
  | .request .shutdown => [.emergencyStop "WinKeyer broker shutdown"]
  | .byte byte =>
      if a.maintenanceReopenPending then
        if byte = 0xff then [] else [.connectPhysical byte, .restoreForeground]
      else if a.maintenanceOwner.isSome then []
      else
        match DeviceEvent.fromByte byte with
        | .speedPot _ value => [.observePot value]
        | .status status =>
            -- Paddle activity against somebody else's lease is noted first.
            (if (status.busy || status.breakIn || status.keyDown) && a.core.active.isNone &&
                a.stationTxBusy then [.recordSafetyAction conflictMessage] else []) ++
              [.observeStatus status later]
        | .echo _ => []
  | .tick => [.watchdog now, .confirmIdleAfterSettle now shortJobSettle later]

/-- Outside maintenance a device byte is observed. -/
theorem decisionOps_byte {a : Actor} (outside : a.inMaintenance = false) (now later : Nat)
    (byte : UInt8) :
    a.decisionOps now later (.byte byte) =
      match DeviceEvent.fromByte byte with
      | .speedPot _ value => [.observePot value]
      | .status status =>
          (if (status.busy || status.breakIn || status.keyDown) && a.core.active.isNone &&
              a.stationTxBusy then [.recordSafetyAction conflictMessage] else []) ++
            [.observeStatus status later]
      | .echo _ => [] := by
  obtain ⟨unowned, free⟩ := Bool.or_eq_false_iff.mp outside
  simp only [decisionOps, free, unowned, Bool.false_eq_true, if_false]

/-- Whether a maintenance command of `clientId` is accepted. -/
def admitsMaintenance (a : Actor) (clientId : ClientId) : Bool :=
  !(a.maintenanceOwner.any (· != clientId)) && a.core.active.isNone && a.core.queue.isEmpty &&
    a.core.connected

/-- What the actor writes in front of the chunks of the core. -/
def ownWrites (a : Actor) : Trigger → List (List UInt8)
  | .request (.unregister clientId) =>
      if a.maintenanceOwner = some clientId then [hostOpen] else []
  | .request (.maintenanceCommand clientId command) =>
      if a.admitsMaintenance clientId then
        (if a.maintenanceOwner.isNone then [maintenanceEntry] else []) ++ [command]
      else []
  | .request (.releaseMaintenance clientId) =>
      if a.maintenanceOwner = some clientId then [hostOpen] else []
  | .byte byte =>
      if a.maintenanceReopenPending && byte != 0xff then [safeInitialization] else []
  | _ => []

/-- What the actor writes behind them: the status poll of a busy keyer. -/
def pollWrites (a : Actor) (now later : Nat) : Trigger → List (List UInt8)
  | .tick =>
      if (a.core.afterCalls (a.decisionOps now later .tick)).snapshot.busy &&
          decide (now - a.lastStatusPoll ≥ statusPollInterval) then [[0x15]]
      else []
  | _ => []

/-- The maintenance owner and the pending reopen after a decision. -/
def maintenanceAfter (a : Actor) : Trigger → Option ClientId × Bool
  | .request (.unregister clientId) =>
      if a.maintenanceOwner = some clientId then (none, true)
      else (a.maintenanceOwner, a.maintenanceReopenPending)
  | .request (.emergencyStop _) => (none, false)
  | .request (.maintenanceCommand clientId _) =>
      if a.admitsMaintenance clientId then (some clientId, a.maintenanceReopenPending)
      else (a.maintenanceOwner, a.maintenanceReopenPending)
  | .request (.releaseMaintenance clientId) =>
      if a.maintenanceOwner = some clientId then (none, true)
      else (a.maintenanceOwner, a.maintenanceReopenPending)
  | .byte _ => (a.maintenanceOwner, false)
  | _ => (a.maintenanceOwner, a.maintenanceReopenPending)

theorem inMaintenance_congr {a b : Actor} (owner : b.maintenanceOwner = a.maintenanceOwner)
    (pending : b.maintenanceReopenPending = a.maintenanceReopenPending) :
    b.inMaintenance = a.inMaintenance := by
  unfold inMaintenance
  rw [owner, pending]

/-- All that a decision does to the actor: `mid` is the actor when `actions` are performed, and `o`
is what the decision itself shows. -/
structure Decides (a : Actor) (now later : Nat) (trigger : Trigger) (mid : Actor) (o : Observation)
    (actions : List PhysicalAction) : Prop where
  core : mid.core = a.core.afterCalls (a.decisionOps now later trigger)
  actions : actions = (a.ownWrites trigger).map .write ++
    a.core.returned (a.decisionOps now later trigger) ++
    (a.pollWrites now later trigger).map .write
  maintenance : (mid.maintenanceOwner, mid.maintenanceReopenPending) = a.maintenanceAfter trigger
  loop : mid.loop = a.loop
  clock : mid.clock = a.clock
  written : o.written = []
  outcomes : outcomes o.events = []
  accepted : o.accepted.toList =
    (a.core.callsOf (a.decisionOps now later trigger)).filterMap (·.output.accepted)

/-- The decision on a request. -/
def DecidesRequest (a : Actor) (now later : Nat) (request : Request) (h : Handled) : Prop :=
  a.Decides now later (.request request) h.actor { reply := h.reply } (h.actions.getD [])

/-- A decision that calls nothing and writes nothing. -/
theorem decides_aside {a mid : Actor} {now later : Nat} {trigger : Trigger} {o : Observation}
    (calls : a.decisionOps now later trigger = []) (own : a.ownWrites trigger = [])
    (poll : a.pollWrites now later trigger = []) (core : mid.core = a.core)
    (maintenance : (mid.maintenanceOwner, mid.maintenanceReopenPending) = a.maintenanceAfter trigger)
    (loop : mid.loop = a.loop) (clock : mid.clock = a.clock) (written : o.written = [])
    (outcomes : outcomes o.events = []) (accepted : o.accepted = none) :
    a.Decides now later trigger mid o [] := by
  refine ⟨?_, ?_, maintenance, loop, clock, written, outcomes, ?_⟩
  · rw [calls]
    exact core
  · rw [calls, own, poll]
    rfl
  · rw [calls, accepted]
    rfl

/-- A request that is one call of the core, with the actor's own writes in front. -/
theorem decides_called {a : Actor} {now later : Nat} {request : Request} {h : Handled} (op : BrokerOp)
    (calls : a.decisionOps now later (.request request) = [op])
    (core : h.actor.core = (op.apply a.core).1)
    (actions : h.actions.getD [] =
      (a.ownWrites (.request request)).map .write ++ (op.apply a.core).2.actions)
    (maintenance : (h.actor.maintenanceOwner, h.actor.maintenanceReopenPending) =
      a.maintenanceAfter (.request request))
    (loop : h.actor.loop = a.loop) (clock : h.actor.clock = a.clock)
    (accepted : h.reply.bind (·.job?) = (op.apply a.core).2.accepted) :
    a.DecidesRequest now later request h := by
  refine ⟨?_, ?_, maintenance, loop, clock, rfl, rfl, ?_⟩
  · rw [calls]
    exact core
  · rw [calls, actions]
    simp [pollWrites]
  · rw [calls]
    show (h.reply.bind (·.job?)).toList = _
    rw [accepted]
    cases taken : (op.apply a.core).2.accepted <;> simp [callsOf, taken]

/-- The station lease when the job is handed to the core. -/
def readyFor (a : Actor) (now : Nat) : Actor := if a.core.active.isNone then a.keyStation now else a

theorem readyFor_core (a : Actor) (now : Nat) : (a.readyFor now).core = a.core := by
  unfold readyFor
  split <;> rfl

/-- An enqueue is refused before the core is asked, or the core decides. -/
theorem handleEnqueue_eq (a : Actor) (clientId : ClientId) (payload : TransmitPayload)
    (speed : Option SpeedMode) (stream : Bool) (now later : Nat) :
    (a.admitsJob clientId payload stream = true ∧
      a.handleEnqueue clientId payload speed stream now later =
        (a.readyFor now).submitJob clientId payload speed stream now later) ∨
    (a.admitsJob clientId payload stream = false ∧
      ∃ error, a.handleEnqueue clientId payload speed stream now later = a.refuse error) := by
  have job : a.core.snapshot.activeJobId.isNone = a.core.active.isNone := by
    simp [snapshot, BrokerCore.activeJobId]
  have waiting : a.core.snapshot.queuedJobs = a.core.queue.length := rfl
  have client : a.core.snapshot.activeClientId = a.core.activeClientId := rfl
  -- The checks stand in the same order on both sides; each one refuses, or the next decides.
  unfold handleEnqueue
  simp only [job, waiting, client]
  split
  · rename_i barred
    exact Or.inr ⟨by simp [admitsJob, barred], _, rfl⟩
  split
  · rename_i barred
    exact Or.inr ⟨by unfold admitsJob; rw [barred]; simp, _, rfl⟩
  split
  · rename_i full
    exact Or.inr ⟨by unfold admitsJob; rw [full]; simp, _, rfl⟩
  split
  · rename_i busy
    exact Or.inr ⟨by unfold admitsJob; rw [busy]; simp, _, rfl⟩
  split
  · rename_i busy
    exact Or.inr ⟨by unfold admitsJob; rw [busy]; simp, _, rfl⟩
  · rename_i free size room idle leased
    rw [Bool.not_eq_true] at free size room idle leased
    refine Or.inl ⟨?_, rfl⟩
    unfold admitsJob
    rw [free, size, room, idle, leased]
    rfl

/-- Handing the job to the core is one call of it. -/
theorem decides_submit {a : Actor} {clientId : ClientId} {payload : TransmitPayload}
    {speed : Option SpeedMode} {stream : Bool} {now later : Nat}
    (admitted : a.admitsJob clientId payload stream = true) :
    a.DecidesRequest now later (.enqueue clientId payload speed stream)
      ((a.readyFor now).submitJob clientId payload speed stream now later) := by
  have calls : a.decisionOps now later (.request (.enqueue clientId payload speed stream)) =
      [.enqueue clientId payload speed stream now later] := if_pos admitted
  have kept : (a.readyFor now).maintenanceOwner = a.maintenanceOwner ∧
      (a.readyFor now).maintenanceReopenPending = a.maintenanceReopenPending ∧
      (a.readyFor now).loop = a.loop ∧ (a.readyFor now).clock = a.clock := by
    unfold readyFor
    split <;> exact ⟨rfl, rfl, rfl, rfl⟩
  obtain ⟨owner, pending, loop, clock⟩ := kept
  unfold submitJob
  rw [readyFor_core]
  cases accepted : a.core.enqueue clientId payload speed stream now later with
  | none =>
      refine decides_called _ calls ?_ ?_ (by rw [owner, pending]; rfl) loop clock ?_
      · simp only [BrokerOp.apply, accepted]
        exact readyFor_core a now
      · simp only [BrokerOp.apply, accepted]
        rfl
      · simp only [BrokerOp.apply, accepted]
        rfl
  | some taken =>
      obtain ⟨core', jobId, actions⟩ := taken
      refine decides_called _ calls ?_ ?_ ?_ loop clock ?_
      · simp only [BrokerOp.apply, accepted]
      · simp only [BrokerOp.apply, accepted]
        rfl
      · rw [owner, pending]
        rfl
      · simp only [BrokerOp.apply, accepted]
        rfl

/-- **The decision on every request.** -/
theorem decides_request (a : Actor) (now later : Nat) (request : Request) :
    a.DecidesRequest now later request (a.handleRequest now later request) := by
  cases request with
  | register clientId primary =>
      refine decides_called (.registerClient clientId primary) rfl rfl rfl rfl rfl rfl ?_
      simp only [handleRequest]
      split <;> rfl
  | unregister clientId =>
      simp only [handleRequest]
      split
      · rename_i owner
        exact decides_called (.unregisterClient clientId later) rfl rfl
          (by simp [ownWrites, owner, BrokerOp.apply]) (by simp [maintenanceAfter, owner]) rfl rfl rfl
      · rename_i other
        exact decides_called (.unregisterClient clientId later) rfl rfl
          (by simp [ownWrites, other, BrokerOp.apply]) (by simp [maintenanceAfter, other]) rfl rfl rfl
  | setSpeed clientId speed =>
      simp only [handleRequest]
      split
      · rename_i barred
        exact decides_aside (if_pos barred) rfl rfl rfl rfl rfl rfl rfl rfl rfl
      · rename_i free
        refine decides_called (.setClientSpeed clientId speed) (if_neg free) rfl rfl rfl rfl rfl ?_
        split <;> rfl
  | enqueue clientId payload speed stream =>
      show a.DecidesRequest now later _ (a.handleEnqueue clientId payload speed stream now later)
      rcases a.handleEnqueue_eq clientId payload speed stream now later with
        ⟨admitted, same⟩ | ⟨refused, error, same⟩
      · rw [same]
        exact decides_submit admitted
      · rw [same]
        exact decides_aside (if_neg (by simp [refused])) rfl rfl rfl rfl rfl rfl rfl rfl rfl
  | cancel clientId includeActive =>
      exact decides_called (.cancelClient clientId includeActive later) rfl rfl rfl rfl rfl rfl rfl
  | cancelJob clientId jobId =>
      exact decides_called (.cancelJob clientId jobId later) rfl rfl rfl rfl rfl rfl rfl
  | emergencyStop reason =>
      exact decides_called (.emergencyStop reason) rfl rfl rfl rfl rfl rfl rfl
  | configure clientId command =>
      simp only [handleRequest]
      split
      · rename_i barred
        exact decides_aside (if_pos barred) rfl rfl rfl rfl rfl rfl rfl rfl rfl
      · rename_i free
        have calls : a.decisionOps now later (.request (.configure clientId command)) =
            [.setClientCommand clientId command] := if_neg free
        cases set : a.core.setClientCommand clientId command with
        | none =>
            exact decides_called (.setClientCommand clientId command) calls
              (by simp only [BrokerOp.apply, set]) (by simp only [BrokerOp.apply, set]; rfl) rfl rfl rfl
              (by simp only [BrokerOp.apply, set]; rfl)
        | some stored =>
            obtain ⟨core', actions⟩ := stored
            exact decides_called (.setClientCommand clientId command) calls
              (by simp only [BrokerOp.apply, set]) (by simp only [BrokerOp.apply, set]; rfl) rfl rfl rfl
              (by simp only [BrokerOp.apply, set]; rfl)
  | activeOwnerCommand clientId command =>
      simp only [handleRequest]
      split
      · rename_i inside
        exact decides_aside (if_pos inside) rfl rfl rfl rfl rfl rfl rfl rfl rfl
      · rename_i free
        have calls : a.decisionOps now later (.request (.activeOwnerCommand clientId command)) =
            [.activeOwnerCommand clientId command] := if_neg free
        cases passed : a.core.activeOwnerCommand clientId command with
        | none =>
            exact decides_called (.activeOwnerCommand clientId command) calls rfl
              (by simp only [BrokerOp.apply, passed]; rfl) rfl rfl rfl rfl
        | some actions =>
            exact decides_called (.activeOwnerCommand clientId command) calls rfl
              (by simp only [BrokerOp.apply, passed]; rfl) rfl rfl rfl rfl
  | maintenanceCommand clientId command =>
      have admits : a.admitsMaintenance clientId =
          (!(a.maintenanceOwner.any (· != clientId) || a.core.active.isSome ||
            a.core.queue.length != 0) && a.core.connected) := by
        unfold admitsMaintenance
        cases a.core.active <;> cases a.core.queue <;> simp
      simp only [handleRequest]
      split
      · rename_i barred
        have refused : a.admitsMaintenance clientId = false := by rw [admits, barred]; rfl
        exact decides_aside rfl (by simp [ownWrites, refused]) rfl rfl
          (by simp [maintenanceAfter, refused]) rfl rfl rfl rfl rfl
      rename_i free
      split
      · rename_i off
        have refused : a.admitsMaintenance clientId = false := by
          have off : a.core.connected = false := by simpa using off
          rw [admits, off, Bool.and_false]
        exact decides_aside rfl (by simp [ownWrites, refused]) rfl rfl
          (by simp [maintenanceAfter, refused]) rfl rfl rfl rfl rfl
      · rename_i online
        have admitted : a.admitsMaintenance clientId = true := by
          rw [admits, Bool.eq_false_iff.mpr free]
          simpa using online
        refine ⟨rfl, ?_, by simp [maintenanceAfter, admitted], rfl, rfl, rfl, rfl, rfl⟩
        simp only [ownWrites, admitted, if_true, decisionOps, returned_nil, pollWrites]
        cases a.maintenanceOwner <;> rfl
  | releaseMaintenance clientId =>
      simp only [handleRequest]
      split
      · rename_i owner
        exact ⟨rfl, by simp [ownWrites, owner, decisionOps, pollWrites],
          by simp [maintenanceAfter, owner], rfl, rfl, rfl, rfl, rfl⟩
      · rename_i other
        exact decides_aside rfl (by simp [ownWrites, other]) rfl rfl
          (by simp [maintenanceAfter, other]) rfl rfl rfl rfl rfl
  | shutdown =>
      exact decides_called (.emergencyStop "WinKeyer broker shutdown") rfl rfl rfl rfl rfl rfl rfl

/-- Releasing the lease of an idle keyer changes nothing else. -/
theorem release_kept (a : Actor) :
    a.releaseStationTxIfIdle.core = a.core ∧
      a.releaseStationTxIfIdle.maintenanceOwner = a.maintenanceOwner ∧
      a.releaseStationTxIfIdle.maintenanceReopenPending = a.maintenanceReopenPending ∧
      a.releaseStationTxIfIdle.loop = a.loop ∧ a.releaseStationTxIfIdle.clock = a.clock := by
  unfold releaseStationTxIfIdle
  split <;> exact ⟨rfl, rfl, rfl, rfl, rfl⟩

/-- The keyer answers a maintenance Host Open with 0xFF. -/
def Misread (a : Actor) : Trigger → Prop
  | .byte byte => a.maintenanceReopenPending = true ∧ byte = 0xff
  | _ => False

theorem decides_observed (a : Actor) (byte : UInt8) (now later : Nat)
    (free : a.maintenanceReopenPending = false) (unowned : a.maintenanceOwner = none) :
    a.Decides now later (.byte byte) (a.observeByte byte now later).1
      { events := (a.observeByte byte now later).2.1 } (a.observeByte byte now later).2.2 := by
  unfold observeByte
  cases classified : DeviceEvent.fromByte byte with
  | speedPot raw value =>
      have calls : a.decisionOps now later (.byte byte) = [.observePot value] := by
        simp [decisionOps, free, unowned, classified]
      refine ⟨by rw [calls]; rfl, ?_, by simp [maintenanceAfter, free], rfl, rfl, rfl, rfl,
        by rw [calls]; rfl⟩
      rw [calls]
      simp [ownWrites, free, pollWrites, BrokerOp.apply]
  | echo raw =>
      have calls : a.decisionOps now later (.byte byte) = [] := by
        simp [decisionOps, free, unowned, classified]
      exact decides_aside calls (by simp [ownWrites, free]) rfl rfl (by simp [maintenanceAfter, free])
        rfl rfl rfl rfl rfl
  | status status =>
      have own : a.ownWrites (.byte byte) = [] := by simp [ownWrites, free]
      have flags : a.maintenanceAfter (.byte byte) =
          (a.maintenanceOwner, a.maintenanceReopenPending) := by
        simp [maintenanceAfter, free]
      cases active' : (status.busy || status.breakIn || status.keyDown) && a.core.active.isNone with
      | false =>
          have calls : a.decisionOps now later (.byte byte) = [.observeStatus status later] := by
            simp only [decisionOps, free, unowned, classified, active', Bool.false_and]
            rfl
          have claimed : a.claimForPaddle status now = (a, []) := by
            unfold claimForPaddle
            rw [active']
            rfl
          simp only [claimed]
          refine ⟨by rw [calls]; rfl, ?_, by rw [flags], rfl, rfl, rfl, rfl, by rw [calls]; rfl⟩
          rw [calls, own]
          simp [pollWrites, BrokerOp.apply]
      | true =>
          cases busy : a.stationTxBusy with
          | false =>
              have calls : a.decisionOps now later (.byte byte) = [.observeStatus status later] := by
                simp only [decisionOps, free, unowned, classified, busy, Bool.and_false]
                rfl
              have claimed : a.claimForPaddle status now = (a.keyStation now, []) := by
                unfold claimForPaddle
                rw [active', busy]
                rfl
              simp only [claimed]
              refine ⟨by rw [calls]; rfl, ?_, by rw [flags]; rfl, rfl, rfl, rfl, rfl, by rw [calls]; rfl⟩
              rw [calls, own]
              simp [pollWrites, BrokerOp.apply, keyStation]
          | true =>
              have calls : a.decisionOps now later (.byte byte) =
                  [.recordSafetyAction conflictMessage, .observeStatus status later] := by
                simp only [decisionOps, free, unowned, classified, active', busy]
                rfl
              have claimed : a.claimForPaddle status now =
                  ({ a with core := a.core.recordSafetyAction conflictMessage },
                    [.error conflictMessage]) := by
                unfold claimForPaddle
                rw [active', busy]
                rfl
              simp only [claimed]
              refine ⟨by rw [calls]; rfl, ?_, by rw [flags], rfl, rfl, rfl, rfl, by rw [calls]; rfl⟩
              rw [calls, own]
              simp [pollWrites, BrokerOp.apply]

theorem decides_tick (a : Actor) (now later : Nat) :
    a.Decides now later .tick (a.tickActions now later).1 {} (a.tickActions now later).2 := by
  let settling := (a.core.watchdog now).1.confirmIdleAfterSettle now shortJobSettle later
  have calls : a.decisionOps now later .tick =
      [.watchdog now, .confirmIdleAfterSettle now shortJobSettle later] := rfl
  have core : a.core.afterCalls (a.decisionOps now later .tick) = settling.1 := rfl
  have returned : a.core.returned (a.decisionOps now later .tick) =
      (a.core.watchdog now).2 ++ settling.2 := by
    simp [calls, BrokerOp.apply, settling]
  unfold tickActions
  simp only []
  split
  · rename_i polls
    refine ⟨core.symm, ?_, rfl, rfl, rfl, rfl, rfl, rfl⟩
    have poll : a.pollWrites now later .tick = [[0x15]] := by
      unfold pollWrites
      rw [core]
      exact if_pos polls
    rw [returned, poll]
    simp [ownWrites, settling]
  · rename_i silent
    refine ⟨core.symm, ?_, rfl, rfl, rfl, rfl, rfl, rfl⟩
    have poll : a.pollWrites now later .tick = [] := by
      unfold pollWrites
      rw [core]
      exact if_neg silent
    rw [returned, poll]
    simp [ownWrites, settling]

/-- **The decision of every turn.** -/
theorem decides_begin (a : Actor) (now later : Nat) {trigger : Trigger} (read : ¬ a.Misread trigger) :
    a.Decides now later trigger (a.begin now later trigger).1 (a.begin now later trigger).2.1
      (((a.begin now later trigger).2.2.map (·.actions)).getD []) := by
  cases trigger with
  | request request =>
      have decides := a.decides_request now later request
      unfold DecidesRequest at decides
      simp only [begin]
      generalize a.handleRequest now later request = h at decides ⊢
      split
      · rename_i early
        rw [early] at decides
        obtain ⟨core, actions, maintenance, loop, clock, written, outcomes, accepted⟩ := decides
        obtain ⟨core', owner', pending', loop', clock'⟩ := h.actor.release_kept
        refine ⟨core'.trans core, actions, ?_, loop'.trans loop, clock'.trans clock, written, outcomes,
          accepted⟩
        show (h.actor.releaseStationTxIfIdle.maintenanceOwner,
          h.actor.releaseStationTxIfIdle.maintenanceReopenPending) = _
        rw [owner', pending']
        exact maintenance
      · rename_i actions performed
        rw [performed] at decides
        exact decides
  | byte byte =>
      simp only [begin]
      cases pending : a.maintenanceReopenPending with
      | true =>
          have read : byte ≠ 0xff := fun misread => read ⟨pending, misread⟩
          have calls : a.decisionOps now later (.byte byte) =
              [.connectPhysical byte, .restoreForeground] := by
            simp [decisionOps, pending, read]
          have own : a.ownWrites (.byte byte) = [safeInitialization] := by
            simp [ownWrites, pending, read]
          simp only [if_true, if_neg read]
          refine ⟨by rw [calls]; rfl, ?_, rfl, rfl, rfl, rfl, rfl, by rw [calls]; rfl⟩
          rw [calls, own]
          simp [pollWrites, BrokerOp.apply]
      | false =>
          simp only [Bool.false_eq_true, if_false]
          cases owner : a.maintenanceOwner with
          | some clientId =>
              exact decides_aside (by simp [decisionOps, pending, owner])
                (by simp [ownWrites, pending]) rfl rfl (by simp [maintenanceAfter, owner, pending]) rfl
                rfl rfl rfl rfl
          | none => exact a.decides_observed byte now later pending owner
  | tick => exact a.decides_tick now later

end Actor

end CatHub.WinKeyer
