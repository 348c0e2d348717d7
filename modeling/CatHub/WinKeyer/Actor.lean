/-
# CatHub.WinKeyer.Actor — the task that owns the physical keyer.

The actor serves one event at a time: a request, a device byte, a tick, or the loss of the
transport.  A turn consists of a decision on the broker core and the station lease, of the actions
the core returned, performed in order, and of the bookkeeping at its end.  A write may fail at any
action; the session then ends and the actor waits for the transport to be reopened, while it keeps
serving requests into a sink.

`handleRequest` is the decision on a request, `actor` the machine of all runs.  Clock readings are
inputs: `now` and `later` are the readings of a turn, in milliseconds, and they never go back.  Other
tasks use the same lease, so their calls on it are inputs as well; the station owner id is reserved
to the actor and nobody else keys with it.  Not modelled are the delays of the reconnect loop and
what a lost transport still takes of the final Host Close.
-/
import CatHub.Ptt.Manager
import CatHub.WinKeyer.Broker

namespace CatHub.WinKeyer

open Systems Ptt

/-! ## Errors, events and requests -/

/-- Errors returned by the broker handle. -/
inductive BrokerError where
  | unavailable
  | unknownClient
  | primaryExists
  | notConnected
  | invalid (message : String)
  | transport (message : String)
  | transmitBusy
  | maintenanceBusy
  | queueFull
  deriving DecidableEq, Repr

def BrokerError.text : BrokerError → String
  | .unavailable => "WinKeyer broker is unavailable"
  | .unknownClient => "WinKeyer client is not registered"
  | .primaryExists => "a primary WinKeyer client is already registered"
  | .notConnected => "WinKeyer is not connected"
  | .invalid message => s!"invalid WinKeyer request: {message}"
  | .transport message => s!"WinKeyer transport: {message}"
  | .transmitBusy => "station transmit is owned by another client"
  | .maintenanceBusy =>
      "WinKeyer maintenance is owned by another client or transmit work is pending"
  | .queueFull => "WinKeyer transmit queue is full"

/-- Events emitted for virtual endpoints and diagnostics. -/
inductive BrokerEvent where
  | connected (firmwareRevision : UInt8)
  | speedPot (raw value wpm : UInt8)
  | status (raw : UInt8)
  | echo (byte : UInt8)
  | maintenanceByte (clientId : ClientId) (byte : UInt8)
  | completed (jobId : Nat) (clientId : ClientId)
  | canceled (jobId : Nat) (clientId : ClientId)
  | error (message : String)
  deriving DecidableEq, Repr

inductive Request where
  | register (clientId : ClientId) (primary : Bool)
  | unregister (clientId : ClientId)
  | setSpeed (clientId : ClientId) (speed : SpeedMode)
  | enqueue (clientId : ClientId) (payload : TransmitPayload) (speed : Option SpeedMode)
      (stream : Bool)
  | cancel (clientId : ClientId) (includeActive : Bool)
  | cancelJob (clientId : ClientId) (jobId : Nat)
  | emergencyStop (reason : String)
  | configure (clientId : ClientId) (command : List UInt8)
  | activeOwnerCommand (clientId : ClientId) (command : List UInt8)
  | maintenanceCommand (clientId : ClientId) (command : List UInt8)
  | releaseMaintenance (clientId : ClientId)
  | shutdown
  deriving DecidableEq, Repr

/-- What a request is answered with. -/
inductive Reply where
  | done
  | job (jobId : Nat)
  | canceled (found : Bool)
  | refused (error : BrokerError)
  deriving DecidableEq, Repr

/-! ## Constants -/

/-- The lease owner that stands for the keyer. -/
def stationTxOwner : Nat := u64Max

def shortJobSettle : Nat := 250
def statusPollInterval : Nat := 100

/-- Clear buffer, key up, speed from the pot, and a pot and a status request. -/
def safeInitialization : List UInt8 := [0x0a, 0x0b, 0x00, 0x02, 0x00, 0x07, 0x15]

def hostOpen : List UInt8 := [0x00, 0x02]

/-- Clear buffer, key up, Host Close. -/
def hostClose : List UInt8 := [0x0a, 0x0b, 0x00, 0x00, 0x03]

/-- Clear buffer and key up, then the first half of Host Close. -/
def maintenanceEntry : List UInt8 := [0x0a, 0x0b, 0x00, 0x03]

def conflictMessage : String :=
  "physical WinKeyer paddle/key activity conflicted with CAT PTT ownership"

/-! ## The actor's state -/

/-- Where the actor is: in a session, in the reconnect loop, or gone. -/
inductive Loop where
  | session
  | reconnecting
  | stopped
  deriving DecidableEq, Repr

structure Actor where
  core : BrokerCore
  ptt : Option PttManager
  maintenanceOwner : Option ClientId := none
  maintenanceReopenPending : Bool := false
  published : BrokerSnapshot
  loop : Loop := .session
  lastStatusPoll : Nat
  reconnect : Bool
  clock : Nat

/-- What a turn shows to the outside. -/
structure Observation where
  reply : Option Reply := none
  written : List (List UInt8) := []
  events : List BrokerEvent := []
  deriving DecidableEq, Repr

namespace Actor

/-- The actor after Host Open was answered with `firmwareRevision`. -/
def spawn (maxTx : Nat) (ptt : Option PttManager) (reconnect : Bool) (firmwareRevision : UInt8)
    (now : Nat) : Actor :=
  let core := (BrokerCore.new maxTx).connectPhysical firmwareRevision
  { core, ptt, published := core.snapshot, lastStatusPoll := now, reconnect, clock := now }

def publishSnapshot (a : Actor) : Actor := { a with published := a.core.snapshot }

def unkeyStation (a : Actor) : Actor := { a with ptt := a.ptt.map (·.unkey stationTxOwner) }

/-- The keyer shows no activity of its own. -/
def keyerIdle (core : BrokerCore) : Bool :=
  core.active.isNone && !core.snapshot.busy && !core.snapshot.breakIn && !core.snapshot.keyDown

def releaseStationTxIfIdle (a : Actor) : Actor :=
  if keyerIdle a.core then a.unkeyStation else a

/-- The station owns the lease. -/
def stationOwns (a : Actor) : Bool := a.ptt.any (fun m => m.owner == some stationTxOwner)

/-- Whether the station lease is refused; without a manager it never is. -/
def stationTxBusy (a : Actor) : Bool :=
  a.ptt.any (fun m => !decide (m.grants stationTxOwner))

/-- Maintenance owns the keyer, or has ended and the keyer is being reopened. -/
def inMaintenance (a : Actor) : Bool := a.maintenanceOwner.isSome || a.maintenanceReopenPending

/-- Take or refresh the station lease, if it is not refused. -/
def keyStation (a : Actor) (now : Nat) : Actor :=
  { a with ptt := a.ptt.map (fun m => (m.tryKey stationTxOwner true now).1) }

end Actor

/-! ## Requests -/

/-- The decision on a request.  Without `actions` the handler has returned early and nothing is
flushed. -/
structure Handled where
  actor : Actor
  reply : Option Reply := none
  actions : Option (List PhysicalAction) := some []
  stop : Bool := false

namespace Actor

/-- Refuse without touching the transport. -/
def refuse (a : Actor) (error : BrokerError) : Handled :=
  { actor := a, reply := some (.refused error), actions := none }

/-- Hand the job to the core. -/
def submitJob (a : Actor) (clientId : ClientId) (payload : TransmitPayload)
    (speed : Option SpeedMode) (stream : Bool) (now later : Nat) : Handled :=
  match a.core.enqueue clientId payload speed stream now later with
  | some (core, jobId, actions) =>
      { actor := { a with core }, reply := some (.job jobId), actions := some actions }
  | none =>
      { actor := a,
        reply := some (.refused (if a.core.connected then .unknownClient else .notConnected)) }

def handleEnqueue (a : Actor) (clientId : ClientId) (payload : TransmitPayload)
    (speed : Option SpeedMode) (stream : Bool) (now later : Nat) : Handled :=
  let snapshot := a.core.snapshot
  if a.inMaintenance then a.refuse .maintenanceBusy
  else if payload.wireBytes.isEmpty || payload.wireBytes.length > maxJobBytes then
    a.refuse (.invalid s!"job payload must contain 1 through {maxJobBytes} bytes")
  else if snapshot.queuedJobs ≥ maxQueuedJobs &&
      !(stream && snapshot.activeClientId == some clientId) then a.refuse .queueFull
  else if snapshot.activeJobId.isNone &&
      (snapshot.busy || snapshot.breakIn || snapshot.keyDown) then a.refuse .transmitBusy
  else if snapshot.activeJobId.isNone && a.stationTxBusy then a.refuse .transmitBusy
  else
    -- The lease is taken before the core has accepted the job.
    let keyed := if snapshot.activeJobId.isNone then a.keyStation now else a
    keyed.submitJob clientId payload speed stream now later

/-- Whether maintenance keeps `clientId` from changing its settings. -/
def maintenanceBars (a : Actor) (clientId : ClientId) : Bool :=
  a.maintenanceReopenPending || a.maintenanceOwner.any (· != clientId)

/-- The decision on a request. -/
def handleRequest (a : Actor) (now later : Nat) : Request → Handled
  | .register clientId primary =>
      let (core, registered) := a.core.registerClient clientId primary
      { actor := { a with core },
        reply := some (if registered then .done else .refused .primaryExists) }
  | .unregister clientId =>
      let (core, actions) := a.core.unregisterClient clientId later
      if a.maintenanceOwner = some clientId then
        -- Host Open comes in front of whatever the core still writes.
        { actor := { a with core, maintenanceOwner := none, maintenanceReopenPending := true },
          actions := some (.write hostOpen :: actions) }
      else { actor := { a with core }, actions := some actions }
  | .setSpeed clientId speed =>
      if a.maintenanceBars clientId then a.refuse .maintenanceBusy
      else
        let (core, actions) := a.core.setClientSpeed clientId speed
        { actor := { a with core },
          reply := some (if core.connected then .done else .refused .notConnected),
          actions := some actions }
  | .enqueue clientId payload speed stream => a.handleEnqueue clientId payload speed stream now later
  | .cancel clientId includeActive =>
      let (core, actions) := a.core.cancelClient clientId includeActive later
      { actor := { a with core }, reply := some .done, actions := some actions }
  | .cancelJob clientId jobId =>
      let (core, found, actions) := a.core.cancelJob clientId jobId later
      { actor := { a with core }, reply := some (.canceled found), actions := some actions }
  | .emergencyStop reason =>
      let (core, actions) := a.core.emergencyStop reason
      { actor := { a with core, maintenanceOwner := none, maintenanceReopenPending := false },
        reply := some .done, actions := some actions }
  | .configure clientId command =>
      if a.maintenanceBars clientId then
        { actor := a, reply := some (.refused .maintenanceBusy) }
      else
        match a.core.setClientCommand clientId command with
        | some (core, actions) =>
            { actor := { a with core }, reply := some .done, actions := some actions }
        | none => { actor := a, reply := some (.refused .unknownClient) }
  | .maintenanceCommand clientId command =>
      if a.maintenanceOwner.any (· != clientId) || a.core.active.isSome ||
          a.core.queue.length != 0 then
        { actor := a, reply := some (.refused .maintenanceBusy) }
      else if !a.core.connected then { actor := a, reply := some (.refused .notConnected) }
      else
        let entry := if a.maintenanceOwner.isNone then [.write maintenanceEntry] else []
        { actor := { a with maintenanceOwner := some clientId }, reply := some .done,
          actions := some (entry ++ [.write command]) }
  | .releaseMaintenance clientId =>
      if a.maintenanceOwner = some clientId then
        { actor := { a with maintenanceOwner := none, maintenanceReopenPending := true },
          actions := some [.write hostOpen] }
      else { actor := a }
  | .activeOwnerCommand clientId command =>
      if a.inMaintenance then
        { actor := a, reply := some (.refused .maintenanceBusy) }
      else
        -- No part of this request looks at the station lease.
        match a.core.activeOwnerCommand clientId command with
        | some actions => { actor := a, reply := some .done, actions := some actions }
        | none =>
            { actor := a,
              reply := some (.refused (.invalid "command requires active or primary ownership")) }
  | .shutdown =>
      let (core, actions) := a.core.emergencyStop "WinKeyer broker shutdown"
      { actor := { a with core }, reply := some .done, actions := some actions, stop := true }

end Actor

/-! ## Performing the actions -/

/-- A transport failure: how many writes succeed, how much of the failing one gets through, and
the error.  A failure behind the last write is one of the flush. -/
structure WriteFault where
  writes : Nat
  bytes : Nat
  error : String
  deriving DecidableEq, Repr

/-- What performing some actions did. -/
structure Performed where
  written : List (List UInt8) := []
  events : List BrokerEvent := []
  failure : Option String := none
  deriving DecidableEq, Repr

def applyActions : List PhysicalAction → Option WriteFault → Performed
  | [], fault => { failure := fault.map (·.error) }
  | .write chunk :: rest, none =>
      let p := applyActions rest none
      { p with written := chunk :: p.written }
  | .write chunk :: _, some ⟨0, bytes, error⟩ =>
      { written := [chunk.take bytes], failure := some error }
  | .write chunk :: rest, some ⟨writes + 1, bytes, error⟩ =>
      let p := applyActions rest (some ⟨writes, bytes, error⟩)
      { p with written := chunk :: p.written }
  | .completed jobId clientId :: rest, fault =>
      let p := applyActions rest fault
      { p with events := .completed jobId clientId :: p.events }
  | .canceled jobId clientId :: rest, fault =>
      let p := applyActions rest fault
      { p with events := .canceled jobId clientId :: p.events }

namespace Actor

/-- The end of a session: the core drops its work, the lease is released, and only notifications
are sent. -/
def failSession (a : Actor) (message : String) : Actor × List BrokerEvent :=
  let (core, actions) := a.core.physicalError message
  let failed := { a with
    core, maintenanceOwner := none, maintenanceReopenPending := false, loop := .reconnecting }
  (failed.unkeyStation.publishSnapshot, .error message :: (applyActions actions none).events)

/-- The orderly end of the actor. -/
def leave (a : Actor) : Actor := { a.unkeyStation with loop := .stopped }

/-- The end of a turn that performed `p`: the session goes on with `next`, or fails. -/
def finishTurn (a next : Actor) (p : Performed) (message : String → String) :
    Actor × List BrokerEvent :=
  match p.failure with
  | none => (next, [])
  | some error => a.failSession (message error)

/-! ## The turns of a session -/

def requestWriteFailed (error : String) : String :=
  s!"request write failed: {(BrokerError.transport error).text}"

def requestTurn (a : Actor) (request : Request) (now later : Nat) (fault : Option WriteFault) :
    Actor × Observation :=
  let h := a.handleRequest now later request
  match h.actions with
  | none =>
      (h.actor.releaseStationTxIfIdle.publishSnapshot, { reply := h.reply })
  | some actions =>
      let p := applyActions actions fault
      if h.stop then
        (h.actor.publishSnapshot.leave,
          { reply := h.reply, written := p.written ++ [hostClose], events := p.events })
      else
        let (next, more) := h.actor.finishTurn h.actor.releaseStationTxIfIdle.publishSnapshot p
          requestWriteFailed
        (next, { reply := h.reply, written := p.written, events := p.events ++ more })

/-- The firmware byte after a maintenance Host Open. -/
def reopenTurn (a : Actor) (byte : UInt8) (fault : Option WriteFault) : Actor × Observation :=
  let opened := { a with maintenanceReopenPending := false }
  if byte = 0xff then
    let (next, events) := opened.failSession "maintenance Host Open returned 0xFF"
    (next, { events })
  else
    let (core, actions) := (a.core.connectPhysical byte).restoreForeground
    let restored := { opened with core }
    let p := applyActions (.write safeInitialization :: actions) fault
    -- This turn publishes and leaves the lease as it is.
    let (next, more) := restored.finishTurn restored.publishSnapshot p
      (fun _ => "maintenance restore write failed")
    let connected := if p.failure.isNone then [BrokerEvent.connected byte] else []
    (next, { written := p.written, events := p.events ++ connected ++ more })

/-- Physical activity without an active job takes the station lease, or is recorded as a
conflict. -/
def claimForPaddle (a : Actor) (status : DeviceStatus) (now : Nat) : Actor × List BrokerEvent :=
  if (status.busy || status.breakIn || status.keyDown) && a.core.active.isNone then
    if a.stationTxBusy then
      ({ a with core := a.core.recordSafetyAction conflictMessage }, [.error conflictMessage])
    else (a.keyStation now, [])
  else (a, [])

/-- The decision on a device byte of normal operation. -/
def observeByte (a : Actor) (byte : UInt8) (now later : Nat) :
    Actor × List BrokerEvent × List PhysicalAction :=
  match DeviceEvent.fromByte byte with
  | .speedPot raw value =>
      let core := a.core.observePot value
      ({ a with core }, [.speedPot raw value (core.potWpm.getD value)], [])
  | .status status =>
      let (claimed, events) := a.claimForPaddle status now
      let (core, actions) := claimed.core.observeStatus status later
      ({ claimed with core }, .status status.raw :: events, actions)
  | .echo byte => (a, [.echo byte], [])

def byteTurn (a : Actor) (byte : UInt8) (now later : Nat) (fault : Option WriteFault) :
    Actor × Observation :=
  if a.maintenanceReopenPending then a.reopenTurn byte fault
  else
    match a.maintenanceOwner with
    -- Maintenance reads the device directly: nothing is observed or published.
    | some clientId => (a, { events := [.maintenanceByte clientId byte] })
    | none =>
        let (observed, events, actions) := a.observeByte byte now later
        let p := applyActions actions fault
        let (next, more) := observed.finishTurn observed.publishSnapshot.releaseStationTxIfIdle p
          (fun _ => "write failed")
        (next, { written := p.written, events := events ++ p.events ++ more })

/-- The decision on a tick: the watchdog, the settled job, and the status poll of a busy keyer. -/
def tickActions (a : Actor) (now later : Nat) : Actor × List PhysicalAction :=
  let (watched, stop) := a.core.watchdog now
  let (core, settled) := watched.confirmIdleAfterSettle now shortJobSettle later
  if core.snapshot.busy && now - a.lastStatusPoll ≥ statusPollInterval then
    ({ a with core, lastStatusPoll := now }, stop ++ settled ++ [.write [0x15]])
  else ({ a with core }, stop ++ settled)

def tickTurn (a : Actor) (now later : Nat) (fault : Option WriteFault) : Actor × Observation :=
  let (ticked, actions) := a.tickActions now later
  let p := applyActions actions fault
  let (next, more) := ticked.finishTurn ticked.publishSnapshot.releaseStationTxIfIdle p
    (fun _ => "write failed")
  (next, { written := p.written, events := p.events ++ more })

/-! ## The reconnect loop -/

/-- A request in the reconnect loop; its writes go to a sink. -/
def sinkTurn (a : Actor) (request : Request) (now later : Nat) : Actor × Observation :=
  let h := a.handleRequest now later request
  let events := (h.actions.map (fun actions => (applyActions actions none).events)).getD []
  if h.stop then (h.actor.leave, { reply := h.reply, events })
  -- Unlike a session, the loop does not release the lease of an idle keyer.
  else (h.actor.publishSnapshot, { reply := h.reply, events })

/-- Another attempt failed; the cancellations the core returns are dropped. -/
def stayDisconnected (a : Actor) (message : String) : Actor × List BrokerEvent :=
  ({ a with core := (a.core.physicalError message).1 }.publishSnapshot, [.error message])

end Actor

/-- How far an initialization had got when it failed: so many bytes into Host Open, or, once that was
answered, into the commands that make the keyer safe. -/
inductive InitializationStage where
  | hostOpen (bytes : Nat)
  | safeInitialization (bytes : Nat)
  deriving DecidableEq, Repr

/-- The outcome of one attempt to reopen the transport. -/
inductive Reopening where
  | openFailed (error : String)
  | initializationFailed (stage : InitializationStage) (error : BrokerError)
  | opened (firmwareRevision : UInt8) (fault : Option WriteFault)
  deriving DecidableEq, Repr

/-- What the initialization of an opened transport writes to it. -/
def Reopening.initialization : Reopening → List (List UInt8)
  | .openFailed _ => []
  | .initializationFailed (.hostOpen bytes) _ => [WinKeyer.hostOpen.take bytes]
  | .initializationFailed (.safeInitialization bytes) _ =>
      [WinKeyer.hostOpen, WinKeyer.safeInitialization.take bytes]
  | .opened _ _ => [WinKeyer.hostOpen, WinKeyer.safeInitialization]

namespace Actor

def reopenTransport (a : Actor) (now : Nat) : Reopening → Actor × Observation
  | .openFailed error =>
      let (next, events) := a.stayDisconnected s!"reconnect open failed: {error}"
      (next, { events })
  | .initializationFailed stage error =>
      let (next, events) := a.stayDisconnected s!"reconnect initialization failed: {error.text}"
      (next, { written := (Reopening.initializationFailed stage error).initialization, events })
  | .opened firmwareRevision fault =>
      let (core, actions) := (a.core.connectPhysical firmwareRevision).restoreForeground
      let p := applyActions actions fault
      let written := hostOpen :: safeInitialization :: p.written
      match p.failure with
      | some error =>
          let (next, events) := { a with core }.stayDisconnected
            s!"reconnect restore failed: {(BrokerError.transport error).text}"
          (next, { written, events := p.events ++ events })
      | none =>
          ({ a with core, loop := .session, lastStatusPoll := now }.publishSnapshot,
            { written, events := p.events ++ [.connected firmwareRevision] })

end Actor

/-! ## The machine -/

inductive ActorInput where
  | request (request : Request) (now later : Nat) (fault : Option WriteFault)
  | requestsClosed
  | byte (byte : UInt8) (now later : Nat) (fault : Option WriteFault)
  | readError (error : String)
  | tick (now later : Nat) (fault : Option WriteFault)
  | reopen (now : Nat) (outcome : Reopening)
  /-- Another task's call on the lease. -/
  | station (call : TimedCall)
  deriving DecidableEq, Repr

/-- Nobody but the actor keys with the station owner id. -/
def foreignCall (call : TimedCall) : Bool :=
  match call.call with
  | .tryKey sessionId _ => sessionId != stationTxOwner
  | .unkey _ => true

def actor : Machine Actor ActorInput Observation where
  step a
  | .request request now later fault =>
      if a.clock ≤ now ∧ now ≤ later then
        match a.loop with
        | .session => some ({ a with clock := later }.requestTurn request now later fault)
        | .reconnecting => some ({ a with clock := later }.sinkTurn request now later)
        | .stopped => none
      else none
  | .requestsClosed =>
      match a.loop with
      | .session => some (a.leave, { written := [hostClose] })
      | .reconnecting => some (a.leave, {})
      | .stopped => none
  | .byte byte now later fault =>
      if a.loop = .session ∧ a.clock ≤ now ∧ now ≤ later then
        some ({ a with clock := later }.byteTurn byte now later fault)
      else none
  | .readError error =>
      if a.loop = .session then
        let (next, events) := a.failSession s!"read failed: {error}"
        some (next, { events })
      else none
  | .tick now later fault =>
      if a.loop = .session ∧ a.clock ≤ now ∧ now ≤ later then
        some ({ a with clock := later }.tickTurn now later fault)
      else none
  | .reopen now outcome =>
      if a.loop = .reconnecting ∧ a.reconnect ∧ a.clock ≤ now then
        some ({ a with clock := now }.reopenTransport now outcome)
      else none
  | .station call =>
      if foreignCall call ∧ a.clock ≤ call.time then
        some ({ a with ptt := a.ptt.map (·.apply call), clock := call.time }, {})
      else none

/-- One recorded step of the actor. -/
abbrev ActorStep := Transition Actor ActorInput Observation

end CatHub.WinKeyer
