/-
# CatHub.WinKeyer.Broker — the pure multi-client scheduling state of one physical keyer.

`BrokerCore` arbitrates one WinKeyer between many clients: a table of clients with their speed and
transient profile, a FIFO of queued jobs and at most one active job.  Every operation returns the
`PhysicalAction`s the actor then performs in order; nothing here does I/O.

Clock readings are arguments.  An operation that may start a job takes `clock`, the reading that
becomes the job's `startedAt`.  Clock readings, durations and job ids are natural numbers; the one
saturating 64-bit counter saturates explicitly.  The client table and the profiles iterate in key
order, as ordered maps do.
-/
import CatHub.Systems.Execution
import CatHub.WinKeyer.Protocol
import Mathlib.Algebra.Group.Nat.Defs
import Std.Data.TreeMap

namespace CatHub.WinKeyer

/-! ## Vocabulary -/

/-- Stable identity of one virtual endpoint or typed connection. -/
abbrev ClientId := Nat

/-- The largest 64-bit value. -/
def u64Max : Nat := 2 ^ 64 - 1

/-- Payload ceiling below the capacity of the keyer's input FIFO. -/
def maxJobBytes : Nat := 120
def maxQueuedJobs : Nat := 64

/-- Speed source desired by a client or one job. -/
inductive SpeedMode where
  | pot
  | fixed (wpm : UInt8)
  deriving DecidableEq, Repr

def SpeedMode.command : SpeedMode → List UInt8
  | .pot => [0x02, 0]
  | .fixed wpm => [0x02, wpm]

/-- One side effect the actor must perform, in order. -/
inductive PhysicalAction where
  | write (bytes : List UInt8)
  | completed (jobId : Nat) (clientId : ClientId)
  | canceled (jobId : Nat) (clientId : ClientId)
  deriving DecidableEq, Repr

/-- Wire bytes and the operator text they carry; only the wire bytes are written. -/
structure TransmitPayload where
  wireBytes : List UInt8
  intendedText : List UInt8
  deriving DecidableEq, Repr

def TransmitPayload.plainText (text : List UInt8) : TransmitPayload := ⟨text, text⟩

def TransmitPayload.legacyStream (controlPrefix text : List UInt8) : TransmitPayload :=
  ⟨controlPrefix ++ text, text⟩

def TransmitPayload.append (self other : TransmitPayload) : TransmitPayload :=
  ⟨self.wireBytes ++ other.wireBytes, self.intendedText ++ other.intendedText⟩

/-- One queued unit of transmission. -/
structure Job where
  id : Nat
  clientId : ClientId
  payload : TransmitPayload
  speed : SpeedMode
  queuedAt : Nat
  stream : Bool
  deriving DecidableEq, Repr

def Job.grow (job : Job) (payload : TransmitPayload) : Job :=
  { job with payload := job.payload.append payload }

/-- Whether a stream chunk of `clientId` may join this job. -/
def Job.isStreamOf (job : Job) (clientId : ClientId) : Bool := job.clientId == clientId && job.stream

structure ActiveJob where
  job : Job
  sawBusy : Bool
  observedStatus : Bool
  startedAt : Nat
  deriving DecidableEq, Repr

/-- The transient commands of a client, one for each profile key, in key order. -/
abbrev Profile := Std.TreeMap Nat (List UInt8)

structure ClientState where
  desiredSpeed : SpeedMode
  primary : Bool
  profile : Profile

/-- Snapshot exposed to status and event surfaces. -/
structure BrokerSnapshot where
  firmwareRevision : Option UInt8
  connected : Bool
  busy : Bool
  breakIn : Bool
  keyDown : Bool
  potValue : Option UInt8
  potWpm : Option UInt8
  activeClientId : Option ClientId
  activeJobId : Option Nat
  queuedJobs : Nat
  lastError : Option String
  lastSafetyAction : Option String
  deriving DecidableEq, Repr

/-- The scheduler of a single physical keyer. -/
structure BrokerCore where
  clients : Std.TreeMap ClientId ClientState
  appliedProfileClientId : Option ClientId
  queue : List Job
  active : Option ActiveJob
  nextJobId : Nat
  firmwareRevision : Option UInt8
  connected : Bool
  status : DeviceStatus
  potValue : Option UInt8
  potWpm : Option UInt8
  physicalPotMinWpm : UInt8
  lastError : Option String
  lastSafetyAction : Option String
  maxTx : Nat

/-! ## Speed-pot arithmetic -/

/-- Saturating addition of bytes. -/
def saturatingAdd (a b : UInt8) : UInt8 :=
  if a.toNat + b.toNat ≤ 255 then a + b else 255

/-- The minimum a Speed Pot Setup command sets. -/
def speedPotMinimum (command : List UInt8) : Option UInt8 :=
  if command.head? = some 0x05 then command[1]? else none

def profilePotMinimum (profile : Profile) : Option UInt8 := profile[5]?.bind speedPotMinimum

namespace BrokerCore

def refreshPotWpm (core : BrokerCore) : BrokerCore :=
  { core with potWpm := core.potValue.map (saturatingAdd core.physicalPotMinWpm) }

/-! ## Starting work -/

/-- The stored commands of a profile as writes, in key order. -/
def replay (profile : Profile) : List PhysicalAction := profile.toList.map (fun e => .write e.2)

/-- The registered primary client, the first in the table's order. -/
def foreground (core : BrokerCore) : Option (ClientId × ClientState) :=
  core.clients.toList.find? (fun e => e.2.primary)

def restoreForegroundSpeed (core : BrokerCore) : BrokerCore × List PhysicalAction :=
  let foreground := core.foreground
  let profileChanged := foreground.any (fun e => some e.1 != core.appliedProfileClientId)
  let actions := if profileChanged then foreground.toList.flatMap (fun e => replay e.2.profile) else []
  let applied := if profileChanged then foreground.map Prod.fst else core.appliedProfileClientId
  let speed := foreground.elim SpeedMode.pot (fun e => e.2.desiredSpeed)
  -- 5 is the minimum of a keyer without a Speed Pot Setup command.
  let minimum := (foreground.bind (fun e => profilePotMinimum e.2.profile)).getD 5
  ({ core with appliedProfileClientId := applied, physicalPotMinWpm := minimum }.refreshPotWpm,
    actions ++ [.write speed.command])

/-- The effect on the core of taking over a client's profile before its job. -/
def applyProfileOf (core : BrokerCore) (clientId : ClientId) : BrokerCore :=
  let core := match core.clients[clientId]?.bind (fun client => profilePotMinimum client.profile) with
    | some minimum => { core with physicalPotMinWpm := minimum }.refreshPotWpm
    | none => core
  { core with appliedProfileClientId := some clientId }

/-- The profile commands written in front of a job of `clientId`. -/
def profileReplay (core : BrokerCore) (clientId : ClientId) : List PhysicalAction :=
  if core.appliedProfileClientId ≠ some clientId then
    core.clients[clientId]?.elim [] (fun client => replay client.profile)
  else []

/-- The unbuffered speed command in front of a job.  A stream that opens with Buffered Speed
(`0x1c`) carries its own speed and gets none. -/
def speedPrefix (job : Job) : List PhysicalAction :=
  if job.payload.wireBytes.head? ≠ some 0x1c then [.write job.speed.command] else []

def startNextOrRestore (core : BrokerCore) (clock : Nat) : BrokerCore × List PhysicalAction :=
  match core.queue with
  | job :: rest =>
      let popped := { core with queue := rest }
      let applied :=
        if core.appliedProfileClientId ≠ some job.clientId then popped.applyProfileOf job.clientId
        else popped
      ({ applied with
          active := some { job, sawBusy := false, observedStatus := false, startedAt := clock } },
        core.profileReplay job.clientId ++ speedPrefix job ++
          [.write job.payload.wireBytes, .write [0x15]])
  | [] => core.restoreForegroundSpeed

def completeActive (core : BrokerCore) (clock : Nat) : BrokerCore × List PhysicalAction :=
  match core.active with
  | none => (core, [])
  | some active =>
      let (core, actions) := { core with active := none }.startNextOrRestore clock
      (core, .completed active.job.id active.job.clientId :: actions)

/-! ## Operations -/

def new (maxTx : Nat) : BrokerCore where
  clients := ∅
  appliedProfileClientId := none
  queue := []
  active := none
  nextJobId := 1
  firmwareRevision := none
  connected := false
  status := { raw := 0xc0, waiting := false, keyDown := false, busy := false, breakIn := false,
              xoff := false }
  potValue := none
  potWpm := none
  physicalPotMinWpm := 5
  lastError := none
  lastSafetyAction := none
  maxTx := maxTx

def connectPhysical (core : BrokerCore) (firmwareRevision : UInt8) : BrokerCore :=
  { core with firmwareRevision := some firmwareRevision, connected := true,
              appliedProfileClientId := none, lastError := none }

/-- The notification for a job taken out of the queue or the active slot. -/
def cancellation (job : Job) : PhysicalAction := .canceled job.id job.clientId

def physicalError (core : BrokerCore) (error : String) : BrokerCore × List PhysicalAction :=
  ({ core with connected := false, firmwareRevision := none, appliedProfileClientId := none,
               lastError := some error, active := none, queue := [] },
    (core.active.toList.map (fun active => cancellation active.job)) ++ core.queue.map cancellation)

def registerClient (core : BrokerCore) (clientId : ClientId) (primary : Bool) :
    BrokerCore × Bool :=
  if primary && core.clients.toList.any (fun e => e.2.primary) then (core, false)
  else
    ({ core with clients := core.clients.insert clientId
                    { desiredSpeed := .pot, primary, profile := ∅ } }, true)

/-- The jobs of one client, and the others. -/
def jobsOf (queue : List Job) (clientId : ClientId) : List Job :=
  queue.filter (fun job => job.clientId == clientId)

def jobsNotOf (queue : List Job) (clientId : ClientId) : List Job :=
  queue.filter (fun job => !(job.clientId == clientId))

def activeClientId (core : BrokerCore) : Option ClientId := core.active.map (·.job.clientId)

def activeJobId (core : BrokerCore) : Option Nat := core.active.map (·.job.id)

def isPrimary (core : BrokerCore) (clientId : ClientId) : Bool :=
  core.clients[clientId]?.any (fun client => client.primary)

def unregisterClient (core : BrokerCore) (clientId : ClientId) (clock : Nat) :
    BrokerCore × List PhysicalAction :=
  let dropped := { core with
    clients := core.clients.erase clientId
    appliedProfileClientId :=
      if core.appliedProfileClientId = some clientId then none else core.appliedProfileClientId
    queue := jobsNotOf core.queue clientId }
  let actions := (jobsOf core.queue clientId).map cancellation
  match core.active with
  | some active =>
      if active.job.clientId = clientId then
        let cleared := { dropped with
          active := none
          lastSafetyAction := some
            s!"cleared WinKeyer buffer after active client {clientId} disconnected" }
        -- Clear Buffer alone; the key is not released here.
        let (core, started) := cleared.startNextOrRestore clock
        (core, actions ++ [.write [0x0a], cancellation active.job] ++ started)
      else (dropped, actions)
  | none => (dropped, actions)

def setClientSpeed (core : BrokerCore) (clientId : ClientId) (speed : SpeedMode) :
    BrokerCore × List PhysicalAction :=
  match core.clients[clientId]? with
  | none => (core, [])
  | some client =>
      ({ core with clients := core.clients.insert clientId { client with desiredSpeed := speed } },
        if core.active.isNone && client.primary then [.write speed.command] else [])

/-- The profile key of a command: its opcode, or `0x100` with the subcommand for Admin. -/
def profileKey : List UInt8 → Option Nat
  | [] => none
  | [0x00] => none
  | 0x00 :: sub :: _ => some (0x100 ||| sub.toNat)
  | opcode :: _ => some opcode.toNat

def setClientCommand (core : BrokerCore) (clientId : ClientId) (command : List UInt8) :
    Option (BrokerCore × List PhysicalAction) :=
  match profileKey command with
  | none => none
  | some key =>
    match core.clients[clientId]? with
    | none => none
    | some client =>
      let stored := { core with
        clients := core.clients.insert clientId
          { client with profile := client.profile.insert key command } }
      if core.active.isNone && client.primary then
        let refreshed := match speedPotMinimum command with
          | some minimum => { stored with physicalPotMinWpm := minimum }.refreshPotWpm
          | none => stored
        some ({ refreshed with appliedProfileClientId := some clientId }, [.write command])
      else if core.appliedProfileClientId = some clientId then
        -- The profile changed in mid-stream: force a replay at the next ownership boundary.
        some ({ stored with appliedProfileClientId := none }, [])
      else some (stored, [])

def activeOwnerCommand (core : BrokerCore) (clientId : ClientId) (command : List UInt8) :
    Option (List PhysicalAction) :=
  let allowed := match core.active with
    | none => core.isPrimary clientId
    | some active => active.job.clientId == clientId
  if allowed then some [.write command] else none

/-- The active job, if a stream chunk of `clientId` may join it. -/
def activeStream? (core : BrokerCore) (clientId : ClientId) : Option ActiveJob :=
  core.active.filter (fun active => active.job.isStreamOf clientId)

/-- The job at the queue's tail, if a stream chunk of `clientId` may join it. -/
def tailStream? (core : BrokerCore) (clientId : ClientId) : Option Job :=
  core.queue.getLast?.filter (fun job => job.isStreamOf clientId)

/-- Append a chunk to the active job and write it at once. -/
def growActive (core : BrokerCore) (active : ActiveJob) (payload : TransmitPayload) :
    Option (BrokerCore × Nat × List PhysicalAction) :=
  if active.job.payload.wireBytes.length + payload.wireBytes.length > maxJobBytes then none
  else
    some ({ core with active := some { active with job := active.job.grow payload } },
      active.job.id, [.write payload.wireBytes])

/-- Append a chunk to the job at the queue's tail. -/
def growTail (core : BrokerCore) (queued : Job) (payload : TransmitPayload) :
    Option (BrokerCore × Nat × List PhysicalAction) :=
  if queued.payload.wireBytes.length + payload.wireBytes.length > maxJobBytes then none
  else some ({ core with queue := core.queue.dropLast ++ [queued.grow payload] }, queued.id, [])

/-- Open a new job behind the queue, and start it when nothing is active. -/
def openJob (core : BrokerCore) (clientId : ClientId) (payload : TransmitPayload)
    (speed : SpeedMode) (stream : Bool) (now clock : Nat) :
    Option (BrokerCore × Nat × List PhysicalAction) :=
  if core.queue.length ≥ maxQueuedJobs then none
  else
    let job : Job := { id := core.nextJobId, clientId, payload, speed, queuedAt := now, stream }
    -- The counter saturates, so only its largest value is ever handed out twice.
    let queued := { core with nextJobId := min (core.nextJobId + 1) u64Max
                              queue := core.queue ++ [job] }
    if core.active.isNone then
      let (started, actions) := queued.startNextOrRestore clock
      some (started, job.id, actions)
    else some (queued, job.id, [])

def enqueue (core : BrokerCore) (clientId : ClientId) (payload : TransmitPayload)
    (speed : Option SpeedMode) (stream : Bool) (now clock : Nat) :
    Option (BrokerCore × Nat × List PhysicalAction) :=
  if payload.wireBytes.isEmpty || decide (payload.wireBytes.length > maxJobBytes) ||
      !core.connected then none
  else
    match core.clients[clientId]? with
    | none => none
    | some client =>
      -- The active stream comes first, even when chunks of the client wait in the queue.
      match if stream then core.activeStream? clientId else none with
      | some active => core.growActive active payload
      | none =>
        match if stream then core.tailStream? clientId else none with
        | some queued => core.growTail queued payload
        | none => core.openJob clientId payload (speed.getD client.desiredSpeed) stream now clock

def cancelClient (core : BrokerCore) (clientId : ClientId) (includeActive : Bool)
    (clock : Nat) : BrokerCore × List PhysicalAction :=
  let dropped := { core with queue := jobsNotOf core.queue clientId }
  let actions := (jobsOf core.queue clientId).map cancellation
  match core.active with
  | some active =>
      if includeActive && active.job.clientId == clientId then
        let (core, started) := { dropped with active := none }.startNextOrRestore clock
        (core, .write [0x0a] :: actions ++ [cancellation active.job] ++ started)
      else (dropped, actions)
  | none =>
      -- An idle primary may clear stale bytes left in the physical FIFO.
      if includeActive && core.isPrimary clientId then (dropped, .write [0x0a] :: actions)
      else (dropped, actions)

def cancelJob (core : BrokerCore) (clientId : ClientId) (jobId : Nat) (clock : Nat) :
    BrokerCore × Bool × List PhysicalAction :=
  match core.active.filter (fun active => active.job.clientId == clientId && active.job.id == jobId)
  with
  | some active =>
      let (core, started) := { core with active := none }.startNextOrRestore clock
      (core, true, [.write [0x0a], cancellation active.job] ++ started)
  | none =>
      let matching := core.queue.filter (fun job => job.clientId == clientId && job.id == jobId)
      let kept := core.queue.filter (fun job => !(job.clientId == clientId && job.id == jobId))
      ({ core with queue := kept }, !matching.isEmpty, matching.map cancellation)

def emergencyStop (core : BrokerCore) (reason : String) : BrokerCore × List PhysicalAction :=
  let (restored, actions) := { core with
    active := none, queue := [], lastSafetyAction := some reason }.restoreForegroundSpeed
  (restored, .write [0x0a, 0x0b, 0x00] ::
    (core.active.toList.map (fun active => cancellation active.job) ++
      core.queue.map cancellation) ++ actions)

def recordSafetyAction (core : BrokerCore) (action : String) : BrokerCore :=
  { core with lastSafetyAction := some action }

def observeStatus (core : BrokerCore) (status : DeviceStatus) (clock : Nat) :
    BrokerCore × List PhysicalAction :=
  match core.active with
  | none => ({ core with status }, [])
  | some active =>
      let observed := { active with observedStatus := true }
      if status.busy || status.waiting || status.keyDown then
        ({ core with status, active := some { observed with sawBusy := true } }, [])
      -- An idle status counts as the end only after a busy one.
      else if active.sawBusy then { core with status, active := some observed }.completeActive clock
      else ({ core with status, active := some observed }, [])

/-- Confirm an idle boundary when a short job ended before a busy status could be observed. -/
def confirmIdleAfterSettle (core : BrokerCore) (now : Nat) (settle : Nat)
    (clock : Nat) : BrokerCore × List PhysicalAction :=
  if core.active.any (fun active => active.observedStatus && now - active.startedAt ≥ settle) &&
      !core.status.busy && !core.status.waiting && !core.status.keyDown then
    core.completeActive clock
  else (core, [])

def observePot (core : BrokerCore) (value : UInt8) : BrokerCore :=
  { core with potValue := some value }.refreshPotWpm

def watchdog (core : BrokerCore) (now : Nat) : BrokerCore × List PhysicalAction :=
  -- Only the age of the active job counts; a key-down command has none.
  if core.active.any (fun active => now - active.startedAt ≥ core.maxTx) then
    core.emergencyStop "WinKeyer transmit safety ceiling reached"
  else (core, [])

def snapshot (core : BrokerCore) : BrokerSnapshot where
  firmwareRevision := core.firmwareRevision
  connected := core.connected
  busy := core.status.busy || core.active.isSome
  breakIn := core.status.breakIn
  keyDown := core.status.keyDown
  potValue := core.potValue
  potWpm := core.potWpm
  activeClientId := core.activeClientId
  activeJobId := core.activeJobId
  queuedJobs := core.queue.length
  lastError := core.lastError
  lastSafetyAction := core.lastSafetyAction

/-- Reapply the primary client's transient profile after exclusive maintenance. -/
def restoreForeground (core : BrokerCore) : BrokerCore × List PhysicalAction :=
  core.restoreForegroundSpeed

end BrokerCore

/-! ## The core as a machine -/

/-- One call of a `BrokerCore` operation. -/
inductive BrokerOp where
  | connectPhysical (firmwareRevision : UInt8)
  | physicalError (error : String)
  | registerClient (clientId : ClientId) (primary : Bool)
  | unregisterClient (clientId : ClientId) (clock : Nat)
  | setClientSpeed (clientId : ClientId) (speed : SpeedMode)
  | setClientCommand (clientId : ClientId) (command : List UInt8)
  | activeOwnerCommand (clientId : ClientId) (command : List UInt8)
  | enqueue (clientId : ClientId) (payload : TransmitPayload) (speed : Option SpeedMode)
      (stream : Bool) (now clock : Nat)
  | cancelClient (clientId : ClientId) (includeActive : Bool) (clock : Nat)
  | cancelJob (clientId : ClientId) (jobId : Nat) (clock : Nat)
  | emergencyStop (reason : String)
  | recordSafetyAction (action : String)
  | observeStatus (status : DeviceStatus) (clock : Nat)
  | confirmIdleAfterSettle (now : Nat) (settle : Nat) (clock : Nat)
  | observePot (value : UInt8)
  | watchdog (now : Nat)
  | restoreForeground

/-- What a call returns: the actions, and the job id an accepted enqueue hands out. -/
structure Answer where
  accepted : Option Nat := none
  actions : List PhysicalAction := []
  deriving DecidableEq, Repr

namespace BrokerOp

/-- The clock reading a job is stamped with that the call starts. -/
def clock : BrokerOp → Nat
  | .unregisterClient _ clock => clock
  | .enqueue _ _ _ _ _ clock => clock
  | .cancelClient _ _ clock => clock
  | .cancelJob _ _ clock => clock
  | .observeStatus _ clock => clock
  | .confirmIdleAfterSettle _ _ clock => clock
  | _ => 0

/-- The core after a call, and its answer.  A call that returns `None` leaves the core alone. -/
def apply (core : BrokerCore) : BrokerOp → BrokerCore × Answer
  | .connectPhysical firmware => (core.connectPhysical firmware, {})
  | .physicalError error => let (c, actions) := core.physicalError error; (c, { actions })
  | .registerClient clientId primary => ((core.registerClient clientId primary).1, {})
  | .unregisterClient clientId clock =>
      let (c, actions) := core.unregisterClient clientId clock; (c, { actions })
  | .setClientSpeed clientId speed =>
      let (c, actions) := core.setClientSpeed clientId speed; (c, { actions })
  | .setClientCommand clientId command =>
      match core.setClientCommand clientId command with
      | some (c, actions) => (c, { actions })
      | none => (core, {})
  | .activeOwnerCommand clientId command =>
      (core, { actions := (core.activeOwnerCommand clientId command).getD [] })
  | .enqueue clientId payload speed stream now clock =>
      match core.enqueue clientId payload speed stream now clock with
      | some (c, jobId, actions) => (c, { accepted := some jobId, actions })
      | none => (core, {})
  | .cancelClient clientId includeActive clock =>
      let (c, actions) := core.cancelClient clientId includeActive clock; (c, { actions })
  | .cancelJob clientId jobId clock =>
      let (c, _, actions) := core.cancelJob clientId jobId clock; (c, { actions })
  | .emergencyStop reason => let (c, actions) := core.emergencyStop reason; (c, { actions })
  | .recordSafetyAction action => (core.recordSafetyAction action, {})
  | .observeStatus status clock =>
      let (c, actions) := core.observeStatus status clock; (c, { actions })
  | .confirmIdleAfterSettle now settle clock =>
      let (c, actions) := core.confirmIdleAfterSettle now settle clock; (c, { actions })
  | .observePot value => (core.observePot value, {})
  | .watchdog now => let (c, actions) := core.watchdog now; (c, { actions })
  | .restoreForeground => let (c, actions) := core.restoreForeground; (c, { actions })

end BrokerOp

/-- The core under any sequence of calls.  `restoreForeground` is only called with no active job:
the actor calls it on a fresh connection and at the end of maintenance. -/
def broker : Systems.Machine BrokerCore BrokerOp Answer where
  step core op :=
    if op matches .restoreForeground ∧ core.active.isSome then none else some (op.apply core)

/-- One recorded call of the core. -/
abbrev BrokerCall := Systems.Transition BrokerCore BrokerOp Answer

/-- The recorded calls of a run of the core. -/
abbrev BrokerHistory := List BrokerCall

end CatHub.WinKeyer
