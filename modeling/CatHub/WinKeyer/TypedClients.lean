/-
# CatHub.WinKeyer.TypedClients — the typed clients of the keyer.

A typed client is known by its name.  The first call under a name draws a number, registers it with the
broker and puts both into a table; later calls find it there.  The table has a lock, which a call holds from
the look at the table to the entry, and gives back when it goes on, fails, or loses its caller.  All calls
run side by side, each a program that asks the table and the broker, and the broker serves one request at a
time.

A caller that hangs up may leave a request behind that the broker has still to serve.  Not modelled are the
events that a stream delivers, and the end of the counter of client numbers.
-/
import CatHub.Radio.Ts590
import CatHub.Systems.Typestate
import CatHub.WinKeyer.Cancellation
import CatHub.WinKeyer.Freshness
import CatHub.WinKeyer.Maintenance
import CatHub.WinKeyer.TypedText

namespace CatHub.WinKeyer.Typed

open Systems Ptt BrokerCore
open Radio.Ts590 (trim)

/-! ## Answers -/

inductive Code where
  | invalidArgument
  | resourceExhausted
  | failedPrecondition
  | alreadyExists
  | unavailable
  deriving DecidableEq, Repr

structure Status where
  code : Code
  message : String
  deriving DecidableEq, Repr

def invalidArgument (message : String) : Status := ⟨.invalidArgument, message⟩

def mapError (error : BrokerError) : Status :=
  match error with
  | .unknownClient | .invalid _ | .transmitBusy | .maintenanceBusy => ⟨.failedPrecondition, error.text⟩
  | .primaryExists => ⟨.alreadyExists, error.text⟩
  | .queueFull => ⟨.resourceExhausted, error.text⟩
  | .notConnected | .unavailable | .transport _ => ⟨.unavailable, error.text⟩

/-- A count as the message carries it. -/
def u32OrMax (count : Nat) : Nat := if count ≤ 4294967295 then count else 4294967295

/-- What a client is told about the broker. -/
structure StatusMessage where
  connected : Bool
  firmwareRevision : Option Nat
  busy : Bool
  breakIn : Bool
  keyDown : Bool
  potWpm : Option Nat
  activeClientId : Option ClientId
  activeJobId : Option Nat
  queuedJobs : Nat
  lastError : Option String
  lastSafetyAction : Option String
  maxJobBytes : Nat
  supportsSpeedPot : Bool
  supportsScopedCancel : Bool
  maxQueuedJobs : Nat
  deriving DecidableEq, Repr

def statusMessage (snapshot : BrokerSnapshot) : StatusMessage where
  connected := snapshot.connected
  firmwareRevision := snapshot.firmwareRevision.map (·.toNat)
  busy := snapshot.busy
  breakIn := snapshot.breakIn
  keyDown := snapshot.keyDown
  potWpm := snapshot.potWpm.map (·.toNat)
  activeClientId := snapshot.activeClientId
  activeJobId := snapshot.activeJobId
  queuedJobs := u32OrMax snapshot.queuedJobs
  lastError := snapshot.lastError
  lastSafetyAction := snapshot.lastSafetyAction
  maxJobBytes := u32OrMax WinKeyer.maxJobBytes
  supportsSpeedPot := true
  supportsScopedCancel := true
  maxQueuedJobs := u32OrMax WinKeyer.maxQueuedJobs

/-! ## Speeds -/

inductive SpeedKind where
  | unspecified
  | pot
  | fixed
  deriving DecidableEq, Repr

/-- The mode of a message; a number that stands for none counts as unspecified. -/
def SpeedKind.ofMessage (mode : Int) : SpeedKind :=
  if mode = 1 then .pot else if mode = 2 then .fixed else .unspecified

def requiredSpeed (mode : Int) (speedWpm : Option Nat) : Except Status SpeedMode :=
  match SpeedKind.ofMessage mode with
  | .pot => .ok .pot
  | .fixed =>
      match speedWpm with
      | none => .error (invalidArgument "fixed speed mode requires speed_wpm")
      | some speed =>
          if 5 ≤ speed ∧ speed ≤ 99 then .ok (.fixed (UInt8.ofNat speed))
          else .error (invalidArgument "speed_wpm must be between 5 and 99")
  | .unspecified => .error (invalidArgument "speed_mode must be POT or FIXED")

/-- The speed of a text: none is given, or a fixed one by its number alone, or one with its mode. -/
def optionalSpeed (mode : Int) (speedWpm : Option Nat) : Except Status (Option SpeedMode) :=
  if SpeedKind.ofMessage mode = .unspecified then
    if speedWpm.isNone then .ok none else (requiredSpeed 2 speedWpm).map some
  else (requiredSpeed mode speedWpm).map some

def speedFields : SpeedMode → Int × Option Nat
  | .pot => (1, none)
  | .fixed wpm => (2, some wpm.toNat)

/-! ## The service -/

abbrev Clients := List (List Char × ClientId)

def firstTypedClientId : ClientId := 1000000
def maxTypedClients : Nat := 64

/-- What a call asks of the table and of the broker. -/
inductive Ask where
  | lockClients
  | unlockClients
  | nextClient
  | insertClient (name : List Char) (id : ClientId)
  | snapshot
  | register (id : ClientId)
  | enqueue (id : ClientId) (text : List UInt8) (speed : Option SpeedMode)
  | cancel (id : ClientId) (includeActive : Bool)
  | cancelJob (id : ClientId) (jobId : Nat)
  | emergencyStop (reason : String)
  | setSpeed (id : ClientId) (speed : SpeedMode)
  deriving DecidableEq, Repr

abbrev Ask.Answer : Ask → Type
  | .lockClients => Clients
  | .unlockClients | .insertClient _ _ => Unit
  | .nextClient => ClientId
  | .snapshot => BrokerSnapshot
  | .register _ | .cancel _ _ | .emergencyStop _ | .setSpeed _ _ => Except BrokerError Unit
  | .enqueue _ _ _ => Except BrokerError Nat
  | .cancelJob _ _ => Except BrokerError Bool

/-- A call that may fail with a status. -/
abbrev Serving (α : Type) : Type := ExceptT Status (Program Ask Ask.Answer) α

def ask (q : Ask) : Serving q.Answer := ExceptT.lift (Program.perform q)

/-- Enter a new name. -/
def enter (name : List Char) (clients : Clients) : Serving ClientId :=
  if maxTypedClients ≤ clients.length then do
    ask .unlockClients
    throw ⟨.resourceExhausted, "maximum number of named WinKeyer clients reached"⟩
  else do
    let id : ClientId ← ask .nextClient
    let registered : Except BrokerError Unit ← ask (.register id)
    match registered with
    | .error error => do
        ask .unlockClients
        throw (mapError error)
    | .ok () => do
        ask (.insertClient name id)
        ask .unlockClients
        return id

/-- The client of a name under the lock of the table. -/
def resolve (name : List Char) (clients : Clients) : Serving ClientId :=
  match clients.lookup name with
  | some id => do
      ask .unlockClients
      return id
  | none => enter name clients

/-- The client that a name stands for. -/
def clientId (name : List Char) : Serving ClientId :=
  if (trim name).isEmpty || 64 < (textBytes (trim name)).length then
    throw (invalidArgument "client_name must contain 1 through 64 characters")
  else do
    let clients : Clients ← ask .lockClients
    resolve (trim name) clients

/-- A call under the name of a client. -/
inductive Operation where
  | getStatus
  | sendText (text : List Char) (speedMode : Int) (speedWpm : Option Nat)
  | cancelJob (jobId : Nat)
  | abortClient (emergencyStationStop : Bool)
  | setSpeed (speedMode : Int) (speedWpm : Option Nat)
  | streamEvents
  deriving DecidableEq, Repr

structure TypedCall where
  clientName : List Char
  operation : Operation
  deriving DecidableEq, Repr

inductive Response where
  | status (status : StatusMessage)
  | job (jobId : Nat)
  | canceled (canceled : Bool)
  | accepted
  | speed (mode : Int) (speedWpm : Option Nat)
  | events
  deriving DecidableEq, Repr

/-- What the broker said, or the status of its error. -/
def granted {α : Type} : Except BrokerError α → Serving α
  | .ok a => pure a
  | .error error => throw (mapError error)

/-- What is done for the client `id`; `debug` shows a character in a message. -/
def perform (debug : Char → String) (name : List Char) (id : ClientId) : Operation → Serving Response
  | .getStatus => do
      let snapshot : BrokerSnapshot ← ask .snapshot
      return .status (statusMessage snapshot)
  | .sendText text speedMode speedWpm =>
      match validateText text with
      | .error fault => throw (invalidArgument (fault.message debug))
      | .ok bytes =>
          match optionalSpeed speedMode speedWpm with
          | .error status => throw status
          | .ok speed => do
              let jobId ← granted (← ask (.enqueue id bytes speed))
              return .job jobId
  | .cancelJob jobId => do
      let canceled ← granted (← ask (.cancelJob id jobId))
      return .canceled canceled
  | .abortClient true => do
      granted (← ask (.emergencyStop ("emergency stop requested by " ++ String.ofList name)))
      return .accepted
  | .abortClient false => do
      granted (← ask (.cancel id true))
      return .accepted
  | .setSpeed speedMode speedWpm =>
      match requiredSpeed speedMode speedWpm with
      | .error status => throw status
      | .ok speed => do
          granted (← ask (.setSpeed id speed))
          return .speed (speedFields speed).1 (speedFields speed).2
  | .streamEvents => return .events

def handle (debug : Char → String) (call : TypedCall) : Serving Response := do
  let id ← clientId call.clientName
  perform debug call.clientName id call.operation

/-! ## The calls, the table and the broker -/

/-- The request that a question puts to the broker. -/
def Ask.request : Ask → Option Request
  | .register id => some (.register id false)
  | .enqueue id text speed => some (.enqueue id (.plainText text) speed false)
  | .cancel id includeActive => some (.cancel id includeActive)
  | .cancelJob id jobId => some (.cancelJob id jobId)
  | .emergencyStop reason => some (.emergencyStop reason)
  | .setSpeed id speed => some (.setSpeed id speed)
  | .lockClients | .unlockClients | .nextClient | .insertClient _ _ | .snapshot => none

/-- A call that is under way. -/
structure Task where
  call : TypedCall
  program : Program Ask Ask.Answer (Except Status Response)

structure Service where
  keyer : Actor
  clients : Clients := []
  nextClient : ClientId := firstTypedClientId
  /-- The call that holds the lock of the table. -/
  locked : Option Nat := none
  tasks : Nat → Option Task := fun _ => none
  /-- Requests whose callers have hung up before they were served. -/
  orphans : List (TypedCall × Request) := []

inductive ServiceInput where
  | call (task : Nat) (call : TypedCall)
  /-- The next question of a call is answered. -/
  | serve (task : Nat) (now later : Nat) (fault : Option WriteFault)
  /-- A call has returned, or its caller has hung up; a request may already have been sent. -/
  | leave (task : Nat) (sent : Bool)
  /-- The broker serves a request that was left behind. -/
  | orphan (index : Nat) (now later : Nat) (fault : Option WriteFault)
  | outside (input : ActorInput)
  deriving DecidableEq, Repr

def readDone : Reply → Option Unit
  | .done => some ()
  | _ => none

def readCanceled : Reply → Option Bool
  | .canceled found => some found
  | _ => none

/-- What the broker does in a step, and the typed call for which it does so. -/
structure TypedStep where
  call : Option TypedCall
  step : ActorStep

/-- The endpoints have numbers of their own, below those of the typed clients. -/
def elsewhere : ActorInput → Bool
  | .request request _ _ _ => request.clientId?.all (fun id => decide (id < firstTypedClientId))
  | _ => true

/-- Without a reply the broker has gone. -/
def outcome {α : Type} (read : Reply → Option α) : Option Reply → Except BrokerError α
  | some (.refused error) => .error error
  | some reply => (read reply).elim (.error .unavailable) .ok
  | none => .error .unavailable

namespace Service

def withTask (s : Service) (task : Nat) (t : Option Task) : Service :=
  { s with tasks := fun other => if other = task then t else s.tasks other }

/-- The answer to a question, given the broker's reply, and what it does to the table. -/
def answer (s : Service) (task : Nat) (reply : Option Reply) : (q : Ask) → q.Answer × Service
  | .lockClients => (s.clients, { s with locked := some task })
  | .unlockClients => ((), { s with locked := none })
  | .nextClient => (s.nextClient, { s with nextClient := s.nextClient + 1 })
  | .insertClient name id => ((), { s with clients := (name, id) :: s.clients })
  | .snapshot => (s.keyer.published, s)
  | .register _ | .cancel _ _ | .emergencyStop _ | .setSpeed _ _ =>
      (outcome readDone reply, s)
  | .enqueue _ _ _ => (outcome Reply.job? reply, s)
  | .cancelJob _ _ => (outcome readCanceled reply, s)

/-- A call goes on with the answer to its question. -/
def goOn (s : Service) (task : Nat) (call : TypedCall) (reply : Option Reply) (q : Ask)
    (next : q.Answer → Program Ask Ask.Answer (Except Status Response)) : Service :=
  (s.answer task reply q).2.withTask task (some ⟨call, next (s.answer task reply q).1⟩)

def serve (s : Service) (task : Nat) (now later : Nat) (fault : Option WriteFault) :
    Option (Service × Option TypedStep) :=
  match s.tasks task with
  | some ⟨call, .ask q next⟩ =>
      match q.request with
      | none =>
          if q = .lockClients ∧ s.locked.isSome then none
          else some (s.goOn task call none q next, none)
      | some request =>
          -- without an actor the channel is closed
          if s.keyer.loop = .stopped then some (s.goOn task call none q next, none)
          else
            (actor.step s.keyer (.request request now later fault)).map fun (a, o) =>
              ({ s with keyer := a }.goOn task call o.reply q next,
                some ⟨some call, s.keyer, .request request now later fault, o, a⟩)
  | _ => none

/-- The request that a call is waiting for. -/
def Pending (t : Task) : Option (TypedCall × Request) :=
  match t.program with
  | .ask q _ => q.request.map (fun request => (t.call, request))
  | .done _ => none

/-- The guard of the table goes with the call. -/
def leave (s : Service) (task : Nat) (t : Task) (sent : Bool) : Service :=
  { s.withTask task none with
    locked := if s.locked = some task then none else s.locked
    orphans := s.orphans ++ if sent then (Pending t).toList else [] }

/-- A step of the actor. -/
def act (s : Service) (call : Option TypedCall) (input : ActorInput) :
    Option (Service × Option TypedStep) :=
  (actor.step s.keyer input).map fun (a, o) =>
    ({ s with keyer := a }, some ⟨call, s.keyer, input, o, a⟩)

end Service

/-- All calls of the typed interface, side by side.  A step shows what the broker does in it. -/
def service (debug : Char → String) : Machine Service ServiceInput (Option TypedStep) where
  step s
  | .call task call =>
      if (s.tasks task).isNone then
        some (s.withTask task (some ⟨call, (handle debug call).run⟩), none)
      else none
  | .serve task now later fault => s.serve task now later fault
  | .leave task sent => (s.tasks task).map fun t => (s.leave task t sent, none)
  | .orphan index now later fault =>
      match s.orphans[index]? with
      | some (call, request) =>
          { s with orphans := s.orphans.eraseIdx index }.act (some call) (.request request now later fault)
      | none => none
  | .outside input => if elsewhere input then s.act none input else none

/-! ## The protocol of a call -/

/-- How far a call is with its name. -/
inductive Phase where
  /-- The call does not hold the lock; `mine` is its client, once it knows it. -/
  | free (mine : Option ClientId)
  | holding (clients : Clients)
  /-- It has drawn a number. -/
  | drawn (clients : Clients) (id : ClientId)
  | registered (clients : Clients) (id : ClientId)

def Phase.allows (name : List Char) : Phase → Ask → Prop
  | .free none, .lockClients => True
  | .free (some mine), q => q = .snapshot ∨ ∃ request, q.request = some request ∧
      (∀ id ∈ request.clientId?, id = mine) ∧ ∀ id, q ≠ .register id
  | .holding _, .unlockClients => True
  | .holding clients, .nextClient => clients.lookup name = none ∧ clients.length < maxTypedClients
  | .drawn _ id, .register id' => id' = id
  | .drawn _ _, .unlockClients => True
  | .registered _ id, .insertClient name' id' => name' = name ∧ id' = id
  | _, _ => False

def Phase.after (name : List Char) : Phase → (q : Ask) → q.Answer → Phase
  | .free none, .lockClients, clients => .holding clients
  | .holding clients, .unlockClients, _ => .free (clients.lookup name)
  | .holding clients, .nextClient, id => .drawn clients id
  | .drawn clients id, .register _, .ok _ => .registered clients id
  | .drawn _ _, .unlockClients, _ => .free none
  | .registered clients id, .insertClient _ _, _ => .holding ((name, id) :: clients)
  | phase, _, _ => phase

/-- The protocol of the calls under a name. -/
def naming (name : List Char) : Typestate Ask Ask.Answer Phase where
  allows := Phase.allows name
  after := Phase.after name

/-- A call that ends has given the lock back. -/
def Free {α : Type} (_ : α) (phase : Phase) : Prop := ∃ mine, phase = .free mine

/-- A call that knows its client asks for nobody else. -/
def Serves {α : Type} (program : Serving α) (name : List Char) (id : ClientId) : Prop :=
  program.run.Follows (naming name) Free (.free (some id))

section Follows

variable {name : List Char} {id : ClientId}

theorem serves_throw {α : Type} (status : Status) : Serves (throw status : Serving α) name id :=
  ⟨_, rfl⟩

theorem serves_pure {α : Type} (a : α) : Serves (pure a : Serving α) name id := ⟨_, rfl⟩

theorem serves_granted {α β : Type} (result : Except BrokerError α) {f : α → Serving β}
    (rest : ∀ a, Serves (f a) name id) : Serves (granted result >>= f) name id := by
  cases result with
  | error error => exact ⟨_, rfl⟩
  | ok a => exact rest a

/-- One request of a call that knows its client. -/
theorem serves_ask {q : Ask} {β : Type} {f : q.Answer → Serving β} {request : Request}
    (asks : q.request = some request) (mine : ∀ other ∈ request.clientId?, other = id)
    (settled : ∀ id, q ≠ .register id) (rest : ∀ answer, Serves (f answer) name id) :
    Serves (ask q >>= f) name id :=
  ⟨.inr ⟨request, asks, mine, settled⟩, rest⟩

theorem perform_serves (debug : Char → String) (given : List Char) (operation : Operation) :
    Serves (perform debug given id operation) name id := by
  have same : ∀ other ∈ some id, other = id := fun other mem => (Option.some.inj mem).symm
  cases operation with
  | getStatus => exact ⟨.inl rfl, fun _ => ⟨_, rfl⟩⟩
  | streamEvents => exact serves_pure _
  | cancelJob jobId =>
      exact serves_ask rfl same (by simp) (fun answer => serves_granted answer (fun _ => serves_pure _))
  | abortClient emergencyStationStop =>
      cases emergencyStationStop with
      | true =>
          refine serves_ask rfl (fun other mem => ?_) (by simp)
            (fun answer => serves_granted answer (fun _ => serves_pure _))
          cases mem
      | false =>
          exact serves_ask rfl same (by simp) (fun answer => serves_granted answer (fun _ => serves_pure _))
  | setSpeed speedMode speedWpm =>
      simp only [perform]
      cases requiredSpeed speedMode speedWpm with
      | error status => exact serves_throw status
      | ok speed =>
          exact serves_ask rfl same (by simp) (fun answer => serves_granted answer (fun _ => serves_pure _))
  | sendText text speedMode speedWpm =>
      simp only [perform]
      cases validateText text with
      | error fault => exact serves_throw _
      | ok bytes =>
          simp only []
          cases optionalSpeed speedMode speedWpm with
          | error status => exact serves_throw status
          | ok speed =>
              exact serves_ask rfl same (by simp)
                (fun answer => serves_granted answer (fun _ => serves_pure _))

end Follows

/-- Behind its name a call has its client. -/
def Named (result : Except Status ClientId) (phase : Phase) : Prop :=
  match result with
  | .ok id => phase = .free (some id)
  | .error _ => ∃ mine, phase = .free mine

theorem enter_follows {name : List Char} {clients : Clients} (unknown : clients.lookup name = none) :
    (enter name clients).run.Follows (naming name) Named (.holding clients) := by
  unfold enter
  split
  · exact ⟨trivial, fun _ => ⟨_, rfl⟩⟩
  · rename_i room
    refine ⟨⟨unknown, Nat.lt_of_not_le room⟩, fun id => ⟨rfl, fun registered => ?_⟩⟩
    cases registered with
    | error error => exact ⟨trivial, fun _ => ⟨_, rfl⟩⟩
    | ok done =>
        refine ⟨⟨rfl, rfl⟩, fun _ => ⟨trivial, fun _ => ?_⟩⟩
        show Phase.free (List.lookup name ((name, id) :: clients)) = .free (some id)
        simp

theorem resolve_follows (name : List Char) (clients : Clients) :
    (resolve name clients).run.Follows (naming name) Named (.holding clients) := by
  unfold resolve
  split
  · rename_i id known
    refine ⟨trivial, fun _ => ?_⟩
    show Phase.free (clients.lookup name) = .free (some id)
    rw [known]
  · rename_i unknown
    exact enter_follows unknown

theorem clientId_follows (name : List Char) :
    (clientId name).run.Follows (naming (trim name)) Named (.free none) := by
  unfold clientId
  split
  · exact ⟨_, rfl⟩
  · exact ⟨trivial, fun clients => resolve_follows (trim name) clients⟩

/-- **Every call keeps to the protocol.** -/
theorem handle_follows (debug : Char → String) (call : TypedCall) :
    (handle debug call).run.Follows (naming (trim call.clientName)) Free (.free none) := by
  refine (clientId_follows call.clientName).bindExcept ?_ ?_
  · intro e phase ends
    exact ends
  · rintro id phase rfl
    exact perform_serves debug call.clientName call.operation

/-! ## Clients that stay -/

/-- A registered client that is not primary. -/
def Ordinary (core : BrokerCore) (c : ClientId) : Prop :=
  ∃ client, core.clients[c]? = some client ∧ client.primary = false

/-- The request takes `c` out of the broker's table, or makes it primary. -/
def Unsettles (c : ClientId) : Request → Prop
  | .unregister d => d = c
  | .register d primary => d = c ∧ primary = true
  | _ => False

/-- The call leaves it at the clients that are there. -/
def settles : BrokerOp → Bool
  | .unregisterClient _ _ | .registerClient _ _ => false
  | _ => true

section Broker

variable {core : BrokerCore} {c : ClientId}

theorem call_ordinary (here : Ordinary core c) {op : BrokerOp}
    (stays : ∀ clock, op ≠ .unregisterClient c clock) (second : op ≠ .registerClient c true) :
    Ordinary (op.apply core).1 c := by
  obtain ⟨client, known, ordinary⟩ := here
  cases within : op.within with
  | true =>
      have course := apply_course core within
      have kept : ((op.apply core).1.clients[c]?).isSome := by
        refine course.keeps_clients (by rw [known]; rfl) ?_
        rintro d clock leaves rfl
        exact stays clock leaves
      obtain ⟨after, found⟩ := Option.isSome_iff_exists.mp kept
      refine ⟨after, found, ?_⟩
      cases course.entry found with
      | kept before | paced before | configured _ before =>
          obtain rfl := Option.some.inj (known.symm.trans before)
          exact ordinary
      | @registered primary =>
          cases primary with
          | true => exact absurd rfl second
          | false => rfl
  | false =>
      cases op with
      | connectPhysical | physicalError | restoreForeground => exact ⟨client, known, ordinary⟩
      | _ => cases within

theorem calls_ordinary (here : Ordinary core c) {ops : List BrokerOp}
    (stays : ∀ op ∈ ops, (∀ clock, op ≠ .unregisterClient c clock) ∧ op ≠ .registerClient c true) :
    Ordinary (core.afterCalls ops) c := by
  induction ops generalizing core with
  | nil => exact here
  | cons op ops ih =>
      obtain ⟨first, rest⟩ := List.forall_mem_cons.mp stays
      rw [afterCalls_cons]
      exact ih (call_ordinary here first.1 first.2) rest

/-- A decision calls for what its request asks. -/
theorem settled_ops (a : Actor) (now later : Nat) {trigger : Trigger}
    (settled : ∀ request, trigger = .request request → ¬ Unsettles c request) :
    ∀ op ∈ a.decisionOps now later trigger,
      (∀ clock, op ≠ .unregisterClient c clock) ∧ op ≠ .registerClient c true := by
  have harmless : ∀ {ops : List BrokerOp}, ops.all settles = true → ∀ op ∈ ops,
      (∀ clock, op ≠ .unregisterClient c clock) ∧ op ≠ .registerClient c true := by
    intro ops all op mem
    have fine := List.all_eq_true.mp all op mem
    refine ⟨?_, ?_⟩
    · rintro clock rfl
      cases fine
    · rintro rfl
      cases fine
  cases trigger with
  | tick => exact harmless rfl
  | byte byte =>
      refine harmless ?_
      simp only [Actor.decisionOps]
      split
      · split <;> rfl
      · split
        · rfl
        · split
          · rfl
          · split <;> rfl
          · rfl
  | request request =>
      have settled := settled request rfl
      cases request with
      | register d primary =>
          rintro op mem
          obtain rfl := List.mem_singleton.mp mem
          refine ⟨fun clock same => (by cases same), fun same => ?_⟩
          cases same
          exact settled ⟨rfl, rfl⟩
      | unregister d =>
          rintro op mem
          obtain rfl := List.mem_singleton.mp mem
          refine ⟨fun clock same => ?_, fun same => by cases same⟩
          cases same
          exact settled rfl
      | cancel | cancelJob | emergencyStop | shutdown | maintenanceCommand | releaseMaintenance =>
          exact harmless rfl
      | setSpeed | enqueue | configure | activeOwnerCommand =>
          refine harmless ?_
          simp only [Actor.decisionOps]
          split <;> rfl

/-- The broker's table after a step is that after the calls of the step. -/
theorem actor_clients {a a' : Actor} {input : ActorInput} {o : Observation}
    (step : actor.step a input = some (a', o)) :
    a'.core.clients = (a.core.afterCalls (opsOf ⟨a, input, o, a'⟩)).clients := by
  have decided : ∀ {later now : Nat} {trigger : Trigger} {mid : Actor} {o₀ : Observation}
      {actions : List PhysicalAction} {fault : Option WriteFault},
      (a.atTime later).Decides now later trigger mid o₀ actions →
      mid.core.clients =
        (a.core.afterCalls (opsOf ⟨a, inputOf trigger now later fault, o, a'⟩)).clients := by
    intro later now trigger mid o₀ actions fault decides
    rw [decides.core]
    cases trigger <;> rfl
  cases actor_move step with
  | @turn trigger now later fault _ _ _ _ _ turn =>
      cases turn with
      | goesOn decides core | leaves decides _ core =>
          rw [core]
          exact decided decides
      | @fails mid _ _ _ _ decides => exact (rfl : _ = mid.core.clients).trans (decided decides)
      | misread _ misread =>
          cases trigger with
          | request | tick => exact misread.elim
          | byte byte =>
              obtain ⟨pending, rfl⟩ := misread
              have pending : a.maintenanceReopenPending = true := pending
              simp only [opsOf, inputOf, Actor.decisionOps, Actor.atTime, pending, if_true]
              rfl
  | sunk _ _ _ decides core =>
      rw [core]
      exact decided decides
  | left | lost => rfl
  | @unopened _ outcome _ _ _ _ _ unopened core =>
      rw [core]
      cases outcome with
      | opened firmware fault => exact absurd rfl (unopened firmware fault)
      | _ => rfl
  | refailed _ _ core | reopened _ _ core | foreign _ _ core =>
      rw [core]
      rfl

/-- **No step of the actor parts with a client** unless it is asked to. -/
theorem actor_ordinary {a a' : Actor} {input : ActorInput} {o : Observation}
    (here : Ordinary a.core c) (step : actor.step a input = some (a', o))
    (settled : ∀ request now later fault, input = .request request now later fault →
      ¬ Unsettles c request) : Ordinary a'.core c := by
  have calls : ∀ op ∈ opsOf ⟨a, input, o, a'⟩,
      (∀ clock, op ≠ .unregisterClient c clock) ∧ op ≠ .registerClient c true := by
    cases input with
    | request request now later fault =>
        refine settled_ops _ now later (fun other same => ?_)
        cases same
        exact settled request now later fault rfl
    | byte byte now later fault =>
        have other : ∀ request, Trigger.byte byte = .request request → ¬ Unsettles c request :=
          fun _ same => by cases same
        exact settled_ops _ now later other
    | tick now later fault =>
        have other : ∀ request, Trigger.tick = .request request → ¬ Unsettles c request :=
          fun _ same => by cases same
        exact settled_ops (a.atTime later) now later other
    | reopen now outcome =>
        cases outcome with
        | opened firmware fault =>
            intro op mem
            rcases List.mem_pair.mp mem with rfl | rfl <;>
              exact ⟨fun clock same => (by cases same), fun same => by cases same⟩
        | _ => exact fun op mem => by cases mem
    | _ => exact fun op mem => by cases mem
  obtain ⟨client, known, ordinary⟩ := calls_ordinary here calls
  exact ⟨client, by rw [actor_clients step]; exact known, ordinary⟩

/-- A new client is registered, whatever becomes of the keyer. -/
theorem actor_registers {a a' : Actor} {now later : Nat} {fault : Option WriteFault} {o : Observation}
    (step : actor.step a (.request (.register c false) now later fault) = some (a', o)) :
    Ordinary a'.core c := by
  have clients := actor_clients step
  refine ⟨{ desiredSpeed := .pot, primary := false, profile := ∅ }, ?_, rfl⟩
  rw [clients]
  exact (clients_withClient a.core c c _).trans (if_pos rfl)

end Broker

/-! ## The invariant -/

/-- A number that a call has drawn for itself. -/
structure Drawn (s : Service) (id : ClientId) : Prop where
  first : firstTypedClientId ≤ id
  past : id < s.nextClient
  unused : ∀ e ∈ s.clients, e.2 ≠ id

/-- What the phase of a call says about the table and the broker. -/
def Fits (s : Service) (task : Nat) (name : List Char) : Phase → Prop
  | .free mine => s.locked ≠ some task ∧ ∀ id ∈ mine, (name, id) ∈ s.clients
  | .holding clients => s.locked = some task ∧ s.clients = clients
  | .drawn clients id => s.locked = some task ∧ s.clients = clients ∧
      clients.lookup name = none ∧ clients.length < maxTypedClients ∧ Drawn s id
  | .registered clients id => s.locked = some task ∧ s.clients = clients ∧
      clients.lookup name = none ∧ clients.length < maxTypedClients ∧ Drawn s id ∧
      Ordinary s.keyer.core id

/-- A request of a typed call registers a new client, or is made for the client of its name. -/
structure Owned (s : Service) (call : TypedCall) (request : Request) : Prop where
  asked : ∃ q : Ask, q.request = some request
  own : (∃ id, request = .register id false) ∨
    ∀ id ∈ request.clientId?, (trim call.clientName, id) ∈ s.clients

/-- The table stands one to one for clients that the broker knows. -/
structure Tidy (s : Service) : Prop where
  names : (s.clients.map Prod.fst).Nodup
  ids : (s.clients.map Prod.snd).Nodup
  drawn : ∀ e ∈ s.clients, firstTypedClientId ≤ e.2 ∧ e.2 < s.nextClient
  first : firstTypedClientId ≤ s.nextClient
  room : s.clients.length ≤ maxTypedClients
  ordinary : ∀ e ∈ s.clients, Ordinary s.keyer.core e.2
  orphans : ∀ e ∈ s.orphans, Owned s e.1 e.2

structure Orderly (s : Service) : Prop extends Tidy s where
  tasks : ∀ task t, s.tasks task = some t → ∃ phase,
    t.program.Follows (naming (trim t.call.clientName)) Free phase ∧
      Fits s task (trim t.call.clientName) phase
  /-- The lock is not left behind. -/
  holder : ∀ task, s.locked = some task → (s.tasks task).isSome

section Steps

variable {s mid : Service} {task other : Nat} {t : Task} {name : List Char} {phase : Phase}

theorem lookup_mem {clients : Clients} {name : List Char} {id : ClientId}
    (known : clients.lookup name = some id) : (name, id) ∈ clients := by
  obtain ⟨front, back, rfl, -⟩ := List.lookup_eq_some_iff.mp known
  simp

theorem lookup_none {clients : Clients} {name : List Char} (unknown : clients.lookup name = none) :
    name ∉ clients.map Prod.fst := by
  intro mem
  obtain ⟨e, held, rfl⟩ := List.mem_map.mp mem
  exact absurd (List.lookup_eq_none_iff.mp unknown e held) (by simp)

/-- The requests of the typed interface leave every client where it is. -/
theorem request_settles {q : Ask} {request : Request} (asks : q.request = some request) (c : ClientId) :
    ¬ Unsettles c request := by
  cases q with
  | register id =>
      cases asks
      rintro ⟨-, absurd⟩
      cases absurd
  | enqueue | cancel | cancelJob | emergencyStop | setSpeed =>
      cases asks
      exact id
  | _ => cases asks

theorem Owned.mono {call : TypedCall} {request : Request} (owned : Owned s call request)
    (more : ∀ e ∈ s.clients, e ∈ mid.clients) : Owned mid call request :=
  ⟨owned.asked, owned.own.imp_right (fun own id mem => more _ (own id mem))⟩

theorem Drawn.same {id : ClientId} (drawn : Drawn s id) (clients : mid.clients = s.clients)
    (next : mid.nextClient = s.nextClient) : Drawn mid id :=
  ⟨drawn.first, next ▸ drawn.past, clients ▸ drawn.unused⟩

/-- The table is as it was, and the broker keeps the clients of the service. -/
theorem Fits.same (fits : Fits s other name phase) (clients : mid.clients = s.clients)
    (next : mid.nextClient = s.nextClient) (locked : mid.locked = s.locked)
    (kept : ∀ c, firstTypedClientId ≤ c → Ordinary s.keyer.core c → Ordinary mid.keyer.core c) :
    Fits mid other name phase := by
  unfold Fits at fits ⊢
  rw [clients, locked]
  cases phase with
  | free | holding => exact fits
  | drawn =>
      obtain ⟨held, table, unknown, room, drawn⟩ := fits
      exact ⟨held, table, unknown, room, drawn.same clients next⟩
  | registered =>
      obtain ⟨held, table, unknown, room, drawn, known⟩ := fits
      exact ⟨held, table, unknown, room, drawn.same clients next, kept _ drawn.first known⟩

theorem elsewhere_locked {locked : Option Nat} (alone : locked = none ∨ locked = some task)
    (apart : other ≠ task) : locked ≠ some other := by
  rintro rfl
  rcases alone with absurd | same
  · cases absurd
  · exact apart (Option.some.inj same)

/-- While a call is at the table, the others are not. -/
theorem Fits.beside (fits : Fits s other name phase) (apart : other ≠ task)
    (alone : s.locked = none ∨ s.locked = some task)
    (still : mid.locked = none ∨ mid.locked = some task)
    (more : ∀ e ∈ s.clients, e ∈ mid.clients) : Fits mid other name phase := by
  cases phase with
  | free mine => exact ⟨elsewhere_locked still apart, fun id mem => more _ (fits.2 id mem)⟩
  | holding | drawn | registered => exact absurd fits.1 (elsewhere_locked alone apart)

/-- A call goes on; what it has done to the table fits the others. -/
theorem Orderly.resume (o : Orderly s) (mid : Service) (tasks : mid.tasks = s.tasks) (tidy : Tidy mid)
    (holder : ∀ other, mid.locked = some other → other = task ∨ s.locked = some other)
    (others : ∀ {other name phase}, other ≠ task → Fits s other name phase → Fits mid other name phase)
    (follows : t.program.Follows (naming (trim t.call.clientName)) Free phase)
    (fits : Fits mid task (trim t.call.clientName) phase) :
    Orderly (mid.withTask task (some t)) where
  names := tidy.names
  ids := tidy.ids
  drawn := tidy.drawn
  first := tidy.first
  room := tidy.room
  ordinary := tidy.ordinary
  orphans := fun e mem => ⟨(tidy.orphans e mem).asked, (tidy.orphans e mem).own⟩
  tasks := by
    intro other u here
    by_cases same : other = task
    · subst same
      have here : (if other = other then some t else mid.tasks other) = some u := here
      rw [if_pos rfl] at here
      obtain rfl := Option.some.inj here
      exact ⟨phase, follows, fits.same rfl rfl rfl (fun _ _ known => known)⟩
    · have here : (if other = task then some t else mid.tasks other) = some u := here
      rw [if_neg same, tasks] at here
      obtain ⟨phase, follows, fits⟩ := o.tasks other u here
      exact ⟨phase, follows, (others same fits).same rfl rfl rfl (fun _ _ known => known)⟩
  holder := by
    intro other held
    show (if other = task then some t else mid.tasks other).isSome
    split
    · rfl
    · rename_i apart
      rw [tasks]
      exact o.holder other ((holder other held).resolve_left apart)

/-- A question that leaves the table alone. -/
theorem Orderly.resumeSame (o : Orderly s)
    (follows : t.program.Follows (naming (trim t.call.clientName)) Free phase)
    (fits : Fits s task (trim t.call.clientName) phase) : Orderly (s.withTask task (some t)) :=
  o.resume s rfl o.toTidy (fun _ held => .inr held) (fun _ fits => fits) follows fits

/-- The lock changes hands. -/
theorem Orderly.resumeLocked (o : Orderly s) {locked : Option Nat}
    (before : s.locked = none ∨ s.locked = some task) (after : locked = none ∨ locked = some task)
    (follows : t.program.Follows (naming (trim t.call.clientName)) Free phase)
    (fits : Fits { s with locked } task (trim t.call.clientName) phase) :
    Orderly ({ s with locked }.withTask task (some t)) := by
  refine o.resume { s with locked } rfl ⟨o.names, o.ids, o.drawn, o.first, o.room, o.ordinary, ?_⟩ ?_ ?_
    follows fits
  · exact fun e mem => (o.orphans e mem).mono (fun _ kept => kept)
  · rintro other rfl
    rcases after with absurd | same
    · cases absurd
    · exact .inl (Option.some.inj same)
  · exact fun apart fits => fits.beside apart before after (fun _ kept => kept)

theorem Tidy.draw (tidy : Tidy s) : Tidy { s with nextClient := s.nextClient + 1 } where
  names := tidy.names
  ids := tidy.ids
  drawn := fun e mem => ⟨(tidy.drawn e mem).1, Nat.lt_succ_of_lt (tidy.drawn e mem).2⟩
  first := Nat.le_succ_of_le tidy.first
  room := tidy.room
  ordinary := tidy.ordinary
  orphans := fun e mem => (tidy.orphans e mem).mono (fun _ kept => kept)

theorem Tidy.enter (tidy : Tidy s) {id : ClientId} (unknown : s.clients.lookup name = none)
    (room : s.clients.length < maxTypedClients) (drawn : Drawn s id) (known : Ordinary s.keyer.core id) :
    Tidy { s with clients := (name, id) :: s.clients } where
  names := List.nodup_cons.mpr ⟨lookup_none unknown, tidy.names⟩
  ids := by
    refine List.nodup_cons.mpr ⟨fun mem => ?_, tidy.ids⟩
    obtain ⟨e, held, same⟩ := List.mem_map.mp mem
    exact drawn.unused e held same
  drawn := List.forall_mem_cons.mpr ⟨⟨drawn.first, drawn.past⟩, tidy.drawn⟩
  first := tidy.first
  room := room
  ordinary := List.forall_mem_cons.mpr ⟨known, tidy.ordinary⟩
  orphans := fun e mem => (tidy.orphans e mem).mono (fun _ => List.mem_cons_of_mem _)

theorem outcome_done {reply : Option Reply} {done : Unit}
    (told : outcome readDone reply = .ok done) : reply = some .done := by
  cases reply with
  | none => cases told
  | some reply => cases reply with
    | done => rfl
    | _ => cases told

/-- **A question is answered.** -/
theorem Orderly.goOn (o : Orderly s) {call : TypedCall} {q : Ask}
    {next : q.Answer → Program Ask Ask.Answer (Except Status Response)}
    (follows : (Program.ask q next).Follows (naming (trim call.clientName)) Free phase)
    (fits : Fits s task (trim call.clientName) phase) (lock : q = .lockClients → s.locked = none)
    (reply : Option Reply)
    (registered : ∀ id, q = .register id → reply = some .done → Ordinary s.keyer.core id) :
    Orderly (s.goOn task call reply q next) := by
  obtain ⟨allowed, rest⟩ := follows
  cases phase with
  | free mine =>
      cases mine with
      | none =>
          cases q with
          | lockClients => exact o.resumeLocked (.inl (lock rfl)) (.inr rfl) (rest s.clients) ⟨rfl, rfl⟩
          | _ => exact absurd allowed id
      | some mine =>
          -- behind its name a call leaves the table alone
          rcases allowed with rfl | ⟨request, asks, -, settled⟩
          · exact o.resumeSame (rest s.keyer.published) fits
          · cases q with
            | enqueue | cancel | cancelJob | emergencyStop | setSpeed => exact o.resumeSame (rest _) fits
            | register id => exact absurd rfl (settled id)
            | _ => cases asks
  | holding clients =>
      obtain ⟨held, rfl⟩ := fits
      cases q with
      | unlockClients =>
          refine o.resumeLocked (.inr held) (.inl rfl) (rest ()) ⟨Option.some_ne_none _ ∘ Eq.symm, ?_⟩
          exact fun id mine => lookup_mem mine
      | nextClient =>
          refine o.resume { s with nextClient := s.nextClient + 1 } rfl o.toTidy.draw
            (fun _ held => .inr held) ?_ (rest s.nextClient) ?_
          · exact fun apart fits => fits.beside apart (.inr held) (.inr held) (fun _ kept => kept)
          · refine ⟨held, rfl, allowed.1, allowed.2, o.first, Nat.lt_succ_self _, fun e mem same => ?_⟩
            exact absurd (o.drawn e mem).2 (same ▸ Nat.lt_irrefl _)
      | _ => exact absurd allowed id
  | drawn clients new =>
      obtain ⟨held, rfl, unknown, room, drawn⟩ := fits
      cases q with
      | register id' =>
          obtain rfl : id' = new := allowed
          show Orderly (s.withTask task (some ⟨call, next (outcome readDone reply)⟩))
          cases told : outcome readDone reply with
          | ok done =>
              have known := registered id' rfl (outcome_done told)
              exact o.resumeSame (rest (.ok done)) ⟨held, rfl, unknown, room, drawn, known⟩
          | error error => exact o.resumeSame (rest (.error error)) ⟨held, rfl, unknown, room, drawn⟩
      | unlockClients =>
          refine o.resumeLocked (.inr held) (.inl rfl) (rest ()) ⟨Option.some_ne_none _ ∘ Eq.symm, ?_⟩
          exact fun id mine => by cases mine
      | _ => exact absurd allowed id
  | registered clients new =>
      obtain ⟨held, rfl, unknown, room, drawn, known⟩ := fits
      cases q with
      | insertClient name' id' =>
          obtain ⟨rfl, rfl⟩ := allowed
          refine o.resume { s with clients := (trim call.clientName, id') :: s.clients } rfl
            (o.toTidy.enter unknown room drawn known) (fun _ held => .inr held) ?_ (rest ()) ⟨held, rfl⟩
          exact fun apart fits =>
            fits.beside apart (.inr held) (.inr held) (fun _ => List.mem_cons_of_mem _)
      | _ => exact absurd allowed id

/-- The broker goes on, and keeps the clients of the service. -/
theorem Orderly.keyer (o : Orderly s) {a : Actor}
    (kept : ∀ c, firstTypedClientId ≤ c → Ordinary s.keyer.core c → Ordinary a.core c) :
    Orderly { s with keyer := a } where
  names := o.names
  ids := o.ids
  drawn := o.drawn
  first := o.first
  room := o.room
  ordinary := fun e mem => kept e.2 (o.drawn e mem).1 (o.ordinary e mem)
  orphans := fun e mem => (o.orphans e mem).mono (fun _ kept => kept)
  tasks := by
    intro task t here
    obtain ⟨phase, follows, fits⟩ := o.tasks task t here
    exact ⟨phase, follows, fits.same rfl rfl rfl kept⟩
  holder := o.holder

/-- A request of the typed interface parts with no client. -/
theorem served_kept {a a' : Actor} {q : Ask} {request : Request} (asks : q.request = some request)
    {now later : Nat} {fault : Option WriteFault} {o : Observation}
    (step : actor.step a (.request request now later fault) = some (a', o)) (c : ClientId)
    (here : Ordinary a.core c) : Ordinary a'.core c := by
  refine actor_ordinary here step (fun other _ _ _ same => ?_)
  cases same
  exact request_settles asks c

/-- What a call asks of the broker is its own. -/
theorem Orderly.owned (o : Orderly s) (here : s.tasks task = some t) {q : Ask}
    {next : q.Answer → Program Ask Ask.Answer (Except Status Response)} {request : Request}
    (asking : t.program = .ask q next) (asks : q.request = some request) : Owned s t.call request := by
  obtain ⟨phase, follows, fits⟩ := o.tasks task t here
  rw [asking] at follows
  refine ⟨⟨q, asks⟩, ?_⟩
  have allowed : Phase.allows (trim t.call.clientName) phase q := follows.1
  cases phase with
  | free mine =>
      cases mine with
      | none => cases q <;> first | exact absurd allowed id | cases asks
      | some mine =>
          rcases allowed with rfl | ⟨other, asks', own, -⟩
          · cases asks
          · obtain rfl := Option.some.inj (asks.symm.trans asks')
            refine .inr (fun id mem => ?_)
            rw [own id mem]
            exact fits.2 mine rfl
  | holding | registered => cases q <;> first | exact absurd allowed id | cases asks
  | drawn clients new =>
      cases q with
      | register id =>
          cases asks
          exact .inl ⟨id, rfl⟩
      | _ => first | exact absurd allowed id | cases asks

theorem Orderly.serve (o : Orderly s) {now later : Nat} {fault : Option WriteFault} {s' : Service}
    {shown : Option TypedStep} (step : s.serve task now later fault = some (s', shown)) :
    Orderly s' := by
  unfold Service.serve at step
  split at step
  · rename_i call q next here
    obtain ⟨phase, follows, fits⟩ := o.tasks task _ here
    split at step
    · rename_i local_
      split at step
      · cases step
      · rename_i open_
        cases step
        refine o.goOn follows fits (fun locks => ?_) none (fun id registers => ?_)
        · exact Option.not_isSome_iff_eq_none.mp (fun held => open_ ⟨locks, held⟩)
        · rw [registers] at local_
          cases local_
    · rename_i request asks
      have unlocking : q = .lockClients → s.locked = none := by
        rintro rfl
        cases asks
      split at step
      · cases step
        exact o.goOn follows fits unlocking none (fun _ _ absurd => by cases absurd)
      · obtain ⟨⟨a, shown'⟩, took, same⟩ := Option.map_eq_some_iff.mp step
        cases same
        have kept := served_kept asks took
        refine (o.keyer (fun c _ => kept c)).goOn follows ?_ unlocking shown'.reply ?_
        · exact fits.same rfl rfl rfl (fun c _ => kept c)
        · rintro id rfl -
          cases asks
          exact actor_registers took
  · cases step

theorem Orderly.leave (o : Orderly s) (here : s.tasks task = some t) (sent : Bool) :
    Orderly (s.leave task t sent) where
  names := o.names
  ids := o.ids
  drawn := o.drawn
  first := o.first
  room := o.room
  ordinary := o.ordinary
  orphans := by
    intro e mem
    rcases List.mem_append.mp mem with old | new
    · exact (o.orphans e old).mono (fun _ kept => kept)
    · split at new
      · obtain ⟨call, program⟩ := t
        cases program with
        | done => cases new
        | ask q next =>
            obtain ⟨request, asks, rfl⟩ := Option.map_eq_some_iff.mp (Option.mem_toList.mp new)
            exact (o.owned here rfl asks).mono (fun _ kept => kept)
      · cases new
  tasks := by
    intro other u there
    have there : (if other = task then none else s.tasks other) = some u := there
    split at there
    · cases there
    · rename_i apart
      obtain ⟨phase, follows, fits⟩ := o.tasks other u there
      refine ⟨phase, follows, ?_⟩
      by_cases held : s.locked = some task
      · refine fits.beside apart (.inr held) (.inl ?_) (fun _ kept => kept)
        exact if_pos held
      · exact fits.same rfl rfl (if_neg held) (fun _ _ known => known)
  holder := by
    intro other held
    have gone : (if s.locked = some task then none else s.locked) = some other := held
    split at gone
    · cases gone
    · rename_i away
      have apart : other ≠ task := by
        rintro rfl
        exact away gone
      show (if other = task then none else s.tasks other).isSome
      rw [if_neg apart]
      exact o.holder other gone

/-- The broker takes up a request that was left behind. -/
theorem Orderly.taken (o : Orderly s) (index : Nat) :
    Orderly { s with orphans := s.orphans.eraseIdx index } where
  names := o.names
  ids := o.ids
  drawn := o.drawn
  first := o.first
  room := o.room
  ordinary := o.ordinary
  orphans := fun e mem => (o.orphans e (List.mem_of_mem_eraseIdx mem)).mono (fun _ kept => kept)
  tasks := by
    intro task t here
    obtain ⟨phase, follows, fits⟩ := o.tasks task t here
    exact ⟨phase, follows, fits.same rfl rfl rfl (fun _ _ known => known)⟩
  holder := o.holder

end Steps

/-! ## Every run -/

variable {debug : Char → String} {s s' : Service} {input : ServiceInput} {shown : Option TypedStep}

theorem orderly_step (o : Orderly s) (step : (service debug).step s input = some (s', shown)) :
    Orderly s' := by
  cases input with
  | call task call =>
      simp only [service, Option.ite_none_right_eq_some, Option.some.injEq, Prod.mk.injEq] at step
      obtain ⟨vacant, rfl, -⟩ := step
      have away : s.locked ≠ some task := by
        intro held
        have there := o.holder task held
        rw [Option.isNone_iff_eq_none.mp vacant] at there
        cases there
      exact o.resumeSame (handle_follows debug call) ⟨away, fun id mine => by cases mine⟩
  | serve task now later fault => exact o.serve step
  | leave task sent =>
      obtain ⟨t, here, same⟩ := Option.map_eq_some_iff.mp step
      cases same
      exact o.leave here sent
  | orphan index now later fault =>
      simp only [service] at step
      split at step
      · rename_i call request here
        obtain ⟨⟨a, o'⟩, took, same⟩ := Option.map_eq_some_iff.mp step
        cases same
        obtain ⟨q, asks⟩ := (o.orphans _ (List.mem_of_getElem? here)).asked
        exact (o.taken index).keyer (fun c _ => served_kept asks took c)
      · cases step
  | outside input =>
      simp only [service, Option.ite_none_right_eq_some] at step
      obtain ⟨outside, step⟩ := step
      obtain ⟨⟨a, o'⟩, took, same⟩ := Option.map_eq_some_iff.mp step
      cases same
      refine o.keyer (fun c typed here => actor_ordinary here took ?_)
      rintro request now later fault rfl unsettles
      cases request with
      | register d primary =>
          obtain ⟨rfl, -⟩ := unsettles
          exact absurd (of_decide_eq_true outside) (Nat.not_lt.mpr typed)
      | unregister d =>
          obtain rfl : d = c := unsettles
          exact absurd (of_decide_eq_true outside) (Nat.not_lt.mpr typed)
      | _ => exact unsettles

/-- The name and the client that the broker serves in a step, but for registrations. -/
def TypedStep.name? (t : TypedStep) : Option (List Char) := t.call.map (fun call => trim call.clientName)

def TypedStep.client? (t : TypedStep) : Option ClientId :=
  match t.step.input with
  | .request (.register _ _) _ _ _ => none
  | .request request _ _ _ => request.clientId?
  | _ => none

/-- What a shown step is. -/
structure Shown (s s' : Service) (t : TypedStep) : Prop where
  before : t.step.before = s.keyer
  step : actor.step t.step.before t.step.input = some (t.step.after, t.step.output)
  own : ∀ call, t.call = some call → ∃ request now later fault,
    t.step.input = .request request now later fault ∧ Owned s call request

theorem shown_of_step {t : TypedStep} (o : Orderly s)
    (step : (service debug).step s input = some (s', some t)) : Shown s s' t := by
  cases input with
  | call task call =>
      simp only [service, Option.ite_none_right_eq_some, Option.some.injEq, Prod.mk.injEq] at step
      obtain ⟨-, -, absurd⟩ := step
      cases absurd
  | serve task now later fault =>
      simp only [service, Service.serve] at step
      split at step
      · rename_i call q next here
        split at step
        · split at step <;> cases step
        · rename_i request asks
          split at step
          · cases step
          · obtain ⟨⟨a, o'⟩, took, same⟩ := Option.map_eq_some_iff.mp step
            cases same
            refine ⟨rfl, took, fun call same => ?_⟩
            cases same
            exact ⟨request, now, later, fault, rfl, o.owned here rfl asks⟩
      · cases step
  | leave task sent =>
      obtain ⟨_, -, same⟩ := Option.map_eq_some_iff.mp step
      cases same
  | orphan index now later fault =>
      simp only [service] at step
      split at step
      · rename_i call request here
        obtain ⟨⟨a, o'⟩, took, same⟩ := Option.map_eq_some_iff.mp step
        cases same
        refine ⟨rfl, took, fun call same => ?_⟩
        cases same
        exact ⟨request, now, later, fault, rfl, o.orphans _ (List.mem_of_getElem? here)⟩
      · cases step
  | outside input =>
      simp only [service, Option.ite_none_right_eq_some] at step
      obtain ⟨-, step⟩ := step
      obtain ⟨⟨a, o'⟩, took, same⟩ := Option.map_eq_some_iff.mp step
      cases same
      exact ⟨rfl, took, fun call same => by cases same⟩

/-- The client of a shown step is that of the name. -/
theorem Shown.entry {t : TypedStep} {name : List Char} {id : ClientId} (shows : Shown s s' t)
    (named : t.name? = some name) (serves : t.client? = some id) : (name, id) ∈ s.clients := by
  obtain ⟨call, typed, rfl⟩ := Option.map_eq_some_iff.mp named
  obtain ⟨request, now, later, fault, asked, owned⟩ := shows.own call typed
  rw [TypedStep.client?, asked] at serves
  rcases owned.own with ⟨other, rfl⟩ | own
  · cases serves
  · refine own id ?_
    cases request with
    | register => cases serves
    | _ => exact serves

/-- Nothing leaves the table. -/
theorem clients_grow (step : (service debug).step s input = some (s', shown)) :
    ∀ e ∈ s.clients, e ∈ s'.clients := by
  have answered : ∀ (task : Nat) (reply : Option Reply) (q : Ask) (s : Service),
      ∀ e ∈ s.clients, e ∈ (s.answer task reply q).2.clients := by
    intro task reply q s e mem
    cases q with
    | insertClient => exact List.mem_cons_of_mem _ mem
    | _ => exact mem
  intro e mem
  cases input with
  | call task call =>
      simp only [service, Option.ite_none_right_eq_some, Option.some.injEq, Prod.mk.injEq] at step
      obtain ⟨-, rfl, -⟩ := step
      exact mem
  | serve task now later fault =>
      simp only [service, Service.serve] at step
      split at step
      · split at step
        · split at step
          · cases step
          · cases step
            exact answered task none _ s e mem
        · split at step
          · cases step
            exact answered task none _ s e mem
          · obtain ⟨⟨a, o⟩, -, same⟩ := Option.map_eq_some_iff.mp step
            cases same
            exact answered task o.reply _ { s with keyer := a } e mem
      · cases step
  | leave task sent =>
      obtain ⟨_, -, same⟩ := Option.map_eq_some_iff.mp step
      cases same
      exact mem
  | orphan index now later fault =>
      simp only [service] at step
      split at step
      · obtain ⟨_, -, same⟩ := Option.map_eq_some_iff.mp step
        cases same
        exact mem
      · cases step
  | outside input =>
      simp only [service, Option.ite_none_right_eq_some] at step
      obtain ⟨_, -, same⟩ := Option.map_eq_some_iff.mp step.2
      cases same
      exact mem

section Runs

variable {keyer : Actor} {history : List (Transition Service ServiceInput (Option TypedStep))}
  {e e₁ e₂ : Transition Service ServiceInput (Option TypedStep)}

theorem orderly_new (keyer : Actor) : Orderly { keyer } where
  names := .nil
  ids := .nil
  drawn := fun e mem => by cases mem
  first := Nat.le_refl _
  room := Nat.zero_le _
  ordinary := fun e mem => by cases mem
  orphans := fun e mem => by cases mem
  tasks := fun task t here => by cases here
  holder := fun task held => by cases held

theorem orderly_of_execution (run : (service debug).Execution { keyer } history s) : Orderly s := by
  refine run.invariant (I := fun _ s => Orderly s) (orderly_new keyer) ?_
  intro _ s input shown s' _ o step
  exact orderly_step o step

theorem clients_of_execution {start : Service} (run : (service debug).Execution start history s) :
    ∀ e ∈ start.clients, e ∈ s.clients := by
  refine run.invariant (I := fun _ s => ∀ e ∈ start.clients, e ∈ s.clients) (fun e mem => mem) ?_
  intro _ s input shown s' _ kept step e mem
  exact clients_grow step e (kept e mem)

/-- What holds of every step that shows something. -/
theorem shown_of_execution (run : (service debug).Execution { keyer } history s) :
    ∀ e ∈ history, Orderly e.before ∧ ∀ t, e.output = some t → Shown e.before e.after t := by
  refine (run.always (I := Orderly) (G := fun _ => True) (orderly_new keyer) ?_ (fun _ _ => trivial)).2
  intro s input shown s' o step _
  refine ⟨orderly_step o step, o, ?_⟩
  rintro t rfl
  exact shown_of_step o step

/-- In the step the broker serves a request of `name` for the client `id`. -/
def ActsFor (e : Transition Service ServiceInput (Option TypedStep)) (name : List Char)
    (id : ClientId) : Prop :=
  ∃ t, e.output = some t ∧ t.name? = some name ∧ t.client? = some id

theorem entry_of_execution (run : (service debug).Execution { keyer } history s) (mem : e ∈ history)
    {name : List Char} {id : ClientId} (acts : ActsFor e name id) : (name, id) ∈ s.clients := by
  obtain ⟨t, shown, named, serves⟩ := acts
  have here := ((shown_of_execution run e mem).2 t shown).entry named serves
  obtain ⟨front, back, rfl⟩ := List.append_of_mem mem
  obtain ⟨mid, -, rest⟩ := run.split
  obtain ⟨same, step, -⟩ := rest.uncons
  exact clients_of_execution rest _ (same ▸ here)

/-- Three calls under two names, the second of them while the first is still at the table. -/
def threeCalls : List ServiceInput :=
  [.call 0 ⟨[' ', 'l', 'o', 'g'], .sendText ['e'] 0 none⟩, .serve 0 0 0 none, .serve 0 0 0 none,
    .call 1 ⟨['l', 'o', 'g'], .cancelJob 1⟩, .call 2 ⟨['c', 'w'], .sendText ['t'] 0 none⟩,
    .serve 0 0 0 none, .serve 0 0 0 none, .serve 0 0 0 none, .serve 0 0 0 none,
    .serve 2 0 0 none, .serve 2 0 0 none, .serve 2 0 0 none, .serve 2 0 0 none, .serve 2 0 0 none,
    .serve 2 0 0 none, .serve 1 0 0 none, .serve 1 0 0 none, .serve 1 0 0 none]

def silent : Char → String := fun _ => ""

/-- **One client a name.**  However the calls of a run take turns, and whichever of their callers hang up:
two requests, registrations aside, are made for one client exactly if they come under one name, white space
around it aside, and no endpoint has that client.  A registration that its caller left behind may be for
another client than the later ones under its name. -/
theorem one_client_a_name (run : (service debug).Execution { keyer } history s) (mem₁ : e₁ ∈ history)
    (mem₂ : e₂ ∈ history) {name₁ name₂ : List Char} {id₁ id₂ : ClientId} (acts₁ : ActsFor e₁ name₁ id₁)
    (acts₂ : ActsFor e₂ name₂ id₂) : (id₁ = id₂ ↔ name₁ = name₂) ∧ firstTypedClientId ≤ id₁ := by
  have o := orderly_of_execution run
  have here := entry_of_execution run mem₁ acts₁
  have there := entry_of_execution run mem₂ acts₂
  refine ⟨⟨fun same => ?_, fun same => ?_⟩, (o.drawn _ here).1⟩
  · have one := List.inj_on_of_nodup_map o.ids here there same
    exact congrArg Prod.fst one
  · have one := List.inj_on_of_nodup_map o.names here there same
    exact congrArg Prod.snd one

theorem one_client_a_name_three :
    ∃ history s e₁ e₂, (service silent).Execution { keyer := leased } history s ∧
      ActsFor e₁ ['l', 'o', 'g'] 1000000 ∧ ActsFor e₂ ['c', 'w'] 1000001 ∧
      ((1000000 = 1000001 ↔ ['l', 'o', 'g'] = ['c', 'w']) ∧ firstTypedClientId ≤ 1000000) := by
  have run := (service silent).execution_exec { keyer := leased } threeCalls (by decide +kernel)
  have first : ActsFor (((service silent).exec { keyer := leased } threeCalls).get
      (by decide +kernel)).1[8] ['l', 'o', 'g'] 1000000 := ⟨_, rfl, by decide +kernel, by decide +kernel⟩
  have other : ActsFor (((service silent).exec { keyer := leased } threeCalls).get
      (by decide +kernel)).1[14] ['c', 'w'] 1000001 := ⟨_, rfl, by decide +kernel, by decide +kernel⟩
  exact ⟨_, _, _, _, run, first, other,
    one_client_a_name run (List.getElem_mem _) (List.getElem_mem _) first other⟩

/-- The keyer's task takes a request whenever it runs. -/
theorem actor_takes (a : Actor) (request : Request) (running : a.loop ≠ .stopped) :
    (actor.step a (.request request a.clock a.clock none)).isSome := by
  simp only [actor, Nat.le_refl, and_self, if_true]
  cases loop : a.loop with
  | stopped => exact absurd loop running
  | session | reconnecting => rfl

/-- The call at the table can go on. -/
theorem holder_served (o : Orderly s) {task : Nat} (held : s.locked = some task) {call : TypedCall} {q : Ask}
    {next : q.Answer → Program Ask Ask.Answer (Except Status Response)}
    (here : s.tasks task = some ⟨call, .ask q next⟩) :
    ∃ now later s' shown answer, s.serve task now later none = some (s', shown) ∧
      s'.tasks task = some ⟨call, next answer⟩ ∧ (s'.locked = none ∨ s'.locked = some task) := by
  obtain ⟨phase, follows, fits⟩ := o.tasks task _ here
  have unlocking : q ≠ .lockClients := by
    rintro rfl
    have allowed : Phase.allows (trim call.clientName) phase .lockClients := follows.1
    cases phase with
    | free => exact absurd held fits.1
    | _ => exact allowed
  have goes : ∀ (s : Service) (reply : Option Reply), s.locked = some task →
      (s.goOn task call reply q next).tasks task = some ⟨call, next (s.answer task reply q).1⟩ ∧
      ((s.goOn task call reply q next).locked = none ∨
        (s.goOn task call reply q next).locked = some task) := by
    intro s reply held
    refine ⟨if_pos rfl, ?_⟩
    cases q with
    | lockClients => exact absurd rfl unlocking
    | unlockClients => exact .inl rfl
    | _ => exact .inr held
  simp only [Service.serve, here]
  cases asks : q.request with
  | none =>
      rw [if_neg (fun locks => unlocking locks.1)]
      exact ⟨0, 0, _, _, _, rfl, goes s none held⟩
  | some request =>
      by_cases stopped : s.keyer.loop = .stopped
      · simp only [if_pos stopped]
        exact ⟨0, 0, _, _, _, rfl, goes s none held⟩
      · obtain ⟨⟨a, shown⟩, took⟩ := Option.isSome_iff_exists.mp (actor_takes s.keyer request stopped)
        simp only [if_neg stopped]
        exact ⟨s.keyer.clock, s.keyer.clock, _, _, _, by rw [took]; rfl,
          goes { s with keyer := a } shown.reply held⟩

/-- **The lock comes back.**  In every state of every run, the call at the table gives the lock back by going
on alone: it waits for no other call, and the broker answers it whether the keyer is there or not. -/
theorem lock_returns (run : (service debug).Execution { keyer } history s) {task : Nat}
    (held : s.locked = some task) : ∃ later t, (service debug).Execution s later t ∧ t.locked = none ∧
      ∀ e ∈ later, ∃ now then_, e.input = .serve task now then_ none := by
  have o := orderly_of_execution run
  clear run
  obtain ⟨⟨call, program⟩, here⟩ := Option.isSome_iff_exists.mp (o.holder task held)
  induction program generalizing s with
  | done result =>
      obtain ⟨phase, ⟨mine, rfl⟩, fits⟩ := o.tasks task _ here
      exact absurd held fits.1
  | ask q next ih =>
      obtain ⟨now, then_, s', shown, answer, step, there, locked⟩ := holder_served o held here
      have step : (service debug).step s (.serve task now then_ none) = some (s', shown) := step
      have first : (service debug).Execution s _ s' := .next .start step
      rcases locked with free | held'
      · refine ⟨_, s', first, free, fun e mem => ?_⟩
        obtain rfl := List.mem_singleton.mp mem
        exact ⟨now, then_, rfl⟩
      · obtain ⟨later, t, rest, free, own⟩ := ih answer held' (orderly_step o step) there
        refine ⟨_, t, first.append rest, free, fun e mem => ?_⟩
        rcases List.mem_append.mp mem with old | new
        · obtain rfl := List.mem_singleton.mp old
          exact ⟨now, then_, rfl⟩
        · exact own e new

end Runs

/-- The first call is at the table. -/
theorem lock_returns_three : ∃ history s later t,
    (service silent).Execution { keyer := leased } history s ∧ s.locked = some 0 ∧
      (service silent).Execution s later t ∧ t.locked = none ∧
      ∀ e ∈ later, ∃ now then_, e.input = .serve 0 now then_ none := by
  have run := (service silent).execution_exec { keyer := leased } (threeCalls.take 6) (by decide +kernel)
  have held : (((service silent).exec { keyer := leased } (threeCalls.take 6)).get
      (by decide +kernel)).2.locked = some 0 := by decide +kernel
  obtain ⟨later, t, rest⟩ := lock_returns run held
  exact ⟨_, _, later, t, run, held, rest⟩

end CatHub.WinKeyer.Typed
