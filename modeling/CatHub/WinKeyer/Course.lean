/-
# CatHub.WinKeyer.Course — what one call of the broker core does to the keyer's settings.

The settings are the client table, the marker of the profile that counts as applied, the connection
and the client of the active job.  `Course` lists the ways in which a call within a connection can
change them, each with what the call writes, and `apply_course` shows that every such call is one of
them.  An ownership boundary, where a job starts or the foreground is restored, always goes through
`startNextOrRestore`; `Boundary` says from which core.

`Effect` describes the schedule in the same manner.  The results about the profiles, the speed and
the host session take a call apart with `apply_course` and never unfold an operation.
-/
import CatHub.WinKeyer.ActorCalls

namespace CatHub.WinKeyer

namespace BrokerCore

/-! ## The settings -/

/-- `b` has the table, the marker, the connection and the active client of `a`. -/
structure SameSettings (a b : BrokerCore) : Prop where
  clients : b.clients = a.clients
  applied : b.appliedProfileClientId = a.appliedProfileClientId
  connected : b.connected = a.connected
  active : b.activeClientId = a.activeClientId

theorem SameSettings.rfl {a : BrokerCore} : SameSettings a a :=
  ⟨Eq.refl _, Eq.refl _, Eq.refl _, Eq.refl _⟩

/-- The core with a new entry for a client. -/
def withClient (core : BrokerCore) (clientId : ClientId) (client : ClientState) : BrokerCore :=
  { core with clients := core.clients.insert clientId client }

/-- The marker once nothing of `clientId` counts as applied. -/
def unmarked (core : BrokerCore) (clientId : ClientId) : Option ClientId :=
  if core.appliedProfileClientId = some clientId then none else core.appliedProfileClientId

/-- The core in the middle of a call that passes an ownership boundary. -/
structure Boundary (core : BrokerCore) (op : BrokerOp) (mid : BrokerCore) : Prop where
  idle : mid.active = none
  connected : mid.connected = core.connected
  queue : ∀ job ∈ mid.queue, job ∈ core.queue ∨ ∃ speed now clock,
    op = .enqueue job.clientId job.payload speed job.stream now clock
  table : (mid.clients = core.clients ∧
      mid.appliedProfileClientId = core.appliedProfileClientId) ∨
    ∃ clientId clock, op = .unregisterClient clientId clock ∧
      core.activeClientId = some clientId ∧ mid.clients = core.clients.erase clientId ∧
      mid.appliedProfileClientId = core.unmarked clientId

theorem activeClientId_none {core : BrokerCore} : core.activeClientId = none ↔ core.active = none := by
  simp [activeClientId]

theorem startNextOrRestore_clients (core : BrokerCore) (clock : Nat) :
    (core.startNextOrRestore clock).1.clients = core.clients := by
  unfold startNextOrRestore
  split
  · show BrokerCore.clients (if _ then _ else _) = core.clients
    split
    · show BrokerCore.clients (applyProfileOf _ _) = core.clients
      unfold applyProfileOf
      split <;> rfl
    · rfl
  · rfl

/-! ## The chunks of a boundary -/

theorem writes_profileReplay (core : BrokerCore) (clientId : ClientId) :
    writes (core.profileReplay clientId) =
      if core.appliedProfileClientId ≠ some clientId then
        core.clients[clientId]?.elim [] (fun client => storedCommands client.profile)
      else [] := by
  unfold profileReplay
  split
  · cases core.clients[clientId]? with
    | none => rfl
    | some client => exact writes_replay client.profile
  · rfl

theorem writes_speedPrefix (job : Job) : writes (speedPrefix job) = speedChunk job := by
  unfold speedPrefix speedChunk
  split <;> rfl

/-- The profile commands that restoring the foreground writes. -/
def foregroundReplay (core : BrokerCore) : List (List UInt8) :=
  match core.foreground with
  | some e =>
      if some e.1 ≠ core.appliedProfileClientId then storedCommands e.2.profile else []
  | none => []

/-- The speed of the foreground: the primary's, or the pot's. -/
def foregroundSpeed (core : BrokerCore) : SpeedMode :=
  core.foreground.elim .pot (fun e => e.2.desiredSpeed)

theorem writes_restoreForegroundSpeed (core : BrokerCore) :
    writes core.restoreForegroundSpeed.2 =
      core.foregroundReplay ++ [core.foregroundSpeed.command] := by
  unfold restoreForegroundSpeed foregroundReplay foregroundSpeed
  cases core.foreground with
  | none => rfl
  | some e =>
      by_cases same : some e.1 = core.appliedProfileClientId
      · simp [same]
        rfl
      · simp [same, writes_replay]
        rfl

/-- What going on writes: for the head of the queue its profile, speed and payload; with nothing
queued the foreground's profile and speed. -/
theorem writes_startNextOrRestore (core : BrokerCore) (clock : Nat) :
    writes (core.startNextOrRestore clock).2 =
      match core.queue with
      | job :: _ => writes (core.profileReplay job.clientId) ++ speedChunk job ++
          [job.payload.wireBytes, [0x15]]
      | [] => core.foregroundReplay ++ [core.foregroundSpeed.command] := by
  unfold startNextOrRestore
  cases core.queue with
  | cons job rest =>
      simp only [writes_append, writes_speedPrefix]
      rfl
  | nil => exact writes_restoreForegroundSpeed core

end BrokerCore

open BrokerCore

/-! ## What a call within a connection can do -/

/-- The calls that neither open nor lose the connection.  The foreground is restored by a call of
its own only together with a connection. -/
def BrokerOp.within : BrokerOp → Bool
  | .connectPhysical _ => false
  | .physicalError _ => false
  | .restoreForeground => false
  | _ => true

/-- The calls that can pass an ownership boundary. -/
def BrokerOp.passes : BrokerOp → Bool
  | .unregisterClient _ _ => true
  | .enqueue _ _ _ _ _ _ => true
  | .cancelClient _ _ _ => true
  | .cancelJob _ _ _ => true
  | .emergencyStop _ => true
  | .observeStatus _ _ => true
  | .confirmIdleAfterSettle _ _ _ => true
  | .watchdog _ => true
  | _ => false

/-- The calls that clear the keyer's buffer when they take the active job out. -/
def BrokerOp.clears : BrokerOp → Bool
  | .unregisterClient _ _ => true
  | .cancelClient _ _ _ => true
  | .cancelJob _ _ _ => true
  | .emergencyStop _ => true
  | .watchdog _ => true
  | _ => false

/-- What a call writes in front of an ownership boundary: a Clear Buffer, the key released with it or
not, or nothing. -/
structure Clearing (op : BrokerOp) (ending : List PhysicalAction) : Prop where
  passes : op.passes = true
  chunks : (op.clears = false ∧ writes ending = []) ∨
    (op.clears = true ∧ (writes ending = [[0x0a]] ∨ writes ending = [[0x0a, 0x0b, 0x00]]))

/-- What a call does to the settings, with the actions it returns. -/
inductive Course (core : BrokerCore) : BrokerOp → List PhysicalAction → BrokerCore → Prop
  | quiet {op : BrokerOp} {actions : List PhysicalAction} {core' : BrokerCore} :
      SameSettings core core' → writes actions = [] → Course core op actions core'
  /-- A chunk joins the active stream. -/
  | grew {a : ActiveJob} {payload : TransmitPayload} {speed : Option SpeedMode} {now clock : Nat}
      {core' : BrokerCore} :
      core.active = some a → SameSettings core core' →
      Course core (.enqueue a.job.clientId payload speed true now clock)
        [.write payload.wireBytes] core'
  /-- The active client, or the idle primary, passes a command on. -/
  | commanded {clientId : ClientId} {command : List UInt8} :
      (core.active = none → core.isPrimary clientId = true) →
      Course core (.activeOwnerCommand clientId command) [.write command] core
  /-- The idle primary clears the buffer. -/
  | swept {clientId : ClientId} {clock : Nat} {actions : List PhysicalAction} {core' : BrokerCore} :
      core.active = none → core.isPrimary clientId = true → SameSettings core core' →
      writes actions = [[0x0a]] → Course core (.cancelClient clientId true clock) actions core'
  | registered {clientId : ClientId} {primary : Bool} {core' : BrokerCore} :
      (primary = true → core.clients.toList.any (fun e => e.2.primary) = false) →
      SameSettings (core.withClient clientId { desiredSpeed := .pot, primary, profile := ∅ }) core' →
      Course core (.registerClient clientId primary) [] core'
  /-- A client leaves that has no active job. -/
  | unregistered {clientId : ClientId} {clock : Nat} {actions : List PhysicalAction}
      {core' : BrokerCore} :
      core.activeClientId ≠ some clientId →
      SameSettings { core with clients := core.clients.erase clientId
                               appliedProfileClientId := core.unmarked clientId } core' →
      writes actions = [] → Course core (.unregisterClient clientId clock) actions core'
  | paced {clientId : ClientId} {speed : SpeedMode} {client : ClientState} {core' : BrokerCore} :
      core.clients[clientId]? = some client →
      SameSettings (core.withClient clientId { client with desiredSpeed := speed }) core' →
      Course core (.setClientSpeed clientId speed)
        (if core.active.isNone && client.primary then [.write speed.command] else []) core'
  /-- The idle primary changes its profile: the command is written at once. -/
  | configured {clientId : ClientId} {command : List UInt8} {key : Nat} {client : ClientState}
      {core' : BrokerCore} :
      profileKey command = some key → core.clients[clientId]? = some client →
      core.active = none → client.primary = true →
      SameSettings { core.withClient clientId
          { client with profile := client.profile.insert key command } with
        appliedProfileClientId := some clientId } core' →
      Course core (.setClientCommand clientId command) [.write command] core'
  /-- Anybody else changes its profile: the command is stored. -/
  | stored {clientId : ClientId} {command : List UInt8} {key : Nat} {client : ClientState}
      {core' : BrokerCore} :
      profileKey command = some key → core.clients[clientId]? = some client →
      (core.active = none → client.primary = false) →
      SameSettings { core.withClient clientId
          { client with profile := client.profile.insert key command } with
        appliedProfileClientId := core.unmarked clientId } core' →
      Course core (.setClientCommand clientId command) [] core'
  /-- An ownership boundary: what was active ends, and `startNextOrRestore` goes on. -/
  | passed {op : BrokerOp} {mid : BrokerCore} {clock : Nat} {ending : List PhysicalAction} :
      Boundary core op mid → Clearing op ending →
      Course core op (ending ++ (mid.startNextOrRestore clock).2) (mid.startNextOrRestore clock).1

namespace Course

variable {core : BrokerCore}

/-- The call leaves everything alone. -/
theorem aside {op : BrokerOp} : Course core op [] core := .quiet .rfl rfl

/-- The boundary of a call that leaves the table alone. -/
theorem passing {op : BrokerOp} (mid : BrokerCore) (ending : List PhysicalAction) (clock : Nat)
    (idle : mid.active = none) (connected : mid.connected = core.connected)
    (queue : ∀ job ∈ mid.queue, job ∈ core.queue ∨ ∃ speed now clock,
      op = .enqueue job.clientId job.payload speed job.stream now clock)
    (clients : mid.clients = core.clients)
    (applied : mid.appliedProfileClientId = core.appliedProfileClientId)
    (chunks : Clearing op ending) :
    Course core op (ending ++ (mid.startNextOrRestore clock).2) (mid.startNextOrRestore clock).1 :=
  .passed ⟨idle, connected, queue, Or.inl ⟨clients, applied⟩⟩ chunks

theorem registerClient (clientId : ClientId) (primary : Bool) :
    Course core (.registerClient clientId primary) [] (core.registerClient clientId primary).1 := by
  unfold BrokerCore.registerClient
  split
  · exact aside
  · rename_i free
    refine .registered (fun registers => ?_) ⟨rfl, rfl, rfl, rfl⟩
    simpa [registers] using free

theorem unregisterClient (clientId : ClientId) (clock : Nat) :
    Course core (.unregisterClient clientId clock) (core.unregisterClient clientId clock).2
      (core.unregisterClient clientId clock).1 := by
  cases active : core.active with
  | none =>
      have other : core.activeClientId ≠ some clientId := by simp [activeClientId, active]
      simp only [BrokerCore.unregisterClient, active]
      exact .unregistered other ⟨rfl, rfl, rfl, by simp [activeClientId, active]⟩
        (writes_cancellations _)
  | some a =>
      by_cases owner : a.job.clientId = clientId
      · simp only [BrokerCore.unregisterClient, active, owner, if_true]
        refine .passed ⟨rfl, rfl, fun job kept => Or.inl (List.mem_of_mem_filter kept),
          Or.inr ⟨clientId, clock, rfl, ?_, rfl, rfl⟩⟩ ⟨rfl, Or.inr ⟨rfl, Or.inl ?_⟩⟩
        · simp [activeClientId, active, owner]
        · rw [writes_append, writes_cancellations]
          rfl
      · have other : core.activeClientId ≠ some clientId := by simp [activeClientId, active, owner]
        simp only [BrokerCore.unregisterClient, active, owner, if_false]
        exact .unregistered other ⟨rfl, rfl, rfl, by simp [activeClientId, active]⟩
          (writes_cancellations _)

theorem setClientSpeed (clientId : ClientId) (speed : SpeedMode) :
    Course core (.setClientSpeed clientId speed) (core.setClientSpeed clientId speed).2
      (core.setClientSpeed clientId speed).1 := by
  unfold BrokerCore.setClientSpeed
  split
  · exact aside
  · rename_i client known
    exact .paced known ⟨rfl, rfl, rfl, rfl⟩

theorem setClientCommand {clientId : ClientId} {command : List UInt8} {core' : BrokerCore}
    {actions : List PhysicalAction}
    (h : core.setClientCommand clientId command = some (core', actions)) :
    Course core (.setClientCommand clientId command) actions core' := by
  unfold BrokerCore.setClientCommand at h
  split at h
  · cases h
  rename_i key keyed
  split at h
  · cases h
  rename_i client known
  by_cases now : core.active.isNone && client.primary
  · rw [if_pos now, Option.some.injEq, Prod.mk.injEq] at h
    obtain ⟨rfl, rfl⟩ := h
    obtain ⟨idle, primary⟩ := Bool.and_eq_true_iff.mp now
    refine .configured keyed known (Option.isNone_iff_eq_none.mp idle) primary ?_
    cases speedPotMinimum command <;> exact ⟨rfl, rfl, rfl, rfl⟩
  · have later : core.active = none → client.primary = false := by
      intro idle
      simpa [idle] using now
    rw [if_neg now] at h
    split at h
    · rename_i marked
      rw [Option.some.injEq, Prod.mk.injEq] at h
      obtain ⟨rfl, rfl⟩ := h
      refine .stored keyed known later ⟨rfl, ?_, rfl, rfl⟩
      exact (if_pos marked).symm
    · rename_i unmarked
      rw [Option.some.injEq, Prod.mk.injEq] at h
      obtain ⟨rfl, rfl⟩ := h
      refine .stored keyed known later ⟨rfl, ?_, rfl, rfl⟩
      exact (if_neg unmarked).symm

theorem activeOwnerCommand (clientId : ClientId) (command : List UInt8) :
    Course core (.activeOwnerCommand clientId command)
      ((core.activeOwnerCommand clientId command).getD []) core := by
  unfold BrokerCore.activeOwnerCommand
  cases active : core.active with
  | none =>
      cases primary : core.isPrimary clientId
      · exact aside
      · exact .commanded (fun _ => primary)
  | some a =>
      cases owner : a.job.clientId == clientId
      · simp only [owner, Bool.false_eq_true, if_false, Option.getD_none]
        exact aside
      · simp only [owner, if_true, Option.getD_some]
        exact .commanded (fun idle => by rw [active] at idle; cases idle)

theorem enqueue {clientId : ClientId} {payload : TransmitPayload} {speed : Option SpeedMode}
    {stream : Bool} {now clock : Nat} {core' : BrokerCore} {jobId : Nat}
    {actions : List PhysicalAction}
    (h : core.enqueue clientId payload speed stream now clock = some (core', jobId, actions)) :
    Course core (.enqueue clientId payload speed stream now clock) actions core' := by
  cases enqueue_cases h with
  | joinedActive streams joins _ =>
      subst streams
      obtain ⟨active, rfl, _⟩ := activeStream?_eq_some.mp joins
      exact .grew active ⟨rfl, rfl, rfl, by simp [activeClientId, active, Job.grow]⟩
  | joinedTail | waits => exact .quiet ⟨rfl, rfl, rfl, rfl⟩ rfl
  | starts _ _ _ idle opened =>
      subst opened
      refine .passing _ [] clock idle rfl ?_ rfl rfl ⟨rfl, Or.inl ⟨rfl, rfl⟩⟩
      intro job queued
      rcases List.mem_append.mp queued with waiting | last
      · exact Or.inl waiting
      · obtain rfl := List.mem_singleton.mp last
        exact Or.inr ⟨speed, now, clock, rfl⟩

theorem cancelClient (clientId : ClientId) (includeActive : Bool) (clock : Nat) :
    Course core (.cancelClient clientId includeActive clock)
      (core.cancelClient clientId includeActive clock).2
      (core.cancelClient clientId includeActive clock).1 := by
  unfold BrokerCore.cancelClient
  cases active : core.active with
  | none =>
      simp only []
      split
      · rename_i clears
        obtain ⟨rfl, primary⟩ := Bool.and_eq_true_iff.mp clears
        refine .swept active primary ⟨rfl, rfl, rfl, by simp [activeClientId, active]⟩ ?_
        exact congrArg ([0x0a] :: ·) (writes_cancellations _)
      · exact .quiet ⟨rfl, rfl, rfl, by simp [activeClientId, active]⟩ (writes_cancellations _)
  | some a =>
      simp only []
      split
      · refine .passing _ _ clock rfl rfl (fun job kept => Or.inl (List.mem_of_mem_filter kept)) rfl rfl
          ⟨rfl, Or.inr ⟨rfl, Or.inl ?_⟩⟩
        rw [writes_append]
        exact congrArg ([0x0a] :: · ++ []) (writes_cancellations _)
      · exact .quiet ⟨rfl, rfl, rfl, by simp [activeClientId, active]⟩ (writes_cancellations _)

theorem cancelJob (clientId : ClientId) (jobId : Nat) (clock : Nat) :
    Course core (.cancelJob clientId jobId clock) (core.cancelJob clientId jobId clock).2.2
      (core.cancelJob clientId jobId clock).1 := by
  unfold BrokerCore.cancelJob
  split
  · exact .passing _ [.write [0x0a], cancellation _] clock rfl rfl (fun _ => Or.inl) rfl rfl
      ⟨rfl, Or.inr ⟨rfl, Or.inl rfl⟩⟩
  · exact .quiet ⟨rfl, rfl, rfl, rfl⟩ (writes_cancellations _)

theorem emergencyStop (op : BrokerOp) (passes : op.passes = true) (clears : op.clears = true)
    (reason : String) :
    Course core op (core.emergencyStop reason).2 (core.emergencyStop reason).1 := by
  let mid : BrokerCore := { core with active := none, queue := [], lastSafetyAction := some reason }
  let ending : List PhysicalAction := .write [0x0a, 0x0b, 0x00] ::
    (core.active.toList.map (fun active => cancellation active.job) ++ core.queue.map cancellation)
  have chunks : writes ending = [[0x0a, 0x0b, 0x00]] := by
    have jobs : writes (core.active.toList.map (fun active => cancellation active.job)) = [] := by
      cases core.active <;> rfl
    show [0x0a, 0x0b, 0x00] :: writes (_ ++ _) = _
    rw [writes_append, writes_cancellations, jobs]
    rfl
  -- With an empty queue, going on is restoring the foreground.
  exact .passing mid ending 0 rfl rfl (fun _ none' => by cases none') rfl rfl
    ⟨passes, Or.inr ⟨clears, Or.inr chunks⟩⟩

theorem completeActive (op : BrokerOp) (passes : op.passes = true) (silent : op.clears = false)
    {core' : BrokerCore} (clock : Nat) (same : SameSettings core core')
    (queue : core'.queue = core.queue) :
    Course core op (core'.completeActive clock).2 (core'.completeActive clock).1 := by
  unfold BrokerCore.completeActive
  split
  · exact .quiet same rfl
  · rename_i a _
    exact .passing { core' with active := none } [.completed a.job.id a.job.clientId] clock rfl
      same.connected (fun job queued => Or.inl (queue ▸ queued)) same.clients same.applied
      ⟨passes, Or.inl ⟨silent, rfl⟩⟩

theorem observeStatus (status : DeviceStatus) (clock : Nat) :
    Course core (.observeStatus status clock) (core.observeStatus status clock).2
      (core.observeStatus status clock).1 := by
  unfold BrokerCore.observeStatus
  split
  · exact .quiet ⟨rfl, rfl, rfl, rfl⟩ rfl
  · rename_i a active
    have same : ∀ b : ActiveJob, b.job = a.job →
        SameSettings core { core with status, active := some b } := by
      intro b job
      exact ⟨rfl, rfl, rfl, by simp [activeClientId, active, job]⟩
    split
    · exact .quiet (same _ rfl) rfl
    · split
      · exact completeActive _ rfl rfl clock (same _ rfl) rfl
      · exact .quiet (same _ rfl) rfl

end Course

theorem effect_within (core : BrokerCore) {op : BrokerOp} (within : op.within = true) :
    Effect core op (op.apply core).2 (op.apply core).1 := by
  refine broker_effect (if_neg ?_)
  rintro ⟨restores, _⟩
  cases op with
  | restoreForeground => cases within
  | _ => cases restores

/-- **Every call within a connection takes one of the courses.** -/
theorem apply_course (core : BrokerCore) {op : BrokerOp} (within : op.within = true) :
    Course core op (op.apply core).2.actions (op.apply core).1 := by
  cases op with
  | connectPhysical | physicalError | restoreForeground => cases within
  | recordSafetyAction | observePot => exact .quiet ⟨rfl, rfl, rfl, rfl⟩ rfl
  | registerClient clientId primary => exact .registerClient clientId primary
  | unregisterClient clientId clock => exact .unregisterClient clientId clock
  | setClientSpeed clientId speed => exact .setClientSpeed clientId speed
  | setClientCommand clientId command =>
      simp only [BrokerOp.apply]
      split
      · rename_i set
        exact .setClientCommand set
      · exact .aside
  | activeOwnerCommand clientId command => exact .activeOwnerCommand clientId command
  | enqueue clientId payload speed stream now clock =>
      simp only [BrokerOp.apply]
      split
      · rename_i accepted
        exact .enqueue accepted
      · exact .aside
  | cancelClient clientId includeActive clock => exact .cancelClient clientId includeActive clock
  | cancelJob clientId jobId clock => exact .cancelJob clientId jobId clock
  | emergencyStop reason => exact .emergencyStop _ rfl rfl reason
  | observeStatus status clock => exact .observeStatus status clock
  | confirmIdleAfterSettle now settle clock =>
      show Course core _ (core.confirmIdleAfterSettle now settle clock).2
        (core.confirmIdleAfterSettle now settle clock).1
      unfold BrokerCore.confirmIdleAfterSettle
      split
      · exact .completeActive _ rfl rfl clock .rfl rfl
      · exact .aside
  | watchdog now =>
      show Course core _ (core.watchdog now).2 (core.watchdog now).1
      unfold BrokerCore.watchdog
      split
      · exact .emergencyStop _ rfl rfl _
      · exact .aside

end CatHub.WinKeyer
