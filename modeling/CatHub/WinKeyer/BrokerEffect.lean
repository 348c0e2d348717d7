/-
# CatHub.WinKeyer.BrokerEffect — what one call of the broker core can do to its schedule.

The schedule is the active slot, the queue and the id counter.  `Effect` lists, once, the eight
ways in which a call can change it together with the actions it returns, and `broker_effect` shows
that every enabled call is one of them.  The results about runs of the core take a call apart with
`broker_effect` and never unfold an operation.

Starting the next job is described by `Begins`, taking the active job out by `Ending`, an accepted
enqueue by `Enqueued`.
-/
import CatHub.WinKeyer.Broker

namespace CatHub.WinKeyer

namespace BrokerCore

/-! ## Starting the next job -/

/-- `b` has the schedule of `a`, up to the evidence flags of the active job. -/
structure SameSchedule (a b : BrokerCore) : Prop where
  active : b.active.map (·.job) = a.active.map (·.job)
  startedAt : b.active.map (·.startedAt) = a.active.map (·.startedAt)
  queue : b.queue = a.queue
  nextJobId : b.nextJobId = a.nextJobId

theorem SameSchedule.rfl {a : BrokerCore} : SameSchedule a a :=
  ⟨Eq.refl _, Eq.refl _, Eq.refl _, Eq.refl _⟩

theorem SameSchedule.symm {a b : BrokerCore} (same : SameSchedule a b) : SameSchedule b a :=
  ⟨same.active.symm, same.startedAt.symm, same.queue.symm, same.nextJobId.symm⟩

theorem SameSchedule.idle {a b : BrokerCore} (same : SameSchedule a b) (idle : a.active = none) :
    b.active = none := by
  have job := same.active
  rw [idle] at job
  exact Option.map_eq_none_iff.mp job

/-- Only the evidence flags of the active job may differ. -/
theorem SameSchedule.busy {a b : BrokerCore} (same : SameSchedule a b) {x : ActiveJob}
    (active : a.active = some x) :
    ∃ y, b.active = some y ∧ y.job = x.job ∧ y.startedAt = x.startedAt := by
  have job := same.active
  have started := same.startedAt
  rw [active, Option.map_some] at job started
  obtain ⟨y, active', job⟩ := Option.map_eq_some_iff.mp job
  rw [active', Option.map_some] at started
  exact ⟨y, active', job, Option.some.inj started⟩

theorem SameSchedule.activeJobId {a b : BrokerCore} (same : SameSchedule a b) :
    b.activeJobId = a.activeJobId := by
  have job := congrArg (Option.map Job.id) same.active
  simpa [BrokerCore.activeJobId, Option.map_map, Function.comp_def] using job

theorem applyProfileOf_same (core : BrokerCore) (clientId : ClientId) :
    SameSchedule core (core.applyProfileOf clientId) := by
  unfold applyProfileOf
  split <;> exact ⟨rfl, rfl, rfl, rfl⟩

theorem replay_writes (profile : Profile) :
    replay profile = (profile.toList.map Prod.snd).map .write := by
  simp [replay, Function.comp_def]

/-- Restoring the foreground keeps the schedule and only writes. -/
theorem restoreForegroundSpeed_spec (core : BrokerCore) :
    SameSchedule core core.restoreForegroundSpeed.1 ∧
      ∃ ws : List (List UInt8), core.restoreForegroundSpeed.2 = ws.map .write := by
  refine ⟨⟨rfl, rfl, rfl, rfl⟩, ?_⟩
  unfold restoreForegroundSpeed
  cases core.foreground with
  | none => exact ⟨[SpeedMode.pot.command], rfl⟩
  | some e =>
      by_cases changed : some e.1 != core.appliedProfileClientId
      · exact ⟨e.2.profile.toList.map Prod.snd ++ [e.2.desiredSpeed.command], by
          simp [changed, replay_writes]⟩
      · exact ⟨[e.2.desiredSpeed.command], by simp [changed]⟩

/-- Starting from `mid` at `clock`: with an empty queue only the foreground is restored, otherwise
the head of the queue becomes active and its profile, speed and payload are written. -/
inductive Begins (mid : BrokerCore) (clock : Nat) :
    BrokerCore → List PhysicalAction → Prop
  | drained {core : BrokerCore} (ws : List (List UInt8)) :
      mid.queue = [] → SameSchedule mid core → Begins mid clock core (ws.map .write)
  | started {core : BrokerCore} {job : Job} {rest : List Job} :
      mid.queue = job :: rest →
      core.active = some { job, sawBusy := false, observedStatus := false, startedAt := clock } →
      core.queue = rest → core.nextJobId = mid.nextJobId →
      Begins mid clock core (mid.profileReplay job.clientId ++ speedPrefix job ++
        [.write job.payload.wireBytes, .write [0x15]])

theorem startNextOrRestore_begins (mid : BrokerCore) (clock : Nat) :
    Begins mid clock (mid.startNextOrRestore clock).1 (mid.startNextOrRestore clock).2 := by
  unfold startNextOrRestore
  split
  · rename_i job rest head
    refine .started head rfl ?_ ?_
    · split
      · exact (applyProfileOf_same _ _).queue
      · rfl
    · split
      · exact (applyProfileOf_same _ _).nextJobId
      · rfl
  · rename_i empty
    obtain ⟨same, ws, writes⟩ := restoreForegroundSpeed_spec mid
    rw [writes]
    exact .drained ws empty same

/-- The job that is active after a start is the queue's head, and it has been written. -/
theorem Begins.active {mid core : BrokerCore} {clock : Nat} {actions : List PhysicalAction}
    {b : ActiveJob} (begins : Begins mid clock core actions) (idle : mid.active = none)
    (active : core.active = some b) :
    b.startedAt = clock ∧ ∃ rest, mid.queue = b.job :: rest ∧
      actions = mid.profileReplay b.job.clientId ++ speedPrefix b.job ++
        [.write b.job.payload.wireBytes, .write [0x15]] := by
  cases begins with
  | drained ws empty same =>
      rw [same.idle idle] at active
      cases active
  | started head active' =>
      rw [active'] at active
      cases active
      exact ⟨rfl, _, head, rfl⟩

/-! ## Taking the active job out -/

/-- The actions that take the active job `a` out, together with the queued jobs `dropped`: its
completion, or Clear Buffer and the cancellations, with `a`'s own last. -/
inductive Ending (a : ActiveJob) : List Job → List PhysicalAction → Prop
  | completed : Ending a [] [.completed a.job.id a.job.clientId]
  | cleared (dropped : List Job) :
      Ending a dropped (.write [0x0a] :: dropped.map cancellation ++ [cancellation a.job])
  | unregistered (dropped : List Job) :
      Ending a dropped (dropped.map cancellation ++ [.write [0x0a], cancellation a.job])

end BrokerCore

open BrokerCore

/-! ## The bytes of some actions -/

/-- The stored commands of a client, as they are replayed. -/
def storedCommands (profile : Profile) : List (List UInt8) := profile.toList.map Prod.snd

/-- The speed command in front of a job, if it gets one. -/
def speedChunk (job : Job) : List (List UInt8) :=
  if job.payload.wireBytes.head? ≠ some 0x1c then [job.speed.command] else []

/-- The chunks that some actions write. -/
def writes (actions : List PhysicalAction) : List (List UInt8) :=
  actions.filterMap fun
    | .write bytes => some bytes
    | _ => none

@[simp] theorem writes_append (actions more : List PhysicalAction) :
    writes (actions ++ more) = writes actions ++ writes more := List.filterMap_append

@[simp] theorem writes_cancellations (jobs : List Job) : writes (jobs.map cancellation) = [] := by
  induction jobs with
  | nil => rfl
  | cons job jobs ih => exact ih

@[simp] theorem writes_map (chunks : List (List UInt8)) :
    writes (chunks.map .write) = chunks := by
  induction chunks with
  | nil => rfl
  | cons chunk chunks ih => exact congrArg (chunk :: ·) ih

theorem writes_replay (profile : Profile) : writes (replay profile) = storedCommands profile := by
  rw [replay_writes, writes_map, storedCommands]

/-- A client's command is written as it is, or only stored. -/
theorem setClientCommand_actions {core core' : BrokerCore} {clientId : ClientId}
    {command : List UInt8} {actions : List PhysicalAction}
    (set : core.setClientCommand clientId command = some (core', actions)) :
    actions = [.write command] ∨ actions = [] := by
  unfold BrokerCore.setClientCommand at set
  split at set
  · cases set
  split at set
  · cases set
  split at set
  · obtain ⟨_, rfl⟩ := Prod.mk.inj (Option.some.inj set)
    exact Or.inl rfl
  · split at set
    · obtain ⟨_, rfl⟩ := Prod.mk.inj (Option.some.inj set)
      exact Or.inr rfl
    · obtain ⟨_, rfl⟩ := Prod.mk.inj (Option.some.inj set)
      exact Or.inr rfl

/-- An owner's command is written as it is, or refused. -/
theorem activeOwnerCommand_actions (core : BrokerCore) (clientId : ClientId) (command : List UInt8) :
    (core.activeOwnerCommand clientId command).getD [] = [.write command] ∨
      (core.activeOwnerCommand clientId command).getD [] = [] := by
  unfold BrokerCore.activeOwnerCommand
  cases core.active with
  | none =>
      cases core.isPrimary clientId
      · exact Or.inr rfl
      · exact Or.inl rfl
  | some a =>
      simp only []
      split
      · exact Or.inl rfl
      · exact Or.inr rfl

/-- The actions only write. -/
def OnlyWrites (actions : List PhysicalAction) : Prop :=
  ∃ chunks : List (List UInt8), actions = chunks.map .write

namespace OnlyWrites

theorem none : OnlyWrites [] := ⟨[], rfl⟩

theorem one (chunk : List UInt8) : OnlyWrites [.write chunk] := ⟨[chunk], rfl⟩

theorem append {actions more : List PhysicalAction} (first : OnlyWrites actions)
    (second : OnlyWrites more) : OnlyWrites (actions ++ more) := by
  obtain ⟨chunks, rfl⟩ := first
  obtain ⟨others, rfl⟩ := second
  exact ⟨chunks ++ others, List.map_append.symm⟩

theorem replay (profile : Profile) : OnlyWrites (replay profile) := ⟨_, replay_writes profile⟩

theorem profileReplay (core : BrokerCore) (clientId : ClientId) :
    OnlyWrites (core.profileReplay clientId) := by
  unfold BrokerCore.profileReplay
  split
  · cases core.clients[clientId]? with
    | none => exact none
    | some client => exact replay client.profile
  · exact none

theorem speedPrefix (job : Job) : OnlyWrites (speedPrefix job) := by
  unfold BrokerCore.speedPrefix
  split
  · exact one _
  · exact none

theorem begins {mid core : BrokerCore} {clock : Nat} {actions : List PhysicalAction}
    (begins : Begins mid clock core actions) : OnlyWrites actions := by
  cases begins with
  | drained ws => exact ⟨ws, rfl⟩
  | started =>
      exact ((profileReplay _ _).append (speedPrefix _)).append ⟨[_, [0x15]], rfl⟩

end OnlyWrites

/-! ## What an accepted enqueue does -/

namespace BrokerCore

theorem activeStream?_eq_some {core : BrokerCore} {clientId : ClientId} {a : ActiveJob} :
    core.activeStream? clientId = some a ↔
      core.active = some a ∧ a.job.clientId = clientId ∧ a.job.stream = true := by
  rw [activeStream?, Option.filter_eq_some_iff, Job.isStreamOf, Bool.and_eq_true, beq_iff_eq]

/-- The tail stream, and the queue as it ends in it. -/
theorem tailStream?_eq_some {core : BrokerCore} {clientId : ClientId} {queued : Job}
    (joins : core.tailStream? clientId = some queued) :
    core.queue = core.queue.dropLast ++ [queued] ∧ queued.clientId = clientId ∧
      queued.stream = true := by
  rw [tailStream?, Option.filter_eq_some_iff, Job.isStreamOf, Bool.and_eq_true,
    beq_iff_eq] at joins
  obtain ⟨last, owner, streams⟩ := joins
  exact ⟨(List.dropLast_append_getLast? queued last).symm, owner, streams⟩

/-- No stream chunk of `clientId` may join a job, if the payload is one. -/
def Apart (core : BrokerCore) (clientId : ClientId) (stream : Bool) : Prop :=
  stream = true → core.activeStream? clientId = none ∧ core.tailStream? clientId = none

/-- The job that a payload opens. -/
def newJob (core : BrokerCore) (clientId : ClientId) (payload : TransmitPayload) (speed : SpeedMode)
    (stream : Bool) (now : Nat) : Job :=
  { id := core.nextJobId, clientId, payload, speed, queuedAt := now, stream }

/-- The core with `job` behind its queue, and the id counter past it. -/
def withJob (core : BrokerCore) (job : Job) : BrokerCore :=
  { core with nextJobId := min (core.nextJobId + 1) u64Max, queue := core.queue ++ [job] }

/-- How the payload of `clientId` is taken in: it joins the client's active stream, or the one at
the queue's tail, or it opens a job, which waits while another is active and starts otherwise. -/
inductive Enqueued (core : BrokerCore) (clientId : ClientId) (payload : TransmitPayload)
    (speed : Option SpeedMode) (stream : Bool) (now clock : Nat) :
    BrokerCore → Nat → List PhysicalAction → Prop
  | joinedActive {a : ActiveJob} :
      stream = true → core.activeStream? clientId = some a →
      a.job.payload.wireBytes.length + payload.wireBytes.length ≤ maxJobBytes →
      Enqueued core clientId payload speed stream now clock
        { core with active := some { a with job := a.job.grow payload } } a.job.id
        [.write payload.wireBytes]
  | joinedTail {queued : Job} :
      stream = true → core.activeStream? clientId = none →
      core.tailStream? clientId = some queued →
      queued.payload.wireBytes.length + payload.wireBytes.length ≤ maxJobBytes →
      Enqueued core clientId payload speed stream now clock
        { core with queue := core.queue.dropLast ++ [queued.grow payload] } queued.id []
  | waits {client : ClientState} :
      core.clients[clientId]? = some client → core.Apart clientId stream →
      core.queue.length < maxQueuedJobs → core.active.isSome →
      Enqueued core clientId payload speed stream now clock
        (core.withJob (core.newJob clientId payload (speed.getD client.desiredSpeed) stream now))
        core.nextJobId []
  | starts {client : ClientState} {opened : BrokerCore} :
      core.clients[clientId]? = some client → core.Apart clientId stream →
      core.queue.length < maxQueuedJobs → core.active = none →
      opened = core.withJob
        (core.newJob clientId payload (speed.getD client.desiredSpeed) stream now) →
      Enqueued core clientId payload speed stream now clock (opened.startNextOrRestore clock).1
        core.nextJobId (opened.startNextOrRestore clock).2

/-- What an accepted enqueue has checked. -/
theorem enqueue_checks {core core' : BrokerCore} {clientId : ClientId} {payload : TransmitPayload}
    {speed : Option SpeedMode} {stream : Bool} {now clock jobId : Nat}
    {actions : List PhysicalAction}
    (h : core.enqueue clientId payload speed stream now clock = some (core', jobId, actions)) :
    payload.wireBytes ≠ [] ∧ payload.wireBytes.length ≤ maxJobBytes ∧ core.connected = true ∧
      (core.clients[clientId]?).isSome := by
  unfold enqueue at h
  split at h
  · cases h
  rename_i valid
  have valid : (payload.wireBytes ≠ [] ∧ payload.wireBytes.length ≤ maxJobBytes) ∧
      core.connected = true := by
    simpa [not_or] using valid
  split at h
  · cases h
  rename_i known
  exact ⟨valid.1.1, valid.1.2, valid.2, by rw [known]; rfl⟩

theorem openJob_cases {core core' : BrokerCore} {clientId : ClientId} {payload : TransmitPayload}
    {speed : Option SpeedMode} {stream : Bool} {now clock jobId : Nat} {client : ClientState}
    {actions : List PhysicalAction} (known : core.clients[clientId]? = some client)
    (apart : core.Apart clientId stream)
    (h : core.openJob clientId payload (speed.getD client.desiredSpeed) stream now clock =
      some (core', jobId, actions)) :
    core.Enqueued clientId payload speed stream now clock core' jobId actions := by
  unfold openJob at h
  split at h
  · cases h
  rename_i full
  have room : core.queue.length < maxQueuedJobs := Nat.not_le.mp full
  split at h
  · rename_i idle
    cases h
    exact .starts known apart room (Option.isNone_iff_eq_none.mp idle) rfl
  · rename_i busy
    cases h
    exact .waits known apart room (by simpa [Option.isSome_iff_ne_none] using busy)

theorem enqueue_cases {core core' : BrokerCore} {clientId : ClientId} {payload : TransmitPayload}
    {speed : Option SpeedMode} {stream : Bool} {now clock jobId : Nat}
    {actions : List PhysicalAction}
    (h : core.enqueue clientId payload speed stream now clock = some (core', jobId, actions)) :
    core.Enqueued clientId payload speed stream now clock core' jobId actions := by
  unfold enqueue at h
  split at h
  · cases h
  split at h
  · cases h
  rename_i client known
  split at h
  · -- the active job is a stream of this client
    rename_i joins
    obtain ⟨streams, joins⟩ := Option.ite_none_right_eq_some.mp joins
    unfold growActive at h
    split at h
    · cases h
    · rename_i fits
      cases h
      exact .joinedActive streams joins (Nat.not_lt.mp fits)
  rename_i apart
  split at h
  · -- the job at the queue's tail is one
    rename_i joins
    obtain ⟨streams, joins⟩ := Option.ite_none_right_eq_some.mp joins
    rw [if_pos streams] at apart
    unfold growTail at h
    split at h
    · cases h
    · rename_i fits
      cases h
      exact .joinedTail streams apart joins (Nat.not_lt.mp fits)
  rename_i behind
  refine openJob_cases known (fun streams => ?_) h
  rw [if_pos streams] at apart behind
  exact ⟨apart, behind⟩

end BrokerCore

/-! ## Calls that hand something in -/

/-- A call that only adds work, or hands in a speed or a command. -/
def BrokerOp.handsIn : BrokerOp → Bool
  | .enqueue _ _ _ _ _ _ | .setClientSpeed _ _ | .setClientCommand _ _ | .activeOwnerCommand _ _ =>
      true
  | _ => false

theorem OnlyWrites.handedIn (core : BrokerCore) {op : BrokerOp} (handsIn : op.handsIn = true) :
    OnlyWrites (op.apply core).2.actions := by
  cases op with
  | setClientSpeed clientId speed =>
      simp only [BrokerOp.apply, BrokerCore.setClientSpeed]
      split
      · exact .none
      · split
        · exact .one _
        · exact .none
  | enqueue =>
      simp only [BrokerOp.apply]
      split
      · rename_i taken
        cases enqueue_cases taken with
        | joinedActive => exact .one _
        | joinedTail | waits => exact .none
        | starts => exact .begins (startNextOrRestore_begins _ _)
      · exact .none
  | setClientCommand =>
      simp only [BrokerOp.apply]
      split
      · rename_i set
        rcases setClientCommand_actions set with rfl | rfl
        · exact .one _
        · exact .none
      · exact .none
  | activeOwnerCommand clientId command =>
      simp only [BrokerOp.apply]
      rcases activeOwnerCommand_actions core clientId command with same | same
      · rw [same]
        exact .one _
      · rw [same]
        exact .none
  | _ => cases handsIn

/-! ## The eight effects -/

/-- What a call can do to the schedule, with the answer it returns. -/
inductive Effect (core : BrokerCore) : BrokerOp → Answer → BrokerCore → Prop
  /-- The schedule stays; while a job is active only its owner's command is written. -/
  | quiet {op : BrokerOp} {core' : BrokerCore} (ws : List (List UInt8)) :
      SameSchedule core core' →
      (∀ a, core.active = some a →
        ws = [] ∨ ∃ command, op = .activeOwnerCommand a.job.clientId command ∧ ws = [command]) →
      Effect core op { actions := ws.map .write } core'
  /-- A stream chunk joins the active job and is written at once. -/
  | grewActive {a : ActiveJob} {payload : TransmitPayload} {speed : Option SpeedMode}
      {now clock : Nat} :
      core.active = some a → a.job.stream = true → payload.wireBytes ≠ [] →
      a.job.payload.wireBytes.length + payload.wireBytes.length ≤ maxJobBytes →
      Effect core (.enqueue a.job.clientId payload speed true now clock)
        { accepted := some a.job.id, actions := [.write payload.wireBytes] }
        { core with active := some { a with job := a.job.grow payload } }
  /-- A stream chunk joins the job at the queue's tail. -/
  | grewTail {front : List Job} {queued : Job} {payload : TransmitPayload}
      {speed : Option SpeedMode} {now clock : Nat} :
      core.queue = front ++ [queued] → queued.stream = true →
      Effect core (.enqueue queued.clientId payload speed true now clock)
        { accepted := some queued.id } { core with queue := front ++ [queued.grow payload] }
  /-- A new job waits behind an active one. -/
  | queued {job : Job} {speed : Option SpeedMode} {now clock : Nat} :
      core.active.isSome → job.id = core.nextJobId →
      Effect core (.enqueue job.clientId job.payload speed job.stream now clock)
        { accepted := some job.id }
        { core with nextJobId := min (core.nextJobId + 1) u64Max, queue := core.queue ++ [job] }
  /-- A new job comes in while nothing is active: the queue's head starts. -/
  | opened {job : Job} {speed : Option SpeedMode} {now clock : Nat} {core' : BrokerCore}
      {started : List PhysicalAction} :
      core.active = none → job.id = core.nextJobId →
      Begins { core with nextJobId := min (core.nextJobId + 1) u64Max
                         queue := core.queue ++ [job] } clock core' started →
      Effect core (.enqueue job.clientId job.payload speed job.stream now clock)
        { accepted := some job.id, actions := started } core'
  /-- Queued jobs are withdrawn and the active job stays. -/
  | withdrew {op : BrokerOp} {core' : BrokerCore} (p : Job → Bool) (ws : List (List UInt8)) :
      core'.active = core.active → core'.queue = core.queue.filter (fun job => !p job) →
      core'.nextJobId = core.nextJobId → (core.active.isSome → ws = []) →
      Effect core op { actions := ws.map .write ++ (core.queue.filter p).map cancellation } core'
  /-- The active job ends, queued jobs that satisfy `p` with it, and the next one starts. -/
  | ended {op : BrokerOp} {a : ActiveJob} {mid core' : BrokerCore}
      {ending started : List PhysicalAction} (p : Job → Bool) :
      core.active = some a → mid.active = none →
      mid.queue = core.queue.filter (fun job => !p job) → mid.nextJobId = core.nextJobId →
      (∀ job ∈ mid.queue, mid.clients[job.clientId]? = core.clients[job.clientId]?) →
      Ending a (core.queue.filter p) ending → Begins mid op.clock core' started →
      Effect core op { actions := ending ++ started } core'
  /-- Everything is canceled and nothing starts. -/
  | halted {op : BrokerOp} {core' : BrokerCore} (clear ws : List (List UInt8)) :
      clear = [] ∨ clear = [[0x0a, 0x0b, 0x00]] →
      core'.active = none → core'.queue = [] → core'.nextJobId = core.nextJobId →
      Effect core op
        { actions := clear.map .write ++
            ((core.active.toList.map (fun a => cancellation a.job)) ++
              core.queue.map cancellation ++ ws.map .write) } core'

namespace Effect

variable {core : BrokerCore}

/-- A call that changes nothing of the schedule and returns no action. -/
theorem silent {op : BrokerOp} {core' : BrokerCore} (same : SameSchedule core core') :
    Effect core op {} core' :=
  .quiet [] same (fun _ _ => Or.inl rfl)

/-- A call that keeps the schedule and writes only while nothing is active. -/
theorem idleWrite {op : BrokerOp} {core' : BrokerCore} (ws : List (List UInt8))
    (same : SameSchedule core core') (idle : core.active = none) :
    Effect core op { actions := ws.map .write } core' :=
  .quiet ws same (fun a h => by simp [idle] at h)

/-- The active job ends and whatever the queue then holds starts. -/
theorem endedThen {op : BrokerOp} {a : ActiveJob} {mid : BrokerCore}
    {ending : List PhysicalAction} (p : Job → Bool) (active : core.active = some a)
    (idle : mid.active = none) (queue : mid.queue = core.queue.filter (fun job => !p job))
    (next : mid.nextJobId = core.nextJobId)
    (table : ∀ job ∈ mid.queue, mid.clients[job.clientId]? = core.clients[job.clientId]?)
    (out : Ending a (core.queue.filter p) ending) :
    Effect core op { actions := ending ++ (mid.startNextOrRestore op.clock).2 }
      (mid.startNextOrRestore op.clock).1 :=
  .ended p active idle queue next table out (startNextOrRestore_begins mid op.clock)

/-! ## Every operation has one of the effects -/

theorem physicalError (error : String) :
    Effect core (.physicalError error) { actions := (core.physicalError error).2 }
      (core.physicalError error).1 := by
  have stopped : Effect core (.physicalError error)
      { actions := ([] : List (List UInt8)).map .write ++
          ((core.active.toList.map (fun a => cancellation a.job)) ++
            core.queue.map cancellation ++ ([] : List (List UInt8)).map .write) }
      (core.physicalError error).1 := .halted [] [] (Or.inl rfl) rfl rfl rfl
  simpa only [BrokerCore.physicalError, List.map_nil, List.nil_append, List.append_nil] using
    stopped

theorem registerClient (clientId : ClientId) (primary : Bool) :
    Effect core (.registerClient clientId primary) {} (core.registerClient clientId primary).1 := by
  refine silent ?_
  unfold BrokerCore.registerClient
  split <;> exact ⟨rfl, rfl, rfl, rfl⟩

theorem setClientSpeed (clientId : ClientId) (speed : SpeedMode) :
    Effect core (.setClientSpeed clientId speed)
      { actions := (core.setClientSpeed clientId speed).2 }
      (core.setClientSpeed clientId speed).1 := by
  unfold BrokerCore.setClientSpeed
  split
  · exact silent .rfl
  · rename_i client _
    by_cases now : core.active.isNone && client.primary
    · rw [if_pos now]
      refine idleWrite [speed.command] ⟨rfl, rfl, rfl, rfl⟩ ?_
      simpa using (Bool.and_eq_true_iff.mp now).1
    · rw [if_neg now]
      exact silent ⟨rfl, rfl, rfl, rfl⟩

theorem setClientCommand {clientId : ClientId} {command : List UInt8} {core' : BrokerCore}
    {actions : List PhysicalAction}
    (h : core.setClientCommand clientId command = some (core', actions)) :
    Effect core (.setClientCommand clientId command) { actions } core' := by
  unfold BrokerCore.setClientCommand at h
  split at h
  · cases h
  split at h
  · cases h
  rename_i client _
  by_cases now : core.active.isNone && client.primary
  · rw [if_pos now, Option.some.injEq, Prod.mk.injEq] at h
    obtain ⟨rfl, rfl⟩ := h
    refine idleWrite [command] ?_ (by simpa using (Bool.and_eq_true_iff.mp now).1)
    split <;> exact ⟨rfl, rfl, rfl, rfl⟩
  · rw [if_neg now] at h
    split at h
    all_goals
      rw [Option.some.injEq, Prod.mk.injEq] at h
      obtain ⟨rfl, rfl⟩ := h
      exact silent ⟨rfl, rfl, rfl, rfl⟩

theorem activeOwnerCommand (clientId : ClientId) (command : List UInt8) :
    Effect core (.activeOwnerCommand clientId command)
      { actions := (core.activeOwnerCommand clientId command).getD [] } core := by
  unfold BrokerCore.activeOwnerCommand
  cases active : core.active with
  | none =>
      cases core.isPrimary clientId
      · exact silent .rfl
      · exact idleWrite [command] .rfl active
  | some a =>
      by_cases owner : a.job.clientId = clientId
      · subst owner
        simp only [beq_self_eq_true, if_true, Option.getD_some]
        refine .quiet [command] .rfl (fun b hb => Or.inr ⟨command, ?_, rfl⟩)
        rw [active, Option.some.injEq] at hb
        rw [hb]
      · simp only [beq_eq_false_iff_ne.mpr owner, Bool.false_eq_true, if_false, Option.getD_none]
        exact silent .rfl

theorem completeActive {core' : BrokerCore} (op : BrokerOp) (same : SameSchedule core core')
    (table : core'.clients = core.clients) :
    Effect core op { actions := (core'.completeActive op.clock).2 }
      (core'.completeActive op.clock).1 := by
  unfold BrokerCore.completeActive
  cases active : core'.active with
  | none => exact silent same
  | some a =>
      obtain ⟨b, hb, hjob, _⟩ := same.symm.busy active
      have ending : Ending b (core.queue.filter (fun _ => false))
          [.completed b.job.id b.job.clientId] := by
        simpa only [List.filter_false] using Ending.completed (a := b)
      simp only [← hjob]
      refine endedThen (fun _ => false) hb ?_ ?_ ?_ ?_ ending
      · rfl
      · simpa using same.queue
      · exact same.nextJobId
      · exact fun _ _ => by rw [← table]

theorem observeStatus (status : DeviceStatus) (clock : Nat) :
    Effect core (.observeStatus status clock) { actions := (core.observeStatus status clock).2 }
      (core.observeStatus status clock).1 := by
  unfold BrokerCore.observeStatus
  split
  · exact silent ⟨rfl, rfl, rfl, rfl⟩
  · rename_i a active
    have same : ∀ b : ActiveJob, b.job = a.job → b.startedAt = a.startedAt →
        SameSchedule core { core with status, active := some b } :=
      fun b hb started => ⟨by simp [active, hb], by simp [active, started], rfl, rfl⟩
    split
    · exact silent (same _ rfl rfl)
    · split
      · exact completeActive (.observeStatus status clock) (same _ rfl rfl) rfl
      · exact silent (same _ rfl rfl)

theorem confirmIdleAfterSettle (now : Nat) (settle : Nat) (clock : Nat) :
    Effect core (.confirmIdleAfterSettle now settle clock)
      { actions := (core.confirmIdleAfterSettle now settle clock).2 }
      (core.confirmIdleAfterSettle now settle clock).1 := by
  unfold BrokerCore.confirmIdleAfterSettle
  split
  · exact completeActive (.confirmIdleAfterSettle now settle clock) .rfl rfl
  · exact silent .rfl

theorem emergencyStop (op : BrokerOp) (reason : String) :
    Effect core op { actions := (core.emergencyStop reason).2 } (core.emergencyStop reason).1 := by
  unfold BrokerCore.emergencyStop
  obtain ⟨same, ws, writes⟩ := restoreForegroundSpeed_spec
    { core with active := none, queue := [], lastSafetyAction := some reason }
  -- The foreground is restored after the core is empty, so it starts nothing.
  have stopped := @Effect.halted core op _ [[0x0a, 0x0b, 0x00]] ws (Or.inr rfl)
    (same.idle rfl) same.queue same.nextJobId
  simpa only [writes, List.map_cons, List.map_nil, List.cons_append, List.nil_append] using stopped

theorem watchdog (now : Nat) :
    Effect core (.watchdog now) { actions := (core.watchdog now).2 } (core.watchdog now).1 := by
  unfold BrokerCore.watchdog
  split
  · exact emergencyStop _ _
  · exact silent .rfl

theorem unregisterClient (clientId : ClientId) (clock : Nat) :
    Effect core (.unregisterClient clientId clock)
      { actions := (core.unregisterClient clientId clock).2 }
      (core.unregisterClient clientId clock).1 := by
  cases active : core.active with
  | none =>
      simp only [BrokerCore.unregisterClient, active]
      exact .withdrew (fun job => job.clientId == clientId) [] active.symm rfl rfl (fun _ => rfl)
  | some a =>
      by_cases owner : a.job.clientId = clientId
      · simp only [BrokerCore.unregisterClient, active, owner, if_true]
        refine endedThen (fun job => job.clientId == clientId) active ?_ ?_ ?_ ?_ (.unregistered _)
        · rfl
        · rfl
        · rfl
        · intro job kept
          -- The departing client has no job left in the queue.
          have other : job.clientId ≠ clientId := by simpa using (List.mem_filter.mp kept).2
          simp [Std.TreeMap.getElem?_erase, Ne.symm other]
      · simp only [BrokerCore.unregisterClient, active, owner, if_false]
        exact .withdrew (fun job => job.clientId == clientId) [] active.symm rfl rfl (fun _ => rfl)

theorem cancelClient (clientId : ClientId) (includeActive : Bool) (clock : Nat) :
    Effect core (.cancelClient clientId includeActive clock)
      { actions := (core.cancelClient clientId includeActive clock).2 }
      (core.cancelClient clientId includeActive clock).1 := by
  cases active : core.active with
  | none =>
      by_cases clears : includeActive && core.isPrimary clientId
      · simp only [BrokerCore.cancelClient, active, clears, if_true]
        exact .withdrew (fun job => job.clientId == clientId) [[0x0a]] active.symm rfl rfl
          (fun busy => by simp [active] at busy)
      · simp only [BrokerCore.cancelClient, active, clears]
        exact .withdrew (fun job => job.clientId == clientId) [] active.symm rfl rfl (fun _ => rfl)
  | some a =>
      by_cases ends : includeActive && a.job.clientId == clientId
      · simp only [BrokerCore.cancelClient, active, ends, if_true]
        refine endedThen (fun job => job.clientId == clientId) active ?_ ?_ ?_ ?_ (.cleared _)
        · rfl
        · rfl
        · rfl
        · exact fun _ _ => rfl
      · simp only [BrokerCore.cancelClient, active, ends]
        exact .withdrew (fun job => job.clientId == clientId) [] active.symm rfl rfl (fun _ => rfl)

theorem cancelJob (clientId : ClientId) (jobId : Nat) (clock : Nat) :
    Effect core (.cancelJob clientId jobId clock)
      { actions := (core.cancelJob clientId jobId clock).2.2 }
      (core.cancelJob clientId jobId clock).1 := by
  unfold BrokerCore.cancelJob
  split
  · rename_i a matching
    have active := (Option.filter_eq_some_iff.mp matching).1
    have ending : Ending a (core.queue.filter (fun _ => false))
        [.write [0x0a], cancellation a.job] := by
      simpa only [List.filter_false, List.map_nil, List.cons_append, List.nil_append] using
        Ending.cleared (a := a) []
    refine endedThen (fun _ => false) active ?_ ?_ ?_ ?_ ending
    · rfl
    · simp
    · rfl
    · exact fun _ _ => rfl
  · exact .withdrew (fun job => job.clientId == clientId && job.id == jobId) [] rfl rfl rfl
      (fun _ => rfl)

theorem enqueue {clientId : ClientId} {payload : TransmitPayload} {speed : Option SpeedMode}
    {stream : Bool} {now clock : Nat} {core' : BrokerCore} {jobId : Nat}
    {actions : List PhysicalAction}
    (h : core.enqueue clientId payload speed stream now clock = some (core', jobId, actions)) :
    Effect core (.enqueue clientId payload speed stream now clock)
      { accepted := some jobId, actions } core' := by
  cases enqueue_cases h with
  | joinedActive streams joins fits =>
      subst streams
      obtain ⟨active, rfl, stream⟩ := activeStream?_eq_some.mp joins
      exact .grewActive active stream (enqueue_checks h).1 fits
  | joinedTail streams _ joins _ =>
      subst streams
      obtain ⟨queue, rfl, stream⟩ := tailStream?_eq_some joins
      exact .grewTail queue stream
  | @waits client _ _ _ busy =>
      exact @Effect.queued core (core.newJob clientId payload (speed.getD client.desiredSpeed)
        stream now) speed now clock busy rfl
  | @starts client _ _ _ _ idle opened =>
      subst opened
      exact @Effect.opened core (core.newJob clientId payload (speed.getD client.desiredSpeed)
        stream now) speed now clock _ _ idle rfl (startNextOrRestore_begins _ clock)

end Effect

/-- Every enabled call has one of the eight effects. -/
theorem broker_effect {core core' : BrokerCore} {op : BrokerOp} {answer : Answer}
    (h : broker.step core op = some (core', answer)) : Effect core op answer core' := by
  simp only [broker, Option.ite_none_left_eq_some, Option.some.injEq] at h
  obtain ⟨enabled, h⟩ := h
  cases op with
  | connectPhysical | recordSafetyAction | observePot =>
      cases h
      exact .silent ⟨rfl, rfl, rfl, rfl⟩
  | physicalError error => cases h; exact .physicalError error
  | registerClient clientId primary => cases h; exact .registerClient clientId primary
  | unregisterClient clientId clock => cases h; exact .unregisterClient clientId clock
  | setClientSpeed clientId speed => cases h; exact .setClientSpeed clientId speed
  | setClientCommand clientId command =>
      simp only [BrokerOp.apply] at h
      split at h
      · rename_i set
        cases h
        exact .setClientCommand set
      · cases h
        exact .silent .rfl
  | activeOwnerCommand clientId command => cases h; exact .activeOwnerCommand clientId command
  | enqueue clientId payload speed stream now clock =>
      simp only [BrokerOp.apply] at h
      split at h
      · rename_i accepted
        cases h
        exact .enqueue accepted
      · cases h
        exact .silent .rfl
  | cancelClient clientId includeActive clock =>
      cases h
      exact .cancelClient clientId includeActive clock
  | cancelJob clientId jobId clock => cases h; exact .cancelJob clientId jobId clock
  | emergencyStop reason => cases h; exact .emergencyStop _ reason
  | observeStatus status clock => cases h; exact .observeStatus status clock
  | confirmIdleAfterSettle now settle clock =>
      cases h
      exact .confirmIdleAfterSettle now settle clock
  | watchdog now => cases h; exact .watchdog now
  | restoreForeground =>
      cases h
      -- The machine admits this call only while nothing is active.
      have idle : core.active = none := by simpa using enabled
      obtain ⟨same, ws, writes⟩ := restoreForegroundSpeed_spec core
      show Effect core _ { actions := core.restoreForegroundSpeed.2 } core.restoreForegroundSpeed.1
      rw [writes]
      exact .idleWrite ws same idle

end CatHub.WinKeyer
