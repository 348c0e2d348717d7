/-
# CatHub.WinKeyer.Admission — whether the answer to an enqueue says what happened.

An enqueue is checked twice.  The actor looks at a snapshot: the size of the payload, the fill of the
queue, the activity of the keyer and the station lease.  The core then looks for a stream the payload
may join, and refuses without a reason, so that the actor has to guess one: an unknown client while
the keyer is connected, and a lost connection otherwise.

`Truthful` says what each answer may be read as, and `enqueue_truthful_iff` when it is right.  The
payload of a registered client gets a wrong reason in three cases, all of them for a stream: it does
not fit behind the stream job it would join; no stream job can take it and the queue is full while
the client's own job is active; or the client's stream stands at the tail of a full queue behind
somebody else's job.
-/
import CatHub.WinKeyer.Freshness

namespace CatHub.WinKeyer

open Systems Ptt BrokerCore

/-! ## What the answers say -/

/-- Whether a payload of `clientId` became a job with the number `jobId`, or the end of one. -/
inductive TakenAs (core core' : BrokerCore) (clientId : ClientId) (payload : TransmitPayload)
    (jobId : Nat) : Prop
  | created (job : Job) : job.id = jobId → job.clientId = clientId → job.payload = payload →
      core'.jobs = core.jobs ++ [job] → TakenAs core core' clientId payload jobId
  | grown (front back : List Job) (job : Job) : job.id = jobId → job.clientId = clientId →
      job.stream = true → payload.wireBytes ≠ [] → core.jobs = front ++ job :: back →
      core'.jobs = front ++ job.grow payload :: back → TakenAs core core' clientId payload jobId

/-- A payload that a job may be made of. -/
def Sized (payload : TransmitPayload) : Prop :=
  1 ≤ payload.wireBytes.length ∧ payload.wireBytes.length ≤ maxJobBytes

/-- The stream job a chunk of `clientId` is appended to, the active one first. -/
def BrokerCore.joined? (core : BrokerCore) (clientId : ClientId) (stream : Bool) : Option Job :=
  if stream then ((core.activeStream? clientId).map (·.job)).or (core.tailStream? clientId) else none

/-- The answer of `h` to an enqueue is true. -/
structure Truthful (core : BrokerCore) (clientId : ClientId) (payload : TransmitPayload)
    (stream : Bool) (h : Handled) : Prop where
  accepted : ∀ jobId, h.reply = some (.job jobId) →
    TakenAs core h.actor.core clientId payload jobId
  only : ∀ jobId, TakenAs core h.actor.core clientId payload jobId →
    ∃ jobId, h.reply = some (.job jobId)
  unknown : h.reply = some (.refused .unknownClient) → core.clients[clientId]? = none
  offline : h.reply = some (.refused .notConnected) → core.connected = false
  full : h.reply = some (.refused .queueFull) →
    core.joined? clientId stream = none ∧ maxQueuedJobs ≤ core.queue.length
  invalid : ∀ message, h.reply = some (.refused (.invalid message)) → ¬ Sized payload ∨
    ∃ job, core.joined? clientId stream = some job ∧ ¬ Sized (job.payload.append payload)

/-- When the answer is true: the payload could be no job at all, or it is no stream chunk, or it fits
behind the job it would join and that job is seen, or no job can be joined and the queue is not full
behind the client's own job. -/
def BrokerCore.AnswersTruly (core : BrokerCore) (clientId : ClientId) (payload : TransmitPayload)
    (stream : Bool) : Prop :=
  ¬ Sized payload ∨ stream = false ∨
    match core.joined? clientId stream with
    | some job => job.payload.wireBytes.length + payload.wireBytes.length ≤ maxJobBytes ∧
        (core.queue.length < maxQueuedJobs ∨ core.activeClientId = some clientId)
    | none => core.queue.length < maxQueuedJobs ∨ core.activeClientId ≠ some clientId

/-! ## Streams that can be joined -/

namespace BrokerCore

variable {core : BrokerCore} {clientId : ClientId}

theorem joined?_active {a : ActiveJob} (joins : core.activeStream? clientId = some a) :
    core.joined? clientId true = some a.job := by
  simp [joined?, joins]

theorem joined?_tail (alone : core.activeStream? clientId = none) :
    core.joined? clientId true = core.tailStream? clientId := by
  simp [joined?, alone]

theorem joined?_apart {stream : Bool} (apart : core.Apart clientId stream) :
    core.joined? clientId stream = none := by
  cases stream with
  | false => rfl
  | true =>
      obtain ⟨active, tail⟩ := apart rfl
      rw [joined?_tail active, tail]

/-- A job that can be joined is the client's. -/
theorem joined?_mem {stream : Bool} {job : Job} (joins : core.joined? clientId stream = some job) :
    job ∈ core.jobs ∧ job.clientId = clientId := by
  unfold joined? at joins
  split at joins
  · rcases Option.or_eq_some_iff.mp joins with active | ⟨_, tail⟩
    · obtain ⟨a, stream, rfl⟩ := Option.map_eq_some_iff.mp active
      obtain ⟨busy, owner, _⟩ := activeStream?_eq_some.mp stream
      exact ⟨by simp [jobs, busy], owner⟩
    · obtain ⟨queue, owner, _⟩ := tailStream?_eq_some tail
      refine ⟨List.mem_append_right _ ?_, owner⟩
      rw [queue]
      simp
  · cases joins

theorem jobs_idle (r : core.Represented) (idle : core.active = none) : core.jobs = [] := by
  have drained : core.queue = [] := by
    by_contra waits
    have busy := r.busy waits
    rw [idle] at busy
    cases busy
  simp [jobs, idle, drained]

/-- Without jobs an answer is true. -/
theorem answersTruly_vacant (vacant : core.jobs = []) (payload : TransmitPayload) (stream : Bool) :
    core.AnswersTruly clientId payload stream := by
  refine Or.inr (Or.inr ?_)
  cases joins : core.joined? clientId stream with
  | some job =>
      have mem := (joined?_mem joins).1
      rw [vacant] at mem
      cases mem
  | none =>
      have drained : core.queue = [] := (List.append_eq_nil_iff.mp vacant).2
      exact Or.inl (by rw [drained]; decide)

/-- Why the core refuses the payload of a registered client. -/
theorem enqueue_refused {payload : TransmitPayload} {speed : Option SpeedMode} {stream : Bool}
    {now clock : Nat} {client : ClientState} (sized : Sized payload) (online : core.connected = true)
    (known : core.clients[clientId]? = some client)
    (h : core.enqueue clientId payload speed stream now clock = none) :
    (∃ job, core.joined? clientId stream = some job ∧
      maxJobBytes < job.payload.wireBytes.length + payload.wireBytes.length) ∨
    (core.joined? clientId stream = none ∧ maxQueuedJobs ≤ core.queue.length) := by
  obtain ⟨nonempty, small⟩ := sized
  have checks : (payload.wireBytes.isEmpty || decide (payload.wireBytes.length > maxJobBytes) ||
      !core.connected) = false := by
    have filled : payload.wireBytes.isEmpty = false := by
      rw [List.isEmpty_eq_false_iff, ← List.length_pos_iff]
      exact nonempty
    rw [filled, online, decide_eq_false (Nat.not_lt.mpr small)]
    rfl
  have full : core.openJob clientId payload (speed.getD client.desiredSpeed) stream now clock = none →
      maxQueuedJobs ≤ core.queue.length := by
    intro refused
    unfold openJob at refused
    split at refused
    · assumption
    · split at refused <;> cases refused
  unfold enqueue at h
  rw [checks, if_neg Bool.false_ne_true, known] at h
  simp only [] at h
  cases stream with
  | false => exact Or.inr ⟨rfl, full h⟩
  | true =>
      simp only [if_true] at h
      cases active : core.activeStream? clientId with
      | some a =>
          rw [active] at h
          refine Or.inl ⟨a.job, joined?_active active, ?_⟩
          simp only [growActive] at h
          split at h
          · assumption
          · cases h
      | none =>
          rw [active] at h
          rw [joined?_tail active]
          cases tail : core.tailStream? clientId with
          | some queued =>
              rw [tail] at h
              refine Or.inl ⟨queued, rfl, ?_⟩
              simp only [growTail] at h
              split at h
              · assumption
              · cases h
          | none =>
              rw [tail] at h
              exact Or.inr ⟨rfl, full h⟩

end BrokerCore

/-! ## The two checks -/

/-- What the actor makes of an enqueue outside maintenance. -/
inductive Judged (a : Actor) (clientId : ClientId) (payload : TransmitPayload)
    (speed : Option SpeedMode) (stream : Bool) (now later : Nat) : Handled → Prop
  | misfit (message : String) : ¬ Sized payload →
      Judged a clientId payload speed stream now later (a.refuse (.invalid message))
  | full : Sized payload → maxQueuedJobs ≤ a.core.queue.length →
      ¬ (stream = true ∧ a.core.activeClientId = some clientId) →
      Judged a clientId payload speed stream now later (a.refuse .queueFull)
  | busy : a.core.active = none →
      Judged a clientId payload speed stream now later (a.refuse .transmitBusy)
  | submitted : Sized payload → (maxQueuedJobs ≤ a.core.queue.length →
        stream = true ∧ a.core.activeClientId = some clientId) →
      Judged a clientId payload speed stream now later
        ((a.readyFor now).submitJob clientId payload speed stream now later)

theorem handleEnqueue_judged {a : Actor} (outside : a.inMaintenance = false) (clientId : ClientId)
    (payload : TransmitPayload) (speed : Option SpeedMode) (stream : Bool) (now later : Nat) :
    Judged a clientId payload speed stream now later
      (a.handleEnqueue clientId payload speed stream now later) := by
  have job : a.core.snapshot.activeJobId.isNone = a.core.active.isNone := by
    simp [snapshot, BrokerCore.activeJobId]
  have misfit : (payload.wireBytes.isEmpty || decide (payload.wireBytes.length > maxJobBytes)) =
      true ↔ ¬ Sized payload := by
    rw [Bool.or_eq_true, List.isEmpty_iff, ← List.length_eq_zero_iff, decide_eq_true_iff]
    unfold Sized
    omega
  have apart : (!(stream && a.core.snapshot.activeClientId == some clientId)) = true ↔
      ¬ (stream = true ∧ a.core.activeClientId = some clientId) := by
    have client : a.core.snapshot.activeClientId = a.core.activeClientId := rfl
    cases stream <;> simp [client]
  unfold Actor.handleEnqueue
  simp only [job]
  rw [if_neg (by rw [outside]; exact Bool.false_ne_true)]
  split
  · rename_i size
    exact .misfit _ (misfit.mp size)
  · rename_i size
    have sized : Sized payload := not_not.mp (fun odd => size (misfit.mpr odd))
    split
    · rename_i full
      obtain ⟨filled, other⟩ := Bool.and_eq_true_iff.mp full
      exact .full sized (of_decide_eq_true filled) (apart.mp other)
    · rename_i room
      split
      · rename_i busy
        exact .busy (by simpa using (Bool.and_eq_true_iff.mp busy).1)
      · split
        · rename_i leased
          exact .busy (by simpa using (Bool.and_eq_true_iff.mp leased).1)
        · refine .submitted sized (fun filled => ?_)
          by_contra other
          exact room (Bool.and_eq_true_iff.mpr ⟨decide_eq_true filled, apart.mpr other⟩)

/-! ## The answers -/

theorem not_taken {core : BrokerCore} {clientId : ClientId} {payload : TransmitPayload} (jobId : Nat) :
    ¬ TakenAs core core clientId payload jobId := by
  rintro (⟨job, _, _, _, jobs⟩ | ⟨front, back, job, _, _, _, nonempty, before, after⟩)
  · have length := congrArg List.length jobs
    simp at length
  · rw [before] at after
    have same : job.payload.wireBytes = job.payload.wireBytes ++ payload.wireBytes :=
      congrArg (fun job : Job => job.payload.wireBytes)
        (List.cons.inj (List.append_cancel_left after)).1
    exact nonempty (by simpa using same)

theorem Takes.takenAs {core core' : BrokerCore} {clientId : ClientId}
    {payload : TransmitPayload} {jobId : Nat} (nonempty : payload.wireBytes ≠ [])
    (takes : Takes core clientId payload jobId core') :
    TakenAs core core' clientId payload jobId := by
  cases takes with
  | @joinedActive a busy owner stream =>
      exact .grown [] core.queue a.job rfl owner stream nonempty (by simp [jobs, busy])
        (by simp [jobs])
  | @joinedTail front queued queue owner stream =>
      refine .grown (core.active.toList.map (·.job) ++ front) [] queued rfl owner stream nonempty ?_ ?_
      · simp [jobs, queue]
      · simp [jobs]
  | @opened job core' _ owner same _ after => exact .created job rfl owner same after

/-- A refusal is true when its reason is, since it leaves the core alone. -/
theorem truthful_refused {a : Actor} {clientId : ClientId} {payload : TransmitPayload} {stream : Bool}
    {error : BrokerError} {h : Handled} (core : h.actor.core = a.core)
    (reply : h.reply = some (.refused error))
    (unknown : error = .unknownClient → a.core.clients[clientId]? = none)
    (offline : error = .notConnected → a.core.connected = false)
    (full : error = .queueFull →
      a.core.joined? clientId stream = none ∧ maxQueuedJobs ≤ a.core.queue.length)
    (invalid : ∀ message, error = .invalid message → ¬ Sized payload) :
    Truthful a.core clientId payload stream h := by
  have reason : ∀ {other}, h.reply = some (.refused other) → error = other := by
    intro other same
    rw [reply] at same
    cases same
    rfl
  refine ⟨?_, ?_, fun same => unknown (reason same), fun same => offline (reason same),
    fun same => full (reason same), fun message same => Or.inl (invalid message (reason same))⟩
  · intro jobId same
    rw [reply] at same
    cases same
  · intro jobId taken
    rw [core] at taken
    exact absurd taken (not_taken jobId)

section Submitted

variable {a : Actor} {clientId : ClientId} {payload : TransmitPayload} {speed : Option SpeedMode}
  {stream : Bool} {now later : Nat}

/-- The core takes the payload: that is always true. -/
theorem submitted_taken {core' : BrokerCore} {jobId : Nat} {actions : List PhysicalAction}
    (room : maxQueuedJobs ≤ a.core.queue.length →
      stream = true ∧ a.core.activeClientId = some clientId)
    (taken : a.core.enqueue clientId payload speed stream now later = some (core', jobId, actions)) :
    TakenAs a.core core' clientId payload jobId ∧ a.core.AnswersTruly clientId payload stream := by
  obtain ⟨nonempty, _⟩ := enqueue_checks taken
  obtain ⟨_, _, _, takes⟩ := enqueue_takes taken
  refine ⟨takes.takenAs nonempty, Or.inr ?_⟩
  cases enqueue_cases taken with
  | @joinedActive b streams joins fits =>
      obtain ⟨busy, owner, _⟩ := activeStream?_eq_some.mp joins
      rw [streams, joined?_active joins]
      exact Or.inr ⟨fits, Or.inr (by simp [BrokerCore.activeClientId, busy, owner])⟩
  | @joinedTail queued streams alone tail fits =>
      rw [streams, joined?_tail alone, tail]
      refine Or.inr ⟨fits, ?_⟩
      rcases Nat.lt_or_ge a.core.queue.length maxQueuedJobs with free | filled
      · exact Or.inl free
      · exact Or.inr (room filled).2
  | waits _ apart free | starts _ apart free =>
      rw [joined?_apart apart]
      exact Or.inr (Or.inl free)

/-- The core refuses the payload: the reason given is right unless the client is registered. -/
theorem submitted_refused (r : a.core.Represented) (sized : Sized payload)
    (room : maxQueuedJobs ≤ a.core.queue.length →
      stream = true ∧ a.core.activeClientId = some clientId)
    (refused : a.core.enqueue clientId payload speed stream now later = none) :
    Truthful a.core clientId payload stream
        ((a.readyFor now).submitJob clientId payload speed stream now later) ↔
      a.core.AnswersTruly clientId payload stream := by
  have handled : (a.readyFor now).submitJob clientId payload speed stream now later =
      { actor := a.readyFor now,
        reply := some (.refused (if a.core.connected then .unknownClient else .notConnected)) } := by
    unfold Actor.submitJob
    rw [a.readyFor_core, refused]
  rw [handled]
  cases online : a.core.connected with
  | false =>
      refine ⟨fun _ => answersTruly_vacant (r.offline online) payload stream, fun _ => ?_⟩
      exact truthful_refused (a.readyFor_core now) rfl (fun same => by cases same)
        (fun _ => online) (fun same => by cases same) (fun _ same => by cases same)
  | true =>
      cases known : a.core.clients[clientId]? with
      | none =>
          have stranger : ∀ job ∈ a.core.jobs, job.clientId ≠ clientId := by
            rintro job mem rfl
            have found := r.registered job mem
            rw [known] at found
            cases found
          refine ⟨fun _ => Or.inr (Or.inr ?_), fun _ => ?_⟩
          · cases joins : a.core.joined? clientId stream with
            | some job => exact absurd (joined?_mem joins).2 (stranger job (joined?_mem joins).1)
            | none =>
                refine Or.inr (fun active => ?_)
                obtain ⟨b, busy, owner⟩ := Option.map_eq_some_iff.mp active
                exact stranger b.job (by simp [jobs, busy]) owner
          · exact truthful_refused (a.readyFor_core now) rfl (fun _ => known)
              (fun same => by cases same) (fun same => by cases same) (fun _ same => by cases same)
      | some client =>
          refine ⟨fun truthful => ?_, fun condition => ?_⟩
          · have wrong := truthful.unknown rfl
            rw [known] at wrong
            cases wrong
          · exfalso
            rcases enqueue_refused sized online known refused with
              ⟨job, joins, overflow⟩ | ⟨none', filled⟩
            · obtain odd | plain | fits := condition
              · exact odd sized
              · rw [plain] at joins
                cases joins
              · rw [joins] at fits
                exact Nat.not_lt.mpr fits.1 overflow
            · obtain ⟨streams, own⟩ := room filled
              obtain odd | plain | free := condition
              · exact odd sized
              · rw [streams] at plain
                cases plain
              · rw [none'] at free
                rcases free with free | other
                · exact Nat.not_lt.mpr filled free
                · exact other own

end Submitted

theorem judged_truthful {a : Actor} {clientId : ClientId} {payload : TransmitPayload}
    {speed : Option SpeedMode} {stream : Bool} {now later : Nat} {h : Handled}
    (r : a.core.Represented) (judged : Judged a clientId payload speed stream now later h) :
    Truthful a.core clientId payload stream h ↔ a.core.AnswersTruly clientId payload stream := by
  cases judged with
  | misfit message odd =>
      refine ⟨fun _ => Or.inl odd, fun _ => ?_⟩
      exact truthful_refused rfl rfl (fun same => by cases same) (fun same => by cases same)
        (fun same => by cases same) (fun _ _ => odd)
  | full sized filled other =>
      -- A slot is missing; the chunk may not have needed one.
      have alone : stream = true → a.core.activeStream? clientId = none := by
        intro streams
        cases joins : a.core.activeStream? clientId with
        | none => rfl
        | some b =>
            obtain ⟨busy, owner, _⟩ := activeStream?_eq_some.mp joins
            exact absurd ⟨streams, by simp [BrokerCore.activeClientId, busy, owner]⟩ other
      refine ⟨fun truthful => Or.inr ?_, fun condition => ?_⟩
      · cases stream with
        | false => exact Or.inl rfl
        | true =>
            rw [(truthful.full rfl).1]
            exact Or.inr (Or.inr (fun own => other ⟨rfl, own⟩))
      · refine truthful_refused rfl rfl (fun same => by cases same) (fun same => by cases same)
          (fun _ => ⟨?_, filled⟩) (fun _ same => by cases same)
        obtain odd | plain | joinable := condition
        · exact absurd sized odd
        · rw [plain]
          rfl
        · cases joins : a.core.joined? clientId stream with
          | none => rfl
          | some job =>
              rw [joins] at joinable
              have streams : stream = true := by
                cases stream with
                | false => cases joins
                | true => rfl
              rcases joinable.2 with free | own
              · exact absurd free (Nat.not_lt.mpr filled)
              · exact absurd ⟨streams, own⟩ other
  | busy idle =>
      refine ⟨fun _ => answersTruly_vacant (jobs_idle r idle) payload stream, fun _ => ?_⟩
      exact truthful_refused rfl rfl (fun same => by cases same) (fun same => by cases same)
        (fun same => by cases same) (fun _ same => by cases same)
  | submitted sized room =>
      cases answer : a.core.enqueue clientId payload speed stream now later with
      | none => exact submitted_refused r sized room answer
      | some taken =>
          obtain ⟨core', jobId, actions⟩ := taken
          obtain ⟨takenAs, condition⟩ := submitted_taken room answer
          have handled : (a.readyFor now).submitJob clientId payload speed stream now later =
              { actor := { a.readyFor now with core := core' }, reply := some (.job jobId),
                actions := some actions } := by
            unfold Actor.submitJob
            rw [a.readyFor_core, answer]
          rw [handled]
          refine ⟨fun _ => condition, fun _ => ⟨?_, fun _ _ => ⟨jobId, rfl⟩, ?_, ?_, ?_, ?_⟩⟩
          · intro other same
            cases same
            exact takenAs
          · intro same
            cases same
          · intro same
            cases same
          · intro same
            cases same
          · intro message same
            cases same

section Runs

variable {maxTx : Nat} {ptt : Option PttManager} {reconnect : Bool} {firmware : UInt8} {start : Nat}
  {history : List ActorStep} {a : Actor}

/-- **Admission.**  In every state of every run, outside maintenance, the answer to an enqueue is true
exactly when a stream chunk fits behind the job it would join, and no full queue hides that job or the
want of one. -/
theorem enqueue_truthful_iff
    (run : actor.Execution (.spawn maxTx ptt reconnect firmware start) history a)
    (outside : a.inMaintenance = false) (clientId : ClientId) (payload : TransmitPayload)
    (speed : Option SpeedMode) (stream : Bool) (now later : Nat) :
    Truthful a.core clientId payload stream
        (a.handleRequest now later (.enqueue clientId payload speed stream)) ↔
      a.core.AnswersTruly clientId payload stream :=
  judged_truthful (represented_of_execution run)
    (handleEnqueue_judged outside clientId payload speed stream now later)

end Runs

/-- A chunk of 21 bytes behind a stream job of 100. -/
def longChunk : TransmitPayload := .plainText (List.replicate 21 69)

def longStream : List ActorInput :=
  [.request (.register 1 true) 0 0 none,
    .request (.enqueue 1 (.plainText (List.replicate 100 69)) none true) 1 1 none]

theorem enqueue_truthful_longStream :
    ∃ history a, actor.Execution leased history a ∧
      (Truthful a.core 1 ⟨[69], [69]⟩ true (a.handleRequest 2 2 (.enqueue 1 ⟨[69], [69]⟩ none true)) ↔
        a.core.AnswersTruly 1 ⟨[69], [69]⟩ true) := by
  have run := actor.execution_exec leased longStream (by decide)
  exact ⟨_, _, run, enqueue_truthful_iff run (by decide) 1 _ none true 2 2⟩

/-- The registered client is told that it is not. -/
theorem enqueue_truthful_fails :
    ∃ history a, actor.Execution leased history a ∧ a.inMaintenance = false ∧
      ¬ Truthful a.core 1 longChunk true (a.handleRequest 2 2 (.enqueue 1 longChunk none true)) := by
  have run := actor.execution_exec leased longStream (by decide)
  refine ⟨_, _, run, by decide, fun truthful => ?_⟩
  have stranger := truthful.unknown (by decide)
  have known : ((actor.exec leased longStream).get (by decide)).2.core.clients[1]?.isSome = true := by
    decide
  rw [stranger] at known
  cases known

end CatHub.WinKeyer
