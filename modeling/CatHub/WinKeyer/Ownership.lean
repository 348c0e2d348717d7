/-
# CatHub.WinKeyer.Ownership — no interleaving of two clients' transmissions.

While a job is active, the keyer's output belongs to the client of that job.  Every write returned
by a call is then a stream chunk accepted under the job, a command the owner passed to
`activeOwnerCommand`, or the clear that ends the job in the same call.  What is written when a job
starts is its own client's as well: the stored profile, the job's speed and payload, and the status
request that follows.

The statements speak of the actions that a call returns.  `no_interleaving` puts every call of
every run into one of the two cases, and every start of a job behind the end of the one before it.
-/
import CatHub.WinKeyer.BrokerEffect

namespace CatHub.WinKeyer

open Systems BrokerCore

/-! ## Whose bytes -/

/-- `bytes`, written by the call `e`, belong to the client of `job`: a stream chunk accepted under
the job, or a command of its owner. -/
def OwnerWrite (job : Job) (e : BrokerCall) (bytes : List UInt8) : Prop :=
  (∃ payload speed now clock, e.input = .enqueue job.clientId payload speed true now clock ∧
    e.output.accepted = some job.id ∧ bytes = payload.wireBytes) ∨
  e.input = .activeOwnerCommand job.clientId bytes

/-- Clear Buffer, alone or with key-up. -/
def IsClear (bytes : List UInt8) : Prop := bytes = [0x0a] ∨ bytes = [0x0a, 0x0b, 0x00]

/-- `bytes` open a transmission of `job`, given the client table at its start. -/
def StartWrite (clients : Std.TreeMap ClientId ClientState) (job : Job) (bytes : List UInt8) :
    Prop :=
  (∃ client key, clients[job.clientId]? = some client ∧ (key, bytes) ∈ client.profile.toList) ∨
  bytes = job.speed.command ∨ bytes = job.payload.wireBytes ∨ bytes = [0x15]

/-! ## The three situations of a call -/

/-- The job `a` is still active after the call, and every write of the call is its owner's. -/
structure Survives (a : ActiveJob) (e : BrokerCall) : Prop where
  stays : ∃ b, e.after.active = some b ∧ b.job.id = a.job.id ∧ b.job.clientId = a.job.clientId
  writes : ∀ bytes, .write bytes ∈ e.output.actions → OwnerWrite a.job e bytes

/-- The call ends the job `a`: up to its terminal action only clears are written, and what is
active afterwards waited in the queue. -/
structure Ends (a : ActiveJob) (e : BrokerCall) : Prop where
  terminal : ∃ front last back, e.output.actions = front ++ last :: back ∧
    (last = .completed a.job.id a.job.clientId ∨ last = .canceled a.job.id a.job.clientId) ∧
    ∀ bytes, .write bytes ∈ front → IsClear bytes
  next : ∀ b, e.after.active = some b → b.job ∈ e.before.queue

/-- The call starts the job `b`: behind the actions that end the job before it, only its own
client's bytes are written. -/
structure StartsAlone (b : ActiveJob) (e : BrokerCall) : Prop where
  opening : ∃ front back, e.output.actions = front ++ back ∧
    (e.before.active = none → front = []) ∧
    (∀ bytes, .write bytes ∈ front → IsClear bytes) ∧
    ∀ bytes, .write bytes ∈ back → StartWrite e.before.clients b.job bytes

/-! ## Small facts about the actions -/

theorem write_not_mem_cancellations {bytes : List UInt8} {jobs : List Job} :
    PhysicalAction.write bytes ∉ jobs.map cancellation := by
  intro h
  obtain ⟨job, _, h⟩ := List.mem_map.mp h
  cases h

theorem mem_writes {bytes : List UInt8} {ws : List (List UInt8)} :
    PhysicalAction.write bytes ∈ ws.map .write ↔ bytes ∈ ws := by
  simp

/-- The opening of `job` holds only its client's bytes. -/
theorem start_writes {core : BrokerCore} {clients : Std.TreeMap ClientId ClientState} {job : Job}
    {bytes : List UInt8} (same : core.clients[job.clientId]? = clients[job.clientId]?)
    (h : PhysicalAction.write bytes ∈ core.profileReplay job.clientId ++ speedPrefix job ++
      [.write job.payload.wireBytes, .write [0x15]]) : StartWrite clients job bytes := by
  simp only [List.mem_append, List.mem_cons, PhysicalAction.write.injEq, List.not_mem_nil,
    or_false] at h
  rcases h with (profile | speed) | payload | request
  · left
    unfold profileReplay at profile
    split at profile
    · cases known : core.clients[job.clientId]? with
      | none => simp [known] at profile
      | some client =>
          simp only [known, Option.elim_some, replay, List.mem_map, PhysicalAction.write.injEq]
            at profile
          obtain ⟨⟨key, _⟩, mem, rfl⟩ := profile
          exact ⟨client, key, same ▸ known, mem⟩
    · cases profile
  · right; left
    unfold speedPrefix at speed
    split at speed
    · simpa using speed
    · cases speed
  · exact Or.inr (Or.inr (Or.inl payload))
  · exact Or.inr (Or.inr (Or.inr request))

/-- The actions that take a job out: clears, cancellations of queued jobs, and its own end last. -/
theorem ending_terminal {a : ActiveJob} {dropped : List Job} {ending : List PhysicalAction}
    (h : Ending a dropped ending) : ∃ front last, ending = front ++ [last] ∧
      (last = .completed a.job.id a.job.clientId ∨ last = .canceled a.job.id a.job.clientId) ∧
      ∀ bytes, .write bytes ∈ front → IsClear bytes := by
  cases h with
  | completed => exact ⟨[], _, rfl, Or.inl rfl, by simp⟩
  | cleared =>
      refine ⟨.write [0x0a] :: dropped.map cancellation, cancellation a.job, rfl, Or.inr rfl, ?_⟩
      intro bytes h
      rcases List.mem_cons.mp h with h | h
      · cases h; exact Or.inl rfl
      · exact absurd h write_not_mem_cancellations
  | unregistered =>
      refine ⟨dropped.map cancellation ++ [.write [0x0a]], cancellation a.job, by simp,
        Or.inr rfl, ?_⟩
      intro bytes h
      rcases List.mem_append.mp h with h | h
      · exact absurd h write_not_mem_cancellations
      · cases List.mem_singleton.mp h; exact Or.inl rfl

/-! ## Every call -/

/-- A call under an active job either leaves it active and writes for its owner, or ends it. -/
theorem effect_owned {core core' : BrokerCore} {op : BrokerOp} {answer : Answer} {a : ActiveJob}
    (h : Effect core op answer core') (active : core.active = some a) :
    Survives a ⟨core, op, answer, core'⟩ ∨ Ends a ⟨core, op, answer, core'⟩ := by
  cases h with
  | quiet ws same owner =>
      left
      obtain ⟨b, hb, hjob, _⟩ := same.busy active
      refine ⟨⟨b, hb, by rw [hjob], by rw [hjob]⟩, fun bytes h => Or.inr ?_⟩
      -- While a job is active, such a call writes its owner's command or nothing.
      rcases owner a active with rfl | ⟨command, rfl, rfl⟩
      · cases h
      · rw [List.mem_singleton.mp (mem_writes.mp h)]
  | @grewActive a' payload speed now clock active' _ _ _ =>
      left
      obtain rfl : a' = a := Option.some.inj (active'.symm.trans active)
      refine ⟨⟨_, rfl, rfl, rfl⟩, fun bytes h => Or.inl ⟨payload, speed, now, clock, rfl, rfl, ?_⟩⟩
      simpa using h
  | grewTail =>
      left
      exact ⟨⟨a, active, rfl, rfl⟩, by simp⟩
  | queued =>
      left
      exact ⟨⟨a, active, rfl, rfl⟩, by simp⟩
  | opened idle => rw [idle] at active; cases active
  | withdrew p ws stays _ _ silent =>
      left
      refine ⟨⟨a, by rw [stays, active], rfl, rfl⟩, fun bytes h => ?_⟩
      rw [silent (by simp [active])] at h
      exact absurd h write_not_mem_cancellations
  | @ended op a' mid core' ending started p active' idle queue _ _ out begins =>
      right
      obtain rfl : a' = a := Option.some.inj (active'.symm.trans active)
      obtain ⟨front, last, rfl, terminal, clears⟩ := ending_terminal out
      refine ⟨⟨front, last, started, by simp, terminal, clears⟩, fun b hb => ?_⟩
      obtain ⟨_, rest, head, _⟩ := begins.active idle hb
      have mem : b.job ∈ mid.queue := by rw [head]; exact List.mem_cons_self
      rw [queue] at mem
      exact List.mem_of_mem_filter mem
  | halted clear ws clears none' _ _ =>
      right
      refine ⟨⟨clear.map .write, cancellation a.job, core.queue.map cancellation ++ ws.map .write,
        by simp [active], Or.inr rfl, ?_⟩, fun b hb => ?_⟩
      · intro bytes h
        rcases clears with rfl | rfl
        · cases h
        · exact Or.inr (List.mem_singleton.mp (mem_writes.mp h))
      · rw [none'] at hb
        cases hb

/-- A job that starts in a call is alone in what the call then writes. -/
theorem begins_alone {mid core' : BrokerCore} {clock : Nat} {started : List PhysicalAction}
    {b : ActiveJob} {clients : Std.TreeMap ClientId ClientState}
    (h : Begins mid clock core' started) (idle : mid.active = none) (hb : core'.active = some b)
    (table : ∀ job ∈ mid.queue, mid.clients[job.clientId]? = clients[job.clientId]?) :
    ∀ bytes, .write bytes ∈ started → StartWrite clients b.job bytes := by
  obtain ⟨_, rest, head, rfl⟩ := h.active idle hb
  intro bytes written
  refine start_writes (table b.job ?_) written
  rw [head]
  exact List.mem_cons_self

/-- What is active after a call was active before it, or starts in it. -/
theorem effect_starts {core core' : BrokerCore} {op : BrokerOp} {answer : Answer} {b : ActiveJob}
    (h : Effect core op answer core') (hb : core'.active = some b) :
    (∃ a, core.active = some a ∧ b.job.id = a.job.id ∧ b.job.clientId = a.job.clientId) ∨
      StartsAlone b ⟨core, op, answer, core'⟩ := by
  cases h with
  | quiet ws same owner =>
      left
      obtain ⟨a, ha, hjob, _⟩ := same.symm.busy hb
      exact ⟨a, ha, by rw [hjob], by rw [hjob]⟩
  | @grewActive a payload speed now clock active _ _ _ =>
      left
      cases hb
      exact ⟨a, active, rfl, rfl⟩
  | grewTail => exact Or.inl ⟨b, hb, rfl, rfl⟩
  | queued => exact Or.inl ⟨b, hb, rfl, rfl⟩
  | @opened job speed now clock core' started idle _ begins =>
      right
      refine ⟨[], started, rfl, fun _ => rfl, by simp, ?_⟩
      exact begins_alone begins idle hb (fun _ _ => rfl)
  | withdrew p ws stays _ _ silent => exact Or.inl ⟨b, by rw [← stays, hb], rfl, rfl⟩
  | @ended op a mid core' ending started p active idle _ _ table out begins =>
      right
      obtain ⟨front, last, rfl, terminal, clears⟩ := ending_terminal out
      refine ⟨front ++ [last], started, rfl, fun none' => ?_, fun bytes h => ?_, ?_⟩
      · exact absurd (active.symm.trans none') (by simp)
      · rcases List.mem_append.mp h with h | h
        · exact clears bytes h
        · rcases terminal with rfl | rfl <;> cases List.mem_singleton.mp h
      · exact begins_alone begins idle hb table
  | halted clear ws _ none' _ _ => rw [none'] at hb; cases hb

/-! ## Every run -/

/-- **No interleaving.**  In every run, a call under an active job leaves it active and writes only
for its owner, or ends it behind nothing but a clear; and what is active after a call was active
before it, or was started by it with its own client's bytes only. -/
theorem no_interleaving {maxTx : Nat} {history : BrokerHistory} {core : BrokerCore}
    (run : broker.Execution (.new maxTx) history core) : ∀ e ∈ history,
    (∀ a, e.before.active = some a → Survives a e ∨ Ends a e) ∧
    (∀ b, e.after.active = some b →
      (∃ a, e.before.active = some a ∧ b.job.id = a.job.id ∧ b.job.clientId = a.job.clientId) ∨
        StartsAlone b e) := by
  intro e he
  have effect := broker_effect (run.step_of_mem e he)
  exact ⟨fun a ha => effect_owned effect ha, fun b hb => effect_starts effect hb⟩

/-- Client 2 sets its speed, sends text and a command while the stream of client 1 is on the air. -/
def contendedStream : List BrokerOp :=
  [.connectPhysical 31, .registerClient 1 true, .registerClient 2 false,
    .enqueue 1 ⟨[69], [69]⟩ none true 0 0, .setClientSpeed 2 (.fixed 30),
    .enqueue 2 ⟨[84], [84]⟩ none true 1 1, .activeOwnerCommand 2 [0x0b, 0x01],
    .enqueue 1 ⟨[73], [73]⟩ none true 2 2, .cancelJob 1 1 3]

theorem no_interleaving_contendedStream :
    ∃ history core, broker.Execution (.new 60) history core ∧ core.activeClientId = some 2 ∧
      ∀ e ∈ history,
      (∀ a, e.before.active = some a → Survives a e ∨ Ends a e) ∧
      (∀ b, e.after.active = some b →
        (∃ a, e.before.active = some a ∧ b.job.id = a.job.id ∧
          b.job.clientId = a.job.clientId) ∨ StartsAlone b e) := by
  have run := broker.execution_exec (.new 60) contendedStream (by decide)
  exact ⟨_, _, run, by decide, no_interleaving run⟩

end CatHub.WinKeyer
