/-
# CatHub.WinKeyer.Representation — what holds of the broker core after any sequence of calls.

`Represented` is the representation invariant of `BrokerCore`: it ties the connection, the client
table, the queue and the active slot to one another.  `represented_after` shows it for every
sequence of calls from a new broker, in any order and with any arguments.

The job ids are the delicate part.  The counter saturates at the largest 64-bit value, which is then
handed out again and again; below it the ids strictly increase.
-/
import CatHub.WinKeyer.Course

namespace CatHub.WinKeyer

open Ptt

namespace BrokerCore

/-- The core after a sequence of calls. -/
def afterCalls (core : BrokerCore) (ops : List BrokerOp) : BrokerCore :=
  ops.foldl (fun core op => (op.apply core).1) core

/-- The active job, followed by the queued ones. -/
def jobs (core : BrokerCore) : List Job := core.active.toList.map (·.job) ++ core.queue

/-- `i` comes before `j` in the numbering of the jobs. -/
def IdBefore (i j : Nat) : Prop := i < j ∨ (i = u64Max ∧ j = u64Max)

/-! ## The invariant -/

/-- The representation invariant. -/
structure Represented (core : BrokerCore) : Prop where
  /-- No wakeup is lost: work waits only behind an active job. -/
  busy : core.queue ≠ [] → core.active.isSome
  offline : core.connected = false → core.jobs = []
  room : core.queue.length ≤ maxQueuedJobs
  sized : ∀ job ∈ core.jobs,
    1 ≤ job.payload.wireBytes.length ∧ job.payload.wireBytes.length ≤ maxJobBytes
  increasing : (core.jobs.map (·.id)).Pairwise IdBefore
  issued : ∀ job ∈ core.jobs, IdBefore job.id core.nextJobId
  counter : core.nextJobId ≤ u64Max
  registered : ∀ job ∈ core.jobs, (core.clients[job.clientId]?).isSome
  onePrimary : ∀ c d, core.isPrimary c = true → core.isPrimary d = true → c = d

theorem represented_new (maxTx : Nat) : Represented (.new maxTx) where
  busy := fun queued => absurd rfl queued
  offline := fun _ => rfl
  room := Nat.zero_le _
  sized := fun _ held => by cases held
  increasing := .nil
  issued := fun _ held => by cases held
  counter := show 1 ≤ u64Max by decide
  registered := fun _ held => by cases held
  onePrimary := fun c d primary => by simp [isPrimary, new] at primary

/-! ## The table -/

theorem isPrimary_of_client {core : BrokerCore} {c : ClientId} {client : ClientState}
    (known : core.clients[c]? = some client) : core.isPrimary c = client.primary := by
  simp [isPrimary, known]

theorem clients_withClient (core : BrokerCore) (c d : ClientId) (client : ClientState) :
    (core.withClient c client).clients[d]? = if d = c then some client else core.clients[d]? := by
  unfold withClient
  simp only [Std.TreeMap.getElem?_insert, Nat.compare_eq_eq]
  by_cases same : d = c
  · simp [same]
  · simp [same, Ne.symm same]

theorem clients_erase (core : BrokerCore) (c d : ClientId) :
    (core.clients.erase c)[d]? = if d = c then none else core.clients[d]? := by
  simp only [Std.TreeMap.getElem?_erase, Nat.compare_eq_eq]
  by_cases same : d = c
  · simp [same]
  · simp [same, Ne.symm same]

theorem unregisterClient_clients (core : BrokerCore) (c : ClientId) (clock : Nat) :
    (core.unregisterClient c clock).1.clients = core.clients.erase c := by
  cases active : core.active with
  | none => simp only [BrokerCore.unregisterClient, active]
  | some a =>
      by_cases owner : a.job.clientId = c
      · simp only [BrokerCore.unregisterClient, active, owner, if_true, startNextOrRestore_clients]
      · simp only [BrokerCore.unregisterClient, active, owner, if_false]

theorem isPrimary_withClient (core : BrokerCore) (c d : ClientId) (client : ClientState) :
    (core.withClient c client).isPrimary d =
      if d = c then client.primary else core.isPrimary d := by
  unfold isPrimary
  rw [clients_withClient]
  split <;> simp

/-- When no entry is primary, no client is. -/
theorem isPrimary_none {core : BrokerCore}
    (free : core.clients.toList.any (fun e => e.2.primary) = false) (c : ClientId) :
    core.isPrimary c = false := by
  unfold isPrimary
  cases known : core.clients[c]? with
  | none => rfl
  | some client =>
      have entry : (c, client) ∈ core.clients.toList :=
        Std.TreeMap.mem_toList_iff_getElem?_eq_some.mpr known
      have := List.any_eq_false.mp free _ entry
      simpa using this

/-! ## The jobs -/

theorem jobs_eq_nil {core : BrokerCore} : core.jobs = [] ↔ core.Vacant := by
  unfold jobs
  constructor
  · intro none'
    obtain ⟨active, queue⟩ := List.append_eq_nil_iff.mp none'
    exact ⟨by simpa using active, queue⟩
  · rintro ⟨active, queue⟩
    rw [active, queue]
    rfl

theorem queue_le_jobs (core : BrokerCore) : core.queue.length ≤ core.jobs.length := by
  unfold jobs
  rw [List.length_append]
  omega

theorem SameSchedule.jobs {a b : BrokerCore} (same : SameSchedule a b) : b.jobs = a.jobs := by
  have active : b.active.toList.map (·.job) = a.active.toList.map (·.job) := by
    rw [← Option.toList_map, ← Option.toList_map, same.active]
  unfold BrokerCore.jobs
  rw [active, same.queue]

/-- A boundary takes the queue's head into the active slot. -/
theorem Begins.jobs {mid core : BrokerCore} {clock : Nat} {actions : List PhysicalAction}
    (begins : Begins mid clock core actions) (idle : mid.active = none) :
    core.jobs = mid.queue ∧ (core.queue ≠ [] → core.active.isSome) ∧
      core.nextJobId = mid.nextJobId := by
  cases begins with
  | drained ws empty same =>
      refine ⟨?_, fun queued => absurd (same.queue.trans empty) queued, same.nextJobId⟩
      rw [same.jobs, empty]
      exact jobs_eq_nil.mpr ⟨idle, empty⟩
  | started head active queue next =>
      refine ⟨?_, fun _ => by rw [active]; rfl, next⟩
      rw [head, BrokerCore.jobs, active, queue]
      rfl

end BrokerCore

open BrokerCore

/-- The call takes jobs in. -/
def BrokerOp.enqueues : BrokerOp → Bool
  | .enqueue _ _ _ _ _ _ => true
  | _ => false

/-- Every call but an enqueue only drops jobs. -/
theorem Effect.drops {core core' : BrokerCore} {op : BrokerOp} {answer : Answer}
    (effect : Effect core op answer core') (drops : op.enqueues = false)
    (busy : core.queue ≠ [] → core.active.isSome) :
    core'.jobs.Sublist core.jobs ∧ (core'.queue ≠ [] → core'.active.isSome) ∧
      core'.nextJobId = core.nextJobId := by
  cases effect with
  | quiet ws same _ =>
      refine ⟨by rw [same.jobs], fun queued => ?_, same.nextJobId⟩
      obtain ⟨a, active⟩ := Option.isSome_iff_exists.mp (busy (same.queue ▸ queued))
      obtain ⟨b, active', _⟩ := same.busy active
      rw [active']
      rfl
  | grewActive | grewTail | queued | opened => cases drops
  | withdrew p ws active queue next _ =>
      have kept : core'.queue.Sublist core.queue := by
        rw [queue]
        exact List.filter_sublist
      refine ⟨?_, fun queued => ?_, next⟩
      · unfold BrokerCore.jobs
        rw [active]
        exact kept.append_left _
      · rw [active]
        refine busy (fun empty => queued ?_)
        rw [queue, empty]
        rfl
  | ended p active idle queue next _ _ begins =>
      obtain ⟨jobs, busy', next'⟩ := begins.jobs idle
      refine ⟨?_, busy', next'.trans next⟩
      rw [jobs, queue]
      exact List.filter_sublist.trans (List.sublist_append_right _ _)
  | halted clear ws _ idle empty next =>
      refine ⟨?_, fun queued => absurd empty queued, next⟩
      rw [jobs_eq_nil.mpr ⟨idle, empty⟩]
      exact List.nil_sublist _

/-- A queued job was queued before, or it is new, or a chunk has just joined it. -/
theorem Effect.queue_from {core core' : BrokerCore} {op : BrokerOp} {answer : Answer}
    (effect : Effect core op answer core') :
    ∀ job ∈ core'.queue, job ∈ core.queue ∨
      (∃ speed now clock, op = .enqueue job.clientId job.payload speed job.stream now clock) ∨
      ∃ queued payload speed now clock, core.queue.getLast? = some queued ∧ queued.stream = true ∧
        op = .enqueue queued.clientId payload speed true now clock ∧ job = queued.grow payload := by
  have begun : ∀ {mid : BrokerCore} {clock : Nat} {started : List PhysicalAction},
      Begins mid clock core' started → ∀ job ∈ core'.queue, job ∈ mid.queue := by
    intro mid clock started begins job held
    cases begins with
    | drained ws empty same => rwa [same.queue] at held
    | started head active queue next =>
        rw [queue] at held
        rw [head]
        exact List.mem_cons_of_mem _ held
  intro job held
  cases effect with
  | quiet ws same _ =>
      rw [same.queue] at held
      exact Or.inl held
  | grewActive => exact Or.inl held
  | @grewTail front queued payload speed now clock queue stream =>
      rcases List.mem_append.mp held with earlier | last
      · rw [queue]
        exact Or.inl (List.mem_append_left _ earlier)
      · refine Or.inr (Or.inr ⟨queued, payload, speed, now, clock, ?_, stream, rfl, ?_⟩)
        · rw [queue]
          exact List.getLast?_concat
        · exact List.mem_singleton.mp last
  | @queued job' speed now clock =>
      rcases List.mem_append.mp held with earlier | last
      · exact Or.inl earlier
      · obtain rfl := List.mem_singleton.mp last
        exact Or.inr (Or.inl ⟨speed, now, clock, rfl⟩)
  | @opened job' speed now clock _ _ _ _ begins =>
      rcases List.mem_append.mp (begun begins job held) with earlier | last
      · exact Or.inl earlier
      · obtain rfl := List.mem_singleton.mp last
        exact Or.inr (Or.inl ⟨speed, now, clock, rfl⟩)
  | withdrew p ws _ queue =>
      rw [queue] at held
      exact Or.inl (List.mem_of_mem_filter held)
  | ended p _ _ queue _ _ _ begins =>
      have kept := begun begins job held
      rw [queue] at kept
      exact Or.inl (List.mem_of_mem_filter kept)
  | halted clear ws _ _ empty =>
      rw [empty] at held
      cases held

/-- How an accepted enqueue takes the payload in. -/
inductive Takes (core : BrokerCore) (clientId : ClientId) (payload : TransmitPayload) :
    Nat → BrokerCore → Prop
  | joinedActive {a : ActiveJob} : core.active = some a → a.job.clientId = clientId →
      a.job.stream = true →
      a.job.payload.wireBytes.length + payload.wireBytes.length ≤ maxJobBytes →
      Takes core clientId payload a.job.id
        { core with active := some { a with job := a.job.grow payload } }
  | joinedTail {front : List Job} {queued : Job} : core.queue = front ++ [queued] →
      queued.clientId = clientId → queued.stream = true →
      queued.payload.wireBytes.length + payload.wireBytes.length ≤ maxJobBytes →
      Takes core clientId payload queued.id { core with queue := front ++ [queued.grow payload] }
  | opened {job : Job} {core' : BrokerCore} : core.queue.length < maxQueuedJobs →
      job.clientId = clientId → job.payload = payload → job.id = core.nextJobId →
      core'.jobs = core.jobs ++ [job] → (core'.queue ≠ [] → core'.active.isSome) →
      core'.nextJobId = min (core.nextJobId + 1) u64Max → core'.queue.length ≤ core.queue.length + 1 →
      Takes core clientId payload job.id core'

/-- What an accepted enqueue has checked, and what it does. -/
theorem enqueue_takes {core core' : BrokerCore} {clientId : ClientId} {payload : TransmitPayload}
    {speed : Option SpeedMode} {stream : Bool} {now clock jobId : Nat}
    {actions : List PhysicalAction}
    (h : core.enqueue clientId payload speed stream now clock = some (core', jobId, actions)) :
    1 ≤ payload.wireBytes.length ∧ payload.wireBytes.length ≤ maxJobBytes ∧
      (core.clients[clientId]?).isSome ∧ Takes core clientId payload jobId core' := by
  obtain ⟨some', short, _, known⟩ := enqueue_checks h
  refine ⟨List.length_pos_iff.mpr some', short, known, ?_⟩
  cases enqueue_cases h with
  | joinedActive _ joins fits =>
      obtain ⟨active, owner, streams⟩ := activeStream?_eq_some.mp joins
      exact .joinedActive active owner streams fits
  | joinedTail _ _ joins fits =>
      obtain ⟨queue, owner, streams⟩ := tailStream?_eq_some joins
      exact .joinedTail queue owner streams fits
  | @waits client _ _ room busy =>
      let job := core.newJob clientId payload (speed.getD client.desiredSpeed) stream now
      refine @Takes.opened core clientId payload job _ room rfl rfl rfl ?_ (fun _ => busy) rfl ?_
      · exact (List.append_assoc _ _ _).symm
      · simp [withJob]
  | @starts client _ _ _ room idle opened =>
      subst opened
      let job := core.newJob clientId payload (speed.getD client.desiredSpeed) stream now
      obtain ⟨jobs, busy, next⟩ := (startNextOrRestore_begins (core.withJob job) clock).jobs idle
      have all : core.jobs = core.queue := by
        rw [BrokerCore.jobs, idle]
        rfl
      refine @Takes.opened core clientId payload job _ room rfl rfl rfl ?_ busy next ?_
      · rw [all]
        exact jobs
      · have shorter := queue_le_jobs ((core.withJob job).startNextOrRestore clock).1
        rw [jobs] at shorter
        exact Nat.le_trans shorter (Nat.le_of_eq List.length_append)

/-! ## What a call does to the table -/

/-- Nothing of a client is left after it was unregistered. -/
theorem unregisterClient_jobs (core : BrokerCore) (c : ClientId) (clock : Nat) :
    ∀ job ∈ (core.unregisterClient c clock).1.jobs, job.clientId ≠ c := by
  have others : ∀ job ∈ jobsNotOf core.queue c, job.clientId ≠ c := by
    intro job kept
    simpa using (List.mem_filter.mp kept).2
  cases active : core.active with
  | none =>
      simp only [BrokerCore.unregisterClient, active, BrokerCore.jobs]
      simpa using others
  | some a =>
      by_cases owner : a.job.clientId = c
      · simp only [BrokerCore.unregisterClient, active, owner, if_true]
        intro job held
        rw [((startNextOrRestore_begins _ clock).jobs rfl).1] at held
        exact others job held
      · simp only [BrokerCore.unregisterClient, active, owner, if_false, BrokerCore.jobs]
        intro job held
        rcases List.mem_append.mp held with active' | queued
        · obtain rfl : job = a.job := List.mem_singleton.mp active'
          exact owner
        · exact others job queued

/-- The entry of client `c` after a call: the one it had, perhaps with another speed or with one more
command in its profile, or a new one. -/
inductive Entry (core : BrokerCore) (c : ClientId) : BrokerOp → ClientState → Prop
  | kept {op : BrokerOp} {client : ClientState} : core.clients[c]? = some client →
      Entry core c op client
  | registered {primary : Bool} :
      Entry core c (.registerClient c primary) { desiredSpeed := .pot, primary, profile := ∅ }
  | paced {client : ClientState} {speed : SpeedMode} : core.clients[c]? = some client →
      Entry core c (.setClientSpeed c speed) { client with desiredSpeed := speed }
  | configured {client : ClientState} {command : List UInt8} {key : Nat} :
      profileKey command = some key → core.clients[c]? = some client →
      Entry core c (.setClientCommand c command)
        { client with profile := client.profile.insert key command }

theorem Course.entry {core core' : BrokerCore} {op : BrokerOp} {actions : List PhysicalAction}
    (course : Course core op actions core') {c : ClientId} {client : ClientState}
    (known : core'.clients[c]? = some client) : Entry core c op client := by
  have same : ∀ b : BrokerCore, b.clients = core.clients → b.clients[c]? = some client →
      Entry core c op client := by
    intro b clients found
    rw [clients] at found
    exact .kept found
  have erased : ∀ (b : BrokerCore) (d : ClientId), b.clients = core.clients.erase d →
      b.clients[c]? = some client → Entry core c op client := by
    intro b d clients found
    rw [clients, clients_erase] at found
    split at found
    · cases found
    · exact .kept found
  -- A call that writes one entry: it is that of `c`, or `c` has the one it had.
  have inserted : ∀ (b : BrokerCore) (d : ClientId) (next : ClientState),
      b.clients = (core.withClient d next).clients → b.clients[c]? = some client →
      (c = d → Entry core c op next) → Entry core c op client := by
    intro b d next clients found entry
    rw [clients, clients_withClient] at found
    split at found
    · rename_i here
      obtain rfl := Option.some.inj found
      exact entry here
    · exact .kept found
  cases course with
  | quiet settings | grew _ settings | swept _ _ settings => exact same _ settings.clients known
  | commanded => exact same _ rfl known
  | registered _ settings =>
      refine inserted _ _ _ settings.clients known ?_
      rintro rfl
      exact .registered
  | unregistered _ settings => exact erased _ _ settings.clients known
  | paced found settings =>
      refine inserted _ _ _ settings.clients known ?_
      rintro rfl
      exact .paced found
  | configured keyed found _ _ settings | stored keyed found _ settings =>
      refine inserted _ _ _ settings.clients known ?_
      rintro rfl
      exact .configured keyed found
  | passed boundary =>
      rw [startNextOrRestore_clients] at known
      rcases boundary.table with ⟨clients, _⟩ | ⟨d, _, _, _, gone, _⟩
      · exact same _ clients known
      · exact erased _ d gone known

/-- No call forgets a client while a job of it is held. -/
theorem Course.keeps_clients {core core' : BrokerCore} {op : BrokerOp} {actions : List PhysicalAction}
    (course : Course core op actions core') {c : ClientId} (known : (core.clients[c]?).isSome)
    (stays : ∀ d clock, op = .unregisterClient d clock → c ≠ d) :
    (core'.clients[c]?).isSome := by
  have inserted : ∀ (d : ClientId) (client : ClientState) (b : BrokerCore),
      b.clients = (core.withClient d client).clients → (b.clients[c]?).isSome := by
    intro d client b same
    rw [same, clients_withClient]
    split
    · rfl
    · exact known
  have erased : ∀ (d : ClientId) (clock : Nat), op = .unregisterClient d clock →
      ((core.clients.erase d)[c]?).isSome := by
    intro d clock leaves
    rw [clients_erase, if_neg (stays d clock leaves)]
    exact known
  cases course with
  | quiet same | grew _ same | swept _ _ same => rwa [same.clients]
  | commanded => exact known
  | registered _ same | paced _ same | configured _ _ _ _ same | stored _ _ _ same =>
      exact inserted _ _ _ same.clients
  | @unregistered d clock _ _ _ same =>
      rw [same.clients]
      exact erased d clock rfl
  | passed boundary =>
      rw [startNextOrRestore_clients]
      rcases boundary.table with ⟨same, _⟩ | ⟨d, clock, leaves, _, gone, _⟩
      · rwa [same]
      · rw [gone]
        exact erased d clock leaves

/-- No call lets a second client become primary. -/
theorem Course.onePrimary {core core' : BrokerCore} {op : BrokerOp} {actions : List PhysicalAction}
    (course : Course core op actions core')
    (one : ∀ c d, core.isPrimary c = true → core.isPrimary d = true → c = d) :
    ∀ c d, core'.isPrimary c = true → core'.isPrimary d = true → c = d := by
  have fewer : ∀ b : BrokerCore, (∀ c, b.isPrimary c = true → core.isPrimary c = true) →
      ∀ c d, b.isPrimary c = true → b.isPrimary d = true → c = d :=
    fun b less c d hc hd => one c d (less c hc) (less d hd)
  have like : ∀ b : BrokerCore, b.clients = core.clients →
      ∀ c, b.isPrimary c = true → core.isPrimary c = true := by
    intro b same c primary
    rwa [isPrimary, same] at primary
  have erased : ∀ (b : BrokerCore) (d : ClientId), b.clients = core.clients.erase d →
      ∀ c, b.isPrimary c = true → core.isPrimary c = true := by
    intro b d gone c primary
    rw [isPrimary, gone, clients_erase] at primary
    split at primary
    · cases primary
    · exact primary
  -- An entry that keeps its primary flag changes nothing here.
  have edited : ∀ (b : BrokerCore) (d : ClientId) (client next : ClientState),
      core.clients[d]? = some client → b.clients = (core.withClient d next).clients →
      next.primary = client.primary →
      ∀ c, b.isPrimary c = true → core.isPrimary c = true := by
    intro b d client next known same flag c primary
    have primary : (core.withClient d next).isPrimary c = true := by
      rwa [isPrimary, ← same]
    rw [isPrimary_withClient] at primary
    split at primary
    · rename_i here
      rw [here, isPrimary_of_client known, ← flag]
      exact primary
    · exact primary
  cases course with
  | quiet same | grew _ same | swept _ _ same => exact fewer _ (like _ same.clients)
  | commanded => exact one
  | @registered client primary _ free same =>
      intro c d hc hd
      have flag : ∀ e, core'.isPrimary e = true →
          (if e = client then primary else core.isPrimary e) = true := by
        intro e he
        rw [isPrimary, same.clients] at he
        rw [← isPrimary_withClient core client e ⟨.pot, primary, ∅⟩]
        exact he
      have hc := flag c hc
      have hd := flag d hd
      cases primary with
      | false =>
          refine one c d ?_ ?_
          · split at hc
            · cases hc
            · exact hc
          · split at hd
            · cases hd
            · exact hd
      | true =>
          have nobody := isPrimary_none (free rfl)
          simp only [nobody, Bool.if_true_left, Bool.or_false, decide_eq_true_eq] at hc hd
          exact hc.trans hd.symm
  | @unregistered d _ _ _ _ same => exact fewer _ (erased _ d same.clients)
  | paced known same => exact fewer _ (edited _ _ _ _ known same.clients rfl)
  | configured _ known _ _ same => exact fewer _ (edited _ _ _ _ known same.clients rfl)
  | stored _ known _ same => exact fewer _ (edited _ _ _ _ known same.clients rfl)
  | passed boundary =>
      rcases boundary.table with ⟨same, _⟩ | ⟨d, _, _, _, gone, _⟩
      · exact fewer _ (like _ ((startNextOrRestore_clients _ _).trans same))
      · exact fewer _ (erased _ d ((startNextOrRestore_clients _ _).trans gone))

/-! ## The invariant is kept -/

namespace BrokerCore.Represented

variable {core core' : BrokerCore}

theorem jobs_le (r : Represented core) : core.jobs.length ≤ maxQueuedJobs + 1 := by
  have room := r.room
  have slot : core.active.toList.length ≤ 1 := by cases core.active <;> simp
  unfold jobs
  rw [List.length_append, List.length_map]
  omega

/-- The queue is behind an active job, if it holds anything. -/
theorem queue_room {n : Nat} (busy : core.queue ≠ [] → core.active.isSome)
    (length : core.jobs.length ≤ n + 1) : core.queue.length ≤ n := by
  by_cases empty : core.queue = []
  · rw [empty]
    exact Nat.zero_le n
  · obtain ⟨a, active⟩ := Option.isSome_iff_exists.mp (busy empty)
    have slot : core.jobs.length = core.queue.length + 1 := by simp [jobs, active]
    omega

/-- A call that only drops jobs. -/
theorem dropped (r : Represented core) (fewer : core'.jobs.Sublist core.jobs)
    (busy : core'.queue ≠ [] → core'.active.isSome) (next : core'.nextJobId = core.nextJobId)
    (offline : core'.connected = false → core'.jobs = [])
    (registered : ∀ job ∈ core'.jobs, (core'.clients[job.clientId]?).isSome)
    (onePrimary : ∀ c d, core'.isPrimary c = true → core'.isPrimary d = true → c = d) :
    Represented core' where
  busy := busy
  offline := offline
  room := queue_room busy (Nat.le_trans fewer.length_le r.jobs_le)
  sized := fun job held => r.sized job (fewer.subset held)
  increasing := r.increasing.sublist (fewer.map _)
  issued := fun job held => by rw [next]; exact r.issued job (fewer.subset held)
  counter := by rw [next]; exact r.counter
  registered := registered
  onePrimary := onePrimary

/-- A chunk joins a job that is already held. -/
theorem grown (r : Represented core) (front back : List Job) (job : Job) {payload : TransmitPayload}
    (before : core.jobs = front ++ job :: back) (after : core'.jobs = front ++ job.grow payload :: back)
    (fits : job.payload.wireBytes.length + payload.wireBytes.length ≤ maxJobBytes)
    (busy : core'.queue ≠ [] → core'.active.isSome) (next : core'.nextJobId = core.nextJobId)
    (clients : core'.clients = core.clients) (connected : core'.connected = core.connected) :
    Represented core' := by
  have ids : core'.jobs.map (·.id) = core.jobs.map (·.id) := by
    rw [before, after, List.map_append, List.map_append, List.map_cons, List.map_cons]
    rfl
  -- Every job after the call is a job before it, or the grown one.
  have same : ∀ j ∈ core'.jobs, j = job.grow payload ∨ j ∈ core.jobs := by
    intro j held
    rw [after, List.mem_append, List.mem_cons] at held
    rw [before, List.mem_append, List.mem_cons]
    rcases held with held | rfl | held
    · exact Or.inr (Or.inl held)
    · exact Or.inl rfl
    · exact Or.inr (Or.inr (Or.inr held))
  have here : job ∈ core.jobs := by
    rw [before]
    exact List.mem_append_right _ List.mem_cons_self
  refine ⟨busy, fun off => ?_, queue_room busy ?_, fun j held => ?_, by rw [ids]; exact r.increasing,
    fun j held => ?_, by rw [next]; exact r.counter, fun j held => ?_, fun c d => ?_⟩
  · have none' := r.offline (connected ▸ off)
    rw [none'] at here
    cases here
  · have length := congrArg List.length ids
    rw [List.length_map, List.length_map] at length
    rw [length]
    exact r.jobs_le
  · rcases same j held with rfl | held
    · have least := (r.sized job here).1
      simp only [Job.grow, TransmitPayload.append, List.length_append]
      omega
    · exact r.sized j held
  · rw [next]
    rcases same j held with rfl | held
    · exact r.issued job here
    · exact r.issued j held
  · rw [clients]
    rcases same j held with rfl | held
    · exact r.registered job here
    · exact r.registered j held
  · simp only [isPrimary, clients]
    exact r.onePrimary c d

/-- A new job comes in. -/
theorem extended (r : Represented core) {job : Job} (id : job.id = core.nextJobId)
    (size : 1 ≤ job.payload.wireBytes.length ∧ job.payload.wireBytes.length ≤ maxJobBytes)
    (jobs : core'.jobs = core.jobs ++ [job]) (busy : core'.queue ≠ [] → core'.active.isSome)
    (room : core'.queue.length ≤ maxQueuedJobs)
    (next : core'.nextJobId = min (core.nextJobId + 1) u64Max) (connected : core'.connected = true)
    (registered : ∀ job ∈ core'.jobs, (core'.clients[job.clientId]?).isSome)
    (onePrimary : ∀ c d, core'.isPrimary c = true → core'.isPrimary d = true → c = d) :
    Represented core' := by
  have counter := r.counter
  refine ⟨busy, fun off => ?_, room, fun j held => ?_, ?_, fun j held => ?_, ?_, registered,
    onePrimary⟩
  · rw [connected] at off
    cases off
  · rw [jobs] at held
    rcases List.mem_append.mp held with held | last
    · exact r.sized j held
    · rw [List.mem_singleton.mp last]
      exact size
  · rw [jobs, List.map_append, List.pairwise_append]
    refine ⟨r.increasing, List.pairwise_singleton _ _, ?_⟩
    intro i hi k hk
    obtain ⟨j, held, rfl⟩ := List.mem_map.mp hi
    have last : k = job.id := List.mem_singleton.mp hk
    rw [last, id]
    exact r.issued j held
  · rw [jobs] at held
    rw [next]
    unfold IdBefore
    rcases List.mem_append.mp held with held | last
    · have earlier := r.issued j held
      unfold IdBefore at earlier
      omega
    · have here : j.id = core.nextJobId := by rw [List.mem_singleton.mp last, id]
      omega
  · rw [next]
    omega

end BrokerCore.Represented

/-- The calls of a client that stay with the table and the jobs in step. -/
theorem registered_after {core : BrokerCore} {op : BrokerOp} (within : op.within = true)
    (known : ∀ job ∈ (op.apply core).1.jobs, (core.clients[job.clientId]?).isSome) :
    ∀ job ∈ (op.apply core).1.jobs, ((op.apply core).1.clients[job.clientId]?).isSome := by
  intro job held
  refine (apply_course core within).keeps_clients (known job held) ?_
  rintro d clock rfl
  exact unregisterClient_jobs core d clock job held

/-- **Every call keeps the invariant.** -/
theorem represented_step {core : BrokerCore} (r : core.Represented) (op : BrokerOp) :
    (op.apply core).1.Represented := by
  -- A routine call only drops jobs, and keeps the connection.
  have routine : op.routine = true → op.enqueues = false → op.within = true →
      (op.apply core).1.Represented := by
    intro routine drops within
    obtain ⟨fewer, busy, next⟩ := (effect_of_routine core routine).drops drops r.busy
    refine r.dropped fewer busy next (fun off => ?_)
      (registered_after within (fun job held => r.registered job (fewer.subset held)))
      ((apply_course core within).onePrimary r.onePrimary)
    rw [(apply_link core routine).connected] at off
    have none' := r.offline off
    rw [none'] at fewer
    exact List.sublist_nil.mp fewer
  cases op with
  | connectPhysical =>
      exact r.dropped (.refl _) r.busy rfl (fun off => by cases off) r.registered r.onePrimary
  | physicalError =>
      exact r.dropped (List.nil_sublist _) (fun queued => absurd rfl queued) rfl (fun _ => rfl)
        (fun _ held => by cases held) r.onePrimary
  | restoreForeground =>
      exact r.dropped (.refl _) r.busy rfl r.offline r.registered r.onePrimary
  | enqueue clientId payload speed stream now clock =>
      have course : Course core (.enqueue clientId payload speed stream now clock) _ _ :=
        apply_course core rfl
      cases accepted : core.enqueue clientId payload speed stream now clock with
      | none =>
          simp only [BrokerOp.apply, accepted]
          exact r
      | some taken =>
          obtain ⟨core', jobId, actions⟩ := taken
          simp only [BrokerOp.apply, accepted] at course ⊢
          obtain ⟨connected, link⟩ := enqueue_link accepted
          obtain ⟨least, most, known, takes⟩ := enqueue_takes accepted
          cases takes with
          | @joinedActive a active owner _ fits =>
              refine r.grown [] core.queue a.job ?_ ?_ fits
                (fun _ => rfl) rfl rfl rfl
              · rw [jobs, active]
                rfl
              · rfl
          | @joinedTail front queued queue owner _ fits =>
              refine r.grown (core.active.toList.map (·.job) ++ front) [] queued ?_ ?_ fits
                (fun _ => ?_) rfl rfl rfl
              · rw [jobs, queue, List.append_assoc]
              · exact (List.append_assoc _ _ _).symm
              · exact r.busy (by rw [queue]; simp)
          | @opened job _ room owner carried id jobs busy next length =>
              refine r.extended id (by rw [carried]; exact ⟨least, most⟩) jobs busy
                (Nat.le_trans length room) next (link.connected.trans connected) ?_
                (course.onePrimary r.onePrimary)
              intro j held
              refine course.keeps_clients ?_ (fun d clock leaves => by cases leaves)
              rw [jobs] at held
              rcases List.mem_append.mp held with held | last
              · exact r.registered j held
              · rw [List.mem_singleton.mp last, owner]
                exact known
  | _ => exact routine rfl rfl rfl

/-- **The representation invariant.**  After every sequence of calls from a new broker: work waits
only behind an active job; a disconnected core has none; the queue holds at most 64 jobs; every
payload has between 1 and 120 wire bytes; the ids increase and are below the counter, except that the
largest 64-bit value may repeat; every job's client is registered; and at most one client is
primary. -/
theorem represented_after (maxTx : Nat) (ops : List BrokerOp) :
    ((BrokerCore.new maxTx).afterCalls ops).Represented := by
  suffices kept : ∀ core : BrokerCore, core.Represented → (core.afterCalls ops).Represented from
    kept _ (represented_new maxTx)
  induction ops with
  | nil => exact fun _ r => r
  | cons op ops ih => exact fun core r => ih _ (represented_step r op)

/-- The core of every reachable actor has the invariant. -/
theorem represented_of_execution {maxTx : Nat} {ptt : Option PttManager} {reconnect : Bool}
    {firmware : UInt8} {start : Nat} {history : List ActorStep} {a : Actor}
    (run : actor.Execution (.spawn maxTx ptt reconnect firmware start) history a) :
    a.core.Represented := by
  obtain ⟨calls, driven⟩ := core_of_execution run
  refine driven.invariant (I := fun _ core => core.Represented) (represented_new maxTx) ?_
  intro _ core op answer core' _ r step
  simp only [broker, Option.ite_none_left_eq_some, Option.some.injEq] at step
  have after : core' = (op.apply core).1 := (congrArg Prod.fst step.2).symm
  rw [after]
  exact represented_step r op

/-! ## The counter at its end -/

/-- The ids strictly increase and are below the counter. -/
def StrictIds (core : BrokerCore) : Prop :=
  (core.jobs.map (·.id)).Pairwise (· < ·) ∧ ∀ job ∈ core.jobs, job.id < core.nextJobId

/-- Client 1 enqueues a job of one byte. -/
def sendOne : BrokerOp := .enqueue 1 ⟨[69], [69]⟩ none false 0 0

/-- Client 1 enqueues a job and cancels it. -/
def sendAndCancel : List BrokerOp := [sendOne, .cancelClient 1 true 0]

/-- Client 1 is registered with an idle keyer, and the counter is at `n`. -/
structure Rested (n : Nat) (core : BrokerCore) : Prop where
  connected : core.connected = true
  known : (core.clients[1]?).isSome
  vacant : core.Vacant
  next : core.nextJobId = n

/-- The job starts at once. -/
theorem Rested.send {n : Nat} {core : BrokerCore} (r : Rested n core) :
    ∃ a, (sendOne.apply core).1.active = some a ∧ a.job.id = n ∧ a.job.clientId = 1 ∧
      (sendOne.apply core).1.queue = [] ∧ (sendOne.apply core).1.nextJobId = min (n + 1) u64Max ∧
      (sendOne.apply core).1.connected = true ∧ (sendOne.apply core).1.clients = core.clients := by
  obtain ⟨client, known⟩ := Option.isSome_iff_exists.mp r.known
  let job : Job := ⟨n, 1, ⟨[69], [69]⟩, client.desiredSpeed, 0, false⟩
  let queued : BrokerCore := { core with nextJobId := min (core.nextJobId + 1) u64Max, queue := [job] }
  have sent : (sendOne.apply core).1 = (queued.startNextOrRestore 0).1 := by
    simp [sendOne, BrokerOp.apply, BrokerCore.enqueue, r.connected, known, openJob, r.vacant.active,
      r.vacant.queue, maxQueuedJobs, maxJobBytes, r.next, queued, job]
  rw [sent, startNextOrRestore_clients, (startNextOrRestore_link queued 0).connected]
  obtain ⟨jobs, _, next⟩ := (startNextOrRestore_begins queued 0).jobs r.vacant.active
  refine ⟨⟨job, false, false, 0⟩, rfl, rfl, rfl, ?_, ?_, r.connected, rfl⟩
  · have active : (queued.startNextOrRestore 0).1.active = some ⟨job, false, false, 0⟩ := rfl
    simpa [BrokerCore.jobs, active, queued] using jobs
  · rw [next, ← r.next]

theorem Rested.round {n : Nat} {core : BrokerCore} (r : Rested n core) :
    Rested (min (n + 1) u64Max) (core.afterCalls sendAndCancel) := by
  obtain ⟨a, active, _, owner, queue, next, connected, clients⟩ := r.send
  generalize sent : (sendOne.apply core).1 = busy at active queue next connected clients
  show Rested _ (BrokerCore.cancelClient (sendOne.apply core).1 1 true 0).1
  rw [sent]
  simp only [BrokerCore.cancelClient, active, owner, queue, beq_self_eq_true, Bool.and_self, if_true]
  refine ⟨connected, ?_, ⟨rfl, rfl⟩, next⟩
  rw [startNextOrRestore_clients]
  show (busy.clients[1]?).isSome
  rw [clients]
  exact r.known

/-- After enough rounds the counter is at any value it can take. -/
theorem Rested.rounds (n : Nat) (small : n < u64Max) :
    ∃ ops, Rested (n + 1) ((BrokerCore.new 0).afterCalls ops) := by
  induction n with
  | zero =>
      exact ⟨[.connectPhysical 31, .registerClient 1 false], rfl, by decide, ⟨rfl, rfl⟩, rfl⟩
  | succ n ih =>
      obtain ⟨ops, rested⟩ := ih (by omega)
      refine ⟨ops ++ sendAndCancel, ?_⟩
      have next := rested.round
      rw [Nat.min_eq_left (by omega)] at next
      unfold afterCalls at next ⊢
      rw [List.foldl_append]
      exact next

/-- The counter hands out its largest value, and then the id is not below it. -/
theorem strictIds_fails : ¬ ∀ maxTx ops, StrictIds ((BrokerCore.new maxTx).afterCalls ops) := by
  intro strict
  obtain ⟨ops, rested⟩ := Rested.rounds (u64Max - 1) (by decide)
  obtain ⟨a, active, id, _, _, next, _, _⟩ := rested.send
  have last := (strict 0 (ops ++ [sendOne])).2 a.job
  have after : (BrokerCore.new 0).afterCalls (ops ++ [sendOne]) =
      (sendOne.apply ((BrokerCore.new 0).afterCalls ops)).1 := by
    unfold afterCalls
    rw [List.foldl_append]
    rfl
  rw [after, id, next] at last
  have held : a.job ∈ (sendOne.apply ((BrokerCore.new 0).afterCalls ops)).1.jobs := by
    simp [BrokerCore.jobs, active]
  have below := last held
  omega

end CatHub.WinKeyer
