/-
# CatHub.WinKeyer.StreamOrder — in which order a client's accepted chunks reach the keyer.

The chunks that one client gets accepted form a waiting line of their own: a chunk waits while its
job is queued, is served when its bytes are written, and is withdrawn when its job is canceled.
Every call is a sequence of moves of that line, with one exception.  A stream chunk that joins the
active job is written at once, so it passes the chunks of the same client that wait in the queue.
`Overtakes` is that call, `stream_order` is the order in every run without it, and
`stream_order_overtaken` is a run with it in which the order is lost.
-/
import CatHub.Systems.Line
import CatHub.WinKeyer.BrokerEffect
import Mathlib.Data.List.Flatten

namespace CatHub.WinKeyer

open Systems BrokerCore

/-! ## Accepted and written bytes -/

/-- The payload of one accepted enqueue, with the job it was accepted under. -/
structure Chunk where
  jobId : Nat
  bytes : List UInt8
  deriving DecidableEq, Repr

/-- The chunk of client `c` that a call accepts. -/
def acceptedBy (c : ClientId) (e : BrokerCall) : Option Chunk :=
  match e.input, e.output.accepted with
  | .enqueue clientId payload _ _ _ _, some jobId =>
      if clientId = c then some ⟨jobId, payload.wireBytes⟩ else none
  | _, _ => none

/-- The chunks of client `c` accepted so far, in acceptance order. -/
def acceptedChunks (c : ClientId) (history : BrokerHistory) : List Chunk :=
  history.filterMap (acceptedBy c)

/-- The payload in the opening of a job: the write in front of the closing status request. -/
def openingPayload (actions : List PhysicalAction) : List UInt8 :=
  match actions.reverse with
  | .write [0x15] :: .write payload :: _ => payload
  | _ => []

/-- The payload bytes of client `c` that a call writes: a chunk that joins the active job, or the
payload of the job that the call starts. -/
def payloadWritten (c : ClientId) (e : BrokerCall) : List UInt8 :=
  if e.after.activeClientId = some c then
    match e.input, e.output.actions with
    | .enqueue _ _ _ _ _ _, [.write chunk] => chunk
    | _, actions => openingPayload actions
  else []

/-- The payload bytes of client `c` written so far. -/
def writtenBytes (c : ClientId) (history : BrokerHistory) : List UInt8 :=
  history.flatMap (payloadWritten c)

/-- The payload bytes of client `c` that wait in the queue. -/
def queuedBytes (c : ClientId) (core : BrokerCore) : List UInt8 :=
  (jobsOf core.queue c).flatMap (·.payload.wireBytes)

/-- The bytes written for `c` are its accepted chunks in acceptance order, ahead of those that
wait in the queue, and only chunks of canceled jobs are missing. -/
def StreamOrdered (c : ClientId) (history : BrokerHistory) (core : BrokerCore) : Prop :=
  ∃ written pending lost : List Chunk,
    (written ++ pending).Sublist (acceptedChunks c history) ∧
    (acceptedChunks c history).Perm (written ++ (pending ++ lost)) ∧
    written.flatMap (·.bytes) = writtenBytes c history ∧
    pending.flatMap (·.bytes) = queuedBytes c core ∧
    ∀ chunk ∈ lost, ∃ e ∈ history, .canceled chunk.jobId c ∈ e.output.actions

/-- The call takes a stream chunk of `c` into the active job while another job of `c` waits. -/
def Overtakes (c : ClientId) (e : BrokerCall) : Bool :=
  match e.input, e.before.active with
  | .enqueue clientId payload _ true _ _, some a =>
      clientId == c && a.job.isStreamOf c && !payload.wireBytes.isEmpty &&
        a.job.payload.wireBytes.length + payload.wireBytes.length ≤ maxJobBytes &&
        !(jobsOf e.before.queue c).isEmpty
  | _, _ => false

/-- Every enqueue of client `c` is a stream enqueue. -/
def StreamOnly (c : ClientId) (e : BrokerCall) : Bool :=
  match e.input with
  | .enqueue clientId _ _ stream _ _ => clientId != c || stream
  | _ => true

/-! ## The bytes a call writes -/

theorem openingPayload_opening (front : List PhysicalAction) (payload : List UInt8) :
    openingPayload (front ++ [.write payload, .write [0x15]]) = payload := by
  simp [openingPayload]

/-- A call after which another client, or none, is active writes no payload of `c`. -/
theorem payloadWritten_other {c : ClientId} {e : BrokerCall}
    (h : e.after.activeClientId ≠ some c) : payloadWritten c e = [] :=
  if_neg h

theorem payloadWritten_idle {c : ClientId} {e : BrokerCall} (h : e.after.active = none) :
    payloadWritten c e = [] :=
  payloadWritten_other (by simp [BrokerCore.activeClientId, h])

theorem payloadWritten_cancellations {c : ClientId} {core core' : BrokerCore} {op : BrokerOp}
    {accepted : Option Nat} (jobs : List Job) :
    payloadWritten c ⟨core, op, ⟨accepted, jobs.map cancellation⟩, core'⟩ = [] := by
  have none' : openingPayload (jobs.map cancellation) = [] := by
    unfold openingPayload
    rw [← List.map_reverse]
    cases jobs.reverse <;> rfl
  unfold payloadWritten
  split
  · cases jobs <;> cases op <;> simp_all [cancellation]
  · rfl

theorem payloadWritten_silent {c : ClientId} {core core' : BrokerCore} {op : BrokerOp}
    {accepted : Option Nat} : payloadWritten c ⟨core, op, ⟨accepted, []⟩, core'⟩ = [] :=
  payloadWritten_cancellations []

/-- A call that starts `b` writes its payload. -/
theorem payloadWritten_opening {c : ClientId} {core core' : BrokerCore} {op : BrokerOp}
    {accepted : Option Nat} {b : ActiveJob} (front : List PhysicalAction) (payload : List UInt8)
    (active : core'.active = some b) :
    payloadWritten c ⟨core, op, ⟨accepted, front ++ [.write payload, .write [0x15]]⟩, core'⟩ =
      if b.job.clientId = c then payload else [] := by
  by_cases owner : b.job.clientId = c
  · rw [if_pos owner, payloadWritten, if_pos (by simp [BrokerCore.activeClientId, active, owner])]
    split
    · rename_i single
      have two := congrArg List.length single
      simp at two
    · exact openingPayload_opening front payload
  · rw [if_neg owner, payloadWritten_other (by simp [BrokerCore.activeClientId, active, owner])]

/-! ## Lots: a queued job and the chunks in it -/

/-- A job with the chunks that were accepted under it. -/
structure Lot where
  job : Job
  chunks : List Chunk
  content : chunks.flatMap (·.bytes) = job.payload.wireBytes
  tagged : ∀ chunk ∈ chunks, chunk.jobId = job.id

/-- The lot of a new job. -/
def Lot.fresh (job : Job) : Lot where
  job := job
  chunks := [⟨job.id, job.payload.wireBytes⟩]
  content := by simp
  tagged := by simp

/-- The lot after a chunk joined its job. -/
def Lot.grow (lot : Lot) (payload : TransmitPayload) : Lot where
  job := lot.job.grow payload
  chunks := lot.chunks ++ [⟨lot.job.id, payload.wireBytes⟩]
  content := by simp [lot.content, Job.grow, TransmitPayload.append]
  tagged := by
    intro chunk h
    rcases List.mem_append.mp h with h | h
    · exact lot.tagged chunk h
    · rw [List.mem_singleton.mp h]
      rfl

/-- The chunks of client `c` in some lots. -/
def parcels (c : ClientId) (lots : List Lot) : List Chunk :=
  (lots.filter (fun lot => lot.job.clientId == c)).flatMap Lot.chunks

theorem parcels_append (c : ClientId) (xs ys : List Lot) :
    parcels c (xs ++ ys) = parcels c xs ++ parcels c ys := by
  simp [parcels]

theorem parcels_singleton (c : ClientId) (lot : Lot) :
    parcels c [lot] = if lot.job.clientId = c then lot.chunks else [] := by
  by_cases owner : lot.job.clientId = c <;> simp [parcels, owner]

theorem parcels_bytes (c : ClientId) (lots : List Lot) :
    (parcels c lots).flatMap (·.bytes) =
      (jobsOf (lots.map Lot.job) c).flatMap (·.payload.wireBytes) := by
  induction lots with
  | nil => rfl
  | cons lot lots ih =>
      have cons : parcels c (lot :: lots) = parcels c [lot] ++ parcels c lots :=
        parcels_append c [lot] lots
      rw [cons, List.flatMap_append, ih, parcels_singleton]
      by_cases owner : lot.job.clientId = c
      · simp [jobsOf, owner, lot.content]
      · simp [jobsOf, owner]

/-- Lots without a job of `c` hold no chunk of `c`. -/
theorem parcels_eq_nil {c : ClientId} {lots : List Lot}
    (h : jobsOf (lots.map Lot.job) c = []) : parcels c lots = [] := by
  have none' : lots.filter (fun lot => lot.job.clientId == c) = [] := by
    simpa [jobsOf, List.filter_map, Function.comp_def] using h
  rw [parcels, none', List.flatMap_nil]

theorem parcels_filter_sublist (c : ClientId) (lots : List Lot) (p : Lot → Bool) :
    (parcels c (lots.filter p)).Sublist (parcels c lots) := by
  unfold parcels
  rw [List.filter_filter]
  refine List.Sublist.flatMap ?_ _
  refine List.monotone_filter_right _ ?_
  intro lot h
  exact (Bool.and_eq_true_iff.mp h).1

theorem parcels_filter_perm (c : ClientId) (lots : List Lot) (p : Lot → Bool) :
    (parcels c lots).Perm
      (parcels c (lots.filter p) ++ parcels c (lots.filter (fun lot => !p lot))) := by
  rw [← parcels_append]
  exact ((List.filter_append_perm p lots).symm.filter _).flatMap_right _

/-! ## Every call moves the line of chunks -/

/-- What a call does to the line of the chunks of `c` and to the lots of the queue. -/
structure Passage (c : ClientId) (e : BrokerCall) (l l' : Ledger Chunk) (lots' : List Lot)
    (dropped new : List Chunk) : Prop where
  moves : Ledger.Moves l l'
  idle : l'.serving = none
  queue : lots'.map Lot.job = e.after.queue
  waiting : l'.waiting = parcels c lots'
  arrived : l'.arrived = l.arrived ++ (acceptedBy c e).toList
  begun : l'.begun = l.begun ++ new
  gone : l'.gone = l.gone ++ (dropped ++ new)
  written : new.flatMap (·.bytes) = payloadWritten c e
  canceled : ∀ chunk ∈ dropped, .canceled chunk.jobId c ∈ e.output.actions

/-- The line of `c` shows the queue. -/
structure Shows (c : ClientId) (l : Ledger Chunk) (lots : List Lot) (core : BrokerCore) : Prop where
  idle : l.serving = none
  queue : lots.map Lot.job = core.queue
  waiting : l.waiting = parcels c lots

variable {c : ClientId} {core core' : BrokerCore} {op : BrokerOp} {l : Ledger Chunk}
  {lots : List Lot}

/-- A call that takes nothing in, writes nothing of `c` and keeps the queue. -/
theorem Passage.still {answer : Answer} (shows : Shows c l lots core)
    (queue : core'.queue = core.queue) (taken : answer.accepted = none)
    (silent : payloadWritten c ⟨core, op, answer, core'⟩ = []) :
    Passage c ⟨core, op, answer, core'⟩ l l lots [] [] where
  moves := .refl
  idle := shows.idle
  queue := by rw [queue, shows.queue]
  waiting := shows.waiting
  arrived := by simp [acceptedBy, taken]
  begun := by simp
  gone := by simp
  written := by simp [silent]
  canceled := by simp

/-- Starting the next job serves the chunks of its lot. -/
theorem begins_passage {mid : BrokerCore} {clock : Nat} {started : List PhysicalAction}
    (begins : Begins mid clock core' started) (idle : mid.active = none)
    (shows : Shows c l lots mid) :
    ∃ (l' : Ledger Chunk) (lots' : List Lot) (new : List Chunk), Ledger.Moves l l' ∧
      Shows c l' lots' core' ∧ l'.arrived = l.arrived ∧ l'.begun = l.begun ++ new ∧
      l'.gone = l.gone ++ new ∧ ∀ core op accepted front,
        payloadWritten c ⟨core, op, ⟨accepted, front ++ started⟩, core'⟩ =
          new.flatMap (·.bytes) := by
  cases begins with
  | drained ws empty same =>
      exact ⟨l, lots, [], .refl, ⟨shows.idle, by rw [same.queue, shows.queue], shows.waiting⟩, rfl,
        by simp, by simp, fun _ _ _ _ => payloadWritten_idle (same.idle idle)⟩
  | @started job rest head active queue next =>
      obtain ⟨lot, later, rfl, rfl, kept⟩ := List.map_eq_cons_iff.mp (shows.queue.trans head)
      have cons : parcels c (lot :: later) = parcels c [lot] ++ parcels c later :=
        parcels_append c [lot] later
      have front := Ledger.Moves.serve_block l shows.idle (shows.waiting.trans cons)
      refine ⟨_, later, parcels c [lot], front, ⟨shows.idle, by rw [kept, queue], rfl⟩, rfl, rfl,
        rfl, fun core op accepted front => ?_⟩
      rw [← List.append_assoc, payloadWritten_opening _ _ active, parcels_singleton]
      by_cases owner : lot.job.clientId = c
      · simp [owner, lot.content]
      · simp [owner]

/-- Withdrawing the queued jobs that satisfy `p` withdraws the chunks of their lots. -/
theorem withdraw_passage {mid : BrokerCore} (shows : Shows c l lots core) (p : Job → Bool)
    (queue : mid.queue = core.queue.filter (fun job => !p job)) :
    ∃ (l' : Ledger Chunk) (lots' : List Lot) (dropped : List Chunk), Ledger.Move l l' ∧
      Shows c l' lots' mid ∧ l'.arrived = l.arrived ∧ l'.begun = l.begun ∧
      l'.gone = l.gone ++ dropped ∧
      ∀ chunk ∈ dropped, .canceled chunk.jobId c ∈ (core.queue.filter p).map cancellation := by
  have move : Ledger.Move l { l with
      gone := l.gone ++ parcels c (lots.filter (fun lot => p lot.job)),
      waiting := parcels c (lots.filter (fun lot => !p lot.job)) } := by
    refine .withdraw l ?_ ?_
    · rw [shows.waiting]
      exact parcels_filter_sublist c lots _
    · rw [shows.waiting]
      exact parcels_filter_perm c lots _
  refine ⟨_, _, _, move, ⟨shows.idle, ?_, rfl⟩, rfl, rfl, rfl, ?_⟩
  · rw [queue, ← shows.queue, List.filter_map]
    rfl
  · intro chunk h
    obtain ⟨lot, mem, holds⟩ := List.mem_flatMap.mp h
    obtain ⟨dropped, owner⟩ := List.mem_filter.mp mem
    obtain ⟨mem, satisfies⟩ := List.mem_filter.mp dropped
    refine List.mem_map.mpr ⟨lot.job, List.mem_filter.mpr ⟨?_, satisfies⟩, ?_⟩
    · rw [← shows.queue]
      exact List.mem_map_of_mem mem
    · rw [cancellation, ← lot.tagged chunk holds, beq_iff_eq.mp owner]

theorem ending_cancels {a : ActiveJob} {dropped : List Job} {ending : List PhysicalAction}
    (h : Ending a dropped ending) : ∀ x ∈ dropped.map cancellation, x ∈ ending := by
  intro x mem
  cases h with
  | completed => simp at mem
  | cleared => exact List.mem_append_left _ (List.mem_cons_of_mem _ mem)
  | unregistered => exact List.mem_append_left _ mem

/-- Taking a lot in at the queue's tail lets its chunks arrive when they are `c`'s. -/
theorem arrive_moves (shows : Shows c l lots core) (lot : Lot) {chunk : Chunk}
    (one : lot.chunks = [chunk]) :
    ∃ l', Ledger.Moves l l' ∧
      Shows c l' (lots ++ [lot]) { core with queue := core.queue ++ [lot.job] } ∧
      l'.arrived = l.arrived ++ (if lot.job.clientId = c then [chunk] else []) ∧
      l'.begun = l.begun ∧ l'.gone = l.gone := by
  have queue : (lots ++ [lot]).map Lot.job = core.queue ++ [lot.job] := by simp [shows.queue]
  by_cases owner : lot.job.clientId = c
  · refine ⟨_, .single (.arrive l chunk), ⟨shows.idle, queue, ?_⟩, by simp [owner], rfl, rfl⟩
    rw [parcels_append, parcels_singleton, if_pos owner, one, shows.waiting]
  · refine ⟨l, .refl, ⟨shows.idle, queue, ?_⟩, by simp [owner], rfl, rfl⟩
    rw [parcels_append, parcels_singleton, if_neg owner, shows.waiting, List.append_nil]

/-- A chunk that joins the active stream is served as it arrives. -/
theorem grewActive_passage {a : ActiveJob} {payload : TransmitPayload} {speed : Option SpeedMode}
    {now clock : Nat} (shows : Shows c l lots core) (active : core.active = some a)
    (stream : a.job.stream = true) (filled : payload.wireBytes ≠ [])
    (fits : a.job.payload.wireBytes.length + payload.wireBytes.length ≤ maxJobBytes)
    {e : Transition BrokerCore BrokerOp Answer}
    (step : e = ⟨core, .enqueue a.job.clientId payload speed true now clock,
      ⟨some a.job.id, [.write payload.wireBytes]⟩,
      { core with active := some { a with job := a.job.grow payload } }⟩)
    (inOrder : Overtakes c e = false) :
    ∃ l' lots' dropped new, Passage c e l l' lots' dropped new := by
  subst step
  by_cases mine : a.job.clientId = c
  · -- nothing of `c` waits, so the chunk is served as it arrives
    have none' : jobsOf core.queue c = [] := by
      simpa [Overtakes, active, Job.isStreamOf, stream, mine, filled, fits] using inOrder
    have empty : l.waiting = [] := by
      rw [shows.waiting]
      exact parcels_eq_nil (by rw [shows.queue, none'])
    let chunk : Chunk := ⟨a.job.id, payload.wireBytes⟩
    have arrive : Ledger.Move l _ := .arrive l chunk
    have alone : l.waiting ++ [chunk] = [chunk] ++ [] := by rw [empty]; rfl
    have serve := Ledger.Moves.serve_block
      { l with arrived := l.arrived ++ [chunk], waiting := l.waiting ++ [chunk] }
      shows.idle alone
    exact ⟨_, lots, [], [chunk], {
      moves := .head arrive serve
      idle := shows.idle
      queue := shows.queue
      waiting := by rw [← shows.waiting, empty]
      arrived := by simp [acceptedBy, mine, chunk]
      begun := rfl
      gone := rfl
      written := by simp [payloadWritten, BrokerCore.activeClientId, Job.grow, mine, chunk]
      canceled := by simp }⟩
  · exact ⟨l, lots, [], [], {
      moves := .refl
      idle := shows.idle
      queue := shows.queue
      waiting := shows.waiting
      arrived := by simp [acceptedBy, mine]
      begun := by simp
      gone := by simp
      written := by simp [payloadWritten, BrokerCore.activeClientId, Job.grow, mine]
      canceled := by simp }⟩

/-- A chunk that joins the job at the queue's tail waits last, in the last lot. -/
theorem grewTail_passage {front : List Job} {queued : Job} {payload : TransmitPayload}
    {speed : Option SpeedMode} {now clock : Nat} (shows : Shows c l lots core)
    (queue : core.queue = front ++ [queued]) :
    ∃ l' lots' dropped new, Passage c ⟨core, .enqueue queued.clientId payload speed true now clock,
      ⟨some queued.id, []⟩, { core with queue := front ++ [queued.grow payload] }⟩
      l l' lots' dropped new := by
  obtain ⟨before, last, rfl, same, tail⟩ := List.map_eq_append_iff.mp (shows.queue.trans queue)
  obtain ⟨lot, rfl, rfl⟩ := List.map_eq_singleton_iff.mp tail
  have grown : (before ++ [lot.grow payload]).map Lot.job = front ++ [lot.job.grow payload] := by
    simp [same, Lot.grow]
  have silent : payloadWritten c ⟨core, .enqueue lot.job.clientId payload speed true now clock,
      ⟨some lot.job.id, []⟩, { core with queue := front ++ [lot.job.grow payload] }⟩ = [] :=
    payloadWritten_silent
  by_cases mine : lot.job.clientId = c
  · refine ⟨_, before ++ [lot.grow payload], [], [], {
      moves := .single (.arrive l ⟨lot.job.id, payload.wireBytes⟩)
      idle := shows.idle
      queue := grown
      waiting := ?_
      arrived := by simp [acceptedBy, mine]
      begun := by simp
      gone := by simp
      written := by simp [silent]
      canceled := by simp }⟩
    have owner : (lot.grow payload).job.clientId = c := mine
    rw [shows.waiting, parcels_append, parcels_append, parcels_singleton, parcels_singleton,
      if_pos mine, if_pos owner, List.append_assoc]
    rfl
  · refine ⟨l, before ++ [lot.grow payload], [], [], {
      moves := .refl
      idle := shows.idle
      queue := grown
      waiting := ?_
      arrived := by simp [acceptedBy, mine]
      begun := by simp
      gone := by simp
      written := by simp [silent]
      canceled := by simp }⟩
    have owner : (lot.grow payload).job.clientId ≠ c := mine
    rw [shows.waiting, parcels_append, parcels_append, parcels_singleton, parcels_singleton,
      if_neg mine, if_neg owner]

/-- **Every call that does not overtake moves the line of `c`.** -/
theorem effect_passage {answer : Answer} (h : Effect core op answer core')
    (shows : Shows c l lots core) (inOrder : Overtakes c ⟨core, op, answer, core'⟩ = false) :
    ∃ l' lots' dropped new, Passage c ⟨core, op, answer, core'⟩ l l' lots' dropped new := by
  cases h with
  | quiet ws same owner =>
      refine ⟨l, lots, [], [], .still shows same.queue rfl ?_⟩
      cases active : core.active with
      | none => exact payloadWritten_idle (same.idle active)
      | some a =>
          rcases owner a active with rfl | ⟨command, rfl, rfl⟩
          · exact payloadWritten_silent
          · simp [payloadWritten, openingPayload]
  | grewActive active stream filled fits =>
      exact grewActive_passage shows active stream filled fits rfl inOrder
  | grewTail queue _ => exact grewTail_passage shows queue
  | @queued job speed now clock busy id =>
      obtain ⟨l', moves, shows', arrived, begun, gone⟩ := arrive_moves shows (.fresh job) rfl
      refine ⟨l', lots ++ [.fresh job], [], [], {
        moves := moves
        idle := shows'.idle
        queue := shows'.queue
        waiting := shows'.waiting
        arrived := ?_
        begun := by simp [begun]
        gone := by simp [gone]
        written := payloadWritten_silent.symm
        canceled := by simp }⟩
      rw [arrived]
      by_cases mine : job.clientId = c <;> simp [acceptedBy, Lot.fresh, mine]
  | @opened job speed now clock core' started idle id begins =>
      -- The chunk waits in a lot of its own until the head of the queue is served.
      obtain ⟨l₁, moves₁, shows₁, arrived₁, begun₁, gone₁⟩ :=
        arrive_moves shows (.fresh job) rfl
      obtain ⟨l', lots', new, moves, shows', arrived, begun, gone, written⟩ :=
        begins_passage begins idle ⟨shows₁.idle, shows₁.queue, shows₁.waiting⟩
      refine ⟨l', lots', [], new, {
        moves := moves₁.trans moves
        idle := shows'.idle
        queue := shows'.queue
        waiting := shows'.waiting
        arrived := ?_
        begun := by rw [begun, begun₁]
        gone := by rw [gone, gone₁, List.nil_append]
        written := (written core _ _ []).symm
        canceled := by simp }⟩
      rw [arrived, arrived₁]
      by_cases mine : job.clientId = c <;> simp [acceptedBy, Lot.fresh, mine]
  | withdrew p ws stays queue next silent =>
      obtain ⟨l', lots', dropped, move, shows', arrived, begun, gone, canceled⟩ :=
        withdraw_passage shows p queue
      refine ⟨l', lots', dropped, [], {
        moves := .single move
        idle := shows'.idle
        queue := shows'.queue
        waiting := shows'.waiting
        arrived := by simp [acceptedBy, arrived]
        begun := by simp [begun]
        gone := by simp [gone]
        written := ?_
        canceled := fun chunk h => List.mem_append_right _ (canceled chunk h) }⟩
      cases active : core.active with
      | none => rw [payloadWritten_idle (stays.trans active)]; rfl
      | some a =>
          rw [silent (by simp [active])]
          exact (payloadWritten_cancellations _).symm
  | @ended op a mid core' ending started p active idle queue next table out begins =>
      -- The active job's chunks have begun already; only the queue's are withdrawn.
      obtain ⟨l₁, lots₁, dropped, move, shows₁, arrived₁, begun₁, gone₁, canceled⟩ :=
        withdraw_passage shows p queue
      obtain ⟨l', lots', new, moves, shows', arrived, begun, gone, written⟩ :=
        begins_passage begins idle shows₁
      refine ⟨l', lots', dropped, new, {
        moves := .head move moves
        idle := shows'.idle
        queue := shows'.queue
        waiting := shows'.waiting
        arrived := by simp [acceptedBy, arrived, arrived₁]
        begun := by rw [begun, begun₁]
        gone := by rw [gone, gone₁, List.append_assoc]
        written := (written core _ _ ending).symm
        canceled := fun chunk h => List.mem_append_left _ ?_ }⟩
      exact ending_cancels out _ (canceled chunk h)
  | halted clear ws _ idle empty next =>
      obtain ⟨l', lots', dropped, move, shows', arrived, begun, gone, canceled⟩ :=
        withdraw_passage shows (fun _ => true) (empty.trans (by simp))
      refine ⟨l', lots', dropped, [], {
        moves := .single move
        idle := shows'.idle
        queue := shows'.queue
        waiting := shows'.waiting
        arrived := by simp [acceptedBy, arrived]
        begun := by simp [begun]
        gone := by simp [gone]
        written := by rw [payloadWritten_idle idle]; rfl
        canceled := fun chunk h => ?_ }⟩
      have mem := canceled chunk h
      simp only [List.filter_true] at mem
      simp [mem]

/-! ## The order in a run -/

/-- The line of `c` and its books after a run. -/
structure Tally (c : ClientId) (history : BrokerHistory) (core : BrokerCore) (l : Ledger Chunk)
    (lots : List Lot) (lost : List Chunk) : Prop where
  balanced : l.Balanced
  shows : Shows c l lots core
  arrived : l.arrived = acceptedChunks c history
  written : l.begun.flatMap (·.bytes) = writtenBytes c history
  gone : l.gone.Perm (l.begun ++ lost)
  canceled : ∀ chunk ∈ lost, ∃ e ∈ history, .canceled chunk.jobId c ∈ e.output.actions

theorem Tally.step {history : BrokerHistory} {lost : List Chunk} {answer : Answer}
    (t : Tally c history core l lots lost) (step : broker.step core op = some (core', answer))
    (inOrder : Overtakes c ⟨core, op, answer, core'⟩ = false) :
    ∃ l' lots' lost', Tally c (history ++ [⟨core, op, answer, core'⟩]) core' l' lots' lost' := by
  obtain ⟨l', lots', dropped, new, passage⟩ := effect_passage (broker_effect step) t.shows inOrder
  refine ⟨l', lots', lost ++ dropped, {
    balanced := passage.moves.balanced t.balanced
    shows := ⟨passage.idle, passage.queue, passage.waiting⟩
    arrived := ?_
    written := ?_
    gone := ?_
    canceled := ?_ }⟩
  · rw [passage.arrived, t.arrived, acceptedChunks, acceptedChunks, List.filterMap_append]
    cases accepted : acceptedBy c ⟨core, op, answer, core'⟩ <;> simp [accepted]
  · rw [passage.begun, List.flatMap_append, t.written, passage.written]
    simp [writtenBytes]
  · have swap : (lost ++ (dropped ++ new)).Perm (new ++ (lost ++ dropped)) := by
      rw [← List.append_assoc]
      exact List.perm_append_comm
    have settled := t.gone.append_right (dropped ++ new)
    rw [passage.gone, passage.begun]
    simpa only [List.append_assoc] using
      settled.trans (by simpa only [List.append_assoc] using swap.append_left l.begun)
  · intro chunk h
    rcases List.mem_append.mp h with old | now
    · obtain ⟨e, he, mem⟩ := t.canceled chunk old
      exact ⟨e, List.mem_append_left _ he, mem⟩
    · exact ⟨_, List.mem_append_right _ List.mem_cons_self, passage.canceled chunk now⟩

/-- **Per-client byte order.**  In every run in which no call overtakes, the bytes written for `c`
are its accepted chunks in acceptance order, and only chunks of canceled jobs are missing. -/
theorem stream_order {maxTx : Nat} {history : BrokerHistory} {core : BrokerCore} (c : ClientId)
    (run : broker.Execution (.new maxTx) history core)
    (inOrder : ∀ e ∈ history, Overtakes c e = false) : StreamOrdered c history core := by
  have tally : ∃ l lots lost, Tally c history core l lots lost := by
    refine run.guarded (G := fun e => Overtakes c e = false)
      (I := fun history core => ∃ l lots lost, Tally c history core l lots lost) ?_ ?_ inOrder
    · exact ⟨.empty, [], [], Ledger.empty_balanced, ⟨rfl, rfl, rfl⟩, rfl, rfl, .refl _, by simp⟩
    · rintro history core op answer core' _ ⟨l, lots, lost, t⟩ step inOrder
      exact t.step step inOrder
  obtain ⟨l, lots, lost, t⟩ := tally
  have conserved := t.balanced.conserved
  rw [t.shows.idle, Option.toList_none, List.nil_append] at conserved
  have books : (l.gone ++ l.waiting).Perm (l.begun ++ (l.waiting ++ lost)) := by
    refine (t.gone.append_right l.waiting).trans ?_
    rw [List.append_assoc]
    exact List.perm_append_comm.append_left l.begun
  refine ⟨l.begun, l.waiting, lost, ?_, ?_, t.written, ?_, t.canceled⟩
  · rw [← t.arrived]
    exact t.balanced.fifo
  · rw [← t.arrived]
    exact conserved.trans books
  · rw [t.shows.waiting, parcels_bytes, t.shows.queue, queuedBytes]

/-- Client 1 streams A behind a job of client 2, which then queues another job; a busy and an idle
status end the job that was active. -/
def streamBehindJobs : List BrokerOp :=
  [.connectPhysical 31, .registerClient 1 true, .registerClient 2 false,
    .enqueue 2 ⟨[69], [69]⟩ none false 0 0, .enqueue 1 ⟨[65], [65]⟩ none true 1 1,
    .enqueue 2 ⟨[84], [84]⟩ none false 2 2, .observeStatus (.fromByte 0xc4) 3,
    .observeStatus (.fromByte 0xc0) 4]

theorem stream_order_streamBehindJobs :
    ∃ history core, broker.Execution (.new 60) history core ∧ writtenBytes 1 history = [65, 66] ∧
      StreamOrdered 1 history core := by
  have run := broker.execution_exec (.new 60)
    (streamBehindJobs ++ [.enqueue 1 ⟨[66], [66]⟩ none true 5 5]) (by decide)
  exact ⟨_, _, run, by decide, stream_order 1 run (by decide)⟩

/-- A chunk C of client 1 waits behind the second job of client 2 when the chunk D joins the active
job and is written; C follows two jobs later. -/
theorem stream_order_overtaken :
    ∃ history core, broker.Execution (.new 60) history core ∧
      (∀ e ∈ history, StreamOnly 1 e = true) ∧ writtenBytes 1 history = [65, 68, 67] ∧
      ¬ StreamOrdered 1 history core := by
  have run := broker.execution_exec (.new 60)
    (streamBehindJobs.take 6 ++
      [.enqueue 1 ⟨[67], [67]⟩ none true 3 3, .observeStatus (.fromByte 0xc4) 4,
        .observeStatus (.fromByte 0xc0) 5, .enqueue 1 ⟨[68], [68]⟩ none true 6 6,
        .observeStatus (.fromByte 0xc4) 7, .observeStatus (.fromByte 0xc0) 8,
        .observeStatus (.fromByte 0xc4) 9, .observeStatus (.fromByte 0xc0) 10]) (by decide)
  refine ⟨_, _, run, by decide, by decide, ?_⟩
  rintro ⟨written, pending, lost, sub, _, bytes, _, _⟩
  have front := ((List.sublist_append_left written pending).trans sub).flatMap (·.bytes)
  rw [bytes] at front
  revert front
  decide

end CatHub.WinKeyer
