/-
# CatHub.WinKeyer.Conservation — no job is lost, doubled or reordered by the broker core.

The abstract view of the core is a single-server waiting line of job ids: the active slot is the
server, the queue waits.  `effect_moves` shows that every call of the core is a sequence of moves
of that line, with the ids of the returned terminal actions as the departures.  The balance of the
line then gives conservation and arrival order for every sequence of calls (`jobs_conserved`).

Ids are handed out by a saturating 64-bit counter, so the statements speak of the ids below its
largest value.
-/
import CatHub.Systems.Line
import CatHub.WinKeyer.BrokerEffect
import Mathlib.Data.List.Nodup

namespace CatHub.WinKeyer

open Systems BrokerCore

/-! ## What a run shows about its jobs -/

/-- The job a terminal action settles. -/
def PhysicalAction.settles : PhysicalAction → Option Nat
  | .write _ => none
  | .completed jobId _ => some jobId
  | .canceled jobId _ => some jobId

def settledBy (actions : List PhysicalAction) : List Nat := actions.filterMap (·.settles)

/-- The ids of all Completed and Canceled actions returned so far. -/
def settled (history : BrokerHistory) : List Nat :=
  history.flatMap (fun e => settledBy e.output.actions)

/-- The ids returned by enqueue so far. -/
def issued (history : BrokerHistory) : List Nat := history.filterMap (fun e => e.output.accepted)

/-- The ids of the active and the queued jobs. -/
def BrokerCore.held (core : BrokerCore) : List Nat :=
  core.activeJobId.toList ++ core.queue.map (·.id)

/-- The job that enters the active slot in one call. -/
def begunBy (e : BrokerCall) : Option Nat :=
  if e.after.activeJobId = e.before.activeJobId then none else e.after.activeJobId

/-- The jobs that entered the active slot so far, in order. -/
def begun (history : BrokerHistory) : List Nat := history.filterMap begunBy

/-- In how many places a job id is: active slot, queue, terminal actions. -/
def jobPlaces (history : BrokerHistory) (core : BrokerCore) (id : Nat) : Nat :=
  core.activeJobId.toList.count id + (core.queue.map (·.id)).count id + (settled history).count id

@[simp] theorem settles_write (bytes : List UInt8) :
    (PhysicalAction.write bytes).settles = none := rfl
@[simp] theorem settles_cancellation (job : Job) : (cancellation job).settles = some job.id := rfl

@[simp] theorem settledBy_nil : settledBy [] = [] := rfl

@[simp] theorem settledBy_append (xs ys : List PhysicalAction) :
    settledBy (xs ++ ys) = settledBy xs ++ settledBy ys := List.filterMap_append

@[simp] theorem settledBy_cons (x : PhysicalAction) (xs : List PhysicalAction) :
    settledBy (x :: xs) = x.settles.toList ++ settledBy xs := by
  cases h : x.settles <;> simp [settledBy, h]

@[simp] theorem settledBy_writes (ws : List (List UInt8)) : settledBy (ws.map .write) = [] := by
  induction ws with
  | nil => rfl
  | cons w ws ih => simpa using ih

@[simp] theorem settledBy_cancellations (jobs : List Job) :
    settledBy (jobs.map cancellation) = jobs.map (·.id) := by
  induction jobs with
  | nil => rfl
  | cons job jobs ih => simp [ih]

theorem OnlyWrites.settles {actions : List PhysicalAction} (writes : OnlyWrites actions) :
    settledBy actions = [] := by
  obtain ⟨chunks, rfl⟩ := writes
  exact settledBy_writes chunks

/-! ## Every call is a sequence of moves of the line -/

/-- The line mirrors the schedule of the core. -/
structure Mirrors (l : Ledger Nat) (core : BrokerCore) : Prop where
  serving : l.serving = core.activeJobId
  waiting : l.waiting = core.queue.map (·.id)

theorem Mirrors.same {l : Ledger Nat} {a b : BrokerCore} (m : Mirrors l a)
    (same : SameSchedule a b) : Mirrors l b :=
  ⟨by rw [m.serving, same.activeJobId], by rw [m.waiting, same.queue]⟩

theorem BrokerCore.Begins.settles {mid core' : BrokerCore} {clock : Nat} {started : List PhysicalAction}
    (h : Begins mid clock core' started) : settledBy started = [] :=
  (OnlyWrites.begins h).settles

/-- The ids that begin service are at most one, it becomes the active one, and it waited. -/
inductive Starts (l : Ledger Nat) (core' : BrokerCore) : List Nat → Prop
  | nothing : core'.activeJobId = none → Starts l core' []
  | head {id : Nat} : id ∈ l.waiting → core'.activeJobId = some id → Starts l core' [id]

/-- Starting the next job takes the head of the line into service. -/
theorem begins_moves {mid core' : BrokerCore} {clock : Nat} {started : List PhysicalAction}
    {l : Ledger Nat} (h : Begins mid clock core' started) (m : Mirrors l mid)
    (idle : mid.active = none) :
    settledBy started = [] ∧ core'.nextJobId = mid.nextJobId ∧
      ∃ l' ids, Ledger.Moves l l' ∧ Mirrors l' core' ∧ Starts l core' ids ∧
        l' = { l with begun := l.begun ++ ids, serving := l'.serving, waiting := l'.waiting } := by
  have free : l.serving = none := by rw [m.serving, BrokerCore.activeJobId, idle]; rfl
  refine ⟨h.settles, ?_⟩
  cases h with
  | drained ws empty same =>
      refine ⟨same.nextJobId, l, [], .refl, m.same same, .nothing ?_, ?_⟩
      · rw [same.activeJobId, BrokerCore.activeJobId, idle]; rfl
      · simp
  | @started job rest head active queue next =>
      have waits : l.waiting = job.id :: rest.map (·.id) := by rw [m.waiting, head]; rfl
      refine ⟨next,
        { l with begun := l.begun ++ [job.id], serving := some job.id,
                 waiting := rest.map (·.id) }, [job.id], .single (.serve l free waits),
        ⟨?_, ?_⟩, .head ?_ ?_, rfl⟩
      · simp [BrokerCore.activeJobId, active]
      · rw [queue]
      · simp [waits]
      · simp [BrokerCore.activeJobId, active]

/-- The ids that arrive in a call: none, or the counter's value when a new job is taken in. -/
inductive Arrives (core core' : BrokerCore) (accepted : Option Nat) : List Nat → Prop
  | nothing : core'.nextJobId = core.nextJobId → (∀ id, accepted = some id → id ∈ core.held) →
      Arrives core core' accepted []
  | fresh : core'.nextJobId = min (core.nextJobId + 1) u64Max → accepted = some core.nextJobId →
      Arrives core core' accepted [core.nextJobId]

/-- What a call does to the line: the moves, and the books they write. -/
structure CallMoves (l : Ledger Nat) (core core' : BrokerCore) (answer : Answer)
    (l' : Ledger Nat) (fresh ids : List Nat) : Prop where
  moves : Ledger.Moves l l'
  mirrors : Mirrors l' core'
  arrived : l'.arrived = l.arrived ++ fresh
  begun : l'.begun = l.begun ++ ids
  gone : l'.gone = l.gone ++ settledBy answer.actions
  arrives : Arrives core core' answer.accepted fresh
  starts : (ids = [] ∧ (core'.activeJobId = core.activeJobId ∨ core'.activeJobId = none)) ∨
    ∃ id, ids = [id] ∧ core'.activeJobId = some id ∧ id ∈ l.waiting ++ fresh

/-- A call that keeps the active job only changes the line's tail. -/
theorem CallMoves.keep {l l' : Ledger Nat} {core core' : BrokerCore} {answer : Answer}
    {fresh : List Nat} (moves : Ledger.Moves l l') (mirrors : Mirrors l' core')
    (arrived : l'.arrived = l.arrived ++ fresh) (begun : l'.begun = l.begun)
    (gone : l'.gone = l.gone ++ settledBy answer.actions)
    (arrives : Arrives core core' answer.accepted fresh)
    (active : core'.activeJobId = core.activeJobId) :
    CallMoves l core core' answer l' fresh [] :=
  ⟨moves, mirrors, arrived, by simpa using begun, gone, arrives, Or.inl ⟨rfl, Or.inl active⟩⟩

theorem ending_settles {a : ActiveJob} {dropped : List Job} {ending : List PhysicalAction}
    (h : Ending a dropped ending) : settledBy ending = dropped.map (·.id) ++ [a.job.id] := by
  cases h with
  | completed => rfl
  | cleared => simp
  | unregistered => simp

/-- **Every call refines the line**: its effect is a sequence of moves whose departures are the
ids of the returned terminal actions. -/
theorem effect_moves {core core' : BrokerCore} {op : BrokerOp} {answer : Answer}
    {l : Ledger Nat} (h : Effect core op answer core') (m : Mirrors l core) :
    ∃ l' fresh ids, CallMoves l core core' answer l' fresh ids := by
  cases h with
  | quiet ws same _ =>
      exact ⟨l, [], [], .keep .refl (m.same same) (by simp) rfl (by simp)
        (.nothing same.nextJobId (by simp)) same.activeJobId⟩
  | @grewActive a payload speed now clock active stream _ _ =>
      refine ⟨l, [], [], .keep .refl ⟨?_, m.waiting⟩ (by simp) rfl (by simp) (.nothing rfl ?_) ?_⟩
      · simp [m.serving, BrokerCore.activeJobId, active, Job.grow]
      · intro id hid
        cases hid
        simp [BrokerCore.held, BrokerCore.activeJobId, active]
      · simp [BrokerCore.activeJobId, active, Job.grow]
  | @grewTail front queued payload speed now clock queue stream =>
      refine ⟨l, [], [], .keep .refl ⟨m.serving, ?_⟩ (by simp) rfl (by simp)
        (.nothing rfl ?_) rfl⟩
      · simp [m.waiting, queue, Job.grow]
      · intro id hid
        cases hid
        simp [BrokerCore.held, queue]
  | @queued job speed now clock busy id =>
      refine ⟨{ l with arrived := l.arrived ++ [job.id], waiting := l.waiting ++ [job.id] }, _, [],
        .keep (.single (.arrive l job.id)) ⟨m.serving, ?_⟩ ?_ rfl (by simp)
          (.fresh rfl (by rw [id])) rfl⟩
      · simp [m.waiting]
      · simp [id]
  | @opened job speed now clock core' started idle id begins =>
      -- The job arrives; the head of the line, not always this job, is then served.
      have arrived : Mirrors { l with arrived := l.arrived ++ [job.id],
                                      waiting := l.waiting ++ [job.id] }
          { core with nextJobId := min (core.nextJobId + 1) u64Max,
                      queue := core.queue ++ [job] } := ⟨m.serving, by simp [m.waiting]⟩
      obtain ⟨settles, next, l', ids, moves, mirrors, starts, books⟩ :=
        begins_moves begins arrived idle
      rw [books] at mirrors moves
      refine ⟨_, [core.nextJobId], ids, (Relation.ReflTransGen.single (.arrive l job.id)).trans moves,
        mirrors, by simp [id], rfl, by simp [settles], .fresh next (by rw [id]), ?_⟩
      cases starts with
      | nothing none => exact Or.inl ⟨rfl, Or.inr none⟩
      | @head j mem active => exact Or.inr ⟨j, rfl, active, by simpa [id] using mem⟩
  | withdrew p ws active queue next _ =>
      have same : core'.activeJobId = core.activeJobId := by rw [BrokerCore.activeJobId, active]; rfl
      have kept : core'.queue.Sublist core.queue := by rw [queue]; exact List.filter_sublist
      have parts := List.filter_append_perm p core.queue
      refine ⟨{ l with gone := l.gone ++ (core.queue.filter p).map (·.id),
                       waiting := core'.queue.map (·.id) }, [], [],
        .keep (.single (.withdraw l ?_ ?_)) ⟨?_, rfl⟩ (by simp) rfl ?_ (.nothing next (by simp)) same⟩
      · rw [m.waiting]; exact kept.map _
      · rw [m.waiting, queue, ← List.map_append]; exact (parts.map _).symm
      · rw [same]; exact m.serving
      · simp
  | @ended op a mid core' ending started p active idle queue next _ out begins =>
      have serving : l.serving = some a.job.id := by
        rw [m.serving, BrokerCore.activeJobId, active]; rfl
      have parts := List.filter_append_perm p core.queue
      -- The queued jobs are withdrawn, the active one departs, and the next one is served.
      let m₁ : Ledger Nat :=
        { l with gone := l.gone ++ (core.queue.filter p).map (·.id),
                 waiting := mid.queue.map (·.id) }
      have withdraw : Ledger.Move l m₁ := by
        refine .withdraw l ?_ ?_
        · rw [m.waiting, queue]; exact List.filter_sublist.map _
        · rw [m.waiting, queue, ← List.map_append]; exact (parts.map _).symm
      let m₂ : Ledger Nat := { m₁ with gone := m₁.gone ++ [a.job.id], serving := none }
      have depart : Ledger.Move m₁ m₂ := .depart m₁ serving
      have mirrors₂ : Mirrors m₂ mid := ⟨by simp [m₂, BrokerCore.activeJobId, idle], rfl⟩
      obtain ⟨settles, next', l', ids, moves, mirrors, starts, books⟩ :=
        begins_moves begins mirrors₂ idle
      rw [books] at mirrors moves
      refine ⟨_, [], ids, ((Relation.ReflTransGen.single withdraw).tail depart).trans moves,
        mirrors, by simp [m₁, m₂], rfl, ?_, .nothing (next'.trans next) (by simp), ?_⟩
      · simp [m₁, m₂, settles, ending_settles out]
      · cases starts with
        | nothing none => exact Or.inl ⟨rfl, Or.inr none⟩
        | @head j mem active =>
            refine Or.inr ⟨j, rfl, active, ?_⟩
            simp only [m₂, m₁, queue, List.mem_map] at mem
            obtain ⟨job, hjob, rfl⟩ := mem
            rw [m.waiting, List.append_nil]
            exact List.mem_map_of_mem (List.mem_of_mem_filter hjob)
  | halted clear ws _ idle empty next =>
      have none' : core'.activeJobId = none := by rw [BrokerCore.activeJobId, idle]; rfl
      -- The active job departs and everybody else is withdrawn.
      let m₁ : Ledger Nat := { l with gone := l.gone ++ l.serving.toList, serving := none }
      have depart : Ledger.Moves l m₁ := by
        cases serving : l.serving with
        | none =>
            have same : m₁ = l := by simp only [m₁, serving]; cases l; simp_all
            rw [same]
        | some id => exact .single (by simpa [m₁, serving] using Ledger.Move.depart l serving)
      have withdraw : Ledger.Move m₁ { m₁ with gone := m₁.gone ++ l.waiting, waiting := [] } :=
        .withdraw m₁ (List.nil_sublist _) (by simp [m₁])
      refine ⟨_, [], [], depart.tail withdraw, ⟨none'.symm, by simp [empty]⟩, by simp [m₁],
        by simp [m₁], ?_, .nothing next (by simp), Or.inl ⟨rfl, Or.inr none'⟩⟩
      cases active : core.active with
      | none => simp [m₁, m.serving, m.waiting, BrokerCore.activeJobId, active]
      | some a => simp [m₁, m.serving, m.waiting, BrokerCore.activeJobId, active]

/-! ## The books of a run -/

/-- The line's books are those of the run, and its arrivals are numbered by the counter. -/
structure Books (history : BrokerHistory) (core : BrokerCore) (l : Ledger Nat) : Prop where
  balanced : l.Balanced
  mirrors : Mirrors l core
  gone : l.gone = settled history
  begun : (begun history).filter (· < u64Max) = l.begun.filter (· < u64Max)
  issued : ∀ id ∈ issued history, id ∈ l.arrived
  increasing : l.arrived.Pairwise (fun i j => i < j ∨ i = u64Max)
  bounded : ∀ id ∈ l.arrived, id < core.nextJobId ∨ id = u64Max
  counter : core.nextJobId ≤ u64Max

theorem Books.count_arrived {history : BrokerHistory} {core : BrokerCore} {l : Ledger Nat}
    (b : Books history core l) {id : Nat} (small : id < u64Max) : l.arrived.count id ≤ 1 := by
  have strict : (l.arrived.filter (· < u64Max)).Pairwise (· < ·) := by
    rw [List.pairwise_filter]
    refine b.increasing.imp ?_
    intro i j h hi _
    simp only [decide_eq_true_eq] at hi
    omega
  have once := List.nodup_iff_count_le_one.mp (strict.imp (fun h => Nat.ne_of_lt h)) id
  rwa [List.count_filter (by simpa using small)] at once

theorem Books.count_held {history : BrokerHistory} {core : BrokerCore} {l : Ledger Nat}
    (b : Books history core l) {id : Nat} (small : id < u64Max) :
    l.serving.toList.count id + l.waiting.count id ≤ 1 := by
  have places := b.balanced.places_eq_count id
  have once := b.count_arrived small
  unfold Ledger.places at places
  omega

theorem Books.held_arrived {history : BrokerHistory} {core : BrokerCore} {l : Ledger Nat}
    (b : Books history core l) {id : Nat} (h : id ∈ core.held) : id ∈ l.arrived := by
  refine b.balanced.conserved.mem_iff.mpr (List.mem_append_right _ ?_)
  simpa only [BrokerCore.held, b.mirrors.serving, b.mirrors.waiting] using h

/-- An id that begins service was not the active one, unless the counter is exhausted. -/
theorem Books.begun_new {history : BrokerHistory} {core : BrokerCore} {l : Ledger Nat}
    (b : Books history core l) {id : Nat} (small : id < u64Max)
    (waits : id ∈ l.waiting ∨ id = core.nextJobId) : core.activeJobId ≠ some id := by
  intro active
  have serving : l.serving = some id := by rw [b.mirrors.serving, active]
  rcases waits with waits | rfl
  · have once := b.count_held small
    have one : 0 < l.waiting.count id := List.count_pos_iff.mpr waits
    simp only [serving, Option.toList_some, List.count_singleton_self] at once
    omega
  · have known := b.bounded core.nextJobId (b.held_arrived (by simp [BrokerCore.held, active]))
    omega

theorem books_step {history : BrokerHistory} {core core' : BrokerCore} {op : BrokerOp}
    {answer : Answer} {l : Ledger Nat} (b : Books history core l)
    (step : broker.step core op = some (core', answer)) :
    ∃ l', Books (history ++ [⟨core, op, answer, core'⟩]) core' l' := by
  obtain ⟨l', fresh, ids, call⟩ := effect_moves (broker_effect step) b.mirrors
  refine ⟨l', ?_⟩
  have ids_fresh : ∀ id ∈ fresh, id = core.nextJobId := by
    intro id hid
    cases call.arrives with
    | nothing => cases hid
    | fresh => exact List.mem_singleton.mp hid
  constructor
  · exact call.moves.balanced b.balanced
  · exact call.mirrors
  · rw [call.gone, b.gone]
    simp [settled]
  · -- what entered the active slot is what began service
    rw [call.begun, List.filter_append, ← b.begun, WinKeyer.begun, List.filterMap_append,
      List.filter_append]
    congr 1
    rcases call.starts with ⟨rfl, same | none⟩ | ⟨id, rfl, active, waits⟩
    · simp [begunBy, same]
    · simp [begunBy, none]
    · by_cases small : id < u64Max
      · have new : core.activeJobId ≠ some id := by
          refine b.begun_new small ?_
          exact (List.mem_append.mp waits).imp_right (ids_fresh id)
        simp [begunBy, active, Ne.symm new]
      -- The counter's largest value is not counted on either side.
      · by_cases changed : some id = core.activeJobId <;> simp [begunBy, active, changed, small]
  · intro id hid
    rw [call.arrived]
    rw [WinKeyer.issued, List.filterMap_append, List.mem_append] at hid
    rcases hid with old | new
    · exact List.mem_append_left _ (b.issued id old)
    · have accepted : answer.accepted = some id := by simpa using new
      cases call.arrives with
      | nothing _ held => exact List.mem_append_left _ (b.held_arrived (held id accepted))
      | fresh _ taken =>
          have same : core.nextJobId = id := Option.some.inj (taken.symm.trans accepted)
          simp [same]
  · rw [call.arrived, List.pairwise_append]
    refine ⟨b.increasing, ?_, ?_⟩
    · cases call.arrives with
      | nothing => exact .nil
      | fresh => exact List.pairwise_singleton _ _
    · intro i hi j hj
      rw [ids_fresh j hj]
      exact b.bounded i hi
  · intro id hid
    have counter := b.counter
    rw [call.arrived] at hid
    cases call.arrives with
    | nothing next => rw [next]; exact b.bounded id (by simpa using hid)
    | fresh next =>
        rw [next]
        rcases List.mem_append.mp hid with old | new
        · have := b.bounded id old
          omega
        · have := List.mem_singleton.mp new
          omega
  · have counter := b.counter
    cases call.arrives with
    | nothing next => rw [next]; exact counter
    | fresh next => rw [next]; omega

theorem books_of_execution {maxTx : Nat} {history : BrokerHistory} {core : BrokerCore}
    (run : broker.Execution (.new maxTx) history core) : ∃ l, Books history core l := by
  refine run.invariant (I := fun history core => ∃ l, Books history core l) ?_ ?_
  · exact ⟨.empty, Ledger.empty_balanced, ⟨rfl, rfl⟩, rfl, rfl, by simp [issued], .nil,
      by simp [Ledger.empty], show 1 ≤ u64Max by decide⟩
  · rintro history core op answer core' _ ⟨l, b⟩ step
    exact books_step b step

/-! ## Conservation and order -/

/-- A new id is the counter's value. -/
theorem accepted_new {core core' : BrokerCore} {op : BrokerOp} {answer : Answer} {id : Nat}
    (step : broker.step core op = some (core', answer)) (accepted : answer.accepted = some id)
    (new : id ∉ core.held) : id = core.nextJobId := by
  have mirror : Mirrors ⟨[], [], [], core.activeJobId, core.queue.map (·.id)⟩ core := ⟨rfl, rfl⟩
  obtain ⟨_, fresh, ids, call⟩ := effect_moves (broker_effect step) mirror
  cases call.arrives with
  | nothing _ held => exact absurd (held id accepted) new
  | fresh _ taken => exact Option.some.inj (accepted.symm.trans taken)

/-- **Job conservation and order.**  After every sequence of calls: each id returned by enqueue is
somewhere, and below the counter's limit in exactly one place; an id returned for a job that is not
already held has not been returned before; and jobs enter the active slot in increasing id
order. -/
theorem jobs_conserved {maxTx : Nat} {history : BrokerHistory} {core : BrokerCore}
    (run : broker.Execution (.new maxTx) history core) :
    (∀ id ∈ issued history,
      0 < jobPlaces history core id ∧ (id < u64Max → jobPlaces history core id = 1)) ∧
    (∀ earlier e later id, history = earlier ++ e :: later → e.output.accepted = some id →
      id < u64Max → id ∉ e.before.held → id ∉ issued earlier) ∧
    ((begun history).filter (· < u64Max)).Pairwise (· < ·) := by
  obtain ⟨l, b⟩ := books_of_execution run
  refine ⟨?_, ?_, ?_⟩
  · intro id hid
    have places : jobPlaces history core id = l.places id := by
      simp only [jobPlaces, Ledger.places, b.mirrors.serving, b.mirrors.waiting, b.gone]
    have one : 0 < l.arrived.count id := List.count_pos_iff.mpr (b.issued id hid)
    rw [places]
    refine ⟨by rwa [b.balanced.places_eq_count], fun small => ?_⟩
    have once := b.count_arrived small
    exact b.balanced.places_eq_one (by omega)
  · rintro earlier e later id rfl accepted small new old
    have step := run.step_of_mem e (by simp)
    obtain ⟨l', b'⟩ := books_of_execution run.before
    have counter := accepted_new step accepted new
    have known := b'.bounded id (b'.issued id old)
    omega
  · rw [b.begun, List.pairwise_filter]
    refine (b.balanced.begun_pairwise b.increasing).imp ?_
    intro i j h hi _
    simp only [decide_eq_true_eq] at hi
    omega

/-- Two clients, three jobs: the first completes, the second is active, the third is canceled. -/
def threeJobs : List BrokerOp :=
  [.connectPhysical 31, .registerClient 1 true, .registerClient 2 false,
    .enqueue 1 ⟨[69], [69]⟩ none false 0 0, .enqueue 2 ⟨[84], [84]⟩ none false 1 1,
    .enqueue 1 ⟨[73], [73]⟩ none false 2 2, .observeStatus (.fromByte 0xc4) 3,
    .observeStatus (.fromByte 0xc0) 4, .cancelJob 1 3 5]

theorem jobs_conserved_threeJobs :
    ∃ history core, (∀ id ∈ issued history,
        0 < jobPlaces history core id ∧ (id < u64Max → jobPlaces history core id = 1)) ∧
      issued history = [1, 2, 3] ∧ begun history = [1, 2] ∧ settled history = [1, 3] := by
  have run := broker.execution_exec (.new 60) threeJobs (by decide)
  exact ⟨_, _, (jobs_conserved run).1, by decide, by decide, by decide⟩

end CatHub.WinKeyer
