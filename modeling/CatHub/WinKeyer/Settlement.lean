/-
# CatHub.WinKeyer.Settlement — one terminal event for every accepted job.

A write may fail anywhere in a turn.  What the core has already taken out of its slots is then not
seen by the cancellations of the lost session any more, so a job is settled only if its terminal
action came in front of the failing write.  `Prompt` says how many writes stand in front of the
terminal actions of a turn: none, but for the turns that clear the keyer's buffer first.

`settled_once` follows: when no turn that takes out a job loses its first write, every accepted job
that is no longer held has had exactly one JobCompleted or JobCanceled event.  Ids are handed out by
a saturating counter, so its largest value is counted by openings.
-/
import CatHub.WinKeyer.Turns

namespace CatHub.WinKeyer

open Systems Ptt BrokerCore

/-! ## What a run shows of its jobs -/

/-- The chunk joins a job that is already there. -/
def BrokerCore.joins (core : BrokerCore) (clientId : ClientId) (stream : Bool) : Bool :=
  stream && ((core.activeStream? clientId).isSome || (core.tailStream? clientId).isSome)

/-- The id of the job that a request opens, given the id it was answered with. -/
def Request.opens (core : BrokerCore) (accepted : Option Nat) : Request → Option Nat
  | .enqueue clientId _ _ stream => if core.joins clientId stream then none else accepted
  | _ => none

/-- The id of the job that a step opens. -/
def opens (e : ActorStep) : Option Nat :=
  match e.input with
  | .request request _ _ _ => request.opens e.before.core e.output.accepted
  | _ => none

/-- The ids of the jobs opened so far. -/
def openings (history : List ActorStep) : List Nat := history.filterMap opens

/-- The ids that an Enqueue was answered with. -/
def answered (history : List ActorStep) : List Nat := history.filterMap (·.output.accepted)

/-- The ids of the JobCompleted and JobCanceled events published so far. -/
def terminals (history : List ActorStep) : List Nat :=
  history.flatMap (fun e => settledIn e.output.events)

/-- Every accepted job that is neither active nor queued has had exactly one terminal event, and
none had two. -/
def SettledOnce (history : List ActorStep) (a : Actor) : Prop :=
  ∀ id ∈ answered history,
    (id ∉ a.core.held → (terminals history).count id = (openings history).count id) ∧
    (terminals history).count id ≤ (openings history).count id ∧
    (id < u64Max → (openings history).count id = 1)

/-! ## The condition -/

/-- The turn takes out a job behind a Clear Buffer. -/
def Trigger.takesOut (core : BrokerCore) (now : Nat) : Trigger → Bool
  | .request (.unregister clientId) => core.activeClientId == some clientId
  | .request (.cancel clientId includeActive) =>
      includeActive && core.activeClientId == some clientId
  | .request (.cancelJob clientId jobId) =>
      core.activeClientId == some clientId && core.activeJobId == some jobId
  | .request (.emergencyStop _) => !core.held.isEmpty
  | .request .shutdown => !core.held.isEmpty
  | .tick => core.active.any (fun active => decide (now - active.startedAt ≥ core.maxTx))
  | _ => false

/-- The first write of a session's turn fails, and the turn takes out a job behind it. -/
def Untold (e : ActorStep) : Bool :=
  e.before.loop == .session &&
    match e.input with
    | .request request now _ (some fault) =>
        fault.writes == 0 && Trigger.takesOut e.before.core now (.request request)
    | .tick now _ (some fault) => fault.writes == 0 && Trigger.takesOut e.before.core now .tick
    | _ => false

/-! ## The account of a call -/

/-- The jobs held before and the one that is opened are those that are settled and those held
afterwards; a new id is the counter's. -/
structure Accounts (core : BrokerCore) (opened : Option Nat) (settled : List Nat)
    (core' : BrokerCore) : Prop where
  balance : (core.held ++ opened.toList).Perm (settled ++ core'.held)
  numbered : ∀ id, opened = some id →
    id = core.nextJobId ∧ core'.nextJobId = min (core.nextJobId + 1) u64Max
  counter : opened = none → core'.nextJobId = core.nextJobId

namespace Accounts

variable {core core' core'' : BrokerCore} {opened : Option Nat} {settled more : List Nat}

/-- Nothing is opened and nothing settled. -/
theorem kept (held : core'.held = core.held) (next : core'.nextJobId = core.nextJobId) :
    Accounts core none [] core' :=
  ⟨by simp [held], fun _ none' => (by cases none'), fun _ => next⟩

theorem trans (first : Accounts core opened settled core') (second : Accounts core' none more core'') :
    Accounts core opened (settled ++ more) core'' := by
  have next : core''.nextJobId = core'.nextJobId := second.counter rfl
  refine ⟨?_, fun id some' => ?_, fun none' => next.trans (first.counter none')⟩
  · have rest : core'.held.Perm (more ++ core''.held) := by simpa using second.balance
    rw [List.append_assoc]
    exact first.balance.trans (rest.append_left settled)
  · obtain ⟨new, counted⟩ := first.numbered id some'
    exact ⟨new, next.trans counted⟩

/-- The loss of the session settles everything that is held. -/
theorem lost (core : BrokerCore) (message : String) :
    Accounts core none core.held (core.physicalError message).1 :=
  ⟨by simp [BrokerCore.held, BrokerCore.physicalError, BrokerCore.activeJobId],
    fun _ none' => (by cases none'), fun _ => rfl⟩

end Accounts

theorem held_eq_jobs (core : BrokerCore) : core.held = core.jobs.map (·.id) := by
  unfold BrokerCore.held BrokerCore.jobs BrokerCore.activeJobId
  cases core.active <;> simp

theorem BrokerCore.Apart.joins {core : BrokerCore} {clientId : ClientId} {stream : Bool}
    (apart : core.Apart clientId stream) : core.joins clientId stream = false := by
  cases stream with
  | false => rfl
  | true =>
      obtain ⟨active, tail⟩ := apart rfl
      simp [BrokerCore.joins, active, tail]

/-- An accepted enqueue joins a job or opens one behind all others. -/
theorem enqueue_accounts {core core' : BrokerCore} {clientId : ClientId} {payload : TransmitPayload}
    {speed : Option SpeedMode} {stream : Bool} {now clock jobId : Nat}
    {actions : List PhysicalAction}
    (h : core.enqueue clientId payload speed stream now clock = some (core', jobId, actions)) :
    settledBy actions = [] ∧
      Accounts core (if core.joins clientId stream then none else some jobId) [] core' ∧
      (core.joins clientId stream = true → jobId ∈ core.held) := by
  cases enqueue_cases h with
  | @joinedActive a streams joins _ =>
      have joined : core.joins clientId stream = true := by simp [BrokerCore.joins, streams, joins]
      have active : core.active = some a := (activeStream?_eq_some.mp joins).1
      rw [if_pos joined]
      refine ⟨rfl, .kept ?_ rfl, fun _ => ?_⟩
      · simp [BrokerCore.held, BrokerCore.activeJobId, active, Job.grow]
      · simp [BrokerCore.held, BrokerCore.activeJobId, active]
  | @joinedTail queued streams _ joins _ =>
      have joined : core.joins clientId stream = true := by simp [BrokerCore.joins, streams, joins]
      have queue : core.queue = core.queue.dropLast ++ [queued] := (tailStream?_eq_some joins).1
      rw [if_pos joined]
      refine ⟨rfl, .kept ?_ rfl, fun _ => ?_⟩
      · rw [BrokerCore.held, BrokerCore.held, queue]
        simp [BrokerCore.activeJobId, Job.grow]
      · rw [BrokerCore.held, queue]
        simp
  | waits _ apart =>
      rw [apart.joins]
      refine ⟨rfl, ⟨?_, fun id same => ?_, fun none' => (by cases none')⟩,
        fun joins => (by cases joins)⟩
      · simp [BrokerCore.held, BrokerCore.activeJobId, withJob, newJob]
      · cases same
        exact ⟨rfl, rfl⟩
  | @starts client _ _ apart _ idle opened =>
      subst opened
      rw [apart.joins]
      let job := core.newJob clientId payload (speed.getD client.desiredSpeed) stream now
      have begins := startNextOrRestore_begins (core.withJob job) clock
      obtain ⟨jobs, _, next⟩ := begins.jobs idle
      refine ⟨begins.settles, ⟨?_, fun id same => ?_, fun none' => (by cases none')⟩,
        fun joins => (by cases joins)⟩
      · rw [held_eq_jobs, held_eq_jobs, jobs, BrokerCore.jobs, idle]
        simp [withJob, job, newJob]
      · cases same
        exact ⟨rfl, next⟩

/-- Only an enqueue hands out an id. -/
theorem unanswered (core : BrokerCore) {op : BrokerOp} (drops : op.enqueues = false) :
    (op.apply core).2.accepted = none := by
  cases op with
  | enqueue => cases drops
  | setClientCommand clientId command =>
      simp only [BrokerOp.apply]
      split <;> rfl
  | _ => rfl

/-- Every other call only settles jobs. -/
theorem call_accounts (core : BrokerCore) {op : BrokerOp} (drops : op.enqueues = false) :
    Accounts core none (settledBy (op.apply core).2.actions) (op.apply core).1 := by
  cases within : op.within with
  | false =>
      cases op with
      | connectPhysical => exact .kept rfl rfl
      | physicalError message =>
          show Accounts core none (settledBy (core.physicalError message).2) _
          rw [settledBy_physicalError]
          exact .lost core message
      | restoreForeground =>
          obtain ⟨same, ws, writes⟩ := restoreForegroundSpeed_spec core
          show Accounts core none (settledBy core.restoreForegroundSpeed.2) core.restoreForegroundSpeed.1
          rw [writes, settledBy_writes]
          exact .kept (by rw [held_eq_jobs, held_eq_jobs, same.jobs]) same.nextJobId
      | _ => cases within
  | true =>
      -- The books of a line that has just opened with what the core holds.
      let l : Ledger Nat := ⟨core.held, [], [], core.activeJobId, core.queue.map (·.id)⟩
      have opening : l.Balanced := ⟨.refl _, List.sublist_append_right _ _⟩
      have mirrors : Mirrors l core := ⟨rfl, rfl⟩
      obtain ⟨l', fresh, ids, call⟩ := effect_moves (effect_within core within) mirrors
      have balance := (call.moves.balanced opening).conserved
      rw [call.gone, call.arrived, call.mirrors.serving, call.mirrors.waiting] at balance
      have arrives := call.arrives
      rw [unanswered core drops] at arrives
      cases arrives with
      | nothing next => exact ⟨balance, fun _ none' => (by cases none'), fun _ => next⟩
      | fresh _ taken => cases taken

/-! ## Terminal actions in front of the writes -/

/-- At most `n` writes stand in front of the last terminal action. -/
def Prompt (n : Nat) (actions : List PhysicalAction) : Prop :=
  ∃ front back, actions = front ++ back ∧ (writes front).length ≤ n ∧ settledBy back = []

namespace Prompt

variable {n : Nat} {actions : List PhysicalAction}

theorem silent (n : Nat) (none' : settledBy actions = []) : Prompt n actions :=
  ⟨[], actions, rfl, Nat.zero_le n, none'⟩

theorem more (prompt : Prompt n actions) {rest : List PhysicalAction} (none' : settledBy rest = []) :
    Prompt n (actions ++ rest) := by
  obtain ⟨front, back, rfl, few, silent⟩ := prompt
  refine ⟨front, back ++ rest, List.append_assoc _ _ _, few, ?_⟩
  rw [settledBy_append, silent, none']
  rfl

theorem mono {m : Nat} (prompt : Prompt n actions) (le : n ≤ m) : Prompt m actions := by
  obtain ⟨front, back, split, few, silent⟩ := prompt
  exact ⟨front, back, split, Nat.le_trans few le, silent⟩

/-- Actions that write nothing. -/
theorem unwritten (none' : writes actions = []) : Prompt n actions :=
  ⟨actions, [], (List.append_nil _).symm, by rw [none']; exact Nat.zero_le n, rfl⟩

end Prompt

/-- What is sent is a part of what there is to send. -/
theorem applyActions_sublist (actions : List PhysicalAction) (fault : Option WriteFault) :
    (applyActions actions fault).events.Sublist (sentBy actions) := by
  induction actions generalizing fault with
  | nil => exact .refl _
  | cons first rest ih =>
      cases first with
      | write chunk =>
          rcases fault with _ | ⟨_ | writes, bytes, error⟩
          · exact ih none
          · exact List.nil_sublist _
          · exact ih (some ⟨writes, bytes, error⟩)
      | completed jobId clientId => exact (ih fault).cons_cons _
      | canceled jobId clientId => exact (ih fault).cons_cons _

/-- A front whose writes all succeed is performed, and the rest meets what is left of the fault. -/
theorem applyActions_front (front back : List PhysicalAction) (fault : Option WriteFault)
    (few : ∀ f, fault = some f → (writes front).length ≤ f.writes) :
    ∃ later, (applyActions (front ++ back) fault).events =
      sentBy front ++ (applyActions back later).events := by
  induction front generalizing fault with
  | nil => exact ⟨fault, rfl⟩
  | cons first rest ih =>
      cases first with
      | write chunk =>
          have one : (writes (.write chunk :: rest)).length = (writes rest).length + 1 := rfl
          rcases fault with _ | ⟨_ | n, bytes, error⟩
          · exact ih none (fun _ none' => by cases none')
          · have none' : (writes rest).length + 1 ≤ 0 := few _ rfl
            omega
          · have some' : (writes rest).length + 1 ≤ n + 1 := few _ rfl
            refine ih (some ⟨n, bytes, error⟩) ?_
            intro f same
            obtain rfl := Option.some.inj same
            show (writes rest).length ≤ n
            omega
      | completed jobId clientId =>
          obtain ⟨later, rest'⟩ := ih fault few
          exact ⟨later, congrArg (BrokerEvent.completed jobId clientId :: ·) rest'⟩
      | canceled jobId clientId =>
          obtain ⟨later, rest'⟩ := ih fault few
          exact ⟨later, congrArg (BrokerEvent.canceled jobId clientId :: ·) rest'⟩

/-- Prompt actions tell everything when enough writes succeed. -/
theorem Prompt.told {n : Nat} {actions : List PhysicalAction} (prompt : Prompt n actions)
    {fault : Option WriteFault} (few : ∀ f, fault = some f → n ≤ f.writes) :
    settledIn (applyActions actions fault).events = settledBy actions := by
  obtain ⟨front, back, rfl, writes, silent⟩ := prompt
  obtain ⟨later, events⟩ := applyActions_front front back fault
    (fun f same => Nat.le_trans writes (few f same))
  have rest : settledIn (applyActions back later).events = [] := by
    have part := (applyActions_sublist back later).filterMap (·.settles)
    have none' : settledIn (sentBy back) = [] := by rw [settledIn_sentBy, silent]
    exact List.sublist_nil.mp (none' ▸ part)
  rw [events, settledIn_append, settledIn_sentBy, rest, settledBy_append, silent]

/-! ## Which calls are prompt -/

theorem prompt_completeActive (core : BrokerCore) (clock : Nat) :
    Prompt 0 (core.completeActive clock).2 := by
  unfold BrokerCore.completeActive
  split
  · exact .silent 0 rfl
  · rename_i a _
    have completed : Prompt 0 [.completed a.job.id a.job.clientId] := .unwritten rfl
    exact completed.more (startNextOrRestore_begins _ clock).settles

theorem prompt_emergencyStop (core : BrokerCore) (reason : String) :
    Prompt (if !core.held.isEmpty then 1 else 0) (core.emergencyStop reason).2 := by
  obtain ⟨same, ws, writes'⟩ := restoreForegroundSpeed_spec
    { core with active := none, queue := [], lastSafetyAction := some reason }
  have restored : settledBy (BrokerCore.restoreForegroundSpeed
      { core with active := none, queue := [], lastSafetyAction := some reason }).2 = [] := by
    rw [writes', settledBy_writes]
  let canceled := core.active.toList.map (fun active => cancellation active.job) ++
    core.queue.map cancellation
  have quiet : writes canceled = [] := by
    simp only [canceled, writes_append, writes_cancellations]
    cases core.active <;> rfl
  have held : settledBy canceled = core.held := settledBy_physicalError core ""
  have front : Prompt (if !core.held.isEmpty then 1 else 0)
      (.write [0x0a, 0x0b, 0x00] :: canceled) := by
    cases work : core.held with
    | nil => exact .silent _ (by rw [← work, ← held]; rfl)
    | cons =>
        refine ⟨_, [], (List.append_nil _).symm, ?_, rfl⟩
        show (writes canceled).length + 1 ≤ 1
        rw [quiet]
        exact Nat.le_refl 1
  exact front.more restored

/-- Cancellations behind one Clear Buffer, and the next start. -/
theorem prompt_cleared {front started : List PhysicalAction} (clear : (writes front).length ≤ 1)
    (silent : settledBy started = []) : Prompt 1 (front ++ started) :=
  ⟨front, started, rfl, clear, silent⟩

theorem prompt_unregister (core : BrokerCore) (clientId : ClientId) (clock : Nat) :
    Prompt (if core.activeClientId == some clientId then 1 else 0)
      (core.unregisterClient clientId clock).2 := by
  cases active : core.active with
  | none =>
      simp only [BrokerCore.unregisterClient, active]
      exact .unwritten (writes_cancellations _)
  | some a =>
      by_cases owner : a.job.clientId = clientId
      · have ends : core.activeClientId = some clientId := by simp [activeClientId, active, owner]
        simp only [BrokerCore.unregisterClient, active, owner, if_true, ends, beq_self_eq_true]
        refine prompt_cleared ?_ (startNextOrRestore_begins _ clock).settles
        rw [writes_append, writes_cancellations]
        exact Nat.le_refl 1
      · simp only [BrokerCore.unregisterClient, active, owner, if_false]
        exact .unwritten (writes_cancellations _)

theorem prompt_cancelClient {core : BrokerCore} (busy : core.queue ≠ [] → core.active.isSome)
    (clientId : ClientId) (includeActive : Bool) (clock : Nat) :
    Prompt (if includeActive && core.activeClientId == some clientId then 1 else 0)
      (core.cancelClient clientId includeActive clock).2 := by
  cases active : core.active with
  | none =>
      -- Nothing waits behind an idle keyer.
      have empty : core.queue = [] := by
        by_contra queued
        have some' := busy queued
        rw [active] at some'
        cases some'
      refine .silent _ ?_
      simp only [BrokerCore.cancelClient, active, empty, jobsOf]
      split <;> rfl
  | some a =>
      have owns : (core.activeClientId == some clientId) = (a.job.clientId == clientId) := by
        simp [activeClientId, active]
      simp only [BrokerCore.cancelClient, active, owns]
      split
      · refine prompt_cleared ?_ (startNextOrRestore_begins _ clock).settles
        show (writes (_ ++ _)).length + 1 ≤ 1
        rw [writes_append, writes_cancellations]
        exact Nat.le_refl 1
      · exact .unwritten (writes_cancellations _)

theorem prompt_cancelJob (core : BrokerCore) (clientId : ClientId) (jobId clock : Nat) :
    Prompt (if core.activeClientId == some clientId && core.activeJobId == some jobId then 1 else 0)
      (core.cancelJob clientId jobId clock).2.2 := by
  cases matching : core.active.filter
      (fun active => active.job.clientId == clientId && active.job.id == jobId) with
  | none =>
      simp only [BrokerCore.cancelJob, matching]
      exact .unwritten (writes_cancellations _)
  | some a =>
      obtain ⟨active, here⟩ := Option.filter_eq_some_iff.mp matching
      have ends : (core.activeClientId == some clientId && core.activeJobId == some jobId) = true := by
        simpa [activeClientId, BrokerCore.activeJobId, active] using here
      simp only [BrokerCore.cancelJob, matching, ends, if_true]
      exact prompt_cleared (Nat.le_refl 1) (startNextOrRestore_begins _ clock).settles

theorem prompt_observeStatus (core : BrokerCore) (status : DeviceStatus) (clock : Nat) :
    Prompt 0 (core.observeStatus status clock).2 := by
  unfold BrokerCore.observeStatus
  split
  · exact .silent 0 rfl
  · split
    · exact .silent 0 rfl
    · split
      · exact prompt_completeActive _ clock
      · exact .silent 0 rfl

/-- The watchdog empties the core, so nothing is left to settle behind it. -/
theorem prompt_tick (core : BrokerCore) (now settle clock : Nat) :
    Prompt (if core.active.any (fun active => decide (now - active.startedAt ≥ core.maxTx))
        then 1 else 0)
      ((core.watchdog now).2 ++
        ((core.watchdog now).1.confirmIdleAfterSettle now settle clock).2) := by
  unfold BrokerCore.watchdog
  split
  · rename_i due
    have stopped : ((core.emergencyStop "WinKeyer transmit safety ceiling reached").1.confirmIdleAfterSettle
        now settle clock).2 = [] := rfl
    rw [stopped, List.append_nil]
    exact (prompt_emergencyStop core _).mono (by split <;> omega)
  · show Prompt 0 (core.confirmIdleAfterSettle now settle clock).2
    unfold BrokerCore.confirmIdleAfterSettle
    split
    · exact prompt_completeActive core clock
    · exact .silent 0 rfl

/-! ## The account of a decision -/

theorem calls_accounts {core : BrokerCore} {ops : List BrokerOp}
    (drops : ∀ op ∈ ops, op.enqueues = false) :
    Accounts core none (settledBy (core.returned ops)) (core.afterCalls ops) ∧
      (core.callsOf ops).filterMap (·.output.accepted) = [] := by
  induction ops generalizing core with
  | nil => exact ⟨.kept rfl rfl, rfl⟩
  | cons op ops ih =>
      have first : op.enqueues = false := drops op (by simp)
      obtain ⟨rest, quiet⟩ := @ih (op.apply core).1 (fun later held => drops later (by simp [held]))
      refine ⟨?_, ?_⟩
      · rw [returned_cons, settledBy_append]
        exact (call_accounts core first).trans rest
      · simp only [callsOf, List.filterMap_cons, unanswered core first]
        exact quiet

/-- Only an admitted Enqueue asks the core to take a job in. -/
theorem decisionOps_enqueues (a : Actor) (now later : Nat) (trigger : Trigger) :
    (∃ clientId payload speed stream, trigger = .request (.enqueue clientId payload speed stream) ∧
      a.decisionOps now later trigger = [.enqueue clientId payload speed stream now later]) ∨
    ∀ op ∈ a.decisionOps now later trigger, op.enqueues = false := by
  have barred : ∀ (refused : Bool) (op : BrokerOp), op.enqueues = false →
      ∀ asked ∈ (if refused then [] else [op]), asked.enqueues = false := by
    intro refused op drops asked mem
    cases refused
    · rw [List.mem_singleton.mp mem]
      exact drops
    · cases mem
  cases trigger with
  | tick => exact Or.inr (by simp [Actor.decisionOps, BrokerOp.enqueues])
  | byte byte =>
      right
      simp only [Actor.decisionOps]
      split
      · split <;> simp [BrokerOp.enqueues]
      · split
        · simp
        · split
          · simp [BrokerOp.enqueues]
          · split <;> simp [BrokerOp.enqueues]
          · simp
  | request request =>
      cases request with
      | enqueue clientId payload speed stream =>
          simp only [Actor.decisionOps]
          split
          · exact Or.inl ⟨clientId, payload, speed, stream, rfl, rfl⟩
          · exact Or.inr (by simp)
      | setSpeed clientId speed =>
          exact Or.inr (barred (a.maintenanceBars clientId) (.setClientSpeed clientId speed) rfl)
      | configure clientId command =>
          exact Or.inr (barred (a.maintenanceBars clientId) (.setClientCommand clientId command) rfl)
      | activeOwnerCommand clientId command =>
          exact Or.inr (barred a.inMaintenance (.activeOwnerCommand clientId command) rfl)
      | _ => exact Or.inr (by simp [Actor.decisionOps, BrokerOp.enqueues])

/-- The id of the job that a turn opens. -/
def Trigger.opens (core : BrokerCore) (accepted : Option Nat) : Trigger → Option Nat
  | .request asked => asked.opens core accepted
  | _ => none

section Decisions

variable {a mid : Actor} {now later : Nat} {trigger : Trigger} {o : Observation}
  {actions : List PhysicalAction}

/-- Only the core settles. -/
theorem settledBy_decided (decides : a.Decides now later trigger mid o actions) :
    settledBy actions = settledBy (a.core.returned (a.decisionOps now later trigger)) := by
  rw [decides.actions, settledBy_append, settledBy_append, settledBy_writes, settledBy_writes]
  simp

/-- **The account of a decision.** -/
theorem decides_accounts (decides : a.Decides now later trigger mid o actions) :
    Accounts a.core (trigger.opens a.core o.accepted) (settledBy actions) mid.core ∧
      ∀ id, o.accepted = some id → trigger.opens a.core o.accepted = some id ∨ id ∈ a.core.held := by
  have accepted := decides.accepted
  rw [settledBy_decided decides, decides.core]
  rcases decisionOps_enqueues a now later trigger with
    ⟨clientId, payload, speed, stream, rfl, calls⟩ | drops
  · rw [calls] at accepted ⊢
    simp only [returned_cons, returned_nil, List.append_nil, afterCalls_cons, afterCalls_nil,
      Trigger.opens, Request.opens]
    simp only [callsOf, BrokerOp.apply] at accepted ⊢
    cases taken : a.core.enqueue clientId payload speed stream now later with
    | none =>
        rw [taken] at accepted
        have none' : o.accepted = none := by simpa using accepted
        simp only [none', ite_self]
        exact ⟨.kept rfl rfl, fun _ none'' => by cases none''⟩
    | some answer =>
        obtain ⟨core', jobId, started⟩ := answer
        rw [taken] at accepted
        have some' : o.accepted = some jobId := by simpa using accepted
        obtain ⟨silent, accounts, joined⟩ := enqueue_accounts taken
        simp only [some', silent]
        refine ⟨accounts, fun id same => ?_⟩
        obtain rfl := Option.some.inj same
        by_cases joins : a.core.joins clientId stream = true
        · exact Or.inr (joined joins)
        · exact Or.inl (if_neg joins)
  · obtain ⟨accounts, quiet⟩ := calls_accounts drops
    rw [quiet] at accepted
    have none' : o.accepted = none := by simpa using accepted
    have nothing : trigger.opens a.core o.accepted = none := by
      rw [none']
      cases trigger with
      | byte | tick => rfl
      | request request =>
          cases request with
          | enqueue => exact ite_self _
          | _ => rfl
    rw [nothing, none']
    exact ⟨accounts, fun _ none'' => by cases none''⟩

theorem vacant_held {core : BrokerCore} (vacant : core.Vacant) : core.held = [] := by
  simp [BrokerCore.held, BrokerCore.activeJobId, vacant.active, vacant.queue]

/-- A decision on an empty core settles nothing. -/
theorem settledBy_vacant (decides : a.Decides now later trigger mid o actions)
    (vacant : a.core.held = []) (unopened : trigger.opens a.core o.accepted = none) :
    settledBy actions = [] := by
  have balance := (decides_accounts decides).1.balance
  rw [vacant, unopened] at balance
  exact (List.append_eq_nil_iff.mp (List.perm_nil.mp balance.symm)).1

end Decisions

/-! ## Which decisions are prompt -/

/-- The actor writes of its own accord only while the core has no work. -/
theorem ownWrites_vacant {a : Actor} (s : Sound a) {trigger : Trigger}
    (own : a.ownWrites trigger ≠ []) : a.core.Vacant := by
  have owned : ∀ clientId, a.maintenanceOwner = some clientId → a.core.Vacant := by
    intro clientId owner
    exact s.maintenance (by simp [Actor.inMaintenance, owner])
  cases trigger with
  | tick => exact absurd rfl own
  | byte byte =>
      simp only [Actor.ownWrites] at own
      split at own
      · rename_i waits
        have pending : a.maintenanceReopenPending = true := (Bool.and_eq_true_iff.mp waits).1
        exact s.maintenance (by simp [Actor.inMaintenance, pending])
      · exact absurd rfl own
  | request request =>
      cases request with
      | unregister clientId | releaseMaintenance clientId =>
          by_cases owner : a.maintenanceOwner = some clientId
          · exact owned clientId owner
          · exact absurd (if_neg owner) own
      | maintenanceCommand clientId command =>
          simp only [Actor.ownWrites] at own
          split at own
          · rename_i admitted
            simp only [Actor.admitsMaintenance, Bool.and_eq_true, Option.isNone_iff_eq_none,
              List.isEmpty_iff] at admitted
            exact ⟨admitted.1.1.2, admitted.1.2⟩
          · exact absurd rfl own
      | _ => exact absurd rfl own

/-- A status takes a job out by its completion alone, also where a conflict is noted first. -/
theorem prompt_status {a : Actor} (outside : a.inMaintenance = false) {byte : UInt8}
    {status : DeviceStatus} (classified : DeviceEvent.fromByte byte = .status status)
    (now later n : Nat) : Prompt n (a.core.returned (a.decisionOps now later (.byte byte))) := by
  rw [Actor.decisionOps_byte outside, classified]
  simp only []
  split
  · simp only [List.cons_append, List.nil_append, returned_cons, returned_nil, List.append_nil]
    exact (prompt_observeStatus (a.core.recordSafetyAction conflictMessage) status later).mono
      (Nat.zero_le n)
  · simp only [List.nil_append, returned_cons, returned_nil, List.append_nil]
    exact (prompt_observeStatus a.core status later).mono (Nat.zero_le n)

/-- A decision that asks the core only to take something in, if at all. -/
theorem settledBy_asked (core : BrokerCore) {op : BrokerOp} {ops : List BrokerOp}
    (handsIn : op.handsIn = true) (asked : ops = [op] ∨ ops = []) :
    settledBy (core.returned ops) = [] := by
  rcases asked with rfl | rfl
  · rw [returned_cons, returned_nil, List.append_nil]
    exact (OnlyWrites.handedIn core handsIn).settles
  · rfl

/-- **Which decisions are prompt.**  Only a turn that takes out a job writes in front of what it
settles, and it writes one chunk there. -/
theorem decides_prompt {a mid : Actor} {now later : Nat} {trigger : Trigger} {o : Observation}
    {actions : List PhysicalAction} (s : Sound a)
    (busy : a.core.queue ≠ [] → a.core.active.isSome)
    (decides : a.Decides now later trigger mid o actions) :
    Prompt (if trigger.takesOut a.core now then 1 else 0) actions := by
  by_cases own : a.ownWrites trigger = []
  swap
  · -- the core has no work, and the trigger is no Enqueue
    refine .silent _ (settledBy_vacant decides (vacant_held (ownWrites_vacant s own)) ?_)
    cases trigger with
    | byte | tick => rfl
    | request request =>
        cases request with
        | enqueue => exact absurd rfl own
        | _ => rfl
  have returned : actions = a.core.returned (a.decisionOps now later trigger) ++
      (a.pollWrites now later trigger).map .write := by
    rw [decides.actions, own]
    rfl
  have silent : settledBy (a.core.returned (a.decisionOps now later trigger)) = [] →
      Prompt (if trigger.takesOut a.core now then 1 else 0) actions := by
    intro none'
    exact .silent _ (by rw [settledBy_decided decides, none'])
  -- A decision that is one call, with no poll behind it.
  have called : ∀ (op : BrokerOp) (n : Nat), a.decisionOps now later trigger = [op] →
      Prompt n (op.apply a.core).2.actions → Prompt n actions := by
    intro op n one prompt
    rw [returned, one]
    simp only [returned_cons, returned_nil, List.append_nil]
    exact prompt.more (settledBy_writes _)
  cases trigger with
  | tick =>
      rw [returned]
      simp only [Actor.decisionOps, returned_cons, returned_nil, List.append_nil]
      exact (prompt_tick a.core now shortJobSettle later).more (settledBy_writes _)
  | byte byte =>
      cases inside : a.inMaintenance with
      | true =>
          exact .silent _ (settledBy_vacant decides (vacant_held (s.maintenance inside)) rfl)
      | false =>
          have calls := Actor.decisionOps_byte inside now later byte
          cases classified : DeviceEvent.fromByte byte with
          | speedPot raw value =>
              rw [classified] at calls
              exact silent (by rw [calls]; rfl)
          | echo raw =>
              rw [classified] at calls
              exact silent (by rw [calls]; rfl)
          | status status =>
              rw [returned]
              exact (prompt_status inside classified now later _).more (settledBy_writes _)
  | request request =>
      cases request with
      | register | maintenanceCommand | releaseMaintenance => exact silent rfl
      | unregister clientId =>
          exact called (.unregisterClient clientId later) _ rfl
            (prompt_unregister a.core clientId later)
      | enqueue =>
          exact silent (settledBy_asked a.core rfl (ite_eq_or_eq _ _ _))
      | setSpeed | configure | activeOwnerCommand =>
          exact silent (settledBy_asked a.core rfl (ite_eq_or_eq _ _ _).symm)
      | cancel clientId includeActive =>
          exact called (.cancelClient clientId includeActive later) _ rfl
            (prompt_cancelClient busy clientId includeActive later)
      | cancelJob clientId jobId =>
          exact called (.cancelJob clientId jobId later) _ rfl
            (prompt_cancelJob a.core clientId jobId later)
      | emergencyStop reason =>
          exact called (.emergencyStop reason) _ rfl (prompt_emergencyStop a.core reason)
      | shutdown =>
          exact called (.emergencyStop "WinKeyer broker shutdown") _ rfl
            (prompt_emergencyStop a.core "WinKeyer broker shutdown")

/-! ## Every step -/

/-- What a step does to the account of the jobs, and where an answered id is found. -/
def Accounted (e : ActorStep) : Prop :=
  Accounts e.before.core (opens e) (settledIn e.output.events) e.after.core ∧
    ∀ id, e.output.accepted = some id → opens e = some id ∨ id ∈ e.before.core.held

/-- A step without a decision. -/
theorem accounted_aside {a a' : Actor} {input : ActorInput} {o : Observation}
    (aside : ∀ request now later fault, input ≠ .request request now later fault)
    (accepted : o.accepted = none) (accounts : Accounts a.core none (settledIn o.events) a'.core) :
    Accounted ⟨a, input, o, a'⟩ := by
  refine ⟨?_, fun id some' => ?_⟩
  · have unopened : opens ⟨a, input, o, a'⟩ = none := by
      cases input with
      | request request now later fault => exact absurd rfl (aside request now later fault)
      | _ => rfl
    rw [unopened]
    exact accounts
  · have none' : o.accepted = some id := some'
    rw [accepted] at none'
    cases none'

/-- A decision of a turn, from what the turn does with the account. -/
theorem accounted_turn {a mid a' : Actor} (b : Actor) {now later : Nat} {trigger : Trigger}
    {fault : Option WriteFault} {o o₀ : Observation} {actions : List PhysicalAction}
    (core : b.core = a.core) (decides : b.Decides now later trigger mid o₀ actions)
    (accepted : o.accepted = o₀.accepted)
    (ends : ∀ opened, Accounts a.core opened (settledBy actions) mid.core →
      Accounts a.core opened (settledIn o.events) a'.core) :
    Accounted ⟨a, inputOf trigger now later fault, o, a'⟩ := by
  obtain ⟨accounts, known⟩ := decides_accounts decides
  rw [core, ← accepted] at accounts known
  have opened : opens ⟨a, inputOf trigger now later fault, o, a'⟩ =
      trigger.opens a.core o.accepted := by cases trigger <;> rfl
  unfold Accounted
  rw [opened]
  exact ⟨ends _ accounts, known⟩

/-- **One step.** -/
theorem accounted_step {a a' : Actor} {input : ActorInput} {o : Observation} (s : Sound a)
    (r : a.core.Represented) (step : actor.step a input = some (a', o))
    (told : Untold ⟨a, input, o, a'⟩ = false) : Accounted ⟨a, input, o, a'⟩ := by
  cases actor_move step with
  | @turn trigger now later fault _ _ live onward timed turn =>
      have enough : ∀ f, fault = some f →
          (if trigger.takesOut (a.atTime later).core now then 1 else 0) ≤ f.writes := by
        rintro ⟨writes, bytes, error⟩ rfl
        simp only [Untold, live, beq_self_eq_true, Bool.true_and] at told
        show (if trigger.takesOut a.core now then 1 else 0) ≤ writes
        cases trigger with
        | byte => exact Nat.zero_le _
        | request | tick =>
            simp only [inputOf, Bool.and_eq_false_iff, beq_eq_false_iff_ne] at told
            split
            · rename_i takes
              rcases told with some' | none'
              · omega
              · rw [takes] at none'
                cases none'
            · exact Nat.zero_le _
      have sound : Sound (a.atTime later) := s.onTime later
      cases turn with
      | goesOn decides core _ _ _ _ _ events accepted =>
          refine accounted_turn (a.atTime later) rfl decides accepted (fun opened accounts => ?_)
          rw [← settledIn_outcomes, events, settledIn_sentBy, core]
          exact accounts
      | @fails mid _ _ _ message decides _ _ _ events accepted =>
          refine accounted_turn (a.atTime later) rfl decides accepted (fun opened accounts => ?_)
          have prompt := decides_prompt sound r.busy decides
          rw [← settledIn_outcomes, events, settledIn_append, prompt.told enough, settledIn_sentBy,
            settledBy_physicalError]
          exact accounts.trans (.lost mid.core message)
      | leaves decides _ core _ _ events accepted =>
          refine accounted_turn (a.atTime later) rfl decides accepted (fun opened accounts => ?_)
          have prompt := decides_prompt sound r.busy decides
          rw [← settledIn_outcomes, events, prompt.told enough, core]
          exact accounts
      | misread message misread _ events accepted =>
          refine accounted_aside ?_ accepted ?_
          · rintro request _ _ _ same
            cases trigger with
            | request => exact misread
            | byte | tick => cases same
          · rw [← settledIn_outcomes, events, settledIn_sentBy, settledBy_physicalError]
            exact .lost a.core message
  | @sunk request now later fault _ _ _ _ _ off _ _ decides core _ _ _ _ _ events accepted =>
      show Accounted ⟨a, inputOf (.request request) now later fault, o, a'⟩
      refine accounted_turn (a.atTime later) rfl decides accepted (fun opened accounts => ?_)
      rw [← settledIn_outcomes, events, settledIn_sentBy, core]
      exact accounts
  | left _ events accepted =>
      refine accounted_aside (fun _ _ _ _ same => by cases same) accepted ?_
      rw [← settledIn_outcomes, events]
      exact .kept rfl rfl
  | @lost _ message _ _ _ events accepted =>
      refine accounted_aside (fun _ _ _ _ same => by cases same) accepted ?_
      rw [← settledIn_outcomes, events, settledIn_sentBy, settledBy_physicalError]
      exact .lost a.core message
  | unopened off _ _ core _ _ _ _ _ events accepted =>
      refine accounted_aside (fun _ _ _ _ same => by cases same) accepted ?_
      rw [← settledIn_outcomes, events, core]
      exact .kept (vacant_held (s.offline off).2).symm rfl
  | @refailed now firmware fault message _ _ off _ core _ _ _ _ events accepted =>
      refine accounted_aside (fun _ _ _ _ same => by cases same) accepted ?_
      obtain ⟨_, ws, restored⟩ := restoreForegroundSpeed_spec (a.core.connectPhysical firmware)
      have returned : a.core.returned (reopening firmware) = ws.map .write := by
        show [] ++ ((a.core.connectPhysical firmware).restoreForegroundSpeed.2 ++ []) = _
        rw [List.append_nil, List.nil_append, restored]
      have silent : settledIn o.events = [] := by
        rw [← settledIn_outcomes, events, returned]
        have part := (applyActions_sublist (ws.map .write) fault).filterMap (·.settles)
        have none' : settledIn (sentBy (ws.map .write)) = [] := by
          rw [settledIn_sentBy, settledBy_writes]
        exact List.sublist_nil.mp (none' ▸ part)
      rw [silent, core]
      exact .kept (vacant_held (s.offline off).2).symm rfl
  | @reopened _ firmware _ _ _ off _ core _ _ _ _ _ events accepted =>
      refine accounted_aside (fun _ _ _ _ same => by cases same) accepted ?_
      have accounts : Accounts a.core none (settledBy (a.core.returned (reopening firmware)))
          (a.core.afterCalls (reopening firmware)) :=
        (calls_accounts (by simp [reopening, BrokerOp.enqueues])).1
      rw [← settledIn_outcomes, events, settledIn_sentBy, core]
      exact accounts
  | foreign _ _ core _ _ _ _ _ events accepted =>
      refine accounted_aside (fun _ _ _ _ same => by cases same) accepted ?_
      rw [← settledIn_outcomes, events, core]
      exact .kept rfl rfl

/-! ## Every run -/

/-- The books of a run: what was opened is what was settled and what is held. -/
structure Settled (history : List ActorStep) (a : Actor) : Prop where
  balance : (openings history).Perm (terminals history ++ a.core.held)
  answered : ∀ id ∈ answered history, id ∈ openings history
  once : ∀ id, id < u64Max → (openings history).count id ≤ 1
  bounded : ∀ id ∈ openings history, id < a.core.nextJobId ∨ id = u64Max
  counter : a.core.nextJobId ≤ u64Max

theorem settled_step {history : List ActorStep} {a : Actor} {e : ActorStep} (books : Settled history a)
    (before : e.before = a) (accounted : Accounted e) : Settled (history ++ [e]) e.after := by
  subst before
  obtain ⟨accounts, known⟩ := accounted
  have openings' : openings (history ++ [e]) = openings history ++ (opens e).toList := by
    unfold openings
    rw [List.filterMap_append]
    cases opened : opens e <;> simp [opened]
  have terminals' : terminals (history ++ [e]) = terminals history ++ settledIn e.output.events := by
    simp [terminals]
  have counter := books.counter
  refine ⟨?_, ?_, ?_, ?_, ?_⟩
  · rw [openings', terminals', List.append_assoc]
    refine (books.balance.append_right _).trans ?_
    rw [List.append_assoc]
    exact accounts.balance.append_left _
  · intro id hid
    rw [openings']
    rw [WinKeyer.answered, List.filterMap_append, List.mem_append] at hid
    rcases hid with earlier | now
    · exact List.mem_append_left _ (books.answered id earlier)
    · have accepted : e.output.accepted = some id := by simpa using now
      rcases known id accepted with new | held
      · exact List.mem_append_right _ (by simp [new])
      · refine List.mem_append_left _ (books.balance.mem_iff.mpr ?_)
        exact List.mem_append_right _ held
  · intro id small
    rw [openings', List.count_append]
    have past := books.once id small
    cases opened : opens e with
    | none => simpa using past
    | some new =>
        obtain ⟨rfl, _⟩ := accounts.numbered new opened
        by_cases same : e.before.core.nextJobId = id
        · -- the counter's value has not been handed out before
          have fresh : (openings history).count id = 0 := by
            refine List.count_eq_zero.mpr (fun old => ?_)
            have := books.bounded id old
            omega
          rw [fresh]
          simp [same]
        · simpa [same] using past
  · intro id hid
    rw [openings', List.mem_append] at hid
    cases opened : opens e with
    | none =>
        rw [accounts.counter opened]
        rw [opened] at hid
        exact books.bounded id (by simpa using hid)
    | some new =>
        obtain ⟨rfl, next⟩ := accounts.numbered new opened
        rw [opened] at hid
        rw [next]
        rcases hid with old | now
        · have := books.bounded id old
          omega
        · obtain rfl : id = e.before.core.nextJobId := by simpa using now
          omega
  · cases opened : opens e with
    | none =>
        rw [accounts.counter opened]
        exact counter
    | some new =>
        obtain ⟨_, next⟩ := accounts.numbered new opened
        omega

section Runs

variable {maxTx : Nat} {ptt : Option PttManager} {reconnect : Bool} {firmware : UInt8} {start : Nat}
  {history : List ActorStep} {a : Actor}

/-- **One terminal event for every job.**  In every run in which no turn that takes out a job loses
its first write: each accepted job that is neither active nor queued has had exactly one JobCompleted
or JobCanceled event, and none had two.  Below the counter's largest value each id is one job. -/
theorem settled_once
    (run : actor.Execution (.spawn maxTx ptt reconnect firmware start) history a)
    (told : ∀ e ∈ history, Untold e = false) : SettledOnce history a := by
  have books : Settled history a := by
    refine run.guarded (I := fun history a => Settled history a) ?_ ?_ told
    · exact ⟨.refl _, by simp [answered], by simp [openings], by simp [openings],
        show 1 ≤ u64Max by decide⟩
    · intro history a input o a' earlier books step told
      exact settled_step books rfl
        (accounted_step (sound_of_execution earlier) (represented_of_execution earlier) step told)
  intro id hid
  have count := books.balance.count_eq id
  rw [List.count_append] at count
  refine ⟨fun gone => ?_, by omega, fun small => ?_⟩
  · rw [List.count_eq_zero.mpr gone] at count
    omega
  · have opened : 0 < (openings history).count id :=
      List.count_pos_iff.mpr (books.answered id hid)
    have once := books.once id small
    omega

end Runs

/-- Two jobs; a write fails while the first one is canceled and the second one starts. -/
theorem settled_once_failure :
    ∃ history a, actor.Execution leased history a ∧ SettledOnce history a ∧
      answered history = [1, 2] ∧ terminals history = [1, 2] := by
  have run := actor.execution_exec leased
    [.request (.register 1 true) 0 0 none, .request (.enqueue 1 ⟨[69], [69]⟩ none false) 1 1 none,
      .request (.enqueue 1 ⟨[84], [84]⟩ none false) 1 1 none,
      .request (.cancelJob 1 1) 2 2 (some ⟨1, 0, "gone"⟩)] (by decide)
  exact ⟨_, _, run, settled_once run (by decide), by decide, by decide⟩

/-- The Clear Buffer of a cancellation fails: the job is gone, and nobody is told. -/
theorem not_settled_once : ∃ history a, actor.Execution leased history a ∧ ¬ SettledOnce history a := by
  have run := actor.execution_exec leased
    [.request (.register 1 true) 0 0 none, .request (.enqueue 1 ⟨[69], [69]⟩ none false) 1 1 none,
      .request (.cancelJob 1 1) 2 2 (some ⟨0, 0, "gone"⟩)] (by decide)
  refine ⟨_, _, run, fun settled => ?_⟩
  have gone := (settled 1 (by decide)).1 (by decide)
  exact absurd gone (by decide)

end CatHub.WinKeyer
