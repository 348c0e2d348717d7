/-
# CatHub.WinKeyer.Ceiling — what the maximum-transmit watchdog measures.

The watchdog runs at every tick and stops the keyer when the active job was started at least `maxTx`
ago.  A key-down command has no timestamp: it keys the keyer as long as nobody releases the key, with
or without a job.  `ceiling_cuts` says for every tick of every run that the ceiling holds, provided
that a key held for `maxTx` is held under a job that is active for `maxTx` as well; `ceiling_missed`
is a run without that.

`tenure` and `keyLine` are read off the recorded steps alone: since when the same job is active, and
since when the last Key Immediate command on the wire is a key-down.
-/
import CatHub.WinKeyer.Departure

namespace CatHub.WinKeyer

open Systems Ptt BrokerCore

/-! ## Since when something is keyed -/

/-- The event ends the job. -/
def endsJob (jobId : Nat) : BrokerEvent → Bool
  | .completed id _ => id == jobId
  | .canceled id _ => id == jobId
  | _ => false

/-- The job that is active after a step, and since when. -/
def tenureNext (held : Option (Nat × Nat)) (e : ActorStep) : Option (Nat × Nat) :=
  e.after.core.activeJobId.map fun jobId =>
    match held with
    | some (id, since) =>
        if id = jobId ∧ e.output.events.any (endsJob jobId) = false then (jobId, since)
        else (jobId, e.after.clock)
    | none => (jobId, e.after.clock)

/-- The active job and since when it has been active, after a run. -/
def tenure (history : List ActorStep) : Option (Nat × Nat) := history.foldl tenureNext none

/-- The command stream the device has read, and since when its last Key Immediate command is a
key-down that no key-up or clear followed. -/
structure KeyLine where
  parser : ClientParser := {}
  downSince : Option Nat := none
  deriving DecidableEq, Repr

namespace KeyLine

def hear (now : Nat) (downSince : Option Nat) : ClientItem → Option Nat
  | .command [0x0b, 0x01] => some (downSince.getD now)
  | .command (0x0b :: _) => none
  | .command [0x0a] => none
  | _ => downSince

/-- The writes of a step reach the device; a reopened transport starts a new stream. -/
def next (line : KeyLine) (e : ActorStep) : KeyLine :=
  let parser : ClientParser := match e.input with
    | .reopen _ _ => {}
    | _ => line.parser
  let (parser, heard) := parser.feed e.output.written.flatten
  { parser, downSince := heard.foldl (hear e.after.clock) line.downSince }

end KeyLine

def keyLine (history : List ActorStep) : KeyLine := history.foldl KeyLine.next {}

/-! ## The property and the condition -/

/-- At least `maxTx` has passed since then. -/
def Elapsed (maxTx now : Nat) (since : Option Nat) : Bool := since.any (fun t => now - t ≥ maxTx)

/-- Clear Buffer and key-up. -/
def stopCommand : List UInt8 := clearBuffer ++ keyUp

/-- If `e` is a tick whose first write the transport takes, it writes Clear Buffer and key-up once
the same job has been active, or the key has been held, for `maxTx`. -/
def CutsAtCeiling (maxTx : Nat) (earlier : List ActorStep) (e : ActorStep) : Prop :=
  ∀ now later fault, e.input = .tick now later fault → (∀ f ∈ fault, 0 < f.writes) →
    Elapsed maxTx now ((tenure earlier).map Prod.snd) ∨
      Elapsed maxTx now (keyLine earlier).downSince →
    stopCommand ∈ e.output.written

/-- If `e` is a tick at which the key has been held for `maxTx`, a job has been active for `maxTx`
as well. -/
def KeyedUnderJob (maxTx : Nat) (earlier : List ActorStep) (e : ActorStep) : Bool :=
  match e.input with
  | .tick now _ _ =>
      !Elapsed maxTx now (keyLine earlier).downSince ||
        Elapsed maxTx now (e.before.core.active.map (·.startedAt))
  | _ => true

/-! ## The start of the active job -/

/-- The action takes the job out. -/
def PhysicalAction.ends (jobId : Nat) (action : PhysicalAction) : Prop :=
  ∃ event, action.event? = some event ∧ endsJob jobId event = true

theorem cancellation_ends (job : Job) : (cancellation job).ends job.id :=
  ⟨_, rfl, by simp [endsJob]⟩

theorem ending_ends {a : ActiveJob} {dropped : List Job} {actions : List PhysicalAction}
    (ending : Ending a dropped actions) : ∃ action ∈ actions, action.ends a.job.id := by
  cases ending with
  | completed =>
      refine ⟨_, List.mem_singleton_self _, .completed a.job.id a.job.clientId, rfl, ?_⟩
      simp [endsJob]
  | cleared => exact ⟨cancellation a.job, by simp, cancellation_ends a.job⟩
  | unregistered => exact ⟨cancellation a.job, by simp, cancellation_ends a.job⟩

/-- A job that is active and not taken out stays active, with its start. -/
theorem effect_tenure {core core' : BrokerCore} {op : BrokerOp} {answer : Answer} {x : ActiveJob}
    (effect : Effect core op answer core') (active : core.active = some x)
    (kept : ∀ action ∈ answer.actions, ¬ action.ends x.job.id) :
    ∃ y, core'.active = some y ∧ y.job.id = x.job.id ∧ y.startedAt = x.startedAt := by
  cases effect with
  | quiet ws same _ =>
      obtain ⟨y, active', job, started⟩ := same.busy active
      exact ⟨y, active', congrArg Job.id job, started⟩
  | grewActive active' =>
      obtain rfl := Option.some.inj (active'.symm.trans active)
      exact ⟨_, rfl, rfl, rfl⟩
  | grewTail => exact ⟨x, active, rfl, rfl⟩
  | queued => exact ⟨x, active, rfl, rfl⟩
  | opened idle =>
      rw [idle] at active
      cases active
  | withdrew p ws same => exact ⟨x, same.trans active, rfl, rfl⟩
  | ended p active' _ _ _ _ out _ =>
      obtain rfl := Option.some.inj (active'.symm.trans active)
      obtain ⟨action, mem, ends⟩ := ending_ends out
      exact absurd ends (kept action (List.mem_append_left _ mem))
  | halted clear ws _ _ _ _ =>
      refine absurd (cancellation_ends x.job) (kept _ ?_)
      simp [active]

/-- No active job was started after `clock`. -/
def StartedBy (clock : Nat) (core : BrokerCore) : Prop :=
  ∀ x, core.active = some x → x.startedAt ≤ clock

theorem startedBy_idle {clock : Nat} {core : BrokerCore} (idle : core.active = none) :
    StartedBy clock core := by
  intro x active
  rw [idle] at active
  cases active

theorem begins_started {mid core : BrokerCore} {reading clock : Nat} {actions : List PhysicalAction}
    (begins : Begins mid reading core actions) (idle : mid.active = none) (h : reading ≤ clock) :
    StartedBy clock core := by
  intro x active
  rw [(begins.active idle active).1]
  exact h

theorem effect_started {core core' : BrokerCore} {op : BrokerOp} {answer : Answer} {clock : Nat}
    (effect : Effect core op answer core') (reading : op.clock ≤ clock)
    (started : StartedBy clock core) : StartedBy clock core' := by
  cases effect with
  | quiet ws same _ =>
      intro y active
      obtain ⟨x, before, _, kept⟩ := same.symm.busy active
      rw [← kept]
      exact started x before
  | @grewActive a _ _ _ _ active =>
      intro y hy
      obtain rfl := Option.some.inj hy
      exact started a active
  | grewTail => exact started
  | queued => exact started
  | opened idle _ begins => exact begins_started begins idle reading
  | withdrew p ws same =>
      intro y hy
      exact started y (same.symm.trans hy)
  | ended p _ idle _ _ _ _ begins => exact begins_started begins idle reading
  | halted clear ws _ idle => exact startedBy_idle idle

/-! ## The start over the calls of a step -/

theorem calls_started {clock : Nat} {P : PhysicalAction → Prop} {core core' : BrokerCore}
    (calls : Calls clock P core core') (started : StartedBy clock core) :
    StartedBy clock core' := by
  obtain ⟨calls, run, kept⟩ := calls
  refine run.guarded (G := fun call => call.input.clock ≤ clock)
    (I := fun _ core => StartedBy clock core) started ?_ (fun call h => (kept call h).1)
  intro _ core op answer core' _ started step reading
  exact effect_started (broker_effect step) reading started

theorem calls_tenure {clock jobId : Nat} {core core' : BrokerCore} {x : ActiveJob}
    (calls : Calls clock (fun action => ¬ action.ends jobId) core core')
    (active : core.active = some x) (id : x.job.id = jobId) :
    ∃ y, core'.active = some y ∧ y.job.id = jobId ∧ y.startedAt = x.startedAt := by
  obtain ⟨calls, run, kept⟩ := calls
  refine run.guarded (G := fun call => ∀ action ∈ call.output.actions, ¬ action.ends jobId)
    (I := fun _ core => ∃ y, core.active = some y ∧ y.job.id = jobId ∧ y.startedAt = x.startedAt)
    ⟨x, active, id, rfl⟩ ?_ (fun call h => (kept call h).2)
  rintro _ core op answer core' _ ⟨y, active, rfl, start⟩ step kept
  obtain ⟨z, active', id', start'⟩ := effect_tenure (broker_effect step) active kept
  exact ⟨z, active', id', start'.trans start⟩

/-! ## The tenure of the active job -/

/-- The active job was started no later than the steps show it active. -/
structure Timed (history : List ActorStep) (a : Actor) : Prop where
  sound : Sound a
  started : StartedBy a.clock a.core
  held : ∀ jobId since, tenure history = some (jobId, since) →
    ∃ x, a.core.active = some x ∧ x.job.id = jobId ∧ x.startedAt ≤ since

theorem Timed.step {history : List ActorStep} {a a' : Actor} {input : ActorInput} {o : Observation}
    (timed : Timed history a) (step : actor.step a input = some (a', o)) :
    Timed (history ++ [⟨a, input, o, a'⟩]) a' := by
  obtain ⟨sound, time, calls⟩ := actor_calls timed.sound step
  have started : StartedBy a'.clock a'.core :=
    calls_started calls (fun x hx => Nat.le_trans (timed.started x hx) time)
  refine ⟨sound, started, ?_⟩
  intro jobId since held
  rw [tenure, List.foldl_concat] at held
  obtain ⟨id, active, held⟩ := Option.map_eq_some_iff.mp held
  obtain ⟨y, active', rfl⟩ := Option.map_eq_some_iff.mp active
  -- A job that is counted from this step on was started by the end of it.
  have fresh : (y.job.id, a'.clock) = (jobId, since) →
      ∃ x, a'.core.active = some x ∧ x.job.id = jobId ∧ x.startedAt ≤ since := by
    intro same
    obtain ⟨rfl, rfl⟩ := Prod.mk.inj same
    exact ⟨y, active', rfl, started y active'⟩
  cases before : List.foldl tenureNext none history with
  | none =>
      rw [before] at held
      exact fresh held
  | some holder =>
      rw [before] at held
      simp only [] at held
      split at held
      · rename_i stays
        obtain ⟨same, unended⟩ := stays
        obtain ⟨rfl, rfl⟩ := Prod.mk.inj held
        obtain ⟨x, active, id, start⟩ := timed.held holder.1 holder.2 before
        -- No event told of its end, so no call of the step ended it.
        have kept : Calls a'.clock (fun action => ¬ action.ends y.job.id) a.core a'.core := by
          refine calls.imp ?_
          rintro action told ⟨event, sent, ends⟩
          have seen := told (by rw [active']; rfl) event sent
          exact List.any_eq_false.mp unended event seen ends
        obtain ⟨z, active'', id', start'⟩ := calls_tenure kept active (id.trans same)
        exact ⟨z, active'', id', start' ▸ start⟩
      · exact fresh held

/-! ## Every tick -/

theorem applyActions_first {chunk : List UInt8} (rest : List PhysicalAction)
    {fault : Option WriteFault} (taken : ∀ f ∈ fault, 0 < f.writes) :
    chunk ∈ (applyActions (.write chunk :: rest) fault).written := by
  rcases fault with _ | ⟨_ | writes, bytes, error⟩
  · exact List.mem_cons_self
  · exact absurd (taken _ rfl) (by simp)
  · exact List.mem_cons_self

/-- A tick at which a job has been active for the ceiling stops the keyer. -/
theorem tick_stops {a : Actor} {now later : Nat} {fault : Option WriteFault}
    (due : Elapsed a.core.maxTx now (a.core.active.map (·.startedAt)))
    (taken : ∀ f ∈ fault, 0 < f.writes) :
    stopCommand ∈ (a.tickTurn now later fault).2.written := by
  have fires : a.core.active.any (fun x => now - x.startedAt ≥ a.core.maxTx) = true := by
    simpa [Elapsed, Option.any_map] using due
  have stop : ∃ rest, (a.core.watchdog now).2 = .write stopCommand :: rest := by
    unfold BrokerCore.watchdog
    rw [if_pos fires]
    exact ⟨_, rfl⟩
  have first : ∃ more, (a.tickActions now later).2 = (a.core.watchdog now).2 ++ more := by
    unfold Actor.tickActions
    simp only []
    split
    · exact ⟨_, List.append_assoc _ _ _⟩
    · exact ⟨_, rfl⟩
  obtain ⟨rest, stop⟩ := stop
  obtain ⟨more, actions⟩ := first
  rw [stop, List.cons_append] at actions
  show stopCommand ∈ (applyActions (a.tickActions now later).2 fault).written
  rw [actions]
  exact applyActions_first _ taken

section Runs

variable {maxTx : Nat} {ptt : Option PttManager} {reconnect : Bool} {firmware : UInt8} {start : Nat}
  {history : List ActorStep} {a : Actor}

theorem timed_of_execution
    (run : actor.Execution (.spawn maxTx ptt reconnect firmware start) history a) :
    Timed history a := by
  refine run.invariant (I := Timed) ⟨sound_spawn, startedBy_idle rfl, ?_⟩ ?_
  · intro jobId since held
    cases held
  · intro history a input o a' _ timed step
    exact timed.step step

/-- **The ceiling.**  In every run, a tick stops the keyer once the same job has been active, or the
key has been held, for `maxTx`, provided that a key held for `maxTx` is held under a job that has
been active for `maxTx`. -/
theorem ceiling_cuts {earlier later : List ActorStep} {e : ActorStep}
    (run : actor.Execution (.spawn maxTx ptt reconnect firmware start) (earlier ++ e :: later) a)
    (keyed : KeyedUnderJob maxTx earlier e = true) : CutsAtCeiling maxTx earlier e := by
  intro now reading fault tick taken held
  have past := run.before
  have timed := timed_of_execution past
  have ceiling := maxTx_of_execution past
  have step := run.step_of_mem e (by simp)
  -- Either way the active job itself is old enough for the watchdog.
  have due : Elapsed maxTx now (e.before.core.active.map (·.startedAt)) := by
    rcases held with job | key
    · obtain ⟨since, since_eq, long⟩ := (Option.any_eq_true _ _).mp job
      obtain ⟨⟨jobId, t⟩, holder, rfl⟩ := Option.map_eq_some_iff.mp since_eq
      obtain ⟨x, active, _, start⟩ := timed.held jobId t holder
      have long : now - t ≥ maxTx := by simpa using long
      rw [active, Option.map_some]
      show decide (now - x.startedAt ≥ maxTx) = true
      exact decide_eq_true (by omega)
    · simp only [KeyedUnderJob, tick, key] at keyed
      simpa using keyed
  rw [← ceiling] at due
  rw [tick] at step
  simp only [actor] at step
  split at step
  · have turn := (Prod.mk.inj (Option.some.inj step)).2
    rw [← turn]
    exact @tick_stops { e.before with clock := reading } now reading fault due taken
  · cases step

end Runs

/-- A job is active with the key down from instant 1 on and runs into the ceiling. -/
theorem ceiling_cuts_longJob :
    ∃ earlier e a, actor.Execution leased (earlier ++ [e]) a ∧ e.input = .tick 61 61 none ∧
      (keyLine earlier).downSince = some 1 ∧ CutsAtCeiling 60 earlier e := by
  have sending := actor.execution_exec leased
    [.request (.register 1 false) 0 0 none,
      .request (.enqueue 1 (.legacyStream keyDown [69]) none true) 1 1 none,
      .byte 0xc4 2 2 none] (by decide)
  have run := sending.goOn (.tick 61 61 none) (by decide)
  exact ⟨_, _, _, run, rfl, by decide, ceiling_cuts run (by decide)⟩

/-- The idle primary presses the key at instant 1, and nothing stops it at the ceiling. -/
theorem ceiling_missed :
    ∃ earlier e a, actor.Execution leased (earlier ++ [e]) a ∧ ¬ CutsAtCeiling 60 earlier e := by
  have pressed := actor.execution_exec leased
    [.request (.register 1 true) 0 0 none, .request (.activeOwnerCommand 1 keyDown) 1 1 none]
    (by decide)
  have run := pressed.goOn (.tick 61 61 none) (by decide)
  refine ⟨_, _, _, run, fun cuts => ?_⟩
  exact absurd (cuts 61 61 none rfl (by simp) (Or.inr (by decide))) (by decide)

end CatHub.WinKeyer
