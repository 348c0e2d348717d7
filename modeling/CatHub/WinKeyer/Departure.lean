/-
# CatHub.WinKeyer.Departure — what the keyer is told when a client is unregistered.

A client can hold the key in two ways: through its active job, and with a Key Immediate command,
which an idle primary may send without a job.  `unregisterClient` looks at the first only, and even
there it writes Clear Buffer but no key-up.  `departure_unkeys_iff` says for every unregistration in
an ordinary run exactly when Clear Buffer and key-up are among the bytes written: when the key was
not held, or when the next job's own commands happen to contain the key-up.

The device reads one byte stream, so the written chunks are put together and read with `items`.
-/
import CatHub.WinKeyer.Course

namespace CatHub.WinKeyer

open Systems Ptt

/-! ## Key commands -/

def clearBuffer : List UInt8 := [0x0a]

/-- Key Immediate off. -/
def keyUp : List UInt8 := [0x0b, 0x00]

/-- Key Immediate on. -/
def keyDown : List UInt8 := [0x0b, 0x01]

theorem items_clearBuffer (bytes : List UInt8) :
    items (clearBuffer ++ bytes) = .command clearBuffer :: items bytes := rfl

/-! ## The profile of the active client -/

namespace BrokerCore

/-- While a job is active, the profile that counts as applied is that of its client, or none. -/
def ProfileFollows (core : BrokerCore) : Prop :=
  ∀ a, core.active = some a →
    core.appliedProfileClientId = none ∨ core.appliedProfileClientId = some a.job.clientId

theorem profileFollows_idle {core : BrokerCore} (idle : core.active = none) :
    core.ProfileFollows := by
  intro a active
  rw [idle] at active
  cases active

theorem startNextOrRestore_follows (core : BrokerCore) (clock : Nat) (idle : core.active = none) :
    (core.startNextOrRestore clock).1.ProfileFollows := by
  unfold startNextOrRestore
  split
  · rename_i job rest queue
    intro a active
    obtain rfl := Option.some.inj active
    right
    show BrokerCore.appliedProfileClientId (if _ then _ else _) = some job.clientId
    split
    · rfl
    · rename_i same
      exact not_not.mp same
  · exact profileFollows_idle idle

/-- The active job's client stays, and so does what counts as applied, or nothing does. -/
theorem ProfileFollows.keep {core core' : BrokerCore} (follows : core.ProfileFollows)
    (client : core'.activeClientId = core.activeClientId)
    (applied : core'.appliedProfileClientId = core.appliedProfileClientId ∨
      core'.appliedProfileClientId = none) : core'.ProfileFollows := by
  intro a active
  rcases applied with same | none'
  · have job : core.activeClientId = some a.job.clientId := by
      rw [← client, activeClientId, active]
      rfl
    obtain ⟨b, hb, owner⟩ := Option.map_eq_some_iff.mp job
    rw [same, ← owner]
    exact follows b hb
  · exact Or.inl none'

/-- The settings of one core are those of another, but that less may count as applied. -/
theorem ProfileFollows.same {core mid core' : BrokerCore} (follows : core.ProfileFollows)
    (same : SameSettings mid core') (client : mid.activeClientId = core.activeClientId)
    (applied : mid.appliedProfileClientId = core.appliedProfileClientId ∨
      mid.appliedProfileClientId = none) : core'.ProfileFollows :=
  follows.keep (same.active.trans client) (by rw [same.applied]; exact applied)

theorem unmarked_eq (core : BrokerCore) (clientId : ClientId) :
    core.unmarked clientId = core.appliedProfileClientId ∨ core.unmarked clientId = none :=
  (ite_eq_or_eq _ _ _).symm

end BrokerCore

open BrokerCore

theorem Course.follows {core core' : BrokerCore} {op : BrokerOp} {actions : List PhysicalAction}
    (course : Course core op actions core') (follows : core.ProfileFollows) :
    core'.ProfileFollows := by
  cases course with
  | quiet same | grew _ same | swept _ _ same => exact follows.same same rfl (Or.inl rfl)
  | commanded => exact follows
  | registered _ same | paced _ same => exact follows.same same rfl (Or.inl rfl)
  | unregistered _ same | stored _ _ _ same => exact follows.same same rfl (unmarked_eq core _)
  | configured _ _ idle _ same =>
      -- The marker moves to the idle primary.
      exact profileFollows_idle (activeClientId_none.mp
        (same.active.trans (activeClientId_none.mpr idle)))
  | passed boundary => exact startNextOrRestore_follows _ _ boundary.idle

theorem profile_step {core core' : BrokerCore} {op : BrokerOp} {answer : Answer}
    (follows : core.ProfileFollows) (step : broker.step core op = some (core', answer)) :
    core'.ProfileFollows := by
  simp only [broker, Option.ite_none_left_eq_some, Option.some.injEq] at step
  obtain ⟨enabled, step⟩ := step
  have after : core' = (op.apply core).1 := (congrArg Prod.fst step).symm
  subst after
  cases within : op.within with
  | true => exact (apply_course core within).follows follows
  | false =>
      cases op with
      | connectPhysical => exact follows.keep rfl (Or.inr rfl)
      | physicalError => exact profileFollows_idle rfl
      | restoreForeground =>
          -- The foreground's profile is applied only while nothing is active.
          have idle : core.active = none := by simpa using enabled
          exact profileFollows_idle idle
      | _ => cases within

theorem profile_of_execution {maxTx : Nat} {history : BrokerHistory} {core : BrokerCore}
    (run : broker.Execution (.new maxTx) history core) : core.ProfileFollows := by
  refine run.invariant (I := fun _ core => core.ProfileFollows) (profileFollows_idle rfl) ?_
  intro history core op answer core' _ follows step
  exact profile_step follows step

/-! ## The property and the condition -/

/-- The step passes a Key Immediate command of client `c` on to the keyer. -/
def keyCommandBy (c : ClientId) (e : ActorStep) : Option (List UInt8) :=
  match e.input, e.output.reply with
  | .request (.activeOwnerCommand clientId command) _ _ _, some .done =>
      if clientId = c ∧ command.head? = some 0x0b then some command else none
  | _, _ => none

/-- The latest Key Immediate command that client `c` sent was a key-down. -/
def keyedBy (c : ClientId) (history : List ActorStep) : Bool :=
  (history.filterMap (keyCommandBy c)).getLast? == some keyDown

/-- The keyer is told to clear its buffer and to release the key. -/
def ForcesUp (o : Observation) : Prop :=
  .command clearBuffer ∈ items o.written.flatten ∧ .command keyUp ∈ items o.written.flatten

instance (o : Observation) : Decidable (ForcesUp o) := inferInstanceAs (Decidable (_ ∧ _))

/-- The unregistration of `c` by the step `e`, after the steps `earlier`, leaves no key held. -/
def LeavesUnkeyed (c : ClientId) (earlier : List ActorStep) (e : ActorStep) : Prop :=
  e.before.core.activeClientId = some c ∨ keyedBy c earlier = true → ForcesUp e.output

/-- What the keyer is sent once `c` is gone: the stored commands, the speed and the payload for the
first job of another client; with none queued, the stored commands and the speed of the primary. -/
def successorChunks (core : BrokerCore) (c : ClientId) : List (List UInt8) :=
  match jobsNotOf core.queue c with
  | job :: _ =>
      ((core.clients.erase c)[job.clientId]?.elim [] (fun client => storedCommands client.profile)) ++
        speedChunk job ++ [job.payload.wireBytes, [0x15]]
  | [] =>
      match (core.clients.erase c).toList.find? (fun e => e.2.primary) with
      | some e => storedCommands e.2.profile ++ [e.2.desiredSpeed.command]
      | none => [SpeedMode.pot.command]

/-- The client `c` does not hold the key, or its successor's commands release it. -/
def Unkeyed (c : ClientId) (earlier : List ActorStep) (core : BrokerCore) : Prop :=
  if core.activeClientId = some c then .command keyUp ∈ items (successorChunks core c).flatten
  else keyedBy c earlier = false

instance (c : ClientId) (earlier : List ActorStep) (core : BrokerCore) :
    Decidable (Unkeyed c earlier core) :=
  inferInstanceAs (Decidable (if core.activeClientId = some c then
    .command keyUp ∈ items (successorChunks core c).flatten else keyedBy c earlier = false))

/-- A session without maintenance. -/
def Ordinary (a : Actor) : Bool := a.loop == .session && !a.inMaintenance

/-! ## The bytes of an unregistration -/

/-- The next work, started while no profile counts as applied. -/
theorem startNextOrRestore_writes (core : BrokerCore) (clock : Nat)
    (fresh : core.appliedProfileClientId = none) :
    writes (core.startNextOrRestore clock).2 =
      match core.queue with
      | job :: _ =>
          (core.clients[job.clientId]?.elim [] (fun client => storedCommands client.profile)) ++
            speedChunk job ++ [job.payload.wireBytes, [0x15]]
      | [] =>
          match core.foreground with
          | some e => storedCommands e.2.profile ++ [e.2.desiredSpeed.command]
          | none => [SpeedMode.pot.command] := by
  rw [writes_startNextOrRestore]
  cases core.queue with
  | cons job rest =>
      have unmarked : core.appliedProfileClientId ≠ some job.clientId := by simp [fresh]
      simp only [writes_profileReplay, if_pos unmarked]
  | nil =>
      unfold foregroundReplay foregroundSpeed
      cases core.foreground with
      | none => rfl
      | some e =>
          have unmarked : some e.1 ≠ core.appliedProfileClientId := by simp [fresh]
          simp only [if_pos unmarked]
          rfl

theorem unregister_writes {core : BrokerCore} {c : ClientId} (clock : Nat)
    (follows : core.ProfileFollows) (active : core.activeClientId = some c) :
    writes (core.unregisterClient c clock).2 = clearBuffer :: successorChunks core c := by
  obtain ⟨a, current, owner⟩ := Option.map_eq_some_iff.mp active
  have applied : (if core.appliedProfileClientId = some c then none
      else core.appliedProfileClientId) = none := by
    rcases follows a current with none' | own
    · simp [none']
    · simp [own, owner]
  simp only [BrokerCore.unregisterClient, current, owner, if_true, writes_append,
    writes_cancellations, List.nil_append]
  rw [startNextOrRestore_writes _ _ applied]
  rfl

theorem unregister_silent {core : BrokerCore} {c : ClientId} (clock : Nat)
    (other : core.activeClientId ≠ some c) :
    writes (core.unregisterClient c clock).2 = [] := by
  cases current : core.active with
  | none => simp only [BrokerCore.unregisterClient, current, writes_cancellations]
  | some a =>
      have owner : a.job.clientId ≠ c := by
        intro own
        exact other (by rw [BrokerCore.activeClientId, current, Option.map_some, own])
      simp only [BrokerCore.unregisterClient, current, owner, if_false, writes_cancellations]

/-- An unregistration that stays in its session writes what the core returns. -/
theorem requestTurn_unregister {a : Actor} {c : ClientId} {now clock : Nat}
    {fault : Option WriteFault} (free : a.inMaintenance = false)
    (stays : (a.requestTurn (.unregister c) now clock fault).1.loop = .session) :
    (a.requestTurn (.unregister c) now clock fault).2.written =
      writes (a.core.unregisterClient c clock).2 := by
  have other : a.maintenanceOwner ≠ some c := by
    intro owner
    simp [Actor.inMaintenance, owner] at free
  unfold Actor.requestTurn at stays ⊢
  simp only [Actor.handleRequest, if_neg other, Bool.false_eq_true, if_false] at stays ⊢
  unfold Actor.finishTurn at stays
  split at stays
  · rename_i ok
    exact applyActions_written ok
  · cases stays

/-! ## Every run -/

section Runs

variable {maxTx : Nat} {ptt : Option PttManager} {reconnect : Bool} {firmware : UInt8} {start : Nat}
  {history : List ActorStep} {a : Actor}

theorem ordinary_of_execution
    (run : actor.Execution (.spawn maxTx ptt reconnect firmware start) history a)
    (ordinary : ∀ e ∈ history, Ordinary e.after = true) : Ordinary a = true := by
  refine run.guarded (G := fun e => Ordinary e.after = true) (I := fun _ a => Ordinary a = true)
    rfl ?_ ordinary
  intro history a input o a' _ _ _ after
  exact after

/-- **The departing client.**  In every run within one session and without maintenance, the
unregistration of `c` clears the buffer and forces the key up whenever `c` was active or last sent
a key-down, if and only if `c` did not hold the key or its successor's commands release it. -/
theorem departure_unkeys_iff (c : ClientId) {earlier later : List ActorStep} {e : ActorStep}
    {now clock : Nat} {fault : Option WriteFault}
    (run : actor.Execution (.spawn maxTx ptt reconnect firmware start) (earlier ++ e :: later) a)
    (ordinary : ∀ t ∈ earlier ++ e :: later, Ordinary t.after = true)
    (leaves : e.input = .request (.unregister c) now clock fault) :
    LeavesUnkeyed c earlier e ↔ Unkeyed c earlier e.before.core := by
  have past := run.before
  have before : Ordinary e.before = true :=
    ordinary_of_execution past (fun t ht => ordinary t (List.mem_append_left _ ht))
  have after : Ordinary e.after = true := ordinary e (by simp)
  have step := run.step_of_mem e (by simp)
  simp only [Ordinary, Bool.and_eq_true, beq_iff_eq, Bool.not_eq_true'] at before after
  have written : e.output.written = writes (e.before.core.unregisterClient c clock).2 := by
    rw [leaves] at step
    simp only [actor, before.1] at step
    split at step
    · have turn := Option.some.inj step
      have stays := after.1
      rw [← (Prod.mk.inj turn).1] at stays
      rw [← (Prod.mk.inj turn).2]
      exact requestTurn_unregister before.2 stays
    · cases step
  obtain ⟨calls, driven⟩ := core_of_execution past
  have follows := profile_of_execution driven
  unfold LeavesUnkeyed Unkeyed ForcesUp
  rw [written]
  by_cases active : e.before.core.activeClientId = some c
  · rw [if_pos active, unregister_writes clock follows active, List.flatten_cons,
      items_clearBuffer]
    have ne : ClientItem.command keyUp ≠ .command clearBuffer := by decide
    constructor
    · intro up
      exact (List.mem_cons.mp (up (Or.inl active)).2).resolve_left ne
    · intro up _
      exact ⟨List.mem_cons_self, List.mem_cons_of_mem _ up⟩
  · rw [if_neg active, unregister_silent clock active]
    constructor
    · intro up
      refine Bool.eq_false_iff.mpr (fun keyed => ?_)
      exact absurd (up (Or.inr keyed)).1 (by decide)
    · rintro released (holds | keyed)
      · exact absurd holds active
      · rw [released] at keyed
        cases keyed

end Runs

/-- While client 1 sends, client 2 waits with a key-up in front of its text; client 1 is
unregistered. -/
theorem departure_unkeys_iff_successor :
    ∃ earlier e a, actor.Execution leased (earlier ++ [e]) a ∧
      e.input = .request (.unregister 1) 3 3 none ∧ e.before.core.activeClientId = some 1 ∧
      LeavesUnkeyed 1 earlier e := by
  have sending := actor.execution_exec leased
    [.request (.register 1 false) 0 0 none, .request (.register 2 false) 0 0 none,
      .request (.enqueue 1 ⟨[69], [69]⟩ none false) 1 1 none,
      .request (.enqueue 2 (.legacyStream [0x0b, 0x00] [84]) none true) 2 2 none] (by decide)
  have run := sending.goOn (.request (.unregister 1) 3 3 none) (by decide)
  refine ⟨_, _, _, run, rfl, by decide, (departure_unkeys_iff 1 run ?_ rfl).mpr (by decide)⟩
  decide

/-- The idle primary presses the key and is unregistered: nothing is written. -/
theorem departure_keyed :
    ∃ earlier e a, actor.Execution leased (earlier ++ [e]) a ∧
      (∀ t ∈ earlier ++ [e], Ordinary t.after = true) ∧
      e.input = .request (.unregister 1) 2 2 none ∧ ¬ LeavesUnkeyed 1 earlier e := by
  have pressed := actor.execution_exec leased
    [.request (.register 1 true) 0 0 none,
      .request (.activeOwnerCommand 1 keyDown) 1 1 none] (by decide)
  have run := pressed.goOn (.request (.unregister 1) 2 2 none) (by decide)
  refine ⟨_, _, _, run, by decide, rfl, fun unkeyed => ?_⟩
  exact absurd (unkeyed (Or.inr (by decide))) (by decide)

end CatHub.WinKeyer
