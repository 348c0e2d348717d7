/-
# CatHub.WinKeyer.Interlock — the keyer and the CAT sessions on one station lease.

The keyer may send only while the station owns the lease.  An enqueue takes the lease and paddle
activity takes it, but a key-down command of an idle primary goes out without it; and the PTT
watchdog, which times the lease and not the jobs, releases the station's lease while a chain of jobs
is still being sent.  `Cautious` excludes these two steps; `station_interlocked` says that in the
runs without them every keying byte is written, and every job is active, under the station's lease.
`station_unlocked` and `station_released` are runs with one of them each.

`Held` is the invariant of the actor; a `Station` adds the part of the turn still to be done.
-/
import CatHub.WinKeyer.Departure
import CatHub.WinKeyer.Disconnect
import CatHub.WinKeyer.Station

namespace CatHub.WinKeyer

open Systems Ptt

/-! ## The property and the condition -/

/-- The trigger is a key-down command of a client. -/
def Trigger.keysDown : Trigger → Bool
  | .request (.activeOwnerCommand _ command) => command == keyDown
  | _ => false

/-- The turn still has a key-down command to write. -/
def Turn.holdsKey (t : Turn) : Bool := t.trigger.keysDown && !t.actions.isEmpty

/-- The chunk keys the keyer: payload of the active job, or the key-down command of the turn. -/
def Keying (s : Station) (trigger : Trigger) (chunk : List UInt8) : Prop :=
  (∃ active, s.actor.core.active = some active ∧ chunk <:+ active.job.payload.wireBytes) ∨
    (trigger.keysDown = true ∧ chunk = keyDown)

/-- The step writes keying bytes only under the station's lease, and a job that is active after it
is active under the station's lease. -/
structure Interlocked (e : StationStep) : Prop where
  writes : ∀ fault trigger chunk rest finish, e.input = .perform fault →
    e.before.turn = some ⟨trigger, .write chunk :: rest, finish⟩ →
    Keying e.before trigger chunk → e.before.actor.stationOwns = true
  active : e.after.actor.loop ≠ .stopped → e.after.actor.core.active.isSome = true →
    e.after.actor.stationOwns = true

/-- A key-down command of an idle primary is served only under the station's lease, and the watchdog
does not release the station's lease while a job is active or a key-down command is to be
written. -/
def Cautious (e : StationStep) : Bool :=
  match e.input with
  | .begin (.request (.activeOwnerCommand clientId command)) _ _ =>
      command != keyDown || e.before.actor.inMaintenance || e.before.actor.core.active.isSome ||
        !e.before.actor.core.isPrimary clientId || e.before.actor.stationOwns
  | .release =>
      e.before.releasing != some stationTxOwner ||
        (e.before.actor.core.active.isNone && !e.before.turn.any Turn.holdsKey)
  | _ => true

/-! ## The invariant of the actor -/

/-- The actor has a lease manager, and an active job is under the station's lease. -/
structure Held (a : Actor) : Prop where
  sound : Sound a
  managed : a.ptt.isSome = true
  owned : a.loop ≠ .stopped → a.core.active.isSome = true → a.stationOwns = true

namespace Held

variable {a a' mid : Actor}

/-- An actor without work. -/
theorem idle (sound : Sound a) (managed : a.ptt.isSome = true) (idle : a.core.active = none) :
    Held a := by
  refine ⟨sound, managed, fun _ active => ?_⟩
  rw [idle] at active
  cases active

/-- A decision that lets a job become active has taken the lease. -/
theorem decided {now : Nat} {actions : List PhysicalAction} (h : Held a) (live : a.loop = .session)
    (d : a.Decided now actions mid) : Held mid := by
  have keyed : mid.ptt = (a.keyStation now).ptt ∧ a.stationTxBusy = false →
      mid.stationOwns = true := by
    rintro ⟨ptt, granted⟩
    rw [Actor.stationOwns_of_ptt ptt]
    exact Actor.keyStation_owns now granted h.managed
  refine ⟨h.sound.decided live d, ?_, fun _ active => ?_⟩
  · rcases d.lease with same | ⟨ptt, _⟩
    · rw [same]
      exact h.managed
    · rw [ptt]
      simpa [Actor.keyStation] using h.managed
  -- A job that starts has taken the lease; one that goes on holds it already.
  · cases before : a.core.active with
    | none => exact keyed (d.started before active)
    | some b =>
        rcases d.lease with same | taken
        · rw [Actor.stationOwns_of_ptt same]
          exact h.owned (by rw [live]; decide) (by rw [before]; rfl)
        · exact keyed taken

theorem published (h : Held a) : Held a.publishSnapshot :=
  ⟨h.sound.of_same rfl rfl rfl, h.managed, h.owned⟩

/-- The lease is released only without a job. -/
theorem released (h : Held a) : Held a.releaseStationTxIfIdle := by
  unfold Actor.releaseStationTxIfIdle
  split
  · rename_i keyerIdle
    have none' : a.core.active = none := by
      simp only [Actor.keyerIdle, Bool.and_eq_true, Option.isNone_iff_eq_none] at keyerIdle
      exact keyerIdle.1.1.1
    exact .idle (h.sound.of_same rfl rfl rfl) (by simpa [Actor.unkeyStation] using h.managed) none'
  · exact h

theorem failed (h : Held a) (message : String) : Held (a.failSession message).1 := by
  refine .idle ?_ ?_ rfl
  · exact ⟨fun live => (by cases live), fun _ => ⟨rfl, rfl, rfl⟩, fun _ => ⟨rfl, rfl⟩⟩
  · simpa [Actor.failSession, Actor.unkeyStation, Actor.publishSnapshot] using h.managed

theorem left (h : Held a) : Held a.leave := by
  refine ⟨⟨fun live => (by cases live), fun off => (by cases off), h.sound.maintenance⟩, ?_, ?_⟩
  · simpa [Actor.leave, Actor.unkeyStation] using h.managed
  · exact fun running => absurd rfl running

theorem settled (h : Held a) (finish : Finish) : Held (a.settle finish).1 := by
  cases finish with
  | request => exact h.released.published
  | device => exact h.published.released
  | restored => exact h.published
  | shutdown => exact h.published.left

theorem aborted (h : Held a) (error : String) (finish : Finish) :
    Held (a.abort error finish).1 := by
  cases finish with
  | shutdown => exact h.published.left
  | _ => exact h.failed _

theorem sink_managed (request : Request) (now later : Nat) (managed : a.ptt.isSome = true) :
    (a.sinkTurn request now later).1.ptt.isSome = true := by
  have served := Actor.serves_request a now later request
  have kept : (a.handleRequest now later request).actor.ptt.isSome = true := by
    rw [served.ptt]
    split
    · simpa [Actor.keyStation] using managed
    · exact managed
  unfold Actor.sinkTurn
  simp only []
  split
  · simpa [Actor.leave, Actor.unkeyStation] using kept
  · exact kept

theorem reopen_idle (now : Nat) (outcome : Reopening) (vacant : a.core.Vacant) :
    (a.reopenTransport now outcome).1.core.active = none := by
  cases outcome with
  | openFailed | initializationFailed => rfl
  | opened firmware fault =>
      unfold Actor.reopenTransport
      simp only []
      split
      · rfl
      · exact (Actor.vacant_connect vacant firmware).active

/-- A step outside the turns of a session. -/
theorem outside {input : ActorInput} {o : Observation} (h : Held a)
    (out : outsideTurns a input = true) (step : actor.step a input = some (a', o)) : Held a' := by
  have sound := (actor_calls h.sound step).sound
  cases actor_effect h.sound step with
  | turn live inside =>
      cases input with
      | request => simp [outsideTurns, live] at out
      | byte | tick => cases out
      | _ => cases inside
  | @sunk request now later _ _ off =>
      have served := Actor.serves_request { a with clock := later } now later request
      obtain ⟨disconnected, vacant⟩ := h.sound.offline off
      refine .idle sound (sink_managed request now later h.managed) ?_
      rw [Actor.sinkTurn_core]
      exact (served.vacant vacant (Or.inr disconnected)).active
  | left => exact h.left
  | lost error => exact h.failed _
  | @reopened now outcome _ off =>
      refine .idle sound ?_ (reopen_idle now outcome (h.sound.offline off).2)
      rw [Actor.reopenTransport_ptt]
      exact h.managed
  | foreign => cases out

/-- The decision of a turn; the session goes on while the turn does. -/
theorem begun (h : Held a) (live : a.loop = .session) (now : Nat) (trigger : Trigger) :
    Held (a.begin now a.clock trigger).1 ∧ ∀ t, (a.begin now a.clock trigger).2.2 = some t →
      (a.begin now a.clock trigger).1.loop = .session := by
  cases trigger with
  | request request =>
      have d := (Actor.serves_request a now a.clock request).decided rfl
      have mid := h.decided live d
      simp only [Actor.begin]
      split
      · exact ⟨mid.released.published, fun t under => by cases under⟩
      · exact ⟨mid, fun _ _ => d.loop.trans live⟩
  | byte byte =>
      simp only [Actor.begin]
      split
      · rename_i pending
        have vacant := h.sound.maintenance (by simp [Actor.inMaintenance, pending])
        split
        · have opened : Held { a with maintenanceReopenPending := false } :=
            .idle ⟨h.sound.connected, h.sound.offline, fun _ => vacant⟩ h.managed vacant.active
          exact ⟨opened.failed _, fun t under => by cases under⟩
        · have d := Actor.decided_reopen now byte vacant (fun _ h => h)
          exact ⟨h.decided live d, fun _ _ => live⟩
      · split
        · exact ⟨h, fun t under => by cases under⟩
        · have d := @Actor.decided_byte a byte now a.clock rfl
          exact ⟨h.decided live d, fun _ _ => d.loop.trans live⟩
  | tick =>
      have d := @Actor.decided_tick a now a.clock rfl
      exact ⟨h.decided live d, fun _ _ => d.loop.trans live⟩

end Held

/-! ## The invariant of the station -/

/-- The rest of a turn remembers what started it. -/
theorem Actor.begin_trigger {a : Actor} {now later : Nat} {trigger : Trigger} {t : Turn}
    (under : (a.begin now later trigger).2.2 = some t) : t.trigger = trigger := by
  cases trigger with
  | request request =>
      simp only [Actor.begin] at under
      split at under
      · cases under
      · exact (congrArg Turn.trigger (Option.some.inj under)).symm
  | byte byte =>
      simp only [Actor.begin] at under
      split at under
      · split at under
        · cases under
        · exact (congrArg Turn.trigger (Option.some.inj under)).symm
      · split at under
        · cases under
        · exact (congrArg Turn.trigger (Option.some.inj under)).symm
  | tick => exact (congrArg Turn.trigger (Option.some.inj under)).symm

/-- The actor holds the lease for its job, and for a key-down command that is to be written. -/
structure Locked (s : Station) : Prop where
  held : Held s.actor
  live : ∀ t, s.turn = some t → s.actor.loop = .session
  keyed : ∀ t, s.turn = some t → t.holdsKey = true → s.actor.stationOwns = true

namespace Locked

variable {s s' : Station}

/-- Between turns the actor's invariant is all there is. -/
theorem between (held : Held s.actor) (done : s.turn = none) : Locked s :=
  ⟨held, fun t under => (by rw [done] at under; cases under),
    fun t under => (by rw [done] at under; cases under)⟩

theorem interrupted (l : Locked s) (written : List (List UInt8)) (finish : Finish)
    (error : String) : Locked (s.interrupt written finish error).1 :=
  .between (l.held.aborted error finish) rfl

/-- An owner command is passed on for the client of the active job, or for an idle primary. -/
theorem ownerCommand_passed {a : Actor} {clientId : ClientId} {command : List UInt8}
    {now later : Nat} {actions : List PhysicalAction}
    (h : (a.handleRequest now later (.activeOwnerCommand clientId command)).actions = some actions)
    (passed : actions ≠ []) :
    a.inMaintenance = false ∧ (a.core.active.isSome = true ∨ a.core.isPrimary clientId = true) := by
  simp only [Actor.handleRequest] at h
  split at h
  · exact absurd (Option.some.inj h).symm passed
  · rename_i free
    refine ⟨by simpa using free, ?_⟩
    split at h
    · rename_i written allowed
      cases active : a.core.active with
      | some b => exact Or.inl rfl
      | none =>
          right
          by_contra other
          simp [BrokerCore.activeOwnerCommand, active, other] at allowed
    · exact absurd (Option.some.inj h).symm passed

/-- A key-down command that the decision lets through has the lease. -/
theorem keysDown_owns {a : Actor} {now : Nat} {trigger : Trigger} {t : Turn} (h : Held a)
    (live : a.loop = .session)
    (cautious : ∀ clientId, trigger = .request (.activeOwnerCommand clientId keyDown) →
      a.inMaintenance = true ∨ a.core.active.isSome = true ∨ a.core.isPrimary clientId = false ∨
        a.stationOwns = true)
    (under : (a.begin now a.clock trigger).2.2 = some t) (key : t.holdsKey = true) :
    (a.begin now a.clock trigger).1.stationOwns = true := by
  have same := Actor.begin_trigger under
  obtain ⟨down, pending⟩ := Bool.and_eq_true_iff.mp key
  rw [same] at down
  -- Only this request keys the keyer down.
  obtain ⟨clientId, rfl⟩ : ∃ clientId, trigger = .request (.activeOwnerCommand clientId keyDown) := by
    unfold Trigger.keysDown at down
    split at down
    · rename_i clientId command
      exact ⟨clientId, by rw [eq_of_beq down]⟩
    · cases down
  have unchanged : (a.handleRequest now a.clock (.activeOwnerCommand clientId keyDown)).actor = a := by
    simp only [Actor.handleRequest]
    split
    · rfl
    · split <;> rfl
  simp only [Actor.begin] at under ⊢
  split at under
  · cases under
  · rename_i actions performed
    obtain rfl := Option.some.inj under
    have passed : actions ≠ [] := by simpa using pending
    obtain ⟨free, allowed⟩ := ownerCommand_passed performed passed
    simp only [unchanged]
    rcases cautious clientId rfl with inside | active | other | owns
    · rw [free] at inside
      cases inside
    · exact h.owned (by rw [live]; decide) active
    · rcases allowed with active | primary
      · exact h.owned (by rw [live]; decide) active
      · rw [other] at primary
        cases primary
    · exact owns

/-- The decision of a turn. -/
theorem begin {trigger : Trigger} {now later : Nat} {o : Observation} (l : Locked s)
    (step : station.step s (.begin trigger now later) = some (s', o))
    (cautious : Cautious ⟨s, .begin trigger now later, o, s'⟩ = true) : Locked s' := by
  simp only [station] at step
  split at step
  · rename_i guard
    have live : s.actor.loop = .session := guard.2.1
    let a : Actor := { s.actor with clock := later }
    have held : Held a := ⟨l.held.sound.onTime later, l.held.managed, l.held.owned⟩
    have after : s' = { s with actor := (a.begin now later trigger).1,
                               turn := (a.begin now later trigger).2.2 } :=
      (congrArg Prod.fst (Option.some.inj step)).symm
    obtain ⟨begun, going⟩ := held.begun live now trigger
    rw [after]
    refine ⟨begun, going, fun t under key => keysDown_owns held live ?_ under key⟩
    rintro clientId rfl
    simpa [Cautious, Actor.inMaintenance, Actor.stationOwns, a, or_assoc] using cautious
  · cases step

/-- The next action is performed. -/
theorem performed {trigger : Trigger} {action : PhysicalAction} {rest : List PhysicalAction}
    {finish : Finish} (l : Locked s) (under : s.turn = some ⟨trigger, action :: rest, finish⟩) :
    Locked { s with turn := some ⟨trigger, rest, finish⟩ } := by
  refine ⟨l.held, fun _ _ => l.live _ under, fun t same key => ?_⟩
  obtain rfl := Option.some.inj same
  refine l.keyed _ under ?_
  -- The trigger is the same, and an action was there to perform.
  have down : trigger.keysDown = true := (Bool.and_eq_true_iff.mp key).1
  simp [Turn.holdsKey, down]

/-- A call on the lease and the clock do not disturb the keyer while they leave it its lease. -/
theorem leased {clock : Nat} {f : PttManager → PttManager} {releasing : Option Nat} (l : Locked s)
    (owns : ∀ m : PttManager, m.owner = some stationTxOwner → (f m).owner = some stationTxOwner) :
    Locked ⟨{ s.actor with ptt := s.actor.ptt.map f, clock }, s.turn, releasing⟩ := by
  have kept : s.actor.stationOwns = true →
      Actor.stationOwns { s.actor with ptt := s.actor.ptt.map f, clock } = true := by
    unfold Actor.stationOwns
    cases s.actor.ptt with
    | none => exact id
    | some m => simpa using owns m
  refine ⟨⟨l.held.sound.of_same rfl rfl rfl, ?_, fun live active => kept (l.held.owned live active)⟩,
    l.live, fun t under key => kept (l.keyed t under key)⟩
  simpa using l.held.managed

/-- The lease may go where there is neither a job nor a key-down command. -/
theorem unleased {f : PttManager → PttManager} {releasing : Option Nat} (l : Locked s)
    (idle : s.actor.core.active = none) (quiet : s.turn.any Turn.holdsKey = false) :
    Locked ⟨{ s.actor with ptt := s.actor.ptt.map f }, s.turn, releasing⟩ := by
  refine ⟨.idle (l.held.sound.of_same rfl rfl rfl) (by simpa using l.held.managed) idle, l.live, ?_⟩
  intro t under key
  rw [show s.turn = some t from under] at quiet
  exact absurd key (by simpa using quiet)

/-- Releasing somebody else's lease leaves the station's alone. -/
theorem unkey_kept {m : PttManager} {sessionId : Nat} (other : sessionId ≠ stationTxOwner)
    (owner : m.owner = some stationTxOwner) : (m.unkey sessionId).owner = some stationTxOwner := by
  have apart : m.owner ≠ some sessionId := by
    rw [owner]
    exact fun same => other (Option.some.inj same).symm
  rw [PttManager.unkey_owner, if_neg apart]
  exact owner

theorem catCall_owner {call : TimedCall} {m : PttManager} (cat : catCall call = true)
    (owner : m.owner = some stationTxOwner) : (m.apply call).owner = some stationTxOwner := by
  obtain ⟨time, call⟩ := call
  cases call with
  | tryKey sessionId hasPtt =>
      have foreign : sessionId ≠ stationTxOwner := by simpa [catCall] using cat
      have refused : ¬ (hasPtt = true ∧ m.grants sessionId) := by
        rintro ⟨_, free | own⟩
        · rw [owner] at free
          cases free
        · rw [owner] at own
          exact foreign (Option.some.inj own).symm
      show (m.tryKey sessionId hasPtt time).1.owner = some stationTxOwner
      rw [PttManager.tryKey_refused refused]
      exact owner
  | unkey sessionId =>
      have foreign : sessionId ≠ stationTxOwner := by simpa [catCall] using cat
      exact unkey_kept foreign owner

/-- **A cautious step keeps the interlock.** -/
theorem step {input : StationInput} {o : Observation} (l : Locked s)
    (step : station.step s input = some (s', o)) (cautious : Cautious ⟨s, input, o, s'⟩ = true) :
    Locked s' := by
  cases input with
  | begin trigger now later => exact l.begin step cautious
  | perform fault =>
      simp only [station] at step
      split at step
      · rename_i under
        split at step
        · cases step
          exact l.performed under
        · cases step
          exact l.interrupted [] _ _
      · rename_i under
        split at step
        · cases step
          exact l.performed under
        · cases step
      · rename_i under
        split at step
        · cases step
          exact l.performed under
        · cases step
      · cases step
  | finish fault =>
      simp only [station] at step
      split at step
      · split at step
        · cases step
          exact .between (l.held.settled _) rfl
        · cases step
          exact l.interrupted [] _ _
      · cases step
  | between input =>
      simp only [station] at step
      split at step
      · rename_i guard
        split at step
        · rename_i moved
          cases step
          exact .between (l.held.outside guard.2 moved) guard.1
        · cases step
      · cases step
  | cat call =>
      simp only [station] at step
      split at step
      · rename_i guard
        cases step
        exact l.leased (fun m => catCall_owner guard.1)
      · cases step
  | checkCeiling now =>
      simp only [station] at step
      split at step
      · cases step
        have same := @leased s now id (s.actor.ptt.bind (·.expiredOwner now)) l (fun m h => h)
        rwa [Option.map_id] at same
      · cases step
  | release =>
      simp only [station] at step
      split at step
      · rename_i owner found
        cases step
        by_cases own : owner = stationTxOwner
        · have idle : s.actor.core.active = none ∧ s.turn.any Turn.holdsKey = false := by
            simpa [Cautious, found, own] using cautious
          exact l.unleased idle.1 idle.2
        · exact @leased s s.actor.clock (·.unkey owner) none l (fun m => unkey_kept own)
      · cases step

/-- What the invariant says about a step. -/
theorem interlocked {e : StationStep} (before : Locked e.before) (after : Locked e.after) :
    Interlocked e := by
  refine ⟨?_, after.held.owned⟩
  rintro fault trigger chunk rest finish _ under (⟨active, running, _⟩ | ⟨down, _⟩)
  · have live := before.live _ under
    exact before.held.owned (by rw [live]; decide) (by rw [running]; rfl)
  · exact before.keyed _ under (by simp [Turn.holdsKey, down])

end Locked

/-! ## Every run -/

section Runs

variable {maxTx : Nat} {m : PttManager} {reconnect : Bool} {firmware : UInt8} {start : Nat}
  {history : List StationStep} {s : Station}

/-- **The interlock.**  In a run whose steps are all cautious, keying bytes are written only under
the station's lease, and a job is active only under the station's lease. -/
theorem station_interlocked
    (run : station.Execution ⟨.spawn maxTx (some m) reconnect firmware start, none, none⟩ history s)
    (cautious : ∀ e ∈ history, Cautious e = true) : ∀ e ∈ history, Interlocked e := by
  have spawned : Locked ⟨.spawn maxTx (some m) reconnect firmware start, none, none⟩ :=
    .between (.idle sound_spawn rfl rfl) rfl
  refine (run.always (I := Locked) (G := fun e => Cautious e = true) spawned ?_ cautious).2
  intro s input o s' l step careful
  have after := l.step step careful
  exact ⟨after, Locked.interlocked l after⟩

end Runs

/-- A CAT session transmits and stops; then the primary sends a job and presses the key in it. -/
theorem station_interlocked_job :
    ∃ history s, station.Execution ⟨leased, none, none⟩ history s ∧
      s.actor.core.active.isSome = true ∧ s.turn.any Turn.holdsKey = true ∧
      ∀ e ∈ history, Interlocked e := by
  have run := station.execution_exec ⟨leased, none, none⟩
    [.begin (.request (.register 1 true)) 0 0, .finish none,
      .cat ⟨1, .tryKey 7 true⟩, .checkCeiling 2, .cat ⟨3, .unkey 7⟩,
      .begin (.request (.enqueue 1 ⟨[69], [69]⟩ none false)) 4 4,
      .perform none, .perform none, .perform none, .finish none,
      .begin (.request (.activeOwnerCommand 1 keyDown)) 5 5] (by decide)
  exact ⟨_, _, run, by decide, by decide, station_interlocked run (by decide)⟩

/-- While a CAT session transmits, the idle primary presses the key; and the watchdog releases the
station's lease under the second of two jobs. -/
theorem station_unlocked :
    (∃ earlier e s, station.Execution ⟨leased, none, none⟩ (earlier ++ [e]) s ∧
      e.input = .perform none ∧ ¬ Interlocked e) ∧
    (∃ earlier e s, station.Execution ⟨leased, none, none⟩ (earlier ++ [e]) s ∧
      e.input = .release ∧ ¬ Interlocked e) := by
  constructor
  · have pressing := station.execution_exec ⟨leased, none, none⟩
      [.begin (.request (.register 1 true)) 0 0, .finish none, .cat ⟨1, .tryKey 7 true⟩,
        .begin (.request (.activeOwnerCommand 1 keyDown)) 2 2] (by decide)
    have run := pressing.goOn (.perform none) (by decide)
    refine ⟨_, _, _, run, rfl, fun locked => ?_⟩
    exact absurd (locked.writes none _ keyDown [] .request rfl rfl (Or.inr ⟨rfl, rfl⟩)) (by decide)
  · have sending := station.execution_exec ⟨leased, none, none⟩
      [.begin (.request (.register 1 false)) 0 0, .finish none,
        .begin (.request (.enqueue 1 ⟨[69], [69]⟩ none false)) 1 1,
        .perform none, .perform none, .perform none, .finish none,
        .begin (.request (.enqueue 1 ⟨[84], [84]⟩ none false)) 2 2, .finish none,
        .begin (.byte 0xc4) 3 3, .finish none,
        .begin (.byte 0xc0) 50 50, .checkCeiling 61] (by decide)
    have run := sending.goOn .release (by decide)
    refine ⟨_, _, _, run, rfl, fun locked => ?_⟩
    exact absurd (locked.active (by decide) (by decide)) (by decide)

end CatHub.WinKeyer
