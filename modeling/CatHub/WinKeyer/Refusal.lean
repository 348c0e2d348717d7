/-
# CatHub.WinKeyer.Refusal — what a refused request changes all the same.

A request that is answered with an error should leave no trace: the core, maintenance and the station
lease are as they were, and the device hears nothing.  Two handlers act before they refuse.  Without
a connection `setSpeed` stores the speed and then reports the missing connection, and an enqueue takes
the station lease before the core turns the job down.  In a session the second one is undone, since
the lease of an idle keyer is released behind every request; but that release does not ask whose
request it was, so a refused one ends a lease the station held while the keyer was idle.

`refused_unchanged_iff` is the exact condition.  The table of clients is compared by its lookups, and
the lease by its owner and the time it was taken: without an owner there is none.
-/
import CatHub.WinKeyer.Freshness

namespace CatHub.WinKeyer

open Systems Ptt BrokerCore

/-! ## What a request leaves behind -/

namespace Actor

/-- The lease: who holds it, and since when. -/
def lease (a : Actor) : Option (Nat × Option Nat) :=
  a.ptt.bind (fun m => m.owner.map (fun owner => (owner, m.keyedAt)))

/-- The actor behind a request: in a session the lease of an idle keyer is released. -/
def afterRequest (a : Actor) (h : Handled) : Actor :=
  if a.loop = .session then h.actor.releaseStationTxIfIdle else h.actor

/-- What a request writes to the device: the reconnect loop writes to a sink. -/
def deviceWrites (a : Actor) (h : Handled) : List (List UInt8) :=
  if a.loop = .session then writes (h.actions.getD []) else []

end Actor

/-- Nothing has changed from `a` to `a'`. -/
structure Unchanged (a a' : Actor) : Prop where
  clients : ∀ c : ClientId, a'.core.clients[c]? = a.core.clients[c]?
  core : { a'.core with clients := a.core.clients } = a.core
  owner : a'.maintenanceOwner = a.maintenanceOwner
  pending : a'.maintenanceReopenPending = a.maintenanceReopenPending
  lease : a'.lease = a.lease

/-- The condition on the state and the request.  In a session an idle keyer does not hold the lease.
In the reconnect loop the speed a registered client asks for is the one it has, and an enqueue that
passes the checks of the actor finds no lease to take or the one it would take. -/
def Actor.RefusesCleanly (a : Actor) (now : Nat) (request : Request) : Prop :=
  if a.loop = .session then ¬ (keyerIdle a.core = true ∧ a.stationOwns = true)
  else
    match request with
    | .setSpeed clientId speed =>
        ∀ client, a.core.clients[clientId]? = some client → client.desiredSpeed = speed
    | .enqueue clientId payload _ stream => a.admitsJob clientId payload stream = true →
        ∀ m, a.ptt = some m → m.owner = some stationTxOwner ∧ m.keyedAt = some now
    | _ => True

theorem Unchanged.rfl {a : Actor} : Unchanged a a :=
  ⟨fun _ => Eq.refl _, Eq.refl _, Eq.refl _, Eq.refl _, Eq.refl _⟩

/-! ## The refusals -/

/-- How a handler refuses: it has changed nothing, or stored a speed, or taken the lease. -/
inductive Refusal (a : Actor) (now : Nat) : Request → Handled → Prop
  | aside {request : Request} {h : Handled} : h.actor = a → writes (h.actions.getD []) = [] →
      (∀ clientId speed, request = .setSpeed clientId speed → a.maintenanceBars clientId = true) →
      (∀ clientId payload speed stream, request = .enqueue clientId payload speed stream →
        a.admitsJob clientId payload stream = false) → Refusal a now request h
  | paced {clientId : ClientId} {speed : SpeedMode} {h : Handled} : a.core.connected = false →
      h.actor = { a with core := (a.core.setClientSpeed clientId speed).1 } →
      Refusal a now (.setSpeed clientId speed) h
  | turnedDown {clientId : ClientId} {payload : TransmitPayload} {speed : Option SpeedMode}
      {stream : Bool} {h : Handled} : a.admitsJob clientId payload stream = true →
      h.actor = a.readyFor now → h.actions = some [] →
      Refusal a now (.enqueue clientId payload speed stream) h

section Handlers

variable {a : Actor} {now later : Nat}

theorem refusal_aside {request : Request} {h : Handled} (actor : h.actor = a)
    (silent : writes (h.actions.getD []) = [])
    (pace : ∀ clientId speed, request ≠ .setSpeed clientId speed)
    (job : ∀ clientId payload speed stream, request ≠ .enqueue clientId payload speed stream) :
    Refusal a now request h :=
  .aside actor silent (fun c s same => absurd same (pace c s))
    (fun c p s stream same => absurd same (job c p s stream))

theorem setClientSpeed_connected (core : BrokerCore) (clientId : ClientId) (speed : SpeedMode) :
    (core.setClientSpeed clientId speed).1.connected = core.connected := by
  unfold setClientSpeed
  split <;> rfl

theorem registerClient_refused {core : BrokerCore} {clientId : ClientId} {primary : Bool}
    (refused : (core.registerClient clientId primary).2 = false) :
    (core.registerClient clientId primary).1 = core := by
  unfold registerClient at refused ⊢
  split
  · rfl
  · rename_i free
    rw [if_neg free] at refused
    cases refused

/-- Every refusal is one of the three. -/
theorem handleRequest_refusal {request : Request} {error : BrokerError}
    (refused : (a.handleRequest now later request).reply = some (.refused error)) :
    Refusal a now request (a.handleRequest now later request) := by
  cases request with
  | unregister | releaseMaintenance =>
      simp only [Actor.handleRequest] at refused
      split at refused <;> cases refused
  | cancel | cancelJob | emergencyStop | shutdown => cases refused
  | register clientId primary =>
      simp only [Actor.handleRequest] at refused ⊢
      split at refused
      · cases refused
      · rename_i taken
        refine refusal_aside ?_ rfl (by simp) (by simp)
        rw [registerClient_refused (by simpa using taken)]
  | setSpeed clientId speed =>
      simp only [Actor.handleRequest] at refused ⊢
      split at refused
      · rename_i barred
        rw [if_pos barred]
        refine .aside rfl rfl ?_ (by simp)
        intro c s same
        cases same
        exact barred
      · rename_i free
        rw [if_neg free]
        refine .paced ?_ rfl
        rw [← setClientSpeed_connected a.core clientId speed]
        simp only [] at refused
        split at refused
        · cases refused
        · rename_i offline
          simpa using offline
  | enqueue clientId payload speed stream =>
      have handled : a.handleRequest now later (.enqueue clientId payload speed stream) =
          a.handleEnqueue clientId payload speed stream now later := rfl
      rw [handled] at refused ⊢
      rcases a.handleEnqueue_eq clientId payload speed stream now later with
        ⟨admitted, submitted⟩ | ⟨barred, error, aside⟩
      · rw [submitted] at refused ⊢
        unfold Actor.submitJob at refused ⊢
        cases turned : (a.readyFor now).core.enqueue clientId payload speed stream now later with
        | some taken =>
            rw [turned] at refused
            cases refused
        | none => exact .turnedDown admitted rfl rfl
      · rw [aside]
        refine .aside rfl rfl (by simp) ?_
        intro c p s st same
        cases same
        exact barred
  | configure clientId command =>
      simp only [Actor.handleRequest] at refused ⊢
      split at refused
      · rename_i barred
        rw [if_pos barred]
        exact refusal_aside rfl rfl (by simp) (by simp)
      · rename_i free
        rw [if_neg free]
        cases unknown : a.core.setClientCommand clientId command with
        | some set =>
            rw [unknown] at refused
            cases refused
        | none => exact refusal_aside rfl rfl (by simp) (by simp)
  | activeOwnerCommand clientId command =>
      simp only [Actor.handleRequest] at refused ⊢
      split at refused
      · rename_i barred
        rw [if_pos barred]
        exact refusal_aside rfl rfl (by simp) (by simp)
      · rename_i free
        rw [if_neg free]
        cases unowned : a.core.activeOwnerCommand clientId command with
        | some actions =>
            rw [unowned] at refused
            cases refused
        | none => exact refusal_aside rfl rfl (by simp) (by simp)
  | maintenanceCommand clientId command =>
      simp only [Actor.handleRequest] at refused ⊢
      split at refused
      · rename_i busy
        rw [if_pos busy]
        exact refusal_aside rfl rfl (by simp) (by simp)
      · rename_i free
        rw [if_neg free]
        split at refused
        · rename_i offline
          rw [if_pos offline]
          exact refusal_aside rfl rfl (by simp) (by simp)
        · cases refused

end Handlers

/-! ## What the release and the lease make of it -/

section Leases

variable {a : Actor} {now : Nat}

theorem Unchanged.of_core {b : Actor} (core : b.core = a.core)
    (owner : b.maintenanceOwner = a.maintenanceOwner)
    (pending : b.maintenanceReopenPending = a.maintenanceReopenPending)
    (lease : b.lease = a.lease) : Unchanged a b where
  clients := fun c => by rw [core]
  core := by rw [core]
  owner := owner
  pending := pending
  lease := lease

theorem lease_station (owns : a.stationOwns = true) :
    ∃ since, a.lease = some (stationTxOwner, since) := by
  cases manager : a.ptt with
  | none => simp [Actor.stationOwns, manager] at owns
  | some m =>
      have owner : m.owner = some stationTxOwner := by
        simpa [Actor.stationOwns, manager] using owns
      exact ⟨m.keyedAt, by simp [Actor.lease, manager, owner]⟩

theorem lease_unkeyStation_ne (since : Option Nat) :
    a.unkeyStation.lease ≠ some (stationTxOwner, since) := by
  intro kept
  simp only [Actor.lease, Actor.unkeyStation, Option.bind_map, Option.bind_eq_some_iff,
    Function.comp_apply, Option.map_eq_some_iff, Prod.mk.injEq] at kept
  obtain ⟨m, _, owner, held, rfl, _⟩ := kept
  rw [PttManager.unkey_owner] at held
  split at held
  · cases held
  · rename_i other
    exact other held

/-- Somebody else's lease is not released. -/
theorem unkeyStation_other (other : a.stationOwns = false) : a.unkeyStation = a := by
  have kept : a.ptt.map (·.unkey stationTxOwner) = a.ptt := by
    cases manager : a.ptt with
    | none => rfl
    | some m =>
        have apart : ¬ m.owner = some stationTxOwner := by
          simpa [Actor.stationOwns, manager] using other
        exact congrArg some (if_neg apart)
  unfold Actor.unkeyStation
  rw [kept]

/-- Taking the lease and releasing it again is as if it had been free. -/
theorem lease_taken_released (free : a.stationTxBusy = false) (other : a.stationOwns = false) :
    (a.keyStation now).unkeyStation.lease = a.lease := by
  cases manager : a.ptt with
  | none => simp [Actor.lease, Actor.keyStation, Actor.unkeyStation, manager]
  | some m =>
      have grants : m.grants stationTxOwner := by
        simpa [Actor.stationTxBusy, manager] using free
      have unowned : m.owner = none := by
        refine grants.resolve_right ?_
        simpa [Actor.stationOwns, manager] using other
      have before : a.lease = none := by simp [Actor.lease, manager, unowned]
      rw [before]
      simp [Actor.lease, Actor.keyStation, Actor.unkeyStation, manager,
        PttManager.tryKey_granted grants, PttManager.unkey_owner]

/-- Taking the lease changes it, unless it was taken at that very moment. -/
theorem lease_keyStation (free : a.stationTxBusy = false) :
    (a.keyStation now).lease = a.lease ↔
      ∀ m, a.ptt = some m → m.owner = some stationTxOwner ∧ m.keyedAt = some now := by
  cases manager : a.ptt with
  | none => simp [Actor.lease, Actor.keyStation, manager]
  | some m =>
      have grants : m.grants stationTxOwner := by
        simpa [Actor.stationTxBusy, manager] using free
      have taken : (a.keyStation now).lease = some (stationTxOwner, some now) := by
        simp [Actor.lease, Actor.keyStation, manager, PttManager.tryKey_granted grants]
      rw [taken]
      cases owner : m.owner with
      | none => simp [Actor.lease, manager, owner]
      | some o =>
          simp only [Actor.lease, manager, Option.bind_some, owner, Option.map_some,
            Option.some.injEq, Prod.mk.injEq, forall_eq']
          exact and_congr eq_comm eq_comm

theorem Actor.admitsJob_free {clientId : ClientId} {payload : TransmitPayload} {stream : Bool}
    (admitted : a.admitsJob clientId payload stream = true) (idle : a.core.active = none) :
    keyerIdle a.core = true ∧ a.stationTxBusy = false := by
  simp only [Actor.admitsJob, idle, Option.isNone_none, Bool.true_and, Bool.and_eq_true,
    Bool.not_eq_true', Bool.or_eq_false_iff] at admitted
  obtain ⟨⟨_, ⟨busy, breakIn⟩, keyDown⟩, leased⟩ := admitted
  exact ⟨by simp [keyerIdle, idle, busy, breakIn, keyDown], leased⟩

end Leases

/-! ## The two loops -/

section Loops

variable {a : Actor} {now : Nat} {request : Request} {h : Handled}

/-- In a session only the lease is at stake. -/
theorem refusal_session (s : Sound a) (live : a.loop = .session) (refusal : Refusal a now request h) :
    (Unchanged a (a.afterRequest h) ∧ a.deviceWrites h = []) ↔ a.RefusesCleanly now request := by
  have condition : a.RefusesCleanly now request ↔
      ¬ (Actor.keyerIdle a.core = true ∧ a.stationOwns = true) := by
    unfold Actor.RefusesCleanly
    rw [if_pos live]
  have behind : a.afterRequest h = h.actor.releaseStationTxIfIdle := if_pos live
  have device : a.deviceWrites h = writes (h.actions.getD []) := if_pos live
  rw [condition, behind, device]
  -- The core, and all the rest but the lease, is kept; the lease is kept unless it is released.
  have decide : ∀ b : Actor, b.core = a.core → b.maintenanceOwner = a.maintenanceOwner →
      b.maintenanceReopenPending = a.maintenanceReopenPending →
      (Actor.keyerIdle a.core = false → b.lease = a.lease) →
      (a.stationOwns = false → b.unkeyStation.lease = a.lease) →
      (Unchanged a b.releaseStationTxIfIdle ↔
        ¬ (Actor.keyerIdle a.core = true ∧ a.stationOwns = true)) := by
    intro b core owner pending active foreign
    unfold Actor.releaseStationTxIfIdle
    rw [core]
    cases idle : Actor.keyerIdle a.core with
    | false => simpa using Unchanged.of_core core owner pending (active idle)
    | true =>
        cases owns : a.stationOwns with
        | false => simpa using Unchanged.of_core (b := b.unkeyStation) core owner pending (foreign owns)
        | true =>
            refine ⟨fun same => ?_, fun other => absurd ⟨rfl, rfl⟩ other⟩
            obtain ⟨since, held⟩ := lease_station owns
            exact absurd (same.lease.trans held) (lease_unkeyStation_ne since)
  cases refusal with
  | aside actor silent =>
      rw [and_iff_left silent, actor]
      refine decide a rfl rfl rfl (fun _ => rfl) (fun other => ?_)
      rw [unkeyStation_other other]
  | paced offline =>
      rw [s.connected live] at offline
      cases offline
  | turnedDown admitted actor actions =>
      have silent : writes (h.actions.getD []) = [] := by
        rw [actions]
        rfl
      rw [and_iff_left silent, actor]
      cases active : a.core.active with
      | some b =>
          have ready : a.readyFor now = a := by simp [Actor.readyFor, active]
          rw [ready]
          refine decide a rfl rfl rfl (fun _ => rfl) (fun other => ?_)
          rw [unkeyStation_other other]
      | none =>
          have ready : a.readyFor now = a.keyStation now := by simp [Actor.readyFor, active]
          obtain ⟨idle, free⟩ := Actor.admitsJob_free admitted active
          rw [ready]
          refine decide (a.keyStation now) rfl rfl rfl (fun busy => ?_) (lease_taken_released free)
          rw [idle] at busy
          cases busy

/-- A speed that is stored is a change, unless it is the one the client has. -/
theorem paced_unchanged (core : BrokerCore) (clientId : ClientId) (speed : SpeedMode) :
    (∀ c : ClientId, (core.setClientSpeed clientId speed).1.clients[c]? = core.clients[c]?) ↔
      ∀ client, core.clients[clientId]? = some client → client.desiredSpeed = speed := by
  cases known : core.clients[clientId]? with
  | none => simp [setClientSpeed, known]
  | some client =>
      have after : (core.setClientSpeed clientId speed).1 =
          core.withClient clientId { client with desiredSpeed := speed } := by
        simp [setClientSpeed, known, withClient]
      simp only [after, Option.some.injEq, forall_eq']
      refine ⟨fun same => ?_, fun same c => ?_⟩
      · have here := same clientId
        rw [clients_withClient, if_pos rfl, known] at here
        exact (congrArg ClientState.desiredSpeed (Option.some.inj here)).symm
      · rw [clients_withClient]
        split
        · rename_i here
          rw [here, known, ← same]
        · rfl

/-- In the reconnect loop the speed and the lease are. -/
theorem refusal_reconnecting (off : a.loop = .reconnecting) (idle : a.core.active = none)
    (free : a.inMaintenance = false) (refusal : Refusal a now request h) :
    (Unchanged a (a.afterRequest h) ∧ a.deviceWrites h = []) ↔ a.RefusesCleanly now request := by
  have away : ¬ a.loop = .session := by
    rw [off]
    decide
  have behind : a.afterRequest h = h.actor := if_neg away
  have device : a.deviceWrites h = [] := if_neg away
  rw [behind, and_iff_left device]
  unfold Actor.RefusesCleanly
  rw [if_neg away]
  obtain ⟨owner, pending⟩ := Bool.or_eq_false_iff.mp free
  have unbarred : ∀ clientId, a.maintenanceBars clientId = false := by
    intro clientId
    have owner : a.maintenanceOwner = none := by simpa using owner
    simp [Actor.maintenanceBars, owner, pending]
  cases refusal with
  | aside actor silent pace job =>
      rw [actor, iff_true_left Unchanged.rfl]
      cases request with
      | setSpeed clientId speed =>
          have barred := pace clientId speed rfl
          rw [unbarred] at barred
          cases barred
      | enqueue clientId payload speed stream =>
          intro admitted
          rw [job clientId payload speed stream rfl] at admitted
          cases admitted
      | _ => trivial
  | @paced clientId speed _ _ actor =>
      rw [actor]
      refine Iff.trans ⟨fun same => same.clients, fun same => ⟨same, ?_, rfl, rfl, rfl⟩⟩
        (paced_unchanged a.core clientId speed)
      show { (a.core.setClientSpeed clientId speed).1 with clients := a.core.clients } = a.core
      unfold setClientSpeed
      split <;> rfl
  | @turnedDown clientId payload speed stream _ admitted actor =>
      have ready : a.readyFor now = a.keyStation now := by simp [Actor.readyFor, idle]
      have busy := (Actor.admitsJob_free admitted idle).2
      rw [actor, ready]
      refine ⟨fun same _ => (lease_keyStation busy).mp same.lease, fun condition => ?_⟩
      exact .of_core rfl rfl rfl ((lease_keyStation busy).mpr (condition admitted))

end Loops

section Runs

variable {maxTx : Nat} {ptt : Option PttManager} {reconnect : Bool} {firmware : UInt8} {start : Nat}
  {history : List ActorStep} {a : Actor}

/-- **Refusals.**  In every state of every run a refused request leaves everything as it was, and
writes nothing, exactly when it is refused cleanly. -/
theorem refused_unchanged_iff
    (run : actor.Execution (.spawn maxTx ptt reconnect firmware start) history a)
    (running : a.loop ≠ .stopped) {now later : Nat} {request : Request} {error : BrokerError}
    (refused : (a.handleRequest now later request).reply = some (.refused error)) :
    (Unchanged a (a.afterRequest (a.handleRequest now later request)) ∧
      a.deviceWrites (a.handleRequest now later request) = []) ↔ a.RefusesCleanly now request := by
  have sound := sound_of_execution run
  have refusal := handleRequest_refusal refused
  cases loop : a.loop with
  | session => exact refusal_session sound loop refusal
  | reconnecting =>
      obtain ⟨owner, pending⟩ := unmaintained_of_execution run loop
      have free : a.inMaintenance = false := by simp [Actor.inMaintenance, owner, pending]
      exact refusal_reconnecting loop (sound.offline loop).2.active free refusal
  | stopped => exact absurd loop running

end Runs

/-- Without a connection client 1 asks for another speed, and gets an error. -/
def offlineClient : List ActorInput :=
  [.request (.register 1 true) 0 0 none, .readError "unplugged"]

theorem refused_unchanged_offlineClient :
    ∃ history a, actor.Execution leased history a ∧
      ((Unchanged a (a.afterRequest (a.handleRequest 1 1 (.setSpeed 1 (.fixed 30)))) ∧
        a.deviceWrites (a.handleRequest 1 1 (.setSpeed 1 (.fixed 30))) = []) ↔
        a.RefusesCleanly 1 (.setSpeed 1 (.fixed 30))) := by
  have run := actor.execution_exec leased offlineClient (by decide)
  have off : ((actor.exec leased offlineClient).get (by decide)).2.loop ≠ .stopped := by decide
  have refused : (((actor.exec leased offlineClient).get (by decide)).2.handleRequest 1 1
      (.setSpeed 1 (.fixed 30))).reply = some (.refused .notConnected) := by decide
  exact ⟨_, _, run, refused_unchanged_iff run off refused⟩

/-- The refused speed is stored. -/
theorem refused_unchanged_fails :
    ∃ history a, actor.Execution leased history a ∧ a.loop ≠ .stopped ∧
      (a.handleRequest 1 1 (.setSpeed 1 (.fixed 30))).reply = some (.refused .notConnected) ∧
      ¬ Unchanged a (a.afterRequest (a.handleRequest 1 1 (.setSpeed 1 (.fixed 30)))) := by
  have run := actor.execution_exec leased offlineClient (by decide)
  refine ⟨_, _, run, by decide, by decide, fun same => ?_⟩
  have speed := congrArg (Option.map ClientState.desiredSpeed) (same.clients 1)
  exact absurd speed (by decide)

end CatHub.WinKeyer
