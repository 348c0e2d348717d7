/-
# CatHub.WinKeyer.Maintenance — exclusive maintenance: no transmission, and whose bytes are written.

A client that sends a maintenance command owns the keyer until it releases it; afterwards the reopen
stays pending until the keyer has answered Host Open.  `maintenance_excludes_work` says that during
all of this the core has no job.

`Exclusive` asks more: while a client owns the keyer, nobody else's input writes anything.  Three
inputs break this.  An idle primary may still clear the buffer, a tick still polls a keyer whose last
status was busy, and a device byte that finds both an owner and a pending reopen restores the
foreground in the middle of the owner's commands.  `exclusive_iff` says that these are all.
-/
import CatHub.WinKeyer.Departure
import CatHub.WinKeyer.Turns

namespace CatHub.WinKeyer

open Systems Ptt BrokerCore

/-! ## Maintenance and transmission -/

section Runs

variable {maxTx : Nat} {ptt : Option PttManager} {reconnect : Bool} {firmware : UInt8} {start : Nat}
  {history : List ActorStep} {a : Actor}

/-- **Maintenance and transmission exclude each other.**  In every reachable state, while a client
owns the keyer for maintenance or a reopen is pending, no job is active and none is queued. -/
theorem maintenance_excludes_work
    (run : actor.Execution (.spawn maxTx ptt reconnect firmware start) history a)
    (inside : a.maintenanceOwner.isSome = true ∨ a.maintenanceReopenPending = true) :
    a.core.active = none ∧ a.core.queue = [] := by
  have vacant := (sound_of_execution run).maintenance (Bool.or_eq_true_iff.mpr inside)
  exact ⟨vacant.active, vacant.queue⟩

end Runs

/-- A client takes the keyer for maintenance after a reconnect. -/
theorem maintenance_excludes_work_reconnected :
    ∃ history a, actor.Execution leased history a ∧ a.maintenanceOwner = some 1 ∧
      a.core.active = none ∧ a.core.queue = [] := by
  have run := actor.execution_exec leased
    [.request (.register 1 false) 0 0 none, .readError "gone", .reopen 1 (.opened 31 none),
      .request (.maintenanceCommand 1 [0x00, 0x0c]) 2 2 none] (by decide)
  exact ⟨_, _, run, by decide, maintenance_excludes_work run (by decide)⟩

/-! ## The property and the condition -/

/-- The client a request comes from. -/
def Request.clientId? : Request → Option ClientId
  | .register clientId _ => some clientId
  | .unregister clientId => some clientId
  | .setSpeed clientId _ => some clientId
  | .enqueue clientId _ _ _ => some clientId
  | .cancel clientId _ => some clientId
  | .cancelJob clientId _ => some clientId
  | .emergencyStop _ => none
  | .configure clientId _ => some clientId
  | .activeOwnerCommand clientId _ => some clientId
  | .maintenanceCommand clientId _ => some clientId
  | .releaseMaintenance clientId => some clientId
  | .shutdown => none

/-- The input is a request of `c`, an emergency stop, or the end of the actor. -/
def mayWrite (c : ClientId) : ActorInput → Bool
  | .request (.emergencyStop _) _ _ _ => true
  | .request .shutdown _ _ _ => true
  | .request request _ _ _ => request.clientId? == some c
  | .requestsClosed => true
  | _ => false

/-- While a client owns the keyer, only what it asks for, or what stops everything, is written. -/
def Exclusive (e : ActorStep) : Prop :=
  ∀ c, e.before.maintenanceOwner = some c ∨ e.after.maintenanceOwner = some c →
    e.output.written ≠ [] → mayWrite c e.input = true

/-- The step writes into somebody's maintenance: another client, registered as primary, clears the
buffer; the firmware byte of an earlier release comes in; or a busy status is polled. -/
def Intrudes (e : ActorStep) : Bool :=
  e.before.maintenanceOwner.any fun owner =>
    match e.input with
    | .request (.cancel clientId includeActive) _ _ _ =>
        includeActive && clientId != owner && e.before.core.isPrimary clientId
    | .byte byte _ _ _ => e.before.maintenanceReopenPending && byte != 0xff
    | .tick now _ _ =>
        e.before.core.status.busy && decide (now - e.before.lastStatusPoll ≥ statusPollInterval)
    | _ => false

/-! ## What a decision writes during maintenance -/

namespace Actor

theorem inMaintenance_of_owner {a : Actor} {c : ClientId} (owner : a.maintenanceOwner = some c) :
    a.inMaintenance = true := by
  simp [inMaintenance, owner]

/-- Nothing is active, so the tick finds nothing to stop or to complete. -/
theorem tick_vacant {a : Actor} (vacant : a.core.Vacant) (now later : Nat) :
    a.core.afterCalls (a.decisionOps now later .tick) = a.core ∧
      a.core.returned (a.decisionOps now later .tick) = [] := by
  have watched : a.core.watchdog now = (a.core, []) := by
    simp [BrokerCore.watchdog, vacant.active]
  have settled : a.core.confirmIdleAfterSettle now shortJobSettle later = (a.core, []) := by
    simp [BrokerCore.confirmIdleAfterSettle, vacant.active]
  constructor
  · simp [decisionOps, BrokerOp.apply, watched, settled]
  · simp [decisionOps, BrokerOp.apply, watched, settled]

/-- All chunks of a decision. -/
def chunksOf (a : Actor) (now later : Nat) (trigger : Trigger) : List (List UInt8) :=
  a.ownWrites trigger ++ writes (a.core.returned (a.decisionOps now later trigger)) ++
    a.pollWrites now later trigger

theorem Decides.chunks {a mid : Actor} {now later : Nat} {trigger : Trigger} {o : Observation}
    {actions : List PhysicalAction} (d : a.Decides now later trigger mid o actions) :
    writes actions = a.chunksOf now later trigger := by
  rw [d.actions, writes_append, writes_append, writes_map, writes_map]
  rfl

/-- During maintenance another client's request writes nothing, unless it is the primary's
cancellation. -/
theorem chunksOf_request {a : Actor} {c : ClientId} {now later : Nat} {request : Request}
    (fault : Option WriteFault) (vacant : a.core.Vacant) (owner : a.maintenanceOwner = some c)
    (barred : mayWrite c (.request request now later fault) = false)
    (quiet : ∀ clientId, request = .cancel clientId true → a.core.isPrimary clientId = false) :
    a.chunksOf now later (.request request) = [] := by
  have inside := inMaintenance_of_owner owner
  have bars : ∀ d, d ≠ c → a.maintenanceBars d = true := by
    intro d other
    simp [maintenanceBars, owner, Ne.symm other]
  cases request with
  | register => rfl
  | emergencyStop | shutdown => cases barred
  | unregister d =>
      have other : d ≠ c := by simpa [mayWrite, Request.clientId?] using barred
      have idle : a.core.activeClientId ≠ some d := by simp [activeClientId, vacant.active]
      have silent := unregister_silent later idle
      simp [chunksOf, ownWrites, owner, Ne.symm other, decisionOps, BrokerOp.apply, silent, pollWrites]
  | setSpeed d =>
      have other : d ≠ c := by simpa [mayWrite, Request.clientId?] using barred
      simp [chunksOf, ownWrites, decisionOps, bars d other, pollWrites]
      rfl
  | configure d =>
      have other : d ≠ c := by simpa [mayWrite, Request.clientId?] using barred
      simp [chunksOf, ownWrites, decisionOps, bars d other, pollWrites]
      rfl
  | enqueue d payload speed stream =>
      have refused : a.admitsJob d payload stream = false := by simp [admitsJob, inside]
      simp [chunksOf, ownWrites, decisionOps, refused, pollWrites]
      rfl
  | activeOwnerCommand d command =>
      simp [chunksOf, ownWrites, decisionOps, inside, pollWrites]
      rfl
  | maintenanceCommand d command =>
      have other : d ≠ c := by simpa [mayWrite, Request.clientId?] using barred
      have refused : a.admitsMaintenance d = false := by
        simp [admitsMaintenance, owner, Ne.symm other]
      simp [chunksOf, ownWrites, decisionOps, refused, pollWrites]
      rfl
  | releaseMaintenance d =>
      have other : d ≠ c := by simpa [mayWrite, Request.clientId?] using barred
      simp [chunksOf, ownWrites, owner, Ne.symm other, decisionOps, pollWrites]
      rfl
  | cancelJob d jobId =>
      have silent : writes (a.core.cancelJob d jobId later).2.2 = [] := by
        simp [BrokerCore.cancelJob, vacant.active]
      simp [chunksOf, ownWrites, decisionOps, BrokerOp.apply, silent, pollWrites]
  | cancel d includeActive =>
      have silent : writes (a.core.cancelClient d includeActive later).2 = [] := by
        cases includeActive with
        | false => simp [BrokerCore.cancelClient, vacant.active]
        | true => simp [BrokerCore.cancelClient, vacant.active, quiet d rfl]
      simp [chunksOf, ownWrites, decisionOps, BrokerOp.apply, silent, pollWrites]

/-- Only its own maintenance command makes a client the owner. -/
theorem maintenanceAfter_owner {a : Actor} {c : ClientId} {trigger : Trigger}
    (taken : (a.maintenanceAfter trigger).1 = some c) (before : a.maintenanceOwner ≠ some c) :
    ∃ command, trigger = .request (.maintenanceCommand c command) := by
  cases trigger with
  | byte | tick => exact absurd taken before
  | request request =>
      cases request with
      | maintenanceCommand d command =>
          simp only [maintenanceAfter] at taken
          split at taken
          · obtain rfl := Option.some.inj taken
            exact ⟨command, rfl⟩
          · exact absurd taken before
      | unregister | releaseMaintenance =>
          simp only [maintenanceAfter] at taken
          split at taken
          · cases taken
          · exact absurd taken before
      | emergencyStop => cases taken
      | _ => exact absurd taken before

end Actor

/-- Nothing is written exactly when there is nothing to write. -/
theorem applyActions_silent {actions : List PhysicalAction} {fault : Option WriteFault} :
    (applyActions actions fault).written = [] ↔ writes actions = [] := by
  induction actions generalizing fault with
  | nil => exact Iff.rfl
  | cons first rest ih =>
      cases first with
      | write chunk =>
          have some' : writes (.write chunk :: rest) = chunk :: writes rest := rfl
          rw [some']
          rcases fault with _ | ⟨_ | writes, bytes, error⟩
          · exact iff_of_false (List.cons_ne_nil _ _) (List.cons_ne_nil _ _)
          · exact iff_of_false (List.cons_ne_nil _ _) (List.cons_ne_nil _ _)
          · exact iff_of_false (List.cons_ne_nil _ _) (List.cons_ne_nil _ _)
      | completed => exact ih
      | canceled => exact ih

/-- A turn with nothing to write writes nothing. -/
theorem Actor.TurnEffect.silent {a a' : Actor} {now later : Nat} {trigger : Trigger}
    {fault : Option WriteFault} {o : Observation} (turn : a.TurnEffect now later trigger fault o a')
    (stays : trigger ≠ .request .shutdown) (read : ¬ a.Misread trigger) :
    o.written = [] ↔ a.chunksOf now later trigger = [] := by
  cases turn with
  | goesOn decides _ _ _ _ _ written => rw [written, decides.chunks]
  | fails _ decides _ _ written => rw [written, applyActions_silent, decides.chunks]
  | leaves _ shutdown => exact absurd shutdown stays
  | misread _ misread => exact absurd misread read

/-! ## One step -/

section Owned

variable {a a' : Actor} {c : ClientId} {now later : Nat} {fault : Option WriteFault}
  {o : Observation}

/-- The primary's cancellation clears the buffer. -/
theorem cancel_sweeps (vacant : a.core.Vacant) {d : ClientId} (primary : a.core.isPrimary d = true) :
    (a.atTime later).chunksOf now later (.request (.cancel d true)) ≠ [] := by
  have clear : writes (a.core.cancelClient d true later).2 = [[0x0a]] := by
    have idle : a.core.active = none := vacant.active
    simp only [BrokerCore.cancelClient, idle, primary, Bool.and_self, if_true]
    exact congrArg ([0x0a] :: ·) (writes_cancellations _)
  show [] ++ writes ((a.core.cancelClient d true later).2 ++ []) ++ [] ≠ []
  rw [List.append_nil (a.core.cancelClient d true later).2, clear]
  exact List.cons_ne_nil _ _

/-- A request: only the primary's cancellation finds something to write. -/
theorem exclusive_request (vacant : a.core.Vacant) (owner : a.maintenanceOwner = some c)
    {request : Request}
    (turn : (a.atTime later).TurnEffect now later (.request request) fault o a') :
    (o.written ≠ [] → mayWrite c (.request request now later fault) = true) ↔
      Intrudes ⟨a, .request request now later fault, o, a'⟩ = false := by
  cases allowed : mayWrite c (.request request now later fault) with
  | true =>
      refine iff_of_true (fun _ => rfl) ?_
      cases request with
      | cancel d includeActive =>
          have same : d = c := by simpa [mayWrite, Request.clientId?] using allowed
          simp [Intrudes, owner, same]
      | _ => simp [Intrudes, owner]
  | false =>
      have stays : Trigger.request request ≠ .request .shutdown := by
        intro shutdown
        injection shutdown with shutdown
        rw [shutdown] at allowed
        cases allowed
      have silent := turn.silent stays id
      cases sweeps : Intrudes ⟨a, .request request now later fault, o, a'⟩ with
      | true =>
          refine iff_of_false (fun only => ?_) (by decide)
          cases request with
          | cancel d includeActive =>
              have swept : (includeActive = true ∧ d ≠ c) ∧ a.core.isPrimary d = true := by
                simpa [Intrudes, owner] using sweeps
              obtain ⟨⟨rfl, _⟩, primary⟩ := swept
              have chunk : (a.atTime later).chunksOf now later (.request (.cancel d true)) ≠ [] :=
                cancel_sweeps vacant primary
              cases only (fun nothing => chunk (silent.mp nothing))
          | _ => simp [Intrudes, owner] at sweeps
      | false =>
          refine iff_of_true (fun some' => absurd (silent.mpr ?_) some') rfl
          refine Actor.chunksOf_request fault vacant owner allowed ?_
          rintro d rfl
          have other : d ≠ c := by simpa [mayWrite, Request.clientId?] using allowed
          show a.core.isPrimary d = false
          simpa [Intrudes, owner, other] using sweeps

/-- A device byte: it is the owner's, unless it answers an earlier Host Open. -/
theorem exclusive_byte (owner : a.maintenanceOwner = some c) {byte : UInt8}
    (turn : (a.atTime later).TurnEffect now later (.byte byte) fault o a') :
    (o.written ≠ [] → mayWrite c (.byte byte now later fault) = true) ↔
      Intrudes ⟨a, .byte byte now later fault, o, a'⟩ = false := by
  have stays : Trigger.byte byte ≠ .request .shutdown := by simp
  by_cases misread : (a.atTime later).Misread (.byte byte)
  · obtain ⟨pending, rfl⟩ := misread
    refine iff_of_true (fun some' => absurd ?_ some') (by simp [Intrudes, owner])
    cases turn with
    | misread _ _ written => exact written
    | goesOn _ _ _ _ _ _ _ _ _ read | fails _ _ _ _ _ _ _ read =>
        exact absurd ⟨pending, rfl⟩ read
    | leaves _ shutdown => exact absurd shutdown stays
  · have silent := turn.silent stays misread
    have barred : mayWrite c (.byte byte now later fault) = false := rfl
    rw [barred]
    cases pending : a.maintenanceReopenPending with
    | true =>
        have read : byte ≠ 0xff := fun misread' => misread ⟨pending, misread'⟩
        refine iff_of_false (fun only => ?_) (by simp [Intrudes, owner, pending, read])
        have chunk : (a.atTime later).chunksOf now later (.byte byte) ≠ [] := by
          simp [Actor.chunksOf, Actor.ownWrites, Actor.atTime, pending, read]
        cases only (fun nothing => chunk (silent.mp nothing))
    | false =>
        refine iff_of_true (fun some' => absurd (silent.mpr ?_) some')
          (by simp [Intrudes, owner, pending])
        simp [Actor.chunksOf, Actor.ownWrites, Actor.decisionOps, Actor.atTime, pending, owner,
          Actor.pollWrites]
        rfl

/-- A tick: the status poll of a busy keyer is all that it writes. -/
theorem exclusive_tick (vacant : a.core.Vacant) (owner : a.maintenanceOwner = some c)
    (turn : (a.atTime later).TurnEffect now later .tick fault o a') :
    (o.written ≠ [] → mayWrite c (.tick now later fault) = true) ↔
      Intrudes ⟨a, .tick now later fault, o, a'⟩ = false := by
  have silent := turn.silent (by simp) id
  have vacant' : (a.atTime later).core.Vacant := vacant
  have idle : a.core.active = none := vacant.active
  have chunks : (a.atTime later).chunksOf now later .tick =
      if a.core.status.busy && decide (now - a.lastStatusPoll ≥ statusPollInterval) then [[0x15]]
      else [] := by
    obtain ⟨core, returned⟩ := (a.atTime later).tick_vacant vacant' now later
    unfold Actor.chunksOf Actor.pollWrites
    rw [returned, core]
    simp [snapshot, Actor.atTime, idle, Actor.ownWrites, writes]
  have polls : Intrudes ⟨a, .tick now later fault, o, a'⟩ =
      (a.core.status.busy && decide (now - a.lastStatusPoll ≥ statusPollInterval)) := by
    simp [Intrudes, owner]
  rw [chunks] at silent
  rw [polls]
  cases due : a.core.status.busy && decide (now - a.lastStatusPoll ≥ statusPollInterval) with
  | true =>
      rw [due] at silent
      refine iff_of_false (fun only => ?_) (by decide)
      cases only (fun nothing => by cases silent.mp nothing)
  | false =>
      rw [due] at silent
      exact iff_of_true (fun some' => absurd (silent.mpr rfl) some') rfl

/-- A turn of a session with a maintenance owner. -/
theorem exclusive_turn (s : Sound a) (owner : a.maintenanceOwner = some c) {trigger : Trigger}
    (turn : (a.atTime later).TurnEffect now later trigger fault o a') :
    (o.written ≠ [] → mayWrite c (inputOf trigger now later fault) = true) ↔
      Intrudes ⟨a, inputOf trigger now later fault, o, a'⟩ = false := by
  have vacant : a.core.Vacant := s.maintenance (Actor.inMaintenance_of_owner owner)
  cases trigger with
  | request request => exact exclusive_request vacant owner turn
  | byte byte => exact exclusive_byte owner turn
  | tick => exact exclusive_tick vacant owner turn

end Owned

/-- A client that becomes the owner has asked for it. -/
theorem taken_mayWrite {a a' : Actor} {c : ClientId} {input : ActorInput} {o : Observation}
    (step : actor.step a input = some (a', o)) (after : a'.maintenanceOwner = some c)
    (before : a.maintenanceOwner ≠ some c) : mayWrite c input = true := by
  have asked : ∀ (b mid : Actor) (now later : Nat) (trigger : Trigger) (o₀ : Observation)
      (actions : List PhysicalAction) (fault : Option WriteFault),
      b.maintenanceOwner = a.maintenanceOwner → b.Decides now later trigger mid o₀ actions →
      mid.maintenanceOwner = some c → mayWrite c (inputOf trigger now later fault) = true := by
    intro b mid now later trigger o₀ actions fault same decides owner
    have taken : (b.maintenanceAfter trigger).1 = some c := by
      rw [← decides.maintenance]
      exact owner
    obtain ⟨command, rfl⟩ := Actor.maintenanceAfter_owner taken (by rw [same]; exact before)
    simp [mayWrite, inputOf, Request.clientId?]
  cases actor_move step with
  | @turn trigger now later fault _ _ live onward timed turn =>
      cases turn with
      | goesOn decides _ owner =>
          exact asked (a.atTime later) _ _ _ _ _ _ _ rfl decides (owner.symm.trans after)
      | fails | misread => cases after
      | leaves _ shutdown =>
          rw [shutdown]
          rfl
  | @sunk request now later fault _ _ _ _ _ off onward timed decides _ owner =>
      exact asked (a.atTime later) _ _ _ (.request request) _ _ fault rfl decides
        (owner.symm.trans after)
  | left => rfl
  | lost => cases after
  | unopened _ _ _ _ owner | refailed _ _ _ owner | reopened _ _ _ owner | foreign _ _ _ owner =>
      exact absurd (owner.symm.trans after) before

/-- Outside a session nothing is written while somebody owns the keyer. -/
theorem exclusive_step {a a' : Actor} {input : ActorInput} {o : Observation} (s : Sound a)
    (free : Unmaintained a) (step : actor.step a input = some (a', o)) :
    Exclusive ⟨a, input, o, a'⟩ ↔ Intrudes ⟨a, input, o, a'⟩ = false := by
  have reduced : Exclusive ⟨a, input, o, a'⟩ ↔
      ∀ c, a.maintenanceOwner = some c → o.written ≠ [] → mayWrite c input = true := by
    refine ⟨fun exclusive c owner => exclusive c (Or.inl owner), fun only c owner some' => ?_⟩
    by_cases before : a.maintenanceOwner = some c
    · exact only c before some'
    · exact taken_mayWrite step (owner.resolve_left before) before
  rw [reduced]
  cases owner : a.maintenanceOwner with
  | none => exact iff_of_true (fun c none' => by cases none') (by simp [Intrudes, owner])
  | some c =>
      have one : (∀ d, some c = some d → o.written ≠ [] → mayWrite d input = true) ↔
          (o.written ≠ [] → mayWrite c input = true) := by
        refine ⟨fun all => all c rfl, fun only d same => ?_⟩
        obtain rfl := Option.some.inj same
        exact only
      rw [one]
      have unmaintained : a.loop ≠ .reconnecting := by
        intro off
        rw [(free off).1] at owner
        cases owner
      cases actor_move step with
      | turn _ _ _ turn => exact exclusive_turn s owner turn
      | sunk off => exact absurd off unmaintained
      | left => exact iff_of_true (fun _ => rfl) (by simp [Intrudes, owner])
      | lost _ written =>
          exact iff_of_true (fun some' => absurd written some') (by simp [Intrudes, owner])
      | unopened off | refailed off | reopened off => exact absurd off unmaintained
      | foreign _ _ _ _ _ _ _ written =>
          exact iff_of_true (fun some' => absurd written some') (by simp [Intrudes, owner])

/-! ## Every run -/

section Runs

variable {maxTx : Nat} {ptt : Option PttManager} {reconnect : Bool} {firmware : UInt8} {start : Nat}
  {history : List ActorStep} {a : Actor}

/-- **Maintenance is exclusive on the wire.**  In every run, everything that is written while a
client owns the keyer comes from that client's requests or from what stops the keyer for everybody,
if and only if no other primary clears the buffer, no byte finds an owner and a pending reopen, and
no busy status is polled. -/
theorem exclusive_iff
    (run : actor.Execution (.spawn maxTx ptt reconnect firmware start) history a) :
    (∀ e ∈ history, Exclusive e) ↔ ∀ e ∈ history, Intrudes e = false := by
  have each : ∀ e ∈ history, Exclusive e ↔ Intrudes e = false := by
    refine (run.invariant (I := fun history a => (Sound a ∧ Unmaintained a) ∧
      ∀ e ∈ history, Exclusive e ↔ Intrudes e = false) ?_ ?_).2
    · exact ⟨⟨sound_spawn, fun off => by cases off⟩, by simp⟩
    · rintro history a input o a' _ ⟨⟨s, free⟩, past⟩ step
      refine ⟨⟨(actor_calls s step).sound, unmaintained_step s free step⟩, fun e he => ?_⟩
      rcases List.mem_append.mp he with he | he
      · exact past e he
      · rw [List.mem_singleton.mp he]
        exact exclusive_step s free step
  exact ⟨fun exclusive e he => (each e he).mp (exclusive e he),
    fun quiet e he => (each e he).mpr (quiet e he)⟩

end Runs

/-- A client sends a maintenance command, reads the answer and releases the keyer. -/
theorem exclusive_iff_session :
    ∃ history a, actor.Execution leased history a ∧ ∀ e ∈ history, Exclusive e := by
  have run := actor.execution_exec leased
    [.request (.register 1 true) 0 0 none, .request (.register 2 false) 0 0 none,
      .request (.maintenanceCommand 2 [0x00, 0x0c]) 1 1 none, .tick 2 2 none, .byte 0x55 3 3 none,
      .request (.cancel 1 false) 4 4 none, .request (.releaseMaintenance 2) 5 5 none,
      .byte 31 6 6 none] (by decide)
  exact ⟨_, _, run, (exclusive_iff run).mpr (by decide)⟩

/-- The idle primary clears the buffer in the middle of another client's maintenance. -/
theorem not_exclusive :
    ∃ history a, actor.Execution leased history a ∧ ¬ ∀ e ∈ history, Exclusive e := by
  have run := actor.execution_exec leased
    [.request (.register 1 true) 0 0 none, .request (.register 2 false) 0 0 none,
      .request (.maintenanceCommand 2 [0x00, 0x0c]) 1 1 none,
      .request (.cancel 1 true) 2 2 none] (by decide)
  refine ⟨_, _, run, fun exclusive => ?_⟩
  have last := exclusive _ (List.getLast_mem (by decide)) 2 (Or.inl (by decide)) (by decide)
  exact absurd last (by decide)

end CatHub.WinKeyer
