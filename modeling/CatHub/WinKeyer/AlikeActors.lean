/-
# CatHub.WinKeyer.AlikeActors — actors with alike cores take the same steps.

Two actors are alike when their cores are, and the rest of them is the same but for the clock and the
published snapshot.  No decision of the actor looks at what may differ, and a write fails in both turns
or in none, since a fault fails every turn it is given to.
-/
import CatHub.WinKeyer.Alike

namespace CatHub.WinKeyer

open Systems Ptt BrokerCore

/-- The actor without its core, its clock and its snapshot. -/
def Actor.shell (a : Actor) : Actor :=
  { a with core := .new 0, published := (BrokerCore.new 0).snapshot, clock := 0 }

structure AlikeActors (c : ClientId) (touched : Nat → Prop) (a b : Actor) : Prop where
  core : AlikeCores c touched a.core b.core
  shell : b.shell = a.shell

variable {c : ClientId} {touched : Nat → Prop}

namespace AlikeActors

variable {a b : Actor}

theorem rfl : AlikeActors c touched a a := ⟨.rfl, Eq.refl _⟩

theorem symm (alike : AlikeActors c touched a b) : AlikeActors c touched b a :=
  ⟨alike.core.symm, alike.shell.symm⟩

/-- What depends on the shell alone is the same. -/
theorem read {α : Type} (alike : AlikeActors c touched a b) (f : Actor → α)
    (shell : ∀ a, f a.shell = f a) : f b = f a := by
  rw [← shell, alike.shell, shell]

theorem loop (alike : AlikeActors c touched a b) : b.loop = a.loop :=
  alike.read Actor.loop (fun _ => Eq.refl _)

theorem inMaintenance (alike : AlikeActors c touched a b) : b.inMaintenance = a.inMaintenance :=
  alike.read Actor.inMaintenance (fun _ => Eq.refl _)

theorem stationTxBusy (alike : AlikeActors c touched a b) : b.stationTxBusy = a.stationTxBusy :=
  alike.read Actor.stationTxBusy (fun _ => Eq.refl _)

theorem keyerIdle (alike : AlikeActors c touched a b) :
    Actor.keyerIdle b.core = Actor.keyerIdle a.core :=
  alike.core.read Actor.keyerIdle (fun _ => Eq.refl _)

theorem atTime (alike : AlikeActors c touched a b) (clock : Nat) :
    AlikeActors c touched (a.atTime clock) (b.atTime clock) := ⟨alike.core, alike.shell⟩

/-- The cores change, the rest stays. -/
theorem withCore (alike : AlikeActors c touched a b) {x y : BrokerCore}
    (core : AlikeCores c touched x y) :
    AlikeActors c touched { a with core := x } { b with core := y } := ⟨core, alike.shell⟩

/-! ## The ends of a turn -/

theorem publishSnapshot (alike : AlikeActors c touched a b) :
    AlikeActors c touched a.publishSnapshot b.publishSnapshot := ⟨alike.core, alike.shell⟩

theorem keyStation (alike : AlikeActors c touched a b) (now : Nat) :
    AlikeActors c touched (a.keyStation now) (b.keyStation now) :=
  ⟨alike.core, congrArg (·.keyStation now) alike.shell⟩

theorem unkeyStation (alike : AlikeActors c touched a b) :
    AlikeActors c touched a.unkeyStation b.unkeyStation :=
  ⟨alike.core, congrArg (·.unkeyStation) alike.shell⟩

theorem releaseStationTxIfIdle (alike : AlikeActors c touched a b) :
    AlikeActors c touched a.releaseStationTxIfIdle b.releaseStationTxIfIdle := by
  unfold Actor.releaseStationTxIfIdle
  rw [alike.keyerIdle]
  split
  · exact alike.unkeyStation
  · exact alike

theorem leave (alike : AlikeActors c touched a b) : AlikeActors c touched a.leave b.leave :=
  ⟨alike.core, congrArg (·.leave) alike.shell⟩

theorem failSession (alike : AlikeActors c touched a b) (message : String) :
    AlikeActors c touched (a.failSession message).1 (b.failSession message).1 := by
  let failed (a : Actor) : Actor := { a with
    maintenanceOwner := none, maintenanceReopenPending := false, loop := .reconnecting }
  refine ⟨apply_alike alike.core (.physicalError message), ?_⟩
  exact congrArg (fun a => (failed a).unkeyStation) alike.shell

theorem stayDisconnected (alike : AlikeActors c touched a b) (message : String) :
    AlikeActors c touched (a.stayDisconnected message).1 (b.stayDisconnected message).1 :=
  (alike.withCore (apply_alike alike.core (.physicalError message))).publishSnapshot

theorem finishTurn (alike : AlikeActors c touched a b) {next next' : Actor}
    (goesOn : AlikeActors c touched next next') (message : String → String) {p q : Performed}
    (failure : q.failure = p.failure) :
    AlikeActors c touched (a.finishTurn next p message).1 (b.finishTurn next' q message).1 := by
  unfold Actor.finishTurn
  rw [failure]
  cases p.failure with
  | none => exact goesOn
  | some error => exact alike.failSession (message error)

end AlikeActors

/-- A fault fails whatever is performed, with its own error. -/
theorem applyActions_error (actions : List PhysicalAction) (fault : Option WriteFault) :
    (applyActions actions fault).failure = fault.map (·.error) := by
  induction actions generalizing fault with
  | nil => rfl
  | cons first rest ih =>
      cases first with
      | write chunk =>
          rcases fault with _ | ⟨_ | writes, bytes, error⟩
          · exact ih none
          · rfl
          · exact ih (some ⟨writes, bytes, error⟩)
      | completed | canceled => exact ih fault

/-! ## Requests -/

/-- The decisions on two requests. -/
structure AlikeHandled (c : ClientId) (touched : Nat → Prop) (h k : Handled) : Prop where
  actor : AlikeActors c touched h.actor k.actor
  actions : k.actions.isSome = h.actions.isSome
  stop : k.stop = h.stop

namespace AlikeActors

variable {a b : Actor}

/-- The turns of two requests whose decisions are alike. -/
theorem requestTurn {request request' : Request} {now later : Nat}
    (handled : AlikeHandled c touched (a.handleRequest now later request)
      (b.handleRequest now later request')) (fault : Option WriteFault) :
    AlikeActors c touched (a.requestTurn request now later fault).1
      (b.requestTurn request' now later fault).1 := by
  unfold Actor.requestTurn
  revert handled
  generalize a.handleRequest now later request = h
  generalize b.handleRequest now later request' = k
  obtain ⟨mid, reply, actions, stop⟩ := h
  obtain ⟨mid', reply', actions', stop'⟩ := k
  rintro ⟨actor, performed, rfl⟩
  cases actions with
  | none =>
      cases actions' with
      | none => exact actor.releaseStationTxIfIdle.publishSnapshot
      | some chunks' => cases performed
  | some chunks =>
      cases actions' with
      | none => cases performed
      | some chunks' =>
          have failure : (applyActions chunks' fault).failure = (applyActions chunks fault).failure := by
            rw [applyActions_error, applyActions_error]
          simp only []
          split
          · exact actor.publishSnapshot.leave
          · exact actor.finishTurn actor.releaseStationTxIfIdle.publishSnapshot _ failure

theorem sinkTurn {request request' : Request} {now later : Nat}
    (handled : AlikeHandled c touched (a.handleRequest now later request)
      (b.handleRequest now later request')) :
    AlikeActors c touched (a.sinkTurn request now later).1 (b.sinkTurn request' now later).1 := by
  unfold Actor.sinkTurn
  simp only [handled.stop]
  split
  · exact handled.actor.leave
  · exact handled.actor.publishSnapshot

end AlikeActors

/-! ## The decision on a request -/

/-- The decision on a request that is one call of the core. -/
structure Handled.Calls (h : Handled) (a : Actor) (op : BrokerOp) : Prop where
  actor : h.actor = { a with core := (op.apply a.core).1 }
  actions : h.actions.isSome = true
  stop : h.stop = false

theorem Handled.Calls.alike {a b : Actor} {h k : Handled} {op op' : BrokerOp} (calls : h.Calls a op)
    (calls' : k.Calls b op') (alike : AlikeActors c touched a b)
    (core : AlikeCores c touched (op.apply a.core).1 (op'.apply b.core).1) :
    AlikeHandled c touched h k where
  actor := by
    rw [calls.actor, calls'.actor]
    exact alike.withCore core
  actions := by rw [calls.actions, calls'.actions]
  stop := by rw [calls.stop, calls'.stop]

theorem Actor.submitJob_calls (a : Actor) (d : ClientId) (payload : TransmitPayload)
    (speed : Option SpeedMode) (stream : Bool) (now later : Nat) :
    (a.submitJob d payload speed stream now later).Calls a
      (.enqueue d payload speed stream now later) := by
  unfold Actor.submitJob
  cases taken : a.core.enqueue d payload speed stream now later with
  | none => exact ⟨by simp only [BrokerOp.apply, taken], rfl, rfl⟩
  | some entry => exact ⟨by simp only [BrokerOp.apply, taken], rfl, rfl⟩

theorem Actor.maintenanceBars_outside {a : Actor} (outside : a.inMaintenance = false) (d : ClientId) :
    a.maintenanceBars d = false := by
  obtain ⟨owner, pending⟩ := Bool.or_eq_false_iff.mp outside
  have owner : a.maintenanceOwner = none := by simpa using owner
  simp [maintenanceBars, owner, pending]

theorem Actor.unowned_outside {a : Actor} (outside : a.inMaintenance = false) (d : ClientId) :
    a.maintenanceOwner ≠ some d := by
  have owner : a.maintenanceOwner = none := by simpa using (Bool.or_eq_false_iff.mp outside).1
  rw [owner]
  exact nofun

theorem Actor.handleRequest_configure {a : Actor} (outside : a.inMaintenance = false) (now later : Nat)
    (d : ClientId) (command : List UInt8) :
    (a.handleRequest now later (.configure d command)).Calls a (.setClientCommand d command) := by
  simp only [handleRequest, a.maintenanceBars_outside outside d]
  cases set : a.core.setClientCommand d command with
  | none => exact ⟨by simp [BrokerOp.apply, set], rfl, rfl⟩
  | some entry => exact ⟨by simp [BrokerOp.apply, set], rfl, rfl⟩

/-! ## The actor after an input -/

/-- The actor after an input that is enabled. -/
def Actor.after (a : Actor) : ActorInput → Actor
  | .request request now later fault =>
      if a.loop = .session then ((a.atTime later).requestTurn request now later fault).1
      else ((a.atTime later).sinkTurn request now later).1
  | .requestsClosed => a.leave
  | .byte byte now later fault => ((a.atTime later).byteTurn byte now later fault).1
  | .readError error => (a.failSession s!"read failed: {error}").1
  | .tick now later fault => ((a.atTime later).tickTurn now later fault).1
  | .reopen now outcome => ((a.atTime now).reopenTransport now outcome).1
  | .station call => { a with ptt := a.ptt.map (·.apply call), clock := call.time }

/-- Only the calls of other tasks are taken once the actor has left. -/
theorem step_after {a a' : Actor} {input : ActorInput} {o : Observation}
    (step : actor.step a input = some (a', o)) :
    a' = a.after input ∧ ((∀ call, input ≠ .station call) → a.loop ≠ .stopped) := by
  have first : ∀ {r : Actor × Observation}, some r = some (a', o) → a' = r.1 := by
    rintro r same
    cases same
    rfl
  cases input with
  | request request now later fault =>
      simp only [actor] at step
      split at step
      · split at step
        · rename_i live
          exact ⟨(first step).trans (if_pos live).symm, fun _ => by rw [live]; decide⟩
        · rename_i off
          refine ⟨(first step).trans (if_neg ?_).symm, fun _ => by rw [off]; decide⟩
          rw [off]
          decide
        · cases step
      · cases step
  | requestsClosed =>
      simp only [actor] at step
      split at step
      · rename_i live
        exact ⟨first step, fun _ => by rw [live]; decide⟩
      · rename_i off
        exact ⟨first step, fun _ => by rw [off]; decide⟩
      · cases step
  | byte | tick =>
      simp only [actor] at step
      split at step
      · rename_i enabled
        exact ⟨first step, fun _ => by rw [enabled.1]; decide⟩
      · cases step
  | readError =>
      simp only [actor] at step
      split at step
      · rename_i live
        exact ⟨first step, fun _ => by rw [live]; decide⟩
      · cases step
  | reopen =>
      simp only [actor] at step
      split at step
      · rename_i enabled
        exact ⟨first step, fun _ => by rw [enabled.1]; decide⟩
      · cases step
  | station call =>
      simp only [actor] at step
      split at step
      · exact ⟨first step, fun inside => absurd rfl (inside call)⟩
      · cases step

namespace AlikeActors

variable {a b : Actor}

theorem admitsJob (alike : AlikeActors c touched a b) (d : ClientId) (payload : TransmitPayload)
    (stream : Bool) : b.admitsJob d payload stream = a.admitsJob d payload stream := by
  have busy : b.core.snapshot.busy = a.core.snapshot.busy :=
    alike.core.read (·.snapshot.busy) (fun _ => Eq.refl _)
  have breakIn : b.core.snapshot.breakIn = a.core.snapshot.breakIn :=
    alike.core.read (·.snapshot.breakIn) (fun _ => Eq.refl _)
  have keyDown : b.core.snapshot.keyDown = a.core.snapshot.keyDown :=
    alike.core.read (·.snapshot.keyDown) (fun _ => Eq.refl _)
  have client : b.core.activeClientId = a.core.activeClientId :=
    alike.core.read BrokerCore.activeClientId (fun _ => Eq.refl _)
  unfold Actor.admitsJob
  rw [alike.inMaintenance, alike.core.queue, alike.core.active, alike.stationTxBusy, busy, breakIn,
    keyDown, client]

theorem handleEnqueue (alike : AlikeActors c touched a b) (d : ClientId) (payload : TransmitPayload)
    (speed : Option SpeedMode) (stream : Bool) (now later : Nat) :
    AlikeHandled c touched (a.handleEnqueue d payload speed stream now later)
      (b.handleEnqueue d payload speed stream now later) := by
  have admits := alike.admitsJob d payload stream
  rcases a.handleEnqueue_eq d payload speed stream now later with
    ⟨admitted, same⟩ | ⟨refused, error, same⟩
  · rcases b.handleEnqueue_eq d payload speed stream now later with
      ⟨_, same'⟩ | ⟨refused', _, _⟩
    · have ready : AlikeActors c touched (a.readyFor now) (b.readyFor now) := by
        unfold Actor.readyFor
        rw [alike.core.active]
        split
        · exact alike.keyStation now
        · exact alike
      rw [same, same']
      exact ((a.readyFor now).submitJob_calls d payload speed stream now later).alike
        ((b.readyFor now).submitJob_calls d payload speed stream now later) ready
        (apply_alike ready.core _)
    · rw [admits, admitted] at refused'
      cases refused'
  · rcases b.handleEnqueue_eq d payload speed stream now later with
      ⟨admitted', _⟩ | ⟨_, error', same'⟩
    · rw [admits, refused] at admitted'
      cases admitted'
    · rw [same, same']
      exact ⟨alike, Eq.refl _, Eq.refl _⟩

/-- Outside maintenance the decisions on a request are alike. -/
theorem handleRequest (alike : AlikeActors c touched a b) (outside : a.inMaintenance = false)
    (now later : Nat) {request : Request}
    (plain : ∀ d command, request ≠ .maintenanceCommand d command) :
    AlikeHandled c touched (a.handleRequest now later request)
      (b.handleRequest now later request) := by
  have outside' : b.inMaintenance = false := alike.inMaintenance.trans outside
  have unowned : ∀ d, a.maintenanceOwner ≠ some d := fun d => Actor.unowned_outside outside d
  have unowned' : ∀ d, b.maintenanceOwner ≠ some d := fun d => Actor.unowned_outside outside' d
  have called : ∀ op : BrokerOp, AlikeActors c touched { a with core := (op.apply a.core).1 }
      { b with core := (op.apply b.core).1 } :=
    fun op => alike.withCore (apply_alike alike.core op)
  cases request with
  | maintenanceCommand d command => exact absurd (Eq.refl _) (plain d command)
  | register d primary => exact ⟨called (.registerClient d primary), Eq.refl _, Eq.refl _⟩
  | unregister d =>
      simp only [Actor.handleRequest, if_neg (unowned d), if_neg (unowned' d)]
      exact ⟨called (.unregisterClient d later), Eq.refl _, Eq.refl _⟩
  | setSpeed d speed =>
      simp only [Actor.handleRequest, Actor.maintenanceBars_outside outside d,
        Actor.maintenanceBars_outside outside' d]
      exact ⟨called (.setClientSpeed d speed), Eq.refl _, Eq.refl _⟩
  | enqueue d payload speed stream => exact alike.handleEnqueue d payload speed stream now later
  | cancel d includeActive =>
      exact ⟨called (.cancelClient d includeActive later), Eq.refl _, Eq.refl _⟩
  | cancelJob d jobId => exact ⟨called (.cancelJob d jobId later), Eq.refl _, Eq.refl _⟩
  | emergencyStop reason =>
      refine ⟨⟨apply_alike alike.core (.emergencyStop reason), ?_⟩, Eq.refl _, Eq.refl _⟩
      exact congrArg (fun a : Actor =>
        { a with maintenanceOwner := none, maintenanceReopenPending := false }) alike.shell
  | configure d command =>
      exact (Actor.handleRequest_configure outside now later d command).alike
        (Actor.handleRequest_configure outside' now later d command) alike
        (apply_alike alike.core _)
  | activeOwnerCommand d command =>
      simp only [Actor.handleRequest, outside, outside', Bool.false_eq_true, if_false]
      cases a.core.activeOwnerCommand d command with
      | none => cases b.core.activeOwnerCommand d command <;> exact ⟨alike, Eq.refl _, Eq.refl _⟩
      | some actions =>
          cases b.core.activeOwnerCommand d command <;> exact ⟨alike, Eq.refl _, Eq.refl _⟩
  | releaseMaintenance d =>
      simp only [Actor.handleRequest, if_neg (unowned d), if_neg (unowned' d)]
      exact ⟨alike, Eq.refl _, Eq.refl _⟩
  | shutdown =>
      exact ⟨called (.emergencyStop "WinKeyer broker shutdown"), Eq.refl _, Eq.refl _⟩

/-! ## Device bytes, ticks and the reconnect loop -/

theorem claimForPaddle (alike : AlikeActors c touched a b) (status : DeviceStatus) (now : Nat) :
    AlikeActors c touched (a.claimForPaddle status now).1 (b.claimForPaddle status now).1 := by
  unfold Actor.claimForPaddle
  rw [alike.core.active, alike.stationTxBusy]
  split
  · split
    · exact alike.withCore (apply_alike alike.core (.recordSafetyAction conflictMessage))
    · exact alike.keyStation now
  · exact alike

theorem observeByte (alike : AlikeActors c touched a b) (byte : UInt8) (now later : Nat) :
    AlikeActors c touched (a.observeByte byte now later).1 (b.observeByte byte now later).1 := by
  unfold Actor.observeByte
  cases DeviceEvent.fromByte byte with
  | speedPot raw value => exact alike.withCore (apply_alike alike.core (.observePot value))
  | status status =>
      have claimed := alike.claimForPaddle status now
      exact claimed.withCore (apply_alike claimed.core (.observeStatus status later))
  | echo => exact alike

theorem byteTurn (alike : AlikeActors c touched a b) (outside : a.inMaintenance = false)
    (byte : UInt8) (now later : Nat) (fault : Option WriteFault) :
    AlikeActors c touched (a.byteTurn byte now later fault).1
      (b.byteTurn byte now later fault).1 := by
  obtain ⟨owned, pending⟩ := Bool.or_eq_false_iff.mp outside
  obtain ⟨owned', pending'⟩ := Bool.or_eq_false_iff.mp (alike.inMaintenance.trans outside)
  have owner : a.maintenanceOwner = none := by simpa using owned
  have owner' : b.maintenanceOwner = none := by simpa using owned'
  have observed := alike.observeByte byte now later
  unfold Actor.byteTurn
  rw [pending, pending', owner, owner']
  refine observed.finishTurn observed.publishSnapshot.releaseStationTxIfIdle _ ?_
  rw [applyActions_error, applyActions_error]

theorem tickActions (alike : AlikeActors c touched a b) (now later : Nat) :
    AlikeActors c touched (a.tickActions now later).1 (b.tickActions now later).1 := by
  have settled := alike.core.afterCalls [.watchdog now, .confirmIdleAfterSettle now shortJobSettle later]
  have busy := congrArg (fun core : BrokerCore => core.snapshot.busy) settled.bare
  have polls := congrArg Actor.lastStatusPoll alike.shell
  have due := congrArg₂ (fun busy last => busy && decide (now - last ≥ statusPollInterval)) busy polls
  unfold Actor.tickActions
  simp only []
  split
  · rename_i polled
    split
    · exact ⟨settled, congrArg (fun a : Actor => { a with lastStatusPoll := now }) alike.shell⟩
    · rename_i silent
      exact absurd (due.trans polled) silent
  · rename_i silent
    split
    · rename_i polled
      exact absurd (due.symm.trans polled) silent
    · exact alike.withCore settled

theorem tickTurn (alike : AlikeActors c touched a b) (now later : Nat) (fault : Option WriteFault) :
    AlikeActors c touched (a.tickTurn now later fault).1 (b.tickTurn now later fault).1 := by
  have ticked := alike.tickActions now later
  refine ticked.finishTurn ticked.publishSnapshot.releaseStationTxIfIdle _ ?_
  rw [applyActions_error, applyActions_error]

theorem reopenTransport (alike : AlikeActors c touched a b) (now : Nat) (outcome : Reopening) :
    AlikeActors c touched (a.reopenTransport now outcome).1 (b.reopenTransport now outcome).1 := by
  cases outcome with
  | openFailed | initializationFailed => exact alike.stayDisconnected _
  | opened firmware fault =>
      have online := alike.withCore (alike.core.afterCalls (reopening firmware))
      unfold Actor.reopenTransport
      simp only [applyActions_error]
      cases fault with
      | some fault => exact online.stayDisconnected _
      | none =>
          refine ⟨online.core, ?_⟩
          exact congrArg (fun a : Actor => { a with loop := .session, lastStatusPoll := now })
            alike.shell

/-- **The same input leads alike actors to alike ones.** -/
theorem step {a' b' : Actor} {input : ActorInput} {o p : Observation}
    (alike : AlikeActors c touched a b)
    (outside : a.loop ≠ .stopped → a.inMaintenance = false)
    (taken : actor.step a input = some (a', o)) (taken' : actor.step b input = some (b', p))
    (plain : ∀ d command now later fault,
      input ≠ .request (.maintenanceCommand d command) now later fault) :
    AlikeActors c touched a' b' := by
  obtain ⟨rfl, running⟩ := step_after taken
  obtain ⟨rfl, _⟩ := step_after taken'
  cases input with
  | request request now later fault =>
      have free : (a.atTime later).inMaintenance = false := outside (running nofun)
      have plain' : ∀ d command, request ≠ .maintenanceCommand d command := by
        rintro d command rfl
        exact plain d command now later fault (Eq.refl _)
      have handled := (alike.atTime later).handleRequest free now later plain'
      unfold Actor.after
      simp only [alike.loop]
      split
      · exact requestTurn handled fault
      · exact sinkTurn handled
  | requestsClosed => exact alike.leave
  | byte byte now later fault => exact (alike.atTime later).byteTurn (outside (running nofun)) byte now later fault
  | readError error => exact alike.failSession _
  | tick now later fault => exact (alike.atTime later).tickTurn now later fault
  | reopen now outcome => exact (alike.atTime now).reopenTransport now outcome
  | station call =>
      exact ⟨alike.core, congrArg (fun a : Actor =>
        { a with ptt := a.ptt.map (PttManager.apply · call) }) alike.shell⟩

/-- The decisions make the same calls. -/
theorem decisionOps (alike : AlikeActors c touched a b) (outside : a.inMaintenance = false)
    (now later : Nat) (trigger : Trigger) :
    b.decisionOps now later trigger = a.decisionOps now later trigger := by
  have outside' : b.inMaintenance = false := alike.inMaintenance.trans outside
  cases trigger with
  | tick => exact Eq.refl _
  | byte byte =>
      rw [Actor.decisionOps_byte outside, Actor.decisionOps_byte outside', alike.core.active,
        alike.stationTxBusy]
  | request request =>
      cases request with
      | enqueue d payload speed stream =>
          simp only [Actor.decisionOps, alike.admitsJob]
      | setSpeed d speed =>
          simp only [Actor.decisionOps, Actor.maintenanceBars_outside outside d,
            Actor.maintenanceBars_outside outside' d]
      | configure d command =>
          simp only [Actor.decisionOps, Actor.maintenanceBars_outside outside d,
            Actor.maintenanceBars_outside outside' d]
      | activeOwnerCommand d command => simp only [Actor.decisionOps, outside, outside']
      | _ => exact Eq.refl _

theorem opsOf (alike : AlikeActors c touched a b) (outside : a.loop ≠ .stopped → a.inMaintenance = false)
    {a' b' : Actor} {input : ActorInput} {o p : Observation}
    (taken : actor.step a input = some (a', o)) :
    opsOf ⟨b, input, p, b'⟩ = opsOf ⟨a, input, o, a'⟩ := by
  obtain ⟨_, running⟩ := step_after taken
  cases input with
  | request request now later =>
      exact (alike.atTime later).decisionOps (outside (running nofun)) now later (.request request)
  | byte byte now later =>
      exact (alike.atTime later).decisionOps (outside (running nofun)) now later (.byte byte)
  | tick now later => exact Eq.refl _
  | reopen now outcome => cases outcome <;> exact Eq.refl _
  | requestsClosed | readError | station => exact Eq.refl _

end AlikeActors

/-! ## A Configure on one side -/

theorem Actor.release_shell (a : Actor) :
    a.releaseStationTxIfIdle.shell = { a.shell with ptt := a.releaseStationTxIfIdle.ptt } := by
  unfold Actor.releaseStationTxIfIdle
  split <;> rfl

/-- A Configure that neither ends the session nor hands the lease back changes the core only. -/
theorem configure_step {a a' : Actor} {d : ClientId} {command : List UInt8} {now later : Nat}
    {fault : Option WriteFault} {o : Observation}
    (outside : a.loop ≠ .stopped → a.inMaintenance = false)
    (step : actor.step a (.request (.configure d command) now later fault) = some (a', o))
    (loop : a'.loop = a.loop) (ptt : a'.ptt = a.ptt) :
    a'.core = (BrokerOp.apply a.core (.setClientCommand d command)).1 ∧ a'.shell = a.shell := by
  obtain ⟨rfl, running⟩ := step_after step
  have free : (a.atTime later).inMaintenance = false := outside (running nofun)
  obtain ⟨actor, actions, stop⟩ := Actor.handleRequest_configure free now later d command
  revert loop ptt
  unfold Actor.after
  simp only []
  split
  · rename_i live
    unfold Actor.requestTurn
    generalize (a.atTime later).handleRequest now later (.configure d command) = h at *
    obtain ⟨mid, reply, performed, stops⟩ := h
    obtain rfl := actor
    obtain rfl := stop
    cases performed with
    | none => cases actions
    | some chunks =>
        simp only [Bool.false_eq_true, if_false]
        unfold Actor.finishTurn
        cases (applyActions chunks fault).failure with
        | none =>
            intro _ ptt
            let stored : Actor := { a.atTime later with
              core := (BrokerOp.apply a.core (.setClientCommand d command)).1 }
            have kept : stored.releaseStationTxIfIdle.ptt = a.ptt := ptt
            have shell := stored.release_shell
            rw [kept] at shell
            exact ⟨stored.release_kept.1, shell⟩
        | some error =>
            intro loop
            have lost : Loop.reconnecting = a.loop := loop
            rw [live] at lost
            cases lost
  · rename_i off
    unfold Actor.sinkTurn
    generalize (a.atTime later).handleRequest now later (.configure d command) = h at *
    obtain ⟨mid, reply, performed, stops⟩ := h
    obtain rfl := actor
    obtain rfl := stop
    intro _ _
    exact ⟨rfl, rfl⟩

end CatHub.WinKeyer
