/-
# CatHub.WinKeyer.Turns — what every step of the actor shows.

`TurnEffect` lists how a turn of a session can go: its actions are performed and the session goes on,
a write fails, the actor shuts down, or the answer to a Host Open is unusable.  `ActorMove` lists the
steps of both loops, each with the decision behind it, what was written, which JobCompleted and
JobCanceled events were sent, and where the actor is afterwards.

The results about the wire, the jobs and the maintenance take a step apart with `actor_move`.
-/
import CatHub.WinKeyer.Decisions

namespace CatHub.WinKeyer

open Systems Ptt BrokerCore

namespace Actor

/-! ## Turns -/

/-- What a turn of a session does. -/
inductive TurnEffect (a : Actor) (now later : Nat) (trigger : Trigger) (fault : Option WriteFault) :
    Observation → Actor → Prop
  /-- The actions are performed and the session goes on. -/
  | goesOn {mid a' : Actor} {o₀ o : Observation} {actions : List PhysicalAction} :
      a.Decides now later trigger mid o₀ actions → a'.core = mid.core →
      a'.maintenanceOwner = mid.maintenanceOwner →
      a'.maintenanceReopenPending = mid.maintenanceReopenPending → a'.loop = mid.loop →
      a'.clock = mid.clock → o.written = writes actions → outcomes o.events = sentBy actions →
      o.accepted = o₀.accepted → ¬ a.Misread trigger → (fault.isSome → actions = []) →
      TurnEffect a now later trigger fault o a'
  /-- A write fails. -/
  | fails {mid : Actor} {o₀ o : Observation} {actions : List PhysicalAction} (message : String) :
      a.Decides now later trigger mid o₀ actions →
      (applyActions actions fault).failure.isSome → trigger ≠ .request .shutdown →
      o.written = (applyActions actions fault).written →
      outcomes o.events =
        (applyActions actions fault).events ++ sentBy (mid.core.physicalError message).2 →
      o.accepted = o₀.accepted → ¬ a.Misread trigger →
      TurnEffect a now later trigger fault o (mid.failSession message).1
  /-- The actor shuts down, whether a write fails or not. -/
  | leaves {mid a' : Actor} {o₀ o : Observation} {actions : List PhysicalAction} :
      a.Decides now later trigger mid o₀ actions → trigger = .request .shutdown →
      a'.core = mid.core → a'.loop = .stopped →
      o.written = (applyActions actions fault).written ++ [hostClose] →
      outcomes o.events = (applyActions actions fault).events → o.accepted = o₀.accepted →
      TurnEffect a now later trigger fault o a'
  | misread {o : Observation} (message : String) :
      a.Misread trigger → o.written = [] →
      outcomes o.events = sentBy (a.core.physicalError message).2 → o.accepted = none →
      TurnEffect a now later trigger fault o
        ({ a with maintenanceReopenPending := false }.failSession message).1

/-- The bookkeeping at the end of a turn keeps the core, the maintenance, the loop and the clock. -/
theorem settle_kept (a : Actor) {finish : Finish} (stays : finish ≠ .shutdown) :
    (a.settle finish).1.core = a.core ∧ (a.settle finish).1.maintenanceOwner = a.maintenanceOwner ∧
      (a.settle finish).1.maintenanceReopenPending = a.maintenanceReopenPending ∧
      (a.settle finish).1.loop = a.loop ∧ (a.settle finish).1.clock = a.clock ∧
      (a.settle finish).2.written = [] ∧ outcomes (a.settle finish).2.events = [] ∧
      (a.settle finish).2.reply = none := by
  cases finish with
  | shutdown => exact absurd rfl stays
  | restored => exact ⟨rfl, rfl, rfl, rfl, rfl, rfl, rfl, rfl⟩
  | request =>
      obtain ⟨core, owner, pending, loop, clock⟩ := a.release_kept
      exact ⟨core, owner, pending, loop, clock, rfl, rfl, rfl⟩
  | device =>
      obtain ⟨core, owner, pending, loop, clock⟩ := a.publishSnapshot.release_kept
      exact ⟨core, owner, pending, loop, clock, rfl, rfl, rfl⟩

/-- Only a shutdown ends with the end of the actor. -/
theorem begin_finish {a : Actor} {now later : Nat} {trigger : Trigger} {t : Turn}
    (begun : (a.begin now later trigger).2.2 = some t) :
    t.finish = .shutdown ↔ trigger = .request .shutdown := by
  cases trigger with
  | request request =>
      simp only [begin] at begun
      split at begun
      · cases begun
      · cases begun
        cases stop : (a.handleRequest now later request).stop with
        | true => simp [stop_shutdown stop]
        | false =>
            simp only [Bool.false_eq_true, if_false, reduceCtorEq, false_iff]
            intro shutdown
            injection shutdown with shutdown
            subst shutdown
            cases stop
  | byte byte =>
      simp only [begin] at begun
      split at begun
      · split at begun
        · cases begun
        · cases begun
          simp
      · split at begun
        · cases begun
        · cases begun
          simp
  | tick =>
      simp only [begin] at begun
      cases begun
      simp

/-- The end of a turn, once it is decided. -/
theorem close_effect {a mid : Actor} {now later : Nat} {trigger : Trigger} {o₀ : Observation}
    {actions : List PhysicalAction} (fault : Option WriteFault) {finish : Finish}
    (decides : a.Decides now later trigger mid o₀ actions) (read : ¬ a.Misread trigger)
    (ends : finish = .shutdown ↔ trigger = .request .shutdown) :
    TurnEffect a now later trigger fault
      (o₀.append (mid.close finish (applyActions actions fault)).2)
      (mid.close finish (applyActions actions fault)).1 := by
  have quiet : ∀ p : Observation, p.reply = none → (o₀.append p).accepted = o₀.accepted := by
    intro p none'
    unfold Observation.accepted Observation.append
    rw [none', Option.or_none]
  have shown : ∀ p : Observation, outcomes (o₀.append p).events = outcomes p.events := by
    intro p
    show outcomes (o₀.events ++ p.events) = _
    rw [outcomes_append, decides.outcomes, List.nil_append]
  have wrote : ∀ p : Observation, (o₀.append p).written = p.written := by
    intro p
    show o₀.written ++ p.written = _
    rw [decides.written, List.nil_append]
  by_cases leaves : trigger = .request .shutdown
  · rw [ends.mpr leaves, close_shutdown]
    refine .leaves decides leaves rfl rfl (wrote _) ?_ (quiet _ rfl)
    rw [shown]
    exact outcomes_applyActions _ _
  · have stays : finish ≠ .shutdown := fun shutdown => leaves (ends.mp shutdown)
    cases failure : (applyActions actions fault).failure with
    | none =>
        obtain ⟨core, owner, pending, loop, clock, unwritten, untold, noreply⟩ :=
          mid.settle_kept stays
        have closed : mid.close finish (applyActions actions fault) =
            ((mid.settle finish).1,
              ({ written := (applyActions actions fault).written
                 events := (applyActions actions fault).events : Observation }.append
                (mid.settle finish).2)) := by
          simp only [close, failure]
        have unfailed : fault.isSome → actions = [] := by
          intro failed
          rw [← applyActions_failure actions fault, failure] at failed
          cases failed
        rw [closed]
        refine .goesOn decides core owner pending loop clock ?_ ?_ (quiet _ noreply) read unfailed
        · rw [wrote]
          show _ ++ (mid.settle finish).2.written = _
          rw [unwritten, List.append_nil]
          exact applyActions_written failure
        · rw [shown]
          show outcomes (_ ++ (mid.settle finish).2.events) = _
          rw [outcomes_append, untold, List.append_nil, outcomes_applyActions]
          exact applyActions_sent failure
    | some error =>
        have aborted : mid.abort error finish = ((mid.failSession (finish.failure error)).1,
            { events := (mid.failSession (finish.failure error)).2 }) := by
          cases finish with
          | shutdown => exact absurd rfl stays
          | request | device | restored => rfl
        have closed : mid.close finish (applyActions actions fault) =
            ((mid.failSession (finish.failure error)).1,
              ({ written := (applyActions actions fault).written
                 events := (applyActions actions fault).events : Observation }.append
                { events := (mid.failSession (finish.failure error)).2 })) := by
          simp only [close, failure, aborted]
        rw [closed]
        refine .fails _ decides (by rw [failure]; rfl) leaves ?_ ?_ (quiet _ rfl) read
        · rw [wrote]
          exact List.append_nil _
        · rw [shown]
          show outcomes (_ ++ _) = _
          rw [outcomes_append, outcomes_applyActions, outcomes_failSession]

/-- **Every turn has one of the effects.** -/
theorem turn_effect (a : Actor) (now later : Nat) (fault : Option WriteFault) (trigger : Trigger) :
    TurnEffect a now later trigger fault (a.turn now later fault trigger).2
      (a.turn now later fault trigger).1 := by
  by_cases misread : a.Misread trigger
  · cases trigger with
    | request _ => exact misread.elim
    | tick => exact misread.elim
    | byte byte =>
        obtain ⟨pending, rfl⟩ := misread
        let opened : Actor := { a with maintenanceReopenPending := false }
        have turn : a.turn now later fault (.byte 0xff) =
            ((opened.failSession "maintenance Host Open returned 0xFF").1,
              { events := (opened.failSession "maintenance Host Open returned 0xFF").2 }) := by
          simp only [Actor.turn, byteTurn, pending, if_true, reopenTurn, opened]
        rw [turn]
        exact .misread _ ⟨pending, rfl⟩ rfl (outcomes_failSession _ _) rfl
  · have decides := a.decides_begin now later misread
    rw [turn_eq_begin_close]
    cases begun : (a.begin now later trigger).2.2 with
    | none =>
        rw [begun] at decides
        have whole : a.begin now later trigger =
            ((a.begin now later trigger).1, (a.begin now later trigger).2.1, none) := by
          rw [← begun]
        rw [whole]
        exact .goesOn decides rfl rfl rfl rfl rfl decides.written decides.outcomes rfl misread
          (fun _ => rfl)
    | some t =>
        have ends := begin_finish begun
        rw [begun] at decides
        have whole : a.begin now later trigger =
            ((a.begin now later trigger).1, (a.begin now later trigger).2.1, some t) := by
          rw [← begun]
        rw [whole]
        exact close_effect fault decides misread ends

end Actor

/-! ## Steps -/

/-- The input of a turn of a session. -/
def inputOf (trigger : Trigger) (now later : Nat) (fault : Option WriteFault) : ActorInput :=
  match trigger with
  | .request request => .request request now later fault
  | .byte byte => .byte byte now later fault
  | .tick => .tick now later fault

/-- The calls of the core when the transport is open again. -/
def reopening (firmwareRevision : UInt8) : List BrokerOp :=
  [.connectPhysical firmwareRevision, .restoreForeground]

/-- The actor at a later instant. -/
def Actor.atTime (a : Actor) (clock : Nat) : Actor := { a with clock }

/-- What a step of the actor does. -/
inductive ActorMove (a : Actor) : ActorInput → Observation → Actor → Prop
  /-- A turn of a session. -/
  | turn {trigger : Trigger} {now later : Nat} {fault : Option WriteFault} {o : Observation}
      {a' : Actor} : a.loop = .session → a.clock ≤ now → now ≤ later →
      (a.atTime later).TurnEffect now later trigger fault o a' →
      ActorMove a (inputOf trigger now later fault) o a'
  /-- A request in the reconnect loop: its writes go to a sink. -/
  | sunk {request : Request} {now later : Nat} {fault : Option WriteFault} {mid a' : Actor}
      {o₀ o : Observation} {actions : List PhysicalAction} :
      a.loop = .reconnecting → a.clock ≤ now → now ≤ later →
      (a.atTime later).Decides now later (.request request) mid o₀ actions →
      a'.core = mid.core → a'.maintenanceOwner = mid.maintenanceOwner →
      a'.maintenanceReopenPending = mid.maintenanceReopenPending →
      (a'.loop = .reconnecting ∨ a'.loop = .stopped) → a'.clock = mid.clock →
      o.written = [] → outcomes o.events = sentBy actions → o.accepted = o₀.accepted →
      ActorMove a (.request request now later fault) o a'
  | left {o : Observation} : a.loop ≠ .stopped → outcomes o.events = [] → o.accepted = none →
      ActorMove a .requestsClosed o a.leave
  | lost {error message : String} {o : Observation} : a.loop = .session → o.written = [] →
      outcomes o.events = sentBy (a.core.physicalError message).2 → o.accepted = none →
      ActorMove a (.readError error) o (a.failSession message).1
  /-- The transport could not be opened, or not be initialized. -/
  | unopened {now : Nat} {outcome : Reopening} {message : String} {o : Observation} {a' : Actor} :
      a.loop = .reconnecting → a.clock ≤ now → (∀ firmware fault, outcome ≠ .opened firmware fault) →
      a'.core = (a.core.physicalError message).1 → a'.maintenanceOwner = a.maintenanceOwner →
      a'.maintenanceReopenPending = a.maintenanceReopenPending → a'.loop = .reconnecting →
      a'.clock = now → o.written = outcome.initialization → outcomes o.events = [] →
      o.accepted = none → ActorMove a (.reopen now outcome) o a'
  /-- The transport is open, and lost again while the foreground is restored. -/
  | refailed {now : Nat} {firmware : UInt8} {fault : Option WriteFault} {message : String}
      {o : Observation} {a' : Actor} :
      a.loop = .reconnecting → a.clock ≤ now →
      a'.core = ((a.core.afterCalls (reopening firmware)).physicalError message).1 →
      a'.maintenanceOwner = a.maintenanceOwner →
      a'.maintenanceReopenPending = a.maintenanceReopenPending → a'.loop = .reconnecting →
      a'.clock = now → outcomes o.events =
        (applyActions (a.core.returned (reopening firmware)) fault).events → o.accepted = none →
      ActorMove a (.reopen now (.opened firmware fault)) o a'
  /-- The transport is open and the session begins. -/
  | reopened {now : Nat} {firmware : UInt8} {fault : Option WriteFault} {o : Observation}
      {a' : Actor} :
      a.loop = .reconnecting → a.clock ≤ now →
      a'.core = a.core.afterCalls (reopening firmware) → a'.maintenanceOwner = a.maintenanceOwner →
      a'.maintenanceReopenPending = a.maintenanceReopenPending → a'.loop = .session →
      a'.clock = now →
      o.written = hostOpen :: safeInitialization :: writes (a.core.returned (reopening firmware)) →
      outcomes o.events = sentBy (a.core.returned (reopening firmware)) → o.accepted = none →
      ActorMove a (.reopen now (.opened firmware fault)) o a'
  /-- Another task's call on the lease. -/
  | foreign {call : TimedCall} {o : Observation} {a' : Actor} :
      foreignCall call = true → a.clock ≤ call.time → a'.core = a.core →
      a'.maintenanceOwner = a.maintenanceOwner →
      a'.maintenanceReopenPending = a.maintenanceReopenPending → a'.loop = a.loop →
      a'.clock = call.time → o.written = [] → outcomes o.events = [] → o.accepted = none →
      ActorMove a (.station call) o a'

theorem actor_move_sunk {a : Actor} (request : Request) {now later : Nat} (fault : Option WriteFault)
    (off : a.loop = .reconnecting) (onward : a.clock ≤ now) (timed : now ≤ later) :
    ActorMove a (.request request now later fault)
      ((a.atTime later).sinkTurn request now later).2
      ((a.atTime later).sinkTurn request now later).1 := by
  have decides := (a.atTime later).decides_request now later request
  unfold Actor.DecidesRequest at decides
  have sent : ∀ h : Handled,
      outcomes ((h.actions.map (fun actions => (applyActions actions none).events)).getD []) =
        sentBy (h.actions.getD []) := by
    intro h
    cases h.actions with
    | none => rfl
    | some actions =>
        show outcomes (applyActions actions none).events = sentBy actions
        rw [outcomes_applyActions, applyActions_sent (applyActions_none _)]
  have loop : ((a.atTime later).handleRequest now later request).actor.loop = .reconnecting :=
    decides.loop.trans off
  unfold Actor.sinkTurn
  simp only []
  split
  · exact .sunk off onward timed decides rfl rfl rfl (Or.inr rfl) rfl rfl (sent _) rfl
  · exact .sunk off onward timed decides rfl rfl rfl (Or.inl loop) rfl rfl (sent _) rfl

theorem actor_move_reopen {a : Actor} {now : Nat} (outcome : Reopening) (off : a.loop = .reconnecting)
    (onward : a.clock ≤ now) :
    ActorMove a (.reopen now outcome) ((a.atTime now).reopenTransport now outcome).2
      ((a.atTime now).reopenTransport now outcome).1 := by
  cases outcome with
  | openFailed error =>
      exact .unopened off onward (fun _ _ h => by cases h) rfl rfl rfl off rfl rfl rfl rfl
  | initializationFailed stage error =>
      exact .unopened off onward (fun _ _ h => by cases h) rfl rfl rfl off rfl rfl rfl rfl
  | opened firmware fault =>
      have returned : a.core.returned (reopening firmware) =
          (a.core.connectPhysical firmware).restoreForeground.2 := by
        simp [reopening, BrokerOp.apply]
      unfold Actor.reopenTransport
      simp only []
      split
      · refine @ActorMove.refailed a now firmware fault _ _ _ off onward rfl rfl rfl off rfl ?_ rfl
        rw [outcomes_append, outcomes_applyActions, returned]
        exact List.append_nil _
      · rename_i ok
        refine .reopened off onward rfl rfl rfl rfl rfl ?_ ?_ rfl
        · rw [returned]
          exact congrArg (hostOpen :: safeInitialization :: ·) (applyActions_written ok)
        · rw [outcomes_append, outcomes_applyActions, returned, applyActions_sent ok]
          exact List.append_nil _

theorem ActorMove.of_eq {a a' : Actor} {input : ActorInput} {o : Observation}
    {result : Actor × Observation} (step : some result = some (a', o))
    (move : ActorMove a input result.2 result.1) : ActorMove a input o a' := by
  cases step
  exact move

/-- **Every step is one of the moves.** -/
theorem actor_move {a a' : Actor} {input : ActorInput} {o : Observation}
    (step : actor.step a input = some (a', o)) : ActorMove a input o a' := by
  cases input with
  | request request now later fault =>
      simp only [actor] at step
      split at step
      · rename_i timed
        split at step
        · rename_i live
          exact .of_eq step (@ActorMove.turn a (.request request) now later fault _ _ live timed.1 timed.2
            ((a.atTime later).turn_effect now later fault (.request request)))
        · rename_i off
          exact .of_eq step (actor_move_sunk request fault off timed.1 timed.2)
        · cases step
      · cases step
  | requestsClosed =>
      simp only [actor] at step
      split at step
      · rename_i live
        cases step
        exact .left (by rw [live]; decide) rfl rfl
      · rename_i off
        cases step
        exact .left (by rw [off]; decide) rfl rfl
      · cases step
  | byte byte now later fault =>
      simp only [actor] at step
      split at step
      · rename_i live
        exact .of_eq step (@ActorMove.turn a (.byte byte) now later fault _ _ live.1 live.2.1 live.2.2
          ((a.atTime later).turn_effect now later fault (.byte byte)))
      · cases step
  | readError error =>
      simp only [actor] at step
      split at step
      · rename_i live
        cases step
        exact .lost live rfl (outcomes_failSession _ _) rfl
      · cases step
  | tick now later fault =>
      simp only [actor] at step
      split at step
      · rename_i live
        exact .of_eq step (@ActorMove.turn a .tick now later fault _ _ live.1 live.2.1 live.2.2
          ((a.atTime later).turn_effect now later fault .tick))
      · cases step
  | reopen now outcome =>
      simp only [actor] at step
      split at step
      · rename_i off
        exact .of_eq step (actor_move_reopen outcome off.1 off.2.2)
      · cases step
  | station call =>
      simp only [actor] at step
      split at step
      · rename_i foreign
        cases step
        exact .foreign foreign.1 foreign.2 rfl rfl rfl rfl rfl rfl rfl rfl
      · cases step

/-! ## Maintenance needs a session -/

/-- In the reconnect loop there is no maintenance. -/
def Unmaintained (a : Actor) : Prop :=
  a.loop = .reconnecting → a.maintenanceOwner = none ∧ a.maintenanceReopenPending = false

/-- A disconnected core admits no maintenance. -/
theorem Actor.maintenanceAfter_offline {a : Actor} (off : a.core.connected = false)
    (owner : a.maintenanceOwner = none) (pending : a.maintenanceReopenPending = false)
    (request : Request) : a.maintenanceAfter (.request request) = (none, false) := by
  cases request with
  | maintenanceCommand clientId command =>
      simp [maintenanceAfter, admitsMaintenance, off, owner, pending]
  | _ => simp [maintenanceAfter, owner, pending]

theorem unmaintained_step {a a' : Actor} {input : ActorInput} {o : Observation} (s : Sound a)
    (free : Unmaintained a) (step : actor.step a input = some (a', o)) : Unmaintained a' := by
  intro off'
  cases actor_move step with
  | turn live _ _ turn =>
      cases turn with
      | goesOn decides _ _ _ loop =>
          exact absurd ((loop.trans decides.loop).symm.trans off') (by rw [Actor.atTime, live]; decide)
      | fails | misread => exact ⟨rfl, rfl⟩
      | leaves _ _ _ stopped =>
          rw [stopped] at off'
          cases off'
  | @sunk request now later _ _ _ _ _ _ off _ _ decides _ owner pending =>
      obtain ⟨owner', pending'⟩ := free off
      have stay : (a.atTime later).maintenanceAfter (.request request) = (none, false) :=
        Actor.maintenanceAfter_offline (s.offline off).1 owner' pending' request
      obtain ⟨owner₀, pending₀⟩ := Prod.mk.inj (decides.maintenance.trans stay)
      exact ⟨owner.trans owner₀, pending.trans pending₀⟩
  | left => cases off'
  | lost => exact ⟨rfl, rfl⟩
  | unopened off _ _ _ owner pending =>
      obtain ⟨owner', pending'⟩ := free off
      exact ⟨owner.trans owner', pending.trans pending'⟩
  | refailed off _ _ owner pending =>
      obtain ⟨owner', pending'⟩ := free off
      exact ⟨owner.trans owner', pending.trans pending'⟩
  | reopened _ _ _ _ _ live =>
      rw [live] at off'
      cases off'
  | foreign _ _ _ owner pending loop =>
      obtain ⟨owner', pending'⟩ := free (loop.symm.trans off')
      exact ⟨owner.trans owner', pending.trans pending'⟩

section Runs

variable {maxTx : Nat} {ptt : Option PttManager} {reconnect : Bool} {firmware : UInt8} {start : Nat}
  {history : List ActorStep} {a : Actor}

theorem unmaintained_of_execution
    (run : actor.Execution (.spawn maxTx ptt reconnect firmware start) history a) :
    Unmaintained a := by
  refine run.invariant (I := fun _ a => Unmaintained a) (fun off => by cases off) ?_
  intro history a input o a' earlier free step
  exact unmaintained_step (sound_of_execution earlier) free step

end Runs

end CatHub.WinKeyer
