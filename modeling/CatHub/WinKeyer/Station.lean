/-
# CatHub.WinKeyer.Station — the keyer's turns interleaved with the other users of the lease.

A turn of the actor awaits the transport at every write, and there the CAT sessions and the PTT
watchdog move on.  A `Station` is the actor, the part of its turn that is still to be done, and the
owner the watchdog is about to release; `station` is the machine of all interleavings.  A turn is cut
where it awaits: the decision, each action, and the end with its flush.  The decision takes the lease
and changes the core without awaiting anything, so it is one step.

The watchdog looks for an expired owner, has the radio unkeyed, and releases that owner's lease
afterwards; between the two it waits, so they are two steps here.

Two results connect the levels.  `turn_uninterrupted`: a turn that nobody interrupts is the actor's turn.
`actor_interleaved`: every run of the actor is, step by step, a run of the station.
-/
import CatHub.WinKeyer.ActorCalls

namespace CatHub.WinKeyer

open Systems Ptt

/-! ## Turns in parts -/

/-- What starts a turn of a session. -/
inductive Trigger where
  | request (request : Request)
  | byte (byte : UInt8)
  | tick
  deriving DecidableEq, Repr

/-- How a turn ends once its actions are performed. -/
inductive Finish where
  | request
  | device
  | restored (firmwareRevision : UInt8)
  | shutdown
  deriving DecidableEq, Repr

/-- The message of the session failure when a write fails. -/
def Finish.failure : Finish → String → String
  | .request, error => Actor.requestWriteFailed error
  | .device, _ => "write failed"
  | .restored _, _ => "maintenance restore write failed"
  | .shutdown, error => error

/-- A turn under way: what started it, the actions still to perform, and its end. -/
structure Turn where
  trigger : Trigger
  actions : List PhysicalAction
  finish : Finish
  deriving DecidableEq, Repr

/-- One observation after another. -/
def Observation.append (o p : Observation) : Observation where
  reply := o.reply.or p.reply
  written := o.written ++ p.written
  events := o.events ++ p.events

namespace Actor

/-- The decision of a turn: the actor with the rest of the turn, unless it is over at once. -/
def begin (a : Actor) (now later : Nat) : Trigger → Actor × Observation × Option Turn
  | .request request =>
      let h := a.handleRequest now later request
      match h.actions with
      | none => (h.actor.releaseStationTxIfIdle.publishSnapshot, { reply := h.reply }, none)
      | some actions =>
          (h.actor, { reply := h.reply },
            some ⟨.request request, actions, if h.stop then .shutdown else .request⟩)
  | .byte byte =>
      if a.maintenanceReopenPending then
        let opened := { a with maintenanceReopenPending := false }
        if byte = 0xff then
          let (next, events) := opened.failSession "maintenance Host Open returned 0xFF"
          (next, { events }, none)
        else
          let (core, actions) := (a.core.connectPhysical byte).restoreForeground
          ({ opened with core }, {},
            some ⟨.byte byte, .write safeInitialization :: actions, .restored byte⟩)
      else
        match a.maintenanceOwner with
        | some clientId => (a, { events := [.maintenanceByte clientId byte] }, none)
        | none =>
            let (observed, events, actions) := a.observeByte byte now later
            (observed, { events }, some ⟨.byte byte, actions, .device⟩)
  | .tick =>
      let (ticked, actions) := a.tickActions now later
      (ticked, {}, some ⟨.tick, actions, .device⟩)

/-- The end of a turn whose actions were all performed and flushed. -/
def settle (a : Actor) : Finish → Actor × Observation
  | .request => (a.releaseStationTxIfIdle.publishSnapshot, {})
  | .device => (a.publishSnapshot.releaseStationTxIfIdle, {})
  | .restored firmwareRevision => (a.publishSnapshot, { events := [.connected firmwareRevision] })
  | .shutdown => (a.publishSnapshot.leave, { written := [hostClose] })

/-- The end of a turn whose transport failed.  A shutdown goes on regardless. -/
def abort (a : Actor) (error : String) : Finish → Actor × Observation
  | .shutdown => (a.publishSnapshot.leave, { written := [hostClose] })
  | finish =>
      let (next, events) := a.failSession (finish.failure error)
      (next, { events })

/-- The end of a turn that performed `p`. -/
def close (a : Actor) (finish : Finish) (p : Performed) : Actor × Observation :=
  let (next, o) := match p.failure with
    | none => a.settle finish
    | some error => a.abort error finish
  (next, { written := p.written, events := p.events : Observation }.append o)

end Actor

/-! ## The machine -/

structure Station where
  actor : Actor
  turn : Option Turn := none
  /-- The owner whose transmission the watchdog has found too long. -/
  releasing : Option Nat := none

inductive StationInput where
  | begin (trigger : Trigger) (now later : Nat)
  /-- Perform the next action; a write may fail after some bytes. -/
  | perform (fault : Option (Nat × String))
  /-- Flush, and end the turn. -/
  | finish (fault : Option String)
  /-- A step of the actor outside the turns of a session. -/
  | between (input : ActorInput)
  /-- A CAT session's call on the lease. -/
  | cat (call : TimedCall)
  | checkCeiling (now : Nat)
  | release
  deriving DecidableEq, Repr

/-- A call of a CAT session: the station's id is not among theirs. -/
def catCall (call : TimedCall) : Bool :=
  match call.call with
  | .tryKey sessionId _ => sessionId != stationTxOwner
  | .unkey sessionId => sessionId != stationTxOwner

/-- The inputs the actor handles in no turn of a session. -/
def outsideTurns (a : Actor) : ActorInput → Bool
  | .request _ _ _ _ => a.loop != .session
  | .requestsClosed => true
  | .readError _ => true
  | .reopen _ _ => true
  | _ => false

namespace Station

/-- The transport fails in the middle of a turn. -/
def interrupt (s : Station) (written : List (List UInt8)) (finish : Finish) (error : String) :
    Station × Observation :=
  let (actor, o) := s.actor.abort error finish
  ({ s with actor, turn := none }, { written : Observation }.append o)

end Station

def station : Machine Station StationInput Observation where
  step s
  | .begin trigger now later =>
      if s.turn = none ∧ s.actor.loop = .session ∧ s.actor.clock ≤ now ∧ now ≤ later then
        let (actor, o, turn) := { s.actor with clock := later }.begin now later trigger
        some ({ s with actor, turn }, o)
      else none
  | .perform fault =>
      match s.turn with
      | some ⟨trigger, .write chunk :: rest, finish⟩ =>
          match fault with
          | none => some ({ s with turn := some ⟨trigger, rest, finish⟩ }, { written := [chunk] })
          | some (bytes, error) => some (s.interrupt [chunk.take bytes] finish error)
      | some ⟨trigger, .completed jobId clientId :: rest, finish⟩ =>
          if fault = none then
            some ({ s with turn := some ⟨trigger, rest, finish⟩ },
              { events := [.completed jobId clientId] })
          else none
      | some ⟨trigger, .canceled jobId clientId :: rest, finish⟩ =>
          if fault = none then
            some ({ s with turn := some ⟨trigger, rest, finish⟩ },
              { events := [.canceled jobId clientId] })
          else none
      | _ => none
  | .finish fault =>
      match s.turn with
      | some ⟨_, [], finish⟩ =>
          match fault with
          | none =>
              let (actor, o) := s.actor.settle finish
              some ({ s with actor, turn := none }, o)
          | some error => some (s.interrupt [] finish error)
      | _ => none
  | .between input =>
      if s.turn = none ∧ outsideTurns s.actor input then
        match actor.step s.actor input with
        | some (actor, o) => some ({ s with actor }, o)
        | none => none
      else none
  | .cat call =>
      if catCall call ∧ s.actor.clock ≤ call.time then
        some ({ s with actor := { s.actor with
          ptt := s.actor.ptt.map (·.apply call), clock := call.time } }, {})
      else none
  | .checkCeiling now =>
      if s.releasing = none ∧ s.actor.clock ≤ now then
        some ({ s with actor := { s.actor with clock := now },
                       releasing := s.actor.ptt.bind (·.expiredOwner now) }, {})
      else none
  | .release =>
      match s.releasing with
      | some owner =>
          some ({ s with actor := { s.actor with ptt := s.actor.ptt.map (·.unkey owner) },
                         releasing := none }, {})
      | none => none

/-- One recorded step of the station. -/
abbrev StationStep := Transition Station StationInput Observation

/-- All that some steps show. -/
def observed (history : List StationStep) : Observation :=
  history.foldl (fun o e => o.append e.output) {}

/-! ## Uninterrupted turns -/

namespace Observation

@[simp] theorem empty_append (o : Observation) : ({} : Observation).append o = o := by
  simp [append]

@[simp] theorem append_empty (o : Observation) : o.append {} = o := by
  simp [append]

theorem append_assoc (o p q : Observation) : (o.append p).append q = o.append (p.append q) := by
  simp [append, Option.or_assoc]

end Observation

theorem observed_append (history later : List StationStep) :
    observed (history ++ later) = (observed history).append (observed later) := by
  induction later using List.reverseRecOn with
  | nil => simp [observed]
  | append_singleton later e ih =>
      have concat : ∀ steps : List StationStep,
          observed (steps ++ [e]) = (observed steps).append e.output := by
        intro steps
        simp [observed]
      rw [← List.append_assoc, concat, concat, ih, Observation.append_assoc]

theorem observed_singleton (e : StationStep) : observed [e] = e.output := by
  simp [observed]

namespace Actor

theorem close_write (a : Actor) (finish : Finish) (chunk : List UInt8) (p : Performed) :
    a.close finish { p with written := chunk :: p.written } =
      ((a.close finish p).1, ({ written := [chunk] } : Observation).append (a.close finish p).2) := by
  simp [close, Observation.append]

theorem close_event (a : Actor) (finish : Finish) (event : BrokerEvent) (p : Performed) :
    a.close finish { p with events := event :: p.events } =
      ((a.close finish p).1, ({ events := [event] } : Observation).append (a.close finish p).2) := by
  simp [close, Observation.append]

theorem close_settle (a : Actor) (finish : Finish) : a.close finish {} = a.settle finish := by
  simp [close, Observation.append]

theorem close_abort (a : Actor) (finish : Finish) (written : List (List UInt8)) (error : String) :
    a.close finish { written, failure := some error } = ((a.abort error finish).1,
      ({ written } : Observation).append (a.abort error finish).2) := by
  simp [close, Observation.append]

theorem close_shutdown (a : Actor) (p : Performed) :
    a.close .shutdown p = (a.publishSnapshot.leave,
      { written := p.written ++ [hostClose], events := p.events }) := by
  unfold close
  cases p.failure <;> simp [settle, abort, Observation.append]

/-- The whole turn, as one step of the actor. -/
def turn (a : Actor) (now later : Nat) (fault : Option WriteFault) :
    Trigger → Actor × Observation
  | .request request => a.requestTurn request now later fault
  | .byte byte => a.byteTurn byte now later fault
  | .tick => a.tickTurn now later fault

/-- The end of a turn that goes on to `next`, or fails. -/
theorem close_finishTurn (finish : Finish) (a next : Actor) (events : List BrokerEvent)
    (p : Performed) (settles : a.settle finish = (next, { events }))
    (aborts : ∀ error, a.abort error finish =
      ((a.failSession (finish.failure error)).1,
        { events := (a.failSession (finish.failure error)).2 })) :
    a.close finish p = ((a.finishTurn next p finish.failure).1,
      { written := p.written
        events := p.events ++ (if p.failure.isNone then events else []) ++
          (a.finishTurn next p finish.failure).2 }) := by
  unfold close finishTurn
  cases p.failure with
  | none => simp [settles, Observation.append]
  | some error => simp [aborts, Observation.append]

/-- The actor's turn is the decision, the actions and the end. -/
theorem turn_eq_begin_close (a : Actor) (now later : Nat) (fault : Option WriteFault)
    (trigger : Trigger) :
    a.turn now later fault trigger =
      match a.begin now later trigger with
      | (next, o, none) => (next, o)
      | (mid, o, some t) =>
          ((mid.close t.finish (applyActions t.actions fault)).1,
            o.append (mid.close t.finish (applyActions t.actions fault)).2) := by
  cases trigger with
  | request request =>
      simp only [turn, requestTurn, begin]
      obtain ⟨mid, reply, actions, stop⟩ := a.handleRequest now later request
      cases actions with
      | none => rfl
      | some actions =>
          cases stop with
          | true =>
              simp only [if_true, close_shutdown, Observation.append, List.nil_append,
                Option.or_none]
          | false =>
              have closed := close_finishTurn .request mid
                mid.releaseStationTxIfIdle.publishSnapshot [] (applyActions actions fault) rfl
                (fun _ => rfl)
              simp only [Bool.false_eq_true, if_false, closed, Observation.append, ite_self,
                List.append_nil, List.nil_append, Option.or_none]
              rfl
  | byte byte =>
      simp only [turn, byteTurn, begin]
      split
      · unfold reopenTurn
        split
        · rfl
        · let restored : Actor := { a with
            core := (a.core.connectPhysical byte).restoreForeground.1
            maintenanceReopenPending := false }
          have closed := close_finishTurn (.restored byte) restored restored.publishSnapshot
            [.connected byte] (applyActions (.write safeInitialization ::
              (a.core.connectPhysical byte).restoreForeground.2) fault) rfl (fun _ => rfl)
          simp only [restored] at closed
          simp only [closed, Observation.append, List.nil_append, Option.or_none]
          rfl
      · cases a.maintenanceOwner with
        | some clientId => rfl
        | none =>
            obtain ⟨observed, events, actions⟩ := a.observeByte byte now later
            have closed := close_finishTurn .device observed
              observed.publishSnapshot.releaseStationTxIfIdle [] (applyActions actions fault) rfl
              (fun _ => rfl)
            simp only [closed, Observation.append, ite_self, List.append_nil, List.nil_append,
              Option.or_none, List.append_assoc]
            rfl
  | tick =>
      have closed := close_finishTurn .device (a.tickActions now later).1
        (a.tickActions now later).1.publishSnapshot.releaseStationTxIfIdle []
        (applyActions (a.tickActions now later).2 fault) rfl (fun _ => rfl)
      simp only [turn, tickTurn, begin, closed, Observation.append, ite_self, List.append_nil,
        List.nil_append, Option.or_none]
      rfl

end Actor

/-- The rest of a turn is performed and ended without interruption. -/
theorem rest_uninterrupted (a : Actor) (trigger : Trigger) (actions : List PhysicalAction)
    (finish : Finish) (releasing : Option Nat) (fault : Option WriteFault) :
    ∃ history, station.Execution ⟨a, some ⟨trigger, actions, finish⟩, releasing⟩ history
        ⟨(a.close finish (applyActions actions fault)).1, none, releasing⟩ ∧
      observed history = (a.close finish (applyActions actions fault)).2 := by
  -- One step of the station in front of the rest.
  have step : ∀ {s t u : Station} {input : StationInput} {o p : Observation},
      station.step s input = some (t, o) →
      (∃ history, station.Execution t history u ∧ observed history = p) →
      ∃ history, station.Execution s history u ∧ observed history = o.append p := by
    rintro s t u input o p first ⟨history, run, rfl⟩
    refine ⟨[⟨s, input, o, t⟩] ++ history, (Machine.Execution.start.next first).append run, ?_⟩
    rw [observed_append, observed_singleton]
  have last : ∀ {s t : Station} {input : StationInput} {o : Observation},
      station.step s input = some (t, o) →
      ∃ history, station.Execution s history t ∧ observed history = o := by
    intro s t input o first
    have alone := step first ⟨[], .start, rfl⟩
    rwa [show observed [] = {} from rfl, Observation.append_empty] at alone
  induction actions generalizing fault with
  | nil =>
      cases fault with
      | none =>
          rw [applyActions, Option.map_none, Actor.close_settle]
          exact @last _ ⟨(a.settle finish).1, none, releasing⟩ (.finish none) _ rfl
      | some f =>
          rw [applyActions, Option.map_some, Actor.close_abort]
          exact @last _ ⟨(a.abort f.error finish).1, none, releasing⟩ (.finish (some f.error)) _ rfl
  | cons action rest ih =>
      cases action with
      | write chunk =>
          rcases fault with _ | ⟨_ | writes, bytes, error⟩
          · have performed := a.close_write finish chunk (applyActions rest none)
            rw [applyActions, performed]
            exact @step _ _ _ (.perform none) _ _ rfl (ih none)
          · rw [applyActions, Actor.close_abort]
            exact @last _ ⟨(a.abort error finish).1, none, releasing⟩
              (.perform (some (bytes, error))) _ rfl
          · have performed := a.close_write finish chunk (applyActions rest (some ⟨writes, bytes, error⟩))
            rw [applyActions, performed]
            exact @step _ _ _ (.perform none) _ _ rfl (ih _)
      | completed jobId clientId =>
          have performed := a.close_event finish (.completed jobId clientId) (applyActions rest fault)
          rw [applyActions, performed]
          exact @step _ _ _ (.perform none) _ _ rfl (ih fault)
      | canceled jobId clientId =>
          have performed := a.close_event finish (.canceled jobId clientId) (applyActions rest fault)
          rw [applyActions, performed]
          exact @step _ _ _ (.perform none) _ _ rfl (ih fault)

/-- **A turn that nobody interrupts is the actor's turn.** -/
theorem turn_uninterrupted {s : Station} {trigger : Trigger} {now later : Nat}
    (fault : Option WriteFault) (between : s.turn = none) (live : s.actor.loop = .session)
    (current : s.actor.clock ≤ now) (onward : now ≤ later) :
    ∃ history, station.Execution s history
        { s with actor := ({ s.actor with clock := later }.turn now later fault trigger).1 } ∧
      history.head?.map (·.input) = some (.begin trigger now later) ∧
      observed history = ({ s.actor with clock := later }.turn now later fault trigger).2 := by
  obtain ⟨a, turn, releasing⟩ := s
  obtain rfl : turn = none := between
  show ∃ history, station.Execution ⟨a, none, releasing⟩ history
      ⟨({ a with clock := later }.turn now later fault trigger).1, none, releasing⟩ ∧
    history.head?.map (·.input) = some (.begin trigger now later) ∧
    observed history = ({ a with clock := later }.turn now later fault trigger).2
  rw [Actor.turn_eq_begin_close]
  have begun : ∀ next o rest, { a with clock := later }.begin now later trigger = (next, o, rest) →
      station.Execution ⟨a, none, releasing⟩
        [⟨⟨a, none, releasing⟩, .begin trigger now later, o, ⟨next, rest, releasing⟩⟩]
        ⟨next, rest, releasing⟩ := by
    intro next o rest decided
    have step : station.step ⟨a, none, releasing⟩ (.begin trigger now later) =
        some (⟨({ a with clock := later }.begin now later trigger).1,
          ({ a with clock := later }.begin now later trigger).2.2, releasing⟩,
          ({ a with clock := later }.begin now later trigger).2.1) :=
      if_pos ⟨rfl, live, current, onward⟩
    rw [decided] at step
    exact Machine.Execution.start.next step
  rcases decided : { a with clock := later }.begin now later trigger with ⟨next, o, _ | t⟩
  · rw [decided]
    exact ⟨_, begun _ _ _ decided, rfl, observed_singleton _⟩
  · rw [decided]
    obtain ⟨history, run, shown⟩ :=
      rest_uninterrupted next t.trigger t.actions t.finish releasing fault
    refine ⟨_, (begun _ _ _ decided).append run, rfl, ?_⟩
    rw [observed_append, observed_singleton, shown]

/-! ## Whole runs -/

/-- How the station begins with what the actor does under an input. -/
def opening (a : Actor) : ActorInput → StationInput
  | .request request now later fault =>
      if a.loop = .session then .begin (.request request) now later
      else .between (.request request now later fault)
  | .byte byte now later _ => .begin (.byte byte) now later
  | .tick now later _ => .begin .tick now later
  | .station call => if catCall call then .cat call else .checkCeiling call.time
  | input => .between input

/-- The station's steps for one step of the actor: from its state to the one that it ends in, begun with
its input, and showing what it shows. -/
structure Carried (e : ActorStep) (part : List StationStep) : Prop where
  taken : station.Execution { actor := e.before } part { actor := e.after }
  opened : part.head?.map (·.input) = some (opening e.before e.input)
  shown : observed part = e.output

/-- A call on the lease is a CAT session's, or the watchdog's, which releases the keyer's lease only once
it has found the transmission too long. -/
def attended (e : ActorStep) : Bool :=
  match e.input with
  | .station call =>
      catCall call || e.before.ptt.bind (·.expiredOwner call.time) == some stationTxOwner
  | _ => true

section
variable {a b : Actor} {o : Observation}

theorem turn_carried {trigger : Trigger} {now later : Nat} (fault : Option WriteFault)
    {input : ActorInput} (opens : opening a input = .begin trigger now later)
    (live : a.loop = .session) (current : a.clock ≤ now) (onward : now ≤ later)
    (turn : { a with clock := later }.turn now later fault trigger = (b, o)) :
    ∃ part, Carried ⟨a, input, o, b⟩ part := by
  obtain ⟨part, run, opened, shown⟩ :=
    @turn_uninterrupted { actor := a } trigger now later fault rfl live current onward
  rw [turn] at run shown
  exact ⟨part, run, opened.trans (congrArg some opens.symm), shown⟩

theorem between_carried {input : ActorInput} (opens : opening a input = .between input)
    (outside : outsideTurns a input = true) (step : actor.step a input = some (b, o)) :
    ∃ part, Carried ⟨a, input, o, b⟩ part := by
  have taken : station.step { actor := a } (.between input) = some ({ actor := b }, o) := by
    simp only [station, outside, and_self, if_true, step]
  exact ⟨_, Machine.Execution.start.next taken, congrArg some opens.symm, observed_singleton _⟩

/-- A call on the lease: a CAT session makes it in one step, the watchdog looks first. -/
theorem call_carried {call : TimedCall} (watched : attended ⟨a, .station call, o, b⟩ = true)
    (step : actor.step a (.station call) = some (b, o)) :
    ∃ part, Carried ⟨a, .station call, o, b⟩ part := by
  simp only [actor, Option.ite_none_right_eq_some, Option.some.injEq, Prod.mk.injEq] at step
  obtain ⟨⟨foreign, current⟩, rfl, rfl⟩ := step
  by_cases cat : catCall call = true
  · have taken : station.step { actor := a } (.cat call) = some
        ({ actor := { a with ptt := a.ptt.map (·.apply call), clock := call.time } }, {}) :=
      if_pos ⟨cat, current⟩
    refine ⟨_, Machine.Execution.start.next taken, ?_, observed_singleton _⟩
    exact congrArg some (if_pos cat).symm
  -- What is left is the watchdog's release of the keyer: it looks, and then it releases.
  · have expired : a.ptt.bind (·.expiredOwner call.time) = some stationTxOwner :=
      beq_iff_eq.mp ((Bool.or_eq_true_iff.mp watched).resolve_left cat)
    obtain ⟨time, call⟩ := call
    cases call with
    | tryKey sessionId hasPtt => exact absurd foreign cat
    | unkey sessionId =>
        obtain rfl : sessionId = stationTxOwner := by simpa [catCall] using cat
        have looked : station.step { actor := a } (.checkCeiling time) = some
            ({ actor := { a with clock := time }, releasing := some stationTxOwner }, {}) := by
          rw [← expired]
          exact if_pos ⟨rfl, current⟩
        have opens : opening a (.station ⟨time, .unkey stationTxOwner⟩) = .checkCeiling time := by
          simp only [opening, cat, if_false, Bool.false_eq_true]
        exact ⟨_, (Machine.Execution.start.next looked).next (i := .release) rfl,
          congrArg some opens.symm, rfl⟩

theorem step_carried {input : ActorInput} (watched : attended ⟨a, input, o, b⟩ = true)
    (step : actor.step a input = some (b, o)) :
    ∃ part, Carried ⟨a, input, o, b⟩ part := by
  cases input with
  | request request now later fault =>
      -- Within a session it is a turn; while the keyer reconnects, the request is only answered.
      have taken := step
      simp only [actor, Option.ite_none_right_eq_some] at step
      obtain ⟨⟨current, onward⟩, turned⟩ := step
      split at turned
      · next live =>
          exact turn_carried fault (if_pos live) live current onward (Option.some.inj turned)
      · next live =>
          exact between_carried (if_neg (by simp [live])) (by simp [outsideTurns, live]) taken
      · cases turned
  | byte byte now later fault =>
      simp only [actor, Option.ite_none_right_eq_some, Option.some.injEq] at step
      exact turn_carried fault rfl step.1.1 step.1.2.1 step.1.2.2 step.2
  | tick now later fault =>
      simp only [actor, Option.ite_none_right_eq_some, Option.some.injEq] at step
      exact turn_carried fault rfl step.1.1 step.1.2.1 step.1.2.2 step.2
  | station call => exact call_carried watched step
  | requestsClosed => exact between_carried rfl rfl step
  | readError => exact between_carried rfl rfl step
  | reopen => exact between_carried rfl rfl step

end

/-- **The station does what the actor does.**  In every run of the actor each step is carried out by
the station, cut where the code awaits, with the same output and ending in the same state. -/
theorem actor_interleaved {a b : Actor} {history : List ActorStep}
    (run : actor.Execution a history b) (watched : ∀ e ∈ history, attended e = true) :
    ∃ parts, station.Execution { actor := a } parts.flatten { actor := b } ∧
      List.Forall₂ Carried history parts := by
  have carry : ∀ (a : Actor) (s : Station) (input : ActorInput) (o : Observation) (b : Actor),
      s = { actor := a } → actor.step a input = some (b, o) → attended ⟨a, input, o, b⟩ = true →
      ∃ part s', station.Execution s part s' ∧ Carried ⟨a, input, o, b⟩ part ∧ s' = { actor := b } := by
    rintro a _ input o b rfl step watched
    obtain ⟨part, carried⟩ := step_carried watched step
    exact ⟨part, _, carried.taken, carried, rfl⟩
  obtain ⟨parts, s, taken, carried, rfl⟩ :=
    run.simulated (N := station) (R := fun a s => s = ⟨a, none, none⟩) rfl carry watched
  exact ⟨parts, taken, carried⟩

/-- A job is sent and no status comes; the watchdog takes the lease away. -/
theorem actor_interleaved_job :
    ∃ history b parts, actor.Execution leased history b ∧ b.stationOwns = false ∧
      (history.any (·.after.stationOwns)) = true ∧
      station.Execution { actor := leased } parts.flatten { actor := b } ∧
      List.Forall₂ Carried history parts := by
  have run := actor.execution_exec leased
    [.request (.register 1 true) 0 0 none, .request (.enqueue 1 ⟨[69], [69]⟩ none false) 1 1 none,
      .tick 20 20 none, .station ⟨61, .unkey stationTxOwner⟩] (by decide)
  obtain ⟨parts, taken, carried⟩ := actor_interleaved run (by decide)
  exact ⟨_, _, parts, run, by decide, by decide, taken, carried⟩

end CatHub.WinKeyer
