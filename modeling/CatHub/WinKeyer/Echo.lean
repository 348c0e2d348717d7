/-
# CatHub.WinKeyer.Echo — whose endpoint passes an echo byte on.

The actor sends its events to every endpoint through a FIFO, and publishes its snapshot beside it.  An
endpoint takes an event any time later and judges it by the snapshot of that moment.  So an echo of
one client's job is shown to the client whose job is active when the event is taken.

`Broadcasting` is the actor with the FIFOs; each event in them remembers who owned the active job and
whether break-in was set when the actor received it.  `echo_owned` says that an echo goes to its owner,
or to the primary in break-in, if publishing is `Patient`: no echo waits for an endpoint when a snapshot
comes by which it begins to pass echoes on.  Then every echo that waits for an endpoint that passes echoes
on is one that it is entitled to.
-/
import CatHub.WinKeyer.Endpoint
import CatHub.WinKeyer.Turns

namespace CatHub.WinKeyer

open Systems Ptt BrokerCore

/-! ## The actor and the FIFOs of its endpoints -/

/-- An event on its way, with the owner of the active job and break-in when the actor received what
it reports. -/
structure Receipt where
  event : BrokerEvent
  owner : Option ClientId
  breakIn : Bool
  deriving DecidableEq, Repr

def BrokerCore.receipt (core : BrokerCore) (event : BrokerEvent) : Receipt :=
  ⟨event, core.activeClientId, core.status.breakIn⟩

structure Broadcasting where
  actor : Actor
  /-- The snapshot that the endpoints see. -/
  visible : BrokerSnapshot
  fifo : ClientId → List Receipt

inductive BroadcastInput where
  | act (input : ActorInput)
  /-- The end of the actor's turn reaches the watch channel. -/
  | publish
  /-- The endpoint of a client takes its oldest event. -/
  | deliver (clientId : ClientId) (sessionMode : SessionMode)
  /-- The endpoint of a client has fallen behind, and its oldest events are gone. -/
  | lag (clientId : ClientId) (missed : Nat) (sessionMode : SessionMode)
  deriving DecidableEq, Repr

def Broadcasting.withFifo (s : Broadcasting) (clientId : ClientId) (waiting : List Receipt) :
    Broadcasting :=
  { s with fifo := fun c => if c = clientId then waiting else s.fifo c }

/-- The output are the bytes written to the client's port.  `primary` tells the primary endpoint. -/
def broadcasting (primary : ClientId → Bool) : Machine Broadcasting BroadcastInput (List UInt8) where
  step s
  | .act input =>
      if s.visible = s.actor.published then
        match actor.step s.actor input with
        | some (a, o) =>
            some ({ s with actor := a
                           fifo := fun c => s.fifo c ++ o.events.map s.actor.core.receipt }, [])
        | none => none
      else none
  | .publish => some ({ s with visible := s.actor.published }, [])
  | .deliver clientId sessionMode =>
      match s.fifo clientId with
      | [] => none
      | r :: rest =>
          some (s.withFifo clientId rest,
            (eventByte r.event s.visible clientId (primary clientId) sessionMode).toList)
  | .lag clientId missed sessionMode =>
      -- A status and a pot byte stand for what was missed.
      some (s.withFifo clientId ((s.fifo clientId).drop missed),
        synthesizeStatus s.visible sessionMode ::
          s.visible.potValue.toList.map (fun pot => 0x80 ||| (pot &&& 0x3f)))

/-- One recorded step. -/
abbrev BroadcastStep := Transition Broadcasting BroadcastInput (List UInt8)

/-- The actor at its start, before any event. -/
def Broadcasting.spawn (a : Actor) : Broadcasting := ⟨a, a.published, fun _ => []⟩

/-! ## The property and the condition -/

/-- The echo that an endpoint takes. -/
def echoTaken (e : BroadcastStep) : Option (ClientId × Receipt) :=
  match e.input with
  | .deliver clientId _ =>
      match e.before.fifo clientId with
      | ⟨.echo byte, owner, breakIn⟩ :: _ => some (clientId, ⟨.echo byte, owner, breakIn⟩)
      | _ => none
  | _ => none

/-- The receipt entitles the endpoint of a client to the echo. -/
def Receipt.entitles (primary : ClientId → Bool) (r : Receipt) (clientId : ClientId) : Prop :=
  r.owner = some clientId ∨ (primary clientId = true ∧ r.breakIn = true)

/-- An echo that is written goes to a client entitled to it. -/
def EchoOwned (primary : ClientId → Bool) (e : BroadcastStep) : Prop :=
  ∀ clientId r, echoTaken e = some (clientId, r) → e.output ≠ [] → r.entitles primary clientId

/-- The endpoint of a client passes echoes on when it sees this snapshot. -/
def BrokerSnapshot.shows (primary : ClientId → Bool) (snapshot : BrokerSnapshot) (clientId : ClientId) :
    Bool :=
  snapshot.activeClientId == some clientId || (primary clientId && snapshot.breakIn)

def BrokerEvent.isEcho : BrokerEvent → Bool
  | .echo _ => true
  | _ => false

/-- When a snapshot is published by which the endpoint of a client begins to pass echoes on, no echo waits
for that endpoint. -/
def Patient (primary : ClientId → Bool) (e : BroadcastStep) : Prop :=
  e.input = .publish → ∀ c, e.before.actor.published.shows primary c = true →
    e.before.visible.shows primary c = true ∨ ∀ r ∈ e.before.fifo c, r.event.isEcho = false

section Delivery

variable {primary : ClientId → Bool} {s s' : Broadcasting} {input : BroadcastInput}
  {bytes : List UInt8} {clientId : ClientId} {r : Receipt}

theorem echoTaken_some {e : BroadcastStep} (taken : echoTaken e = some (clientId, r)) :
    ∃ sessionMode byte rest, e.input = .deliver clientId sessionMode ∧ r.event = .echo byte ∧
      e.before.fifo clientId = r :: rest := by
  unfold echoTaken at taken
  split at taken
  · rename_i c mode input
    split at taken
    · rename_i byte owner breakIn rest waiting
      cases taken
      exact ⟨mode, byte, rest, input, rfl, waiting⟩
    · cases taken
  · cases taken

/-- What is written of an echo, and when. -/
theorem echo_written (step : (broadcasting primary).step s input = some (s', bytes))
    (taken : echoTaken ⟨s, input, bytes, s'⟩ = some (clientId, r)) :
    bytes ≠ [] ↔ s.visible.shows primary clientId = true := by
  obtain ⟨mode, byte, rest, deliver, echo, waiting⟩ := echoTaken_some taken
  change input = .deliver clientId mode at deliver
  change s.fifo clientId = r :: rest at waiting
  subst deliver
  simp only [broadcasting, waiting, Option.some.injEq, Prod.mk.injEq] at step
  have passed : eventByte (.echo byte) s.visible clientId (primary clientId) mode =
      if s.visible.shows primary clientId then some byte else none := rfl
  rw [← step.2, echo, passed]
  cases s.visible.shows primary clientId <;> simp

end Delivery

/-! ## What the actor sends and publishes -/

/-- In a session the published snapshot is the core's. -/
def Actor.Published (a : Actor) : Prop := a.loop = .session → a.published = a.core.snapshot

section Turns

variable {a a' : Actor} {input : ActorInput} {o : Observation}

theorem published_snapshot (a : Actor) : a.publishSnapshot.Published := fun _ => rfl

theorem published_released (published : a.Published) : a.releaseStationTxIfIdle.Published := by
  unfold Actor.releaseStationTxIfIdle
  split
  · exact published
  · exact published

theorem published_failed (a : Actor) (message : String) : (a.failSession message).1.Published := by
  intro live
  cases live

theorem published_left (a : Actor) : a.leave.Published := by
  intro live
  cases live

theorem published_finishTurn {next : Actor} (p : Performed) (message : String → String)
    (published : next.Published) : (a.finishTurn next p message).1.Published := by
  unfold Actor.finishTurn
  split
  · exact published
  · exact published_failed _ _

theorem published_request (a : Actor) (request : Request) (now later : Nat)
    (fault : Option WriteFault) : (a.requestTurn request now later fault).1.Published := by
  unfold Actor.requestTurn
  simp only []
  split
  · exact published_snapshot _
  · split
    · exact published_left _
    · exact published_finishTurn _ _ (published_snapshot _)

theorem published_byte (published : a.Published) (byte : UInt8) (now later : Nat)
    (fault : Option WriteFault) : (a.byteTurn byte now later fault).1.Published := by
  unfold Actor.byteTurn
  split
  · unfold Actor.reopenTurn
    simp only []
    split
    · exact published_failed _ _
    · exact published_finishTurn _ _ (published_snapshot _)
  · split
    · exact published
    · exact published_finishTurn _ _ (published_released (published_snapshot _))

theorem published_sink (a : Actor) (request : Request) (now later : Nat) :
    (a.sinkTurn request now later).1.Published := by
  unfold Actor.sinkTurn
  simp only []
  split
  · exact published_left _
  · exact published_snapshot _

theorem published_reopen (a : Actor) (now : Nat) (outcome : Reopening) :
    (a.reopenTransport now outcome).1.Published := by
  unfold Actor.reopenTransport
  split
  · exact published_snapshot _
  · exact published_snapshot _
  · simp only []
    split
    · exact published_snapshot _
    · exact published_snapshot _

/-- Every turn of a session that goes on publishes, unless it leaves the core alone. -/
theorem published_step (published : a.Published) (step : actor.step a input = some (a', o)) :
    a'.Published := by
  have result : ∀ {turn : Actor × Observation}, some turn = some (a', o) → turn.1.Published →
      a'.Published := by
    rintro turn same published
    cases same
    exact published
  cases input with
  | request request now later fault =>
      simp only [actor] at step
      split at step
      · split at step
        · exact result step (published_request _ request now later fault)
        · exact result step (published_sink _ request now later)
        · cases step
      · cases step
  | requestsClosed =>
      simp only [actor] at step
      split at step
      · exact result step (published_left a)
      · exact result step (published_left a)
      · cases step
  | byte byte now later fault =>
      simp only [actor] at step
      split at step
      · have published : (a.atTime later).Published := published
        exact result step (published_byte published byte now later fault)
      · cases step
  | readError error =>
      simp only [actor] at step
      split at step
      · exact result step (published_failed a _)
      · cases step
  | tick now later fault =>
      simp only [actor] at step
      split at step
      · exact result step (published_finishTurn _ _ (published_released (published_snapshot _)))
      · cases step
  | reopen now outcome =>
      simp only [actor] at step
      split at step
      · exact result step (published_reopen _ now outcome)
      · cases step
  | station call =>
      simp only [actor] at step
      split at step
      · cases step
        exact published
      · cases step

/-! ## Where an echo comes from -/

/-- Some events hold no echo. -/
def Mute (events : List BrokerEvent) : Prop := ∀ event ∈ events, event.isEcho = false

theorem Mute.nil : Mute [] := fun _ mem => by cases mem

theorem Mute.cons {event : BrokerEvent} {events : List BrokerEvent} (first : event.isEcho = false)
    (rest : Mute events) : Mute (event :: events) := by
  intro other mem
  rcases List.mem_cons.mp mem with rfl | mem
  · exact first
  · exact rest other mem

theorem Mute.append {events more : List BrokerEvent} (first : Mute events) (second : Mute more) :
    Mute (events ++ more) := by
  intro event mem
  rcases List.mem_append.mp mem with mem | mem
  · exact first event mem
  · exact second event mem

theorem mute_applyActions (actions : List PhysicalAction) (fault : Option WriteFault) :
    Mute (applyActions actions fault).events := by
  intro event mem
  rw [← outcomes_applyActions] at mem
  have settles := (List.mem_filter.mp mem).2
  cases event with
  | echo => cases settles
  | _ => rfl

theorem mute_sink (a : Actor) (request : Request) (now later : Nat) :
    Mute (a.sinkTurn request now later).2.events := by
  have sent : Mute (((a.handleRequest now later request).actions.map
      (fun actions => (applyActions actions none).events)).getD []) := by
    cases (a.handleRequest now later request).actions with
    | none => exact .nil
    | some actions => exact mute_applyActions _ _
  unfold Actor.sinkTurn
  simp only []
  split
  · exact sent
  · exact sent

theorem mute_reopen (a : Actor) (now : Nat) (outcome : Reopening) :
    Mute (a.reopenTransport now outcome).2.events := by
  unfold Actor.reopenTransport
  split
  · exact .cons rfl .nil
  · exact .cons rfl .nil
  · simp only []
    split
    · exact (mute_applyActions _ _).append (.cons rfl .nil)
    · exact (mute_applyActions _ _).append (.cons rfl .nil)

/-- An echo is sent in a session only. -/
theorem echo_live (step : actor.step a input = some (a', o)) {event : BrokerEvent}
    (sent : event ∈ o.events) (echo : event.isEcho = true) : a.loop = .session := by
  have silent : ∀ {turn : Actor × Observation}, some turn = some (a', o) → Mute turn.2.events →
      a.loop = .session := by
    rintro turn same mute
    cases same
    rw [mute event sent] at echo
    cases echo
  cases input with
  | byte | readError | tick =>
      simp only [actor] at step
      split at step
      · rename_i live
        first | exact live | exact live.1
      · cases step
  | request request now later fault =>
      simp only [actor] at step
      split at step
      · split at step
        · assumption
        · exact silent step (mute_sink _ request now later)
        · cases step
      · cases step
  | requestsClosed =>
      simp only [actor] at step
      split at step
      · assumption
      · exact silent step .nil
      · cases step
  | reopen now outcome =>
      simp only [actor] at step
      split at step
      · exact silent step (mute_reopen _ now outcome)
      · cases step
  | station call =>
      simp only [actor] at step
      split at step
      · exact silent step .nil
      · cases step

end Turns

/-! ## A run with patient publishing -/

/-- Every echo that waits for an endpoint that passes echoes on is one that it is entitled to. -/
structure Entitled (primary : ClientId → Bool) (s : Broadcasting) : Prop where
  published : s.actor.Published
  entitles : ∀ c, s.visible.shows primary c = true → ∀ r ∈ s.fifo c, r.event.isEcho = true →
    r.entitles primary c

namespace Entitled

variable {primary : ClientId → Bool} {s s' : Broadcasting} {input : BroadcastInput}
  {bytes : List UInt8}

/-- An endpoint that takes or loses events leaves the others' waiting. -/
theorem fewer (h : Entitled primary s) {clientId : ClientId} {waiting : List Receipt}
    (fewer : ∀ r ∈ waiting, r ∈ s.fifo clientId) : Entitled primary (s.withFifo clientId waiting) where
  published := h.published
  entitles := by
    intro c shown r mem echo
    refine h.entitles c shown r ?_ echo
    change r ∈ (if c = clientId then waiting else s.fifo c) at mem
    split at mem
    · rename_i here
      rw [here]
      exact fewer r mem
    · exact mem

theorem step (h : Entitled primary s) (step : (broadcasting primary).step s input = some (s', bytes))
    (patient : Patient primary ⟨s, input, bytes, s'⟩) : Entitled primary s' := by
  cases input with
  | act input =>
      simp only [broadcasting] at step
      split at step
      · rename_i current
        split at step
        · rename_i a o moved
          cases step
          refine ⟨published_step h.published moved, fun c shown r mem echo => ?_⟩
          rcases List.mem_append.mp mem with waiting | new
          · exact h.entitles c shown r waiting echo
          · -- what the endpoints see is what the core has
            obtain ⟨event, sent, rfl⟩ := List.mem_map.mp new
            have same : s.visible = s.actor.core.snapshot :=
              current.trans (h.published (echo_live moved sent echo))
            have shown : s.visible.shows primary c = true := shown
            rw [same] at shown
            rcases Bool.or_eq_true_iff.mp shown with active | leads
            · exact Or.inl (eq_of_beq active)
            · exact Or.inr (Bool.and_eq_true_iff.mp leads)
        · cases step
      · cases step
  | publish =>
      cases step
      refine ⟨h.published, fun c shown r waiting echo => ?_⟩
      rcases patient rfl c shown with before | mute
      · exact h.entitles c before r waiting echo
      · rw [mute r waiting] at echo
        cases echo
  | deliver clientId mode =>
      simp only [broadcasting] at step
      split at step
      · cases step
      · rename_i r rest waiting
        cases step
        refine h.fewer (fun r mem => ?_)
        rw [waiting]
        exact List.mem_cons_of_mem _ mem
  | lag clientId missed mode =>
      cases step
      exact h.fewer (fun r mem => List.mem_of_mem_drop mem)

/-- The endpoint that writes an echo is entitled to it. -/
theorem owned (h : Entitled primary s) (step : (broadcasting primary).step s input = some (s', bytes)) :
    EchoOwned primary ⟨s, input, bytes, s'⟩ := by
  intro c r taken written
  obtain ⟨mode, byte, rest, -, echo, waiting⟩ := echoTaken_some taken
  have mem : r ∈ s.fifo c := by
    change s.fifo c = r :: rest at waiting
    rw [waiting]
    exact List.mem_cons_self
  exact h.entitles c ((echo_written step taken).mp written) r mem (by rw [echo]; rfl)

end Entitled

/-- **Echo ownership.**  In every interleaving of the actor and its endpoints with patient publishing,
every echo that is written goes to a client entitled to it. -/
theorem echo_owned {primary : ClientId → Bool} {maxTx : Nat} {ptt : Option PttManager}
    {reconnect : Bool} {firmware : UInt8} {start : Nat} {history : List BroadcastStep}
    {s : Broadcasting}
    (run : (broadcasting primary).Execution (.spawn (.spawn maxTx ptt reconnect firmware start))
      history s)
    (patient : ∀ e ∈ history, Patient primary e) : ∀ e ∈ history, EchoOwned primary e := by
  refine (run.always (I := Entitled primary) (G := Patient primary) ⟨fun _ => rfl, ?_⟩ ?_ patient).2
  · intro c shown r mem
    cases mem
  · intro s input bytes s' entitled step patient
    exact ⟨entitled.step step patient, entitled.owned step⟩

/-- The keyer echoes the job of client 1, and that of client 2 waits behind it. -/
def echoedJob : List BroadcastInput :=
  [.act (.request (.register 1 true) 0 0 none), .publish,
    .act (.request (.register 2 false) 0 0 none), .publish,
    .act (.request (.enqueue 1 ⟨[69], [69]⟩ none false) 1 1 none), .publish,
    .act (.request (.enqueue 2 ⟨[84], [84]⟩ none false) 1 1 none), .publish,
    .act (.byte 69 2 2 none), .publish]

/-- A snapshot is published by which no other client becomes active and no break-in is set, or while no echo
waits for the client that does. -/
def calm (e : BroadcastStep) : Bool :=
  (e.before.actor.published.activeClientId.all fun c =>
    e.before.visible.activeClientId == some c || (e.before.fifo c).all (fun r => !r.event.isEcho)) &&
    (!e.before.actor.published.breakIn || e.before.visible.breakIn)

theorem patient_of_calm {primary : ClientId → Bool} {history : List BroadcastStep}
    (quiet : ∀ e ∈ history, e.input = .publish → calm e = true) :
    ∀ e ∈ history, Patient primary e := by
  intro e mem publishes c shown
  obtain ⟨active, breakIn⟩ := Bool.and_eq_true_iff.mp (quiet e mem publishes)
  rcases Bool.or_eq_true_iff.mp shown with named | leads
  · rw [eq_of_beq named] at active
    rcases Bool.or_eq_true_iff.mp active with before | mute
    · exact Or.inl (Bool.or_eq_true_iff.mpr (Or.inl before))
    · exact Or.inr (fun r waiting => by simpa using List.all_eq_true.mp mute r waiting)
  · obtain ⟨primary, set⟩ := Bool.and_eq_true_iff.mp leads
    rw [set] at breakIn
    refine Or.inl (Bool.or_eq_true_iff.mpr (Or.inr (Bool.and_eq_true_iff.mpr ⟨primary, ?_⟩)))
    exact breakIn

/-- The endpoint of client 1 takes its echo at once. -/
theorem echo_owned_echoedJob :
    ∃ history s, (broadcasting (· == 1)).Execution (.spawn leased) history s ∧
      (∀ e ∈ history, EchoOwned (· == 1) e) ∧
      (history.map (·.output)).getLast? = some [69] := by
  have run := (broadcasting (· == 1)).execution_exec (.spawn leased)
    (echoedJob ++ [.deliver 1 .wk2]) (by decide)
  exact ⟨_, _, run, echo_owned run (patient_of_calm (by decide)), by decide⟩

/-- The endpoint of client 2 takes the echo of client 1's job when its own has started. -/
theorem echo_not_owned :
    ∃ history s, (broadcasting (· == 1)).Execution (.spawn leased) history s ∧
      ¬ ∀ e ∈ history, EchoOwned (· == 1) e := by
  have run := (broadcasting (· == 1)).execution_exec (.spawn leased)
    (echoedJob ++ [.act (.byte 0xc4 3 3 none), .publish, .act (.byte 0xc0 4 4 none), .publish,
      .deliver 2 .wk2]) (by decide)
  refine ⟨_, _, run, fun owned => ?_⟩
  have last := owned _ (List.getLast_mem (by decide)) 2 ⟨.echo 69, some 1, false⟩ (by decide) (by decide)
  exact absurd last (by unfold Receipt.entitles; decide)

end CatHub.WinKeyer
