/-
# CatHub.WinKeyer.Disconnect — the station lease after the transport is lost.

When a session fails, the actor drops its work and releases the station lease, and the reconnect
loop begins.  That loop serves requests with the same `handleRequest`, and an enqueue takes the
lease before the core can refuse the job for want of a connection; unlike in a session, nothing
releases it afterwards.  `released_iff` says that this request is the only way in which the station
can own the lease while the core is disconnected.
-/
import CatHub.WinKeyer.ActorCalls

namespace CatHub.WinKeyer

open Systems Ptt

/-! ## The property and the condition -/

/-- While the core is disconnected, the station does not own the lease. -/
def Released (a : Actor) : Prop := a.core.connected = false → a.stationOwns = false

instance (a : Actor) : Decidable (Released a) := inferInstanceAs (Decidable (_ → _))

/-- The step serves, in the reconnect loop, an enqueue that takes the station lease. -/
def ClaimsOffline (e : ActorStep) : Bool :=
  match e.input with
  | .request request _ _ _ =>
      e.before.loop == .reconnecting && e.before.ptt.isSome && e.before.claims request
  | _ => false

/-! ## The lease in one step -/

namespace Actor

theorem stationOwns_of_ptt {a b : Actor} (h : a.ptt = b.ptt) : a.stationOwns = b.stationOwns := by
  simp only [stationOwns, h]

@[simp] theorem unkeyStation_owns (a : Actor) : a.unkeyStation.stationOwns = false := by
  unfold stationOwns unkeyStation
  cases a.ptt with
  | none => rfl
  | some m =>
      show ((m.unkey stationTxOwner).owner == some stationTxOwner) = false
      rw [PttManager.unkey_owner]
      split
      · rfl
      · rename_i other
        simpa using other

theorem keyStation_owns {a : Actor} (now : Nat) (granted : a.stationTxBusy = false)
    (managed : a.ptt.isSome = true) : (a.keyStation now).stationOwns = true := by
  obtain ⟨m, hm⟩ := Option.isSome_iff_exists.mp managed
  have grants : m.grants stationTxOwner := by simpa [stationTxBusy, hm] using granted
  simp [stationOwns, keyStation, hm, PttManager.tryKey_granted grants]

/-- Reopening the transport leaves the lease alone. -/
theorem reopenTransport_ptt (a : Actor) (now : Nat) (outcome : Reopening) :
    (a.reopenTransport now outcome).1.ptt = a.ptt := by
  cases outcome with
  | openFailed | initializationFailed => rfl
  | opened firmware fault =>
      unfold reopenTransport
      simp only []
      split <;> rfl

/-- Another task's call does not make the station the owner. -/
theorem foreign_owns {m : PttManager} {call : TimedCall} (foreign : foreignCall call = true)
    (other : m.owner ≠ some stationTxOwner) : (m.apply call).owner ≠ some stationTxOwner := by
  obtain ⟨time, call⟩ := call
  cases call with
  | tryKey sessionId hasPtt =>
      show (m.tryKey sessionId hasPtt time).1.owner ≠ some stationTxOwner
      by_cases granted : hasPtt = true ∧ m.grants sessionId
      · rw [granted.1, PttManager.tryKey_granted granted.2]
        simpa [foreignCall] using foreign
      · rw [PttManager.tryKey_refused granted]
        exact other
  | unkey sessionId =>
      show (m.unkey sessionId).owner ≠ some stationTxOwner
      rw [PttManager.unkey_owner]
      split
      · exact fun h => by cases h
      · exact other

end Actor

/-- Outside a session the station does not own the lease. -/
def FreeOffline (a : Actor) : Prop := a.loop ≠ .session → a.stationOwns = false

theorem released_of_free {a : Actor} (s : Sound a) (free : FreeOffline a) : Released a := by
  intro off
  refine free (fun live => ?_)
  rw [s.connected live] at off
  cases off

theorem free_of_session {a a' : Actor} {now : Nat} {o : Observation}
    (turn : a.SessionTurn now a' o) (live : a.loop = .session) : FreeOffline a' := by
  obtain ⟨mid, actions, fault, decided, closes, _⟩ := turn
  cases closes with
  | goesOn _ _ loop =>
      intro off
      exact absurd (loop.trans (decided.loop.trans live)) off
  | fails message => exact fun _ => Actor.unkeyStation_owns _
  | leaves _ _ _ _ _ ptt =>
      intro _
      rw [Actor.stationOwns_of_ptt ptt]
      exact Actor.unkeyStation_owns mid

/-- The lease after a request in the reconnect loop. -/
theorem sink_owns {a : Actor} (request : Request) (now : Nat) (free : a.stationOwns = false) :
    (a.sinkTurn request now a.clock).1.stationOwns = (a.ptt.isSome && a.claims request) := by
  have served := Actor.serves_request a now a.clock request
  unfold Actor.sinkTurn
  simp only []
  split
  · rename_i stop
    rw [Actor.stop_shutdown stop]
    show (Actor.leave _).stationOwns = (a.ptt.isSome && false)
    rw [Bool.and_false]
    exact Actor.unkeyStation_owns _
  · show Actor.stationOwns (a.handleRequest now a.clock request).actor = _
    by_cases claimed : a.claims request = true
    · rw [Actor.stationOwns_of_ptt (served.ptt.trans (if_pos claimed)), claimed, Bool.and_true]
      cases managed : a.ptt with
      | none => simp [Actor.stationOwns, Actor.keyStation, managed]
      | some m =>
          have owns := Actor.keyStation_owns now (Actor.claims_lease claimed) (by simp [managed])
          rw [owns]
          rfl
    · rw [Actor.stationOwns_of_ptt (served.ptt.trans (if_neg claimed)), free,
        Bool.eq_false_iff.mpr claimed, Bool.and_false]

/-- A turn of a session claims nothing offline. -/
theorem claimsOffline_session {a a' : Actor} {input : ActorInput} {o : Observation}
    (live : a.loop = .session) : ClaimsOffline ⟨a, input, o, a'⟩ = false := by
  cases input with
  | request => simp [ClaimsOffline, live]
  | _ => rfl

/-- One step from a state in which the lease is free outside a session. -/
theorem free_step {a a' : Actor} {input : ActorInput} {o : Observation} (s : Sound a)
    (free : FreeOffline a) (step : actor.step a input = some (a', o)) :
    (ClaimsOffline ⟨a, input, o, a'⟩ = false → FreeOffline a') ∧
      (ClaimsOffline ⟨a, input, o, a'⟩ = true → ¬ Released a') := by
  cases actor_effect s step with
  | turn live _ _ turn =>
      refine ⟨fun _ => free_of_session turn live, fun claims => ?_⟩
      rw [claimsOffline_session live] at claims
      cases claims
  | @sunk request now later fault _ off _ =>
      let later' : Actor := { a with clock := later }
      have owner : later'.stationOwns = false := free (by rw [off]; decide)
      have owns := sink_owns request now owner
      have offline := (Actor.serves_request later' now later request).connected.trans (s.offline off).1
      -- Nothing else can take the lease here, so owning it and claiming it are the same.
      have claims : ∀ next, ClaimsOffline ⟨a, .request request now later fault, o, next⟩ =
          (a.ptt.isSome && a.claims request) := by
        intro next
        simp [ClaimsOffline, off]
      rw [claims]
      refine ⟨fun released _ => owns.trans released, fun owned released => ?_⟩
      have released' := released ((congrArg BrokerCore.connected
        (later'.sinkTurn_core request now later)).trans offline)
      rw [owns] at released'
      exact absurd (released'.symm.trans owned) (by decide)
  | left => exact ⟨fun _ _ => Actor.unkeyStation_owns a, fun claims => by cases claims⟩
  | lost error _ => exact ⟨fun _ _ => Actor.unkeyStation_owns _, fun claims => by cases claims⟩
  | @reopened now outcome _ off _ =>
      have owner : a.stationOwns = false := free (by rw [off]; decide)
      have same := Actor.reopenTransport_ptt { a with clock := now } now outcome
      exact ⟨fun _ _ => (Actor.stationOwns_of_ptt same).trans owner, fun claims => by cases claims⟩
  | foreign call other _ =>
      refine ⟨fun _ off => ?_, fun claims => by cases claims⟩
      have owner : a.stationOwns = false := free off
      show Option.any _ (a.ptt.map (·.apply call)) = false
      cases managed : a.ptt with
      | none => rfl
      | some m =>
          have apart : m.owner ≠ some stationTxOwner := by
            simpa [Actor.stationOwns, managed] using owner
          simpa using Actor.foreign_owns other apart

/-! ## Every run -/

section Runs

variable {maxTx : Nat} {ptt : Option PttManager} {reconnect : Bool} {firmware : UInt8} {start : Nat}
  {history : List ActorStep} {a : Actor}

/-- **The lease stays released.**  In every run of the actor, the station lease is released in every
disconnected state, if and only if no step of the reconnect loop serves an enqueue that takes the
lease. -/
theorem released_iff
    (run : actor.Execution (.spawn maxTx ptt reconnect firmware start) history a) :
    (∀ e ∈ history, Released e.after) ↔ ∀ e ∈ history, ClaimsOffline e = false := by
  constructor
  · -- the lease is free offline as long as every state was released
    suffices kept : (∀ e ∈ history, Released e.after) →
        (Sound a ∧ FreeOffline a) ∧ ∀ e ∈ history, ClaimsOffline e = false from
      fun released => (kept released).2
    refine run.invariant (I := fun history a => (∀ e ∈ history, Released e.after) →
      (Sound a ∧ FreeOffline a) ∧ ∀ e ∈ history, ClaimsOffline e = false) ?_ ?_
    · intro _
      exact ⟨⟨sound_spawn, fun off => absurd rfl off⟩, by simp⟩
    · intro history a input o a' _ ih step released
      obtain ⟨⟨s, free⟩, online⟩ := ih (fun e he => released e (List.mem_append_left _ he))
      have released' : Released a' := released _ (List.mem_append_right _ List.mem_cons_self)
      obtain ⟨stays, claims⟩ := free_step s free step
      have online' : ClaimsOffline ⟨a, input, o, a'⟩ = false :=
        Bool.eq_false_iff.mpr (fun claimed => claims claimed released')
      refine ⟨⟨(actor_calls s step).sound, stays online'⟩, fun e he => ?_⟩
      rcases List.mem_append.mp he with he | he
      · exact online e he
      · rw [List.mem_singleton.mp he]
        exact online'
  · intro online
    refine (run.always (I := fun a => Sound a ∧ FreeOffline a)
      (G := fun e => ClaimsOffline e = false) ?_ ?_ online).2
    · exact ⟨sound_spawn, fun off => absurd rfl off⟩
    · rintro a input o a' ⟨s, free⟩ step online
      have s' := (actor_calls s step).sound
      have free' := (free_step s free step).1 online
      exact ⟨⟨s', free'⟩, released_of_free s' free'⟩

end Runs

/-- A client's job is active when the transport is lost; in the reconnect loop the client's next job
finds the last status busy, and the transport comes back. -/
theorem released_iff_reopened :
    ∃ history a, actor.Execution leased history a ∧ ∀ e ∈ history, Released e.after := by
  have run := actor.execution_exec leased
    [.request (.register 1 false) 0 0 none,
      .request (.enqueue 1 ⟨[69], [69]⟩ none false) 1 1 none, .byte 0xc4 2 2 none, .readError "gone",
      .request (.enqueue 1 ⟨[84], [84]⟩ none false) 3 3 none, .reopen 4 (.opened 31 none)] (by decide)
  exact ⟨_, _, run, (released_iff run).mpr (by decide)⟩

/-- The transport of an idle keyer is lost, and a client enqueues a job. -/
theorem not_released :
    ∃ history a, actor.Execution leased history a ∧ ¬ ∀ e ∈ history, Released e.after := by
  have run := actor.execution_exec leased
    [.readError "gone", .request (.enqueue 1 ⟨[69], [69]⟩ none false) 1 1 none] (by decide)
  exact ⟨_, _, run, by decide⟩

end CatHub.WinKeyer
