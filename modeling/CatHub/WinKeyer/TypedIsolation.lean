/-
# CatHub.WinKeyer.TypedIsolation — what the calls of one name leave to everybody else.

A request of the typed interface, other than an emergency stop, is about the jobs of its own client.  The
others keep theirs, in their order, and a job of theirs on the air is not disturbed by a byte.  And since
nobody takes a typed client out of the broker's table, no call is ever told that its client is unknown.
-/
import CatHub.WinKeyer.Admission
import CatHub.WinKeyer.TypedClients

namespace CatHub.WinKeyer.Typed

open Systems Ptt BrokerCore

/-! ## Requests spare the others -/

section Calls

variable {core : BrokerCore} {id : ClientId}

/-- A call that leaves the jobs alone and is silent under an active job. -/
theorem spares_same {actions : List PhysicalAction} {core' : BrokerCore} (active : core'.active = core.active)
    (queue : core'.queue = core.queue) (told : ∀ jobId owner, .canceled jobId owner ∉ actions)
    (silent : core.active.isSome → writes actions = []) : Spares core id actions core' where
  jobs := by
    unfold BrokerCore.jobs
    rw [active, queue]
  notified := fun jobId owner mem => absurd mem (told jobId owner)
  active := fun a busy _ => ⟨active.trans busy, silent (by rw [busy]; rfl)⟩

theorem registerClient_spares (core : BrokerCore) (id c : ClientId) (primary : Bool) :
    Spares core id [] (core.registerClient c primary).1 := by
  unfold registerClient
  split <;> exact spares_same rfl rfl (fun _ _ mem => by cases mem) (fun _ => rfl)

theorem setClientSpeed_spares (core : BrokerCore) (id c : ClientId) (speed : SpeedMode) :
    Spares core id (core.setClientSpeed c speed).2 (core.setClientSpeed c speed).1 := by
  unfold setClientSpeed
  split
  · exact spares_same rfl rfl (fun _ _ mem => by cases mem) (fun _ => rfl)
  · refine spares_same rfl rfl (fun jobId owner mem => ?_) (fun busy => ?_)
    · split at mem
      · cases List.mem_singleton.mp mem
      · cases mem
    · obtain ⟨a, active⟩ := Option.isSome_iff_exists.mp busy
      rw [active]
      rfl

/-- A text waits behind the jobs that are there, or begins when there are none. -/
theorem enqueue_spares {core core' : BrokerCore} {payload : TransmitPayload} {speed : Option SpeedMode}
    {now clock jobId : Nat} {actions : List PhysicalAction}
    (taken : core.enqueue id payload speed false now clock = some (core', jobId, actions)) :
    Spares core id actions core' := by
  have own : ∀ (job : Job), job.clientId = id → jobsNotOf [job] id = [] := by
    intro job owner
    simp [jobsNotOf, owner]
  cases enqueue_cases taken with
  | joinedActive stream | joinedTail stream => cases stream
  | @waits client _ _ _ busy =>
      refine ⟨?_, fun _ _ mem => (by cases mem), fun a active _ => ⟨active, rfl⟩⟩
      show jobsNotOf (_ ++ (core.queue ++ [core.newJob id payload _ false now])) id = _
      rw [← List.append_assoc, jobsNotOf_append, own _ rfl, List.append_nil]
      rfl
  | @starts client opened _ _ _ idle same =>
      have start := (startNextOrRestore_begins opened clock).jobs (by rw [same]; exact idle)
      refine ⟨?_, fun jobId owner mem => absurd mem canceled_started, fun a active _ => ?_⟩
      · rw [start.1, same]
        show jobsNotOf (core.queue ++ [core.newJob id payload _ false now]) id = _
        rw [jobsNotOf_append, own _ rfl, List.append_nil, BrokerCore.jobs, idle]
        rfl
      · rw [idle] at active
        cases active

end Calls

/-- The requests of the typed interface other than an emergency stop. -/
theorem asked_spares {a : Actor} {now later : Nat} {q : Ask} {request : Request} {id : ClientId}
    (asks : q.request = some request) (client : request.clientId? = some id) :
    Spares a.core id (a.core.returned (a.decisionOps now later (.request request)))
      (a.core.afterCalls (a.decisionOps now later (.request request))) := by
  have aside : Spares a.core id (a.core.returned []) (a.core.afterCalls []) :=
    spares_same rfl rfl (fun _ _ mem => by cases mem) (fun _ => rfl)
  have single : ∀ op : BrokerOp, Spares a.core id (op.apply a.core).2.actions (op.apply a.core).1 →
      Spares a.core id (a.core.returned [op]) (a.core.afterCalls [op]) := by
    intro op spares
    simpa using spares
  cases q with
  | register c =>
      cases asks
      exact single _ (registerClient_spares a.core id c false)
  | enqueue c text speed =>
      cases asks
      obtain rfl := Option.some.inj client
      simp only [Actor.decisionOps]
      split
      · refine single _ ?_
        simp only [BrokerOp.apply]
        split
        · rename_i taken
          exact enqueue_spares taken
        · exact aside
      · exact aside
  | cancel c includeActive =>
      cases asks
      obtain rfl := Option.some.inj client
      exact single _ (cancelClient_spares a.core c includeActive later)
  | cancelJob c jobId =>
      cases asks
      obtain rfl := Option.some.inj client
      exact single _ (cancelJob_spares a.core c jobId later)
  | setSpeed c speed =>
      cases asks
      simp only [Actor.decisionOps]
      split
      · exact aside
      · exact single _ (setClientSpeed_spares a.core id c speed)
  | emergencyStop =>
      cases asks
      cases client
  | _ => cases asks

/-! ## Steps -/

section Steps

variable {a a' : Actor} {now later : Nat} {request : Request} {fault : Option WriteFault} {o : Observation}

theorem canceled_sent {actions : List PhysicalAction} {events : List BrokerEvent} {jobId : Nat}
    {owner : ClientId} (sent : outcomes events = sentBy actions)
    (told : BrokerEvent.canceled jobId owner ∈ events) : .canceled jobId owner ∈ actions := by
  have mem : BrokerEvent.canceled jobId owner ∈ outcomes events := List.mem_filter.mpr ⟨told, rfl⟩
  rw [sent] at mem
  obtain ⟨action, held, event⟩ := List.mem_filterMap.mp mem
  cases action with
  | canceled jobId' owner' =>
      cases event
      exact held
  | write | completed => cases event

/-- What a request of the typed interface does, decided and written without a fault. -/
theorem decides_spares {q : Ask} {id : ClientId} {mid : Actor} {o₀ : Observation}
    {actions : List PhysicalAction} (asks : q.request = some request) (client : request.clientId? = some id)
    (decides : (a.atTime later).Decides now later (.request request) mid o₀ actions) :
    Spares a.core id actions mid.core := by
  have own : (a.atTime later).ownWrites (.request request) = [] := by
    cases q with
    | register | enqueue | cancel | cancelJob | emergencyStop | setSpeed =>
        cases asks
        rfl
    | _ => cases asks
  have poll : (a.atTime later).pollWrites now later (.request request) = [] := rfl
  rw [decides.core, decides.actions, own, poll, List.map_nil, List.nil_append, List.append_nil]
  exact asked_spares asks client

/-- A request that is served without a write fault spares the others. -/
theorem served_spares {q : Ask} {id : ClientId} (asks : q.request = some request)
    (client : request.clientId? = some id)
    (step : actor.step a (.request request now later none) = some (a', o)) :
    jobsNotOf a'.core.jobs id = jobsNotOf a.core.jobs id ∧
    (∀ jobId owner, .canceled jobId owner ∈ o.events → owner = id) ∧
    ∀ x, a.core.active = some x → x.job.clientId ≠ id → a'.core.active = some x ∧ o.written = [] := by
  generalize given : ActorInput.request request now later none = input at step
  cases actor_move step with
  | @turn trigger now' later' fault _ _ _ _ _ turn =>
      cases trigger with
      | byte | tick => cases given
      | request request' =>
          cases given
          cases turn with
          | goesOn decides core _ _ _ _ written sent =>
              have spares := decides_spares asks client decides
              rw [core, written]
              exact ⟨spares.jobs, fun _ _ told => spares.notified _ _ (canceled_sent sent told),
                spares.active⟩
          | fails _ _ failed =>
              rw [applyActions_failure] at failed
              cases failed
          | leaves _ shutdown =>
              cases shutdown
              cases client
          | misread _ misread => exact misread.elim
  | sunk _ _ _ decides core _ _ _ _ written sent =>
      cases given
      have spares := decides_spares asks client decides
      rw [core, written]
      exact ⟨spares.jobs, fun _ _ told => spares.notified _ _ (canceled_sent sent told),
        fun x active other => ⟨(spares.active x active other).1, rfl⟩⟩
  | _ => cases given

/-- A registered client is not told that it is unknown. -/
theorem enqueue_known {id : ClientId} {client : ClientState} (known : a.core.clients[id]? = some client)
    (payload : TransmitPayload) (speed : Option SpeedMode) :
    (a.handleEnqueue id payload speed false now later).reply ≠ some (.refused .unknownClient) := by
  cases outside : a.inMaintenance with
  | true =>
      have refused : a.handleEnqueue id payload speed false now later = a.refuse .maintenanceBusy := by
        unfold Actor.handleEnqueue
        exact if_pos outside
      rw [refused]
      exact fun same => by cases same
  | false =>
      have judged := handleEnqueue_judged outside id payload speed false now later
      generalize a.handleEnqueue id payload speed false now later = h at judged ⊢
      cases judged with
      | misfit | full | busy => exact fun same => by cases same
      | submitted sized room =>
          unfold Actor.submitJob
          rw [a.readyFor_core]
          split
          · exact fun same => by cases same
          · rename_i refused
            cases online : a.core.connected with
            | false => exact fun same => by cases same
            | true =>
                rcases enqueue_refused sized online known refused with ⟨job, joins, -⟩ | ⟨-, full⟩
                · cases joins
                · cases (room full).1

theorem asked_known {q : Ask} {id : ClientId} (asks : q.request = some request)
    (client : request.clientId? = some id) (known : Ordinary a.core id) :
    (a.handleRequest now later request).reply ≠ some (.refused .unknownClient) := by
  obtain ⟨entry, known, -⟩ := known
  cases q with
  | register c =>
      cases asks
      simp only [Actor.handleRequest]
      split <;> exact fun same => by cases same
  | enqueue c text speed =>
      cases asks
      obtain rfl := Option.some.inj client
      exact enqueue_known known _ speed
  | setSpeed c speed =>
      cases asks
      simp only [Actor.handleRequest]
      split
      · exact fun same => by cases same
      · split <;> exact fun same => by cases same
  | cancel | cancelJob | emergencyStop =>
      cases asks
      exact fun same => by cases same
  | _ => cases asks

/-- A step answers with the decision on its request. -/
theorem reply_decided (step : actor.step a (.request request now later fault) = some (a', o)) :
    o.reply = ((a.atTime later).handleRequest now later request).reply := by
  simp only [actor] at step
  split at step
  · split at step
    · have shown : o = _ := (congrArg Prod.snd (Option.some.inj step)).symm
      rw [shown]
      unfold Actor.requestTurn
      simp only []
      split
      · rfl
      · split <;> rfl
    · have shown : o = _ := (congrArg Prod.snd (Option.some.inj step)).symm
      rw [shown]
      unfold Actor.sinkTurn
      simp only []
      split <;> rfl
    · cases step
  · cases step

end Steps

/-! ## Every run -/

section Runs

variable {debug : Char → String} {keyer : Actor} {s : Service}
  {history : List (Transition Service ServiceInput (Option TypedStep))}
  {e : Transition Service ServiceInput (Option TypedStep)} {t : TypedStep}

/-- **A typed client is never unknown.**  Whatever the calls, the endpoints, the keyer and the transport do,
a request of a typed call, registrations aside, finds its client registered with the broker, and not as the
primary one; no call is refused as unknown. -/
theorem typed_known (run : (service debug).Execution { keyer } history s) (mem : e ∈ history)
    (shown : e.output = some t) {id : ClientId} {name : List Char} (named : t.name? = some name)
    (serves : t.client? = some id) : Ordinary t.step.before.core id ∧ Ordinary t.step.after.core id ∧
      t.step.output.reply ≠ some (.refused .unknownClient) := by
  obtain ⟨o, shows⟩ := shown_of_execution run e mem
  have shows := shows t shown
  have here : Ordinary t.step.before.core id := by
    rw [shows.before]
    exact o.ordinary _ (shows.entry named serves)
  obtain ⟨call, typed, -⟩ := Option.map_eq_some_iff.mp named
  obtain ⟨request, now, later, fault, asked, owned⟩ := shows.own call typed
  obtain ⟨q, asks⟩ := owned.asked
  have step := shows.step
  rw [asked] at step
  have client : request.clientId? = some id := by
    rw [TypedStep.client?, asked] at serves
    cases request with
    | register => cases serves
    | _ => exact serves
  refine ⟨here, served_kept asks step id here, ?_⟩
  rw [reply_decided step]
  exact asked_known asks client here

/-- The second client sends its text while the first one's is on the air. -/
theorem typed_known_three : ∃ history s e t, (service silent).Execution { keyer := leased } history s ∧
    e ∈ history ∧ e.output = some t ∧ t.client? = some 1000001 ∧
    (Ordinary t.step.before.core 1000001 ∧ Ordinary t.step.after.core 1000001 ∧
      t.step.output.reply ≠ some (.refused .unknownClient)) := by
  have run := (service silent).execution_exec { keyer := leased } threeCalls (by decide +kernel)
  have there : (((service silent).exec { keyer := leased } threeCalls).get
      (by decide +kernel)).1[14] ∈ _ := List.getElem_mem _
  exact ⟨_, _, _, _, run, there, rfl, by decide +kernel, typed_known run there rfl rfl (by decide +kernel)⟩

/-- **Isolation of names.**  A request of a typed call that is not an emergency stop, served without a write
fault, leaves all jobs of everybody else where they are: the same ones in the same order, none of them
reported as canceled; and under an active job of somebody else it writes nothing. -/
theorem typed_isolated (run : (service debug).Execution { keyer } history s) (mem : e ∈ history)
    (shown : e.output = some t) (typed : t.call.isSome) {request : Request} {now later : Nat} {id : ClientId}
    (served : t.step.input = .request request now later none) (client : request.clientId? = some id) :
    jobsNotOf t.step.after.core.jobs id = jobsNotOf t.step.before.core.jobs id ∧
    (∀ jobId owner, .canceled jobId owner ∈ t.step.output.events → owner = id) ∧
    ∀ x, t.step.before.core.active = some x → x.job.clientId ≠ id →
      t.step.after.core.active = some x ∧ t.step.output.written = [] := by
  have shows := (shown_of_execution run e mem).2 t shown
  obtain ⟨call, typed⟩ := Option.isSome_iff_exists.mp typed
  obtain ⟨request', now', later', fault', asked, owned⟩ := shows.own call typed
  obtain ⟨q, asks⟩ := owned.asked
  rw [served] at asked
  cases asked
  have step := shows.step
  rw [served] at step
  exact served_spares asks client step

end Runs

theorem typed_isolated_three : ∃ history s e t, (service silent).Execution { keyer := leased } history s ∧
    e ∈ history ∧ e.output = some t ∧ t.step.before.core.activeClientId = some 1000000 ∧
    (jobsNotOf t.step.after.core.jobs 1000001 = jobsNotOf t.step.before.core.jobs 1000001 ∧
    (∀ jobId owner, .canceled jobId owner ∈ t.step.output.events → owner = 1000001) ∧
    ∀ x, t.step.before.core.active = some x → x.job.clientId ≠ 1000001 →
      t.step.after.core.active = some x ∧ t.step.output.written = []) := by
  have run := (service silent).execution_exec { keyer := leased } threeCalls (by decide +kernel)
  have there : (((service silent).exec { keyer := leased } threeCalls).get
      (by decide +kernel)).1[14] ∈ _ := List.getElem_mem _
  exact ⟨_, _, _, _, run, there, rfl, by decide +kernel,
    typed_isolated run there rfl (by decide +kernel) rfl (by decide +kernel)⟩

end CatHub.WinKeyer.Typed
