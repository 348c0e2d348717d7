/-
# CatHub.WinKeyer.Cancellation — withdrawing one client's work spares everybody else's.

Three operations withdraw work for a client: `cancelClient` drops all its jobs, `cancelJob` one of
them, and `unregisterClient` all of them together with its entry.  Where the active job is withdrawn
the next one starts in the same call.  `Spares` says what such a call leaves alone, and it holds of
all three in every state: a job that starts moves from the head of the queue to the active slot, so
in the list of the active job and the queue behind it nothing has moved.
-/
import CatHub.WinKeyer.Representation

namespace CatHub.WinKeyer

open BrokerCore

/-- A call for `clientId` spares the work of all other clients: their jobs, the active one in front,
are the same in the same order, none of them is reported canceled, and an active job of theirs stays
as it is with nothing written. -/
structure Spares (core : BrokerCore) (clientId : ClientId) (actions : List PhysicalAction)
    (core' : BrokerCore) : Prop where
  jobs : jobsNotOf core'.jobs clientId = jobsNotOf core.jobs clientId
  notified : ∀ jobId owner, PhysicalAction.canceled jobId owner ∈ actions → owner = clientId
  active : ∀ a, core.active = some a → a.job.clientId ≠ clientId →
    core'.active = some a ∧ writes actions = []

/-! ## What is withdrawn -/

section Withdrawn

variable {clientId : ClientId}

theorem jobsNotOf_append (front back : List Job) :
    jobsNotOf (front ++ back) clientId = jobsNotOf front clientId ++ jobsNotOf back clientId :=
  List.filter_append front back

theorem jobsNotOf_idem (jobs : List Job) :
    jobsNotOf (jobsNotOf jobs clientId) clientId = jobsNotOf jobs clientId := by
  simp [jobsNotOf, List.filter_filter]

/-- Dropping some jobs of a client drops no job of the others. -/
theorem jobsNotOf_filter {p : Job → Bool} (own : ∀ job, p job = true → job.clientId = clientId)
    (jobs : List Job) :
    jobsNotOf (jobs.filter (fun job => !p job)) clientId = jobsNotOf jobs clientId := by
  unfold jobsNotOf
  rw [List.filter_filter]
  refine List.filter_congr (fun job _ => ?_)
  cases dropped : p job with
  | false => simp
  | true => simp [own job dropped]

theorem canceled_owner {jobs : List Job} (own : ∀ job ∈ jobs, job.clientId = clientId)
    {jobId : Nat} {owner : ClientId}
    (mem : PhysicalAction.canceled jobId owner ∈ jobs.map cancellation) : owner = clientId := by
  obtain ⟨job, dropped, same⟩ := List.mem_map.mp mem
  cases same
  exact own job dropped

theorem jobsOf_own {jobs : List Job} : ∀ job ∈ jobsOf jobs clientId, job.clientId = clientId := by
  intro job mem
  simpa using (List.mem_filter.mp mem).2

/-- A start is not a cancellation. -/
theorem canceled_started {mid : BrokerCore} {clock jobId : Nat} {owner : ClientId} :
    PhysicalAction.canceled jobId owner ∉ (mid.startNextOrRestore clock).2 := by
  intro mem
  obtain ⟨chunks, same⟩ := OnlyWrites.begins (startNextOrRestore_begins mid clock)
  simp [same] at mem

end Withdrawn

/-! ## Two ways to withdraw -/

namespace Spares

variable {core core' : BrokerCore} {clientId : ClientId}

/-- The active job stays, and only queued jobs of the client are dropped. -/
theorem withdrawn {p : Job → Bool} (own : ∀ job, p job = true → job.clientId = clientId)
    (active : core'.active = core.active)
    (queue : core'.queue = core.queue.filter (fun job => !p job)) {actions : List PhysicalAction}
    (notified : ∀ jobId owner, PhysicalAction.canceled jobId owner ∈ actions → owner = clientId)
    (silent : core.active.isSome → writes actions = []) : Spares core clientId actions core' where
  jobs := by
    unfold BrokerCore.jobs
    rw [active, queue, jobsNotOf_append, jobsNotOf_append, jobsNotOf_filter own]
  notified := notified
  active := fun a busy _ => ⟨active.trans busy, silent (by rw [busy]; rfl)⟩

/-- The active job of the client ends, and the next one starts. -/
theorem passedOn {a : ActiveJob} {mid : BrokerCore} {clock : Nat} {ending : List PhysicalAction}
    (busy : core.active = some a) (owner : a.job.clientId = clientId) (idle : mid.active = none)
    (queue : jobsNotOf mid.queue clientId = jobsNotOf core.queue clientId)
    (notified : ∀ jobId owner, PhysicalAction.canceled jobId owner ∈ ending → owner = clientId) :
    Spares core clientId (ending ++ (mid.startNextOrRestore clock).2)
      (mid.startNextOrRestore clock).1 where
  jobs := by
    have started := (startNextOrRestore_begins mid clock).jobs idle
    have here : jobsNotOf [a.job] clientId = [] := by simp [jobsNotOf, owner]
    have before : core.jobs = [a.job] ++ core.queue := by
      unfold BrokerCore.jobs
      rw [busy]
      rfl
    rw [started.1, queue, before, jobsNotOf_append, here]
    rfl
  notified := by
    intro jobId other mem
    rcases List.mem_append.mp mem with ended | started
    · exact notified jobId other ended
    · exact absurd started canceled_started
  active := by
    intro b busy' other
    rw [busy] at busy'
    obtain rfl := Option.some.inj busy'
    exact absurd owner other

end Spares

/-! ## The three operations -/

theorem cancelClient_spares (core : BrokerCore) (clientId : ClientId) (includeActive : Bool)
    (clock : Nat) : Spares core clientId (core.cancelClient clientId includeActive clock).2
      (core.cancelClient clientId includeActive clock).1 := by
  have own : ∀ job : Job, (job.clientId == clientId) = true → job.clientId = clientId := by simp
  have dropped : ∀ jobId owner, PhysicalAction.canceled jobId owner ∈
      (jobsOf core.queue clientId).map cancellation → owner = clientId :=
    fun _ _ mem => canceled_owner jobsOf_own mem
  unfold cancelClient
  cases busy : core.active with
  | none =>
      simp only []
      split
      · refine .withdrawn own busy.symm rfl ?_ (by simp [busy])
        intro jobId owner mem
        rcases List.mem_cons.mp mem with write | mem
        · cases write
        · exact dropped jobId owner mem
      · exact .withdrawn own busy.symm rfl dropped (by simp [busy])
  | some a =>
      simp only []
      split
      · rename_i includes
        have owner : a.job.clientId = clientId := by
          simpa using (Bool.and_eq_true_iff.mp includes).2
        have alone : ∀ job ∈ [a.job], job.clientId = clientId := by simpa using owner
        refine .passedOn busy owner rfl (jobsNotOf_idem core.queue) ?_
        intro jobId other mem
        rcases List.mem_cons.mp mem with write | mem
        · cases write
        · rcases List.mem_append.mp mem with mem | mem
          · exact dropped jobId other mem
          · exact canceled_owner alone mem
      · exact .withdrawn own busy.symm rfl dropped (fun _ => writes_cancellations _)

theorem cancelJob_spares (core : BrokerCore) (clientId : ClientId) (jobId clock : Nat) :
    Spares core clientId (core.cancelJob clientId jobId clock).2.2
      (core.cancelJob clientId jobId clock).1 := by
  unfold cancelJob
  split
  · rename_i a matching
    obtain ⟨busy, same⟩ := Option.filter_eq_some_iff.mp matching
    have owner : a.job.clientId = clientId := by
      simpa using (Bool.and_eq_true_iff.mp same).1
    have alone : ∀ job ∈ [a.job], job.clientId = clientId := by simpa using owner
    refine .passedOn busy owner rfl rfl ?_
    intro id other mem
    rcases List.mem_cons.mp mem with write | mem
    · cases write
    · exact canceled_owner alone mem
  · have own : ∀ job : Job, (job.clientId == clientId && job.id == jobId) = true →
        job.clientId = clientId := by
      intro job same
      simpa using (Bool.and_eq_true_iff.mp same).1
    refine .withdrawn own ?_ ?_ ?_ (fun _ => writes_cancellations _)
    · rfl
    · rfl
    · intro id other mem
      exact canceled_owner (fun job dropped => own job (List.mem_filter.mp dropped).2) mem

theorem unregisterClient_spares (core : BrokerCore) (clientId : ClientId) (clock : Nat) :
    Spares core clientId (core.unregisterClient clientId clock).2
      (core.unregisterClient clientId clock).1 := by
  have own : ∀ job : Job, (job.clientId == clientId) = true → job.clientId = clientId := by simp
  have dropped : ∀ jobId owner, PhysicalAction.canceled jobId owner ∈
      (jobsOf core.queue clientId).map cancellation → owner = clientId :=
    fun _ _ mem => canceled_owner jobsOf_own mem
  unfold unregisterClient
  cases busy : core.active with
  | none => exact .withdrawn own busy.symm rfl dropped (by simp [busy])
  | some a =>
      simp only []
      split
      · rename_i owner
        have alone : ∀ job ∈ [a.job], job.clientId = clientId := by simpa using owner
        refine .passedOn busy owner rfl (jobsNotOf_idem core.queue) ?_
        intro jobId other mem
        rcases List.mem_append.mp mem with mem | mem
        · exact dropped jobId other mem
        · rcases List.mem_cons.mp mem with write | mem
          · cases write
          · exact canceled_owner alone mem
      · exact .withdrawn own busy.symm rfl dropped (fun _ => writes_cancellations _)

/-- **Cancel isolation.**  In every state, reachable or not, a cancel, the cancel of one job and an
unregistration for a client spare the work of all others. -/
theorem cancel_isolated (core : BrokerCore) (clientId : ClientId) (clock : Nat) :
    (∀ includeActive, Spares core clientId (core.cancelClient clientId includeActive clock).2
      (core.cancelClient clientId includeActive clock).1) ∧
    (∀ jobId, Spares core clientId (core.cancelJob clientId jobId clock).2.2
      (core.cancelJob clientId jobId clock).1) ∧
    Spares core clientId (core.unregisterClient clientId clock).2
      (core.unregisterClient clientId clock).1 :=
  ⟨fun includeActive => cancelClient_spares core clientId includeActive clock,
    fun jobId => cancelJob_spares core clientId jobId clock,
    unregisterClient_spares core clientId clock⟩

end CatHub.WinKeyer
