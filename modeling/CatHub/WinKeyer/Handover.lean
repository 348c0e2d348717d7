/-
# CatHub.WinKeyer.Handover — where the chunks of a call come from.

A call of the core writes the command or the payload that it is handed, a queued payload, a speed, one of
a few fixed chunks, or the stored commands of a client.  The last happens only when the keyer goes over to
that client: `handsTo` says, from the core before the call, whom a call hands the keyer to, and `replayed`
whose profile it writes then.  `call_source` says that every chunk comes from one of these.
-/
import CatHub.WinKeyer.Representation

namespace CatHub.WinKeyer

open BrokerCore

namespace BrokerCore

/-- Whose turn it is when the keyer is free and `queue` waits: the client of the first job, or else the
foreground's. -/
def turnOf (core : BrokerCore) : List Job → Option ClientId
  | job :: _ => some job.clientId
  | [] => core.foreground.map Prod.fst

/-- The profile that has to be replayed when the keyer goes over to a client. -/
def replayFor (core : BrokerCore) (clientId : ClientId) : Option Profile :=
  if core.appliedProfileClientId = some clientId then none
  else core.clients[clientId]?.map (·.profile)

end BrokerCore

/-- The client that a call hands the keyer to, if it passes an ownership boundary. -/
def BrokerOp.handsTo (core : BrokerCore) : BrokerOp → Option ClientId
  | .unregisterClient clientId _ =>
      if core.activeClientId = some clientId then
        { core with clients := core.clients.erase clientId }.turnOf (jobsNotOf core.queue clientId)
      else none
  | .enqueue clientId payload _ _ _ _ =>
      if core.active.isNone && core.connected && !payload.wireBytes.isEmpty &&
          decide (payload.wireBytes.length ≤ maxJobBytes) && core.clients[clientId]?.isSome then
        some ((core.queue.head?.map (·.clientId)).getD clientId)
      else none
  | .cancelClient clientId includeActive _ =>
      if includeActive && core.activeClientId == some clientId then
        core.turnOf (jobsNotOf core.queue clientId)
      else none
  | .cancelJob clientId jobId _ =>
      if core.active.any (fun active => active.job.clientId == clientId && active.job.id == jobId) then
        core.turnOf core.queue
      else none
  | .emergencyStop _ => core.turnOf []
  | .observeStatus status _ =>
      if core.active.any (·.sawBusy) && !(status.busy || status.waiting || status.keyDown) then
        core.turnOf core.queue
      else none
  | .confirmIdleAfterSettle now settle _ =>
      if core.active.any (fun active => active.observedStatus && now - active.startedAt ≥ settle) &&
          !core.status.busy && !core.status.waiting && !core.status.keyDown then
        core.turnOf core.queue
      else none
  | .watchdog now =>
      if core.active.any (fun active => now - active.startedAt ≥ core.maxTx) then core.turnOf []
      else none
  | .restoreForeground => core.turnOf []
  | _ => none

/-- The profile that a call replays. -/
def BrokerOp.replayed (core : BrokerCore) (op : BrokerOp) : Option Profile :=
  (op.handsTo core).bind core.replayFor

/-- Where a chunk comes from that a call writes. -/
inductive Source (core : BrokerCore) (op : BrokerOp) : List UInt8 → Prop
  /-- It is the command of a Configure, or of the active owner. -/
  | command {clientId : ClientId} {command : List UInt8} :
      op = .setClientCommand clientId command ∨ op = .activeOwnerCommand clientId command →
      Source core op command
  /-- It is the payload that an enqueue hands in. -/
  | payload {clientId : ClientId} {payload : TransmitPayload} {speed : Option SpeedMode}
      {stream : Bool} {now clock : Nat} : op = .enqueue clientId payload speed stream now clock →
      Source core op payload.wireBytes
  /-- It is a payload that waits. -/
  | waiting {job : Job} : job ∈ core.queue → Source core op job.payload.wireBytes
  | speed (speed : SpeedMode) : Source core op speed.command
  /-- It is a Clear Buffer, alone or with the key released, or a status request. -/
  | fixed {chunk : List UInt8} : chunk ∈ ([[0x0a], [0x0a, 0x0b, 0x00], [0x15]] : List (List UInt8)) →
      Source core op chunk
  | replayed {profile : Profile} {chunk : List UInt8} : op.replayed core = some profile →
      chunk ∈ storedCommands profile → Source core op chunk

/-! ## Ownership boundaries -/

section
variable {core : BrokerCore} {op : BrokerOp} {chunk : List UInt8}

/-- What restoring the foreground writes. -/
theorem restore_source (mid : BrokerCore) (turn : op.handsTo core = mid.turnOf [])
    (profiles : ∀ c profile, mid.turnOf [] = some c → mid.replayFor c = some profile →
      core.replayFor c = some profile)
    (mem : chunk ∈ writes mid.restoreForegroundSpeed.2) : Source core op chunk := by
  rw [writes_restoreForegroundSpeed] at mem
  rcases List.mem_append.mp mem with stored | last
  · unfold foregroundReplay at stored
    split at stored
    · rename_i e foreground
      split at stored
      · rename_i unmarked
        have turnOf : mid.turnOf [] = some e.1 := by
          unfold BrokerCore.turnOf
          rw [foreground]
          rfl
        have known : mid.clients[e.1]? = some e.2 := by
          have entry := List.mem_of_find?_eq_some foreground
          exact Std.TreeMap.mem_toList_iff_getElem?_eq_some.mp entry
        have replays : mid.replayFor e.1 = some e.2.profile := by
          unfold BrokerCore.replayFor
          rw [if_neg (fun same => unmarked same.symm), known]
          rfl
        refine .replayed ?_ stored
        unfold BrokerOp.replayed
        rw [turn, turnOf]
        exact profiles _ _ turnOf replays
      · cases stored
    · cases stored
  · rw [List.mem_singleton.mp last]
    exact .speed _

/-- What going on writes. -/
theorem boundary_source (mid : BrokerCore) {clock : Nat} (turn : op.handsTo core = mid.turnOf mid.queue)
    (queue : ∀ job ∈ mid.queue, Source core op job.payload.wireBytes)
    (profiles : ∀ c profile, mid.turnOf mid.queue = some c → mid.replayFor c = some profile →
      core.replayFor c = some profile)
    (mem : chunk ∈ writes (mid.startNextOrRestore clock).2) : Source core op chunk := by
  cases waiting : mid.queue with
  | nil =>
      have restored : mid.startNextOrRestore clock = mid.restoreForegroundSpeed := by
        unfold startNextOrRestore
        rw [waiting]
      rw [restored] at mem
      rw [waiting] at turn profiles
      exact restore_source mid turn profiles mem
  | cons job rest =>
      rw [writes_startNextOrRestore, waiting] at mem
      have first : Source core op job.payload.wireBytes := queue job (by rw [waiting]; simp)
      rcases List.mem_append.mp mem with front | last
      · rcases List.mem_append.mp front with stored | paced
        · rw [writes_profileReplay] at stored
          split at stored
          · rename_i unmarked
            cases known : mid.clients[job.clientId]? with
            | none =>
                rw [known] at stored
                cases stored
            | some client =>
                rw [known] at stored
                have turnOf : mid.turnOf mid.queue = some job.clientId := by rw [waiting]; rfl
                have replays : mid.replayFor job.clientId = some client.profile := by
                  unfold BrokerCore.replayFor
                  rw [if_neg unmarked, known]
                  rfl
                refine .replayed ?_ stored
                unfold BrokerOp.replayed
                rw [turn, turnOf]
                exact profiles _ _ turnOf replays
          · cases stored
        · unfold speedChunk at paced
          split at paced
          · rw [List.mem_singleton.mp paced]
            exact .speed _
          · cases paced
      · rcases List.mem_cons.mp last with rfl | status
        · exact first
        · exact .fixed (by rw [List.mem_singleton.mp status]; decide)

/-- A call that keeps the table and the marker and passes a boundary with jobs that waited before. -/
theorem passing_source (mid : BrokerCore) {clock : Nat} (ending : List PhysicalAction)
    (turn : op.handsTo core = core.turnOf mid.queue) (clients : mid.clients = core.clients)
    (applied : mid.appliedProfileClientId = core.appliedProfileClientId)
    (queue : ∀ job ∈ mid.queue, job ∈ core.queue)
    (fixed : ∀ chunk ∈ writes ending, chunk ∈ ([[0x0a], [0x0a, 0x0b, 0x00], [0x15]] : List (List UInt8)))
    (mem : chunk ∈ writes (ending ++ (mid.startNextOrRestore clock).2)) : Source core op chunk := by
  have turnOf : ∀ waiting, mid.turnOf waiting = core.turnOf waiting := by
    intro waiting
    cases waiting with
    | nil => simp only [BrokerCore.turnOf, foreground, clients]
    | cons job rest => rfl
  rw [writes_append] at mem
  rcases List.mem_append.mp mem with front | later
  · exact .fixed (fixed chunk front)
  · refine boundary_source mid (turn.trans (turnOf _).symm)
      (fun job held => .waiting (queue job held)) ?_ later
    intro c profile _ replays
    unfold BrokerCore.replayFor at replays ⊢
    rw [← clients, ← applied]
    exact replays

/-! ## The calls -/

/-- The active client leaves. -/
theorem unregister_source {clientId : ClientId} {clock : Nat}
    (mem : chunk ∈ writes (core.unregisterClient clientId clock).2) :
    Source core (.unregisterClient clientId clock) chunk := by
  unfold BrokerCore.unregisterClient at mem
  cases active : core.active with
  | none =>
      simp only [active, writes_cancellations] at mem
      cases mem
  | some a =>
      simp only [active] at mem
      split at mem
      · rename_i owner
        rw [writes_append, writes_append, writes_cancellations, List.nil_append] at mem
        rcases List.mem_append.mp mem with clear | later
        · rw [List.mem_singleton.mp clear]
          exact .fixed (by decide)
        · have mine : core.activeClientId = some clientId := by simp [activeClientId, active, owner]
          refine boundary_source _ ?_ ?_ ?_ later
          · -- the client is out of the table when the next one is looked for
            show (if _ then _ else _) = _
            rw [if_pos mine]
            cases jobsNotOf core.queue clientId <;> rfl
          · exact fun job held => .waiting (List.mem_of_mem_filter held)
          · intro c profile _ replays
            unfold BrokerCore.replayFor at replays ⊢
            simp only [clients_erase] at replays
            by_cases gone : c = clientId
            · simp [gone] at replays
            · rw [if_neg gone] at replays
              by_cases marked : core.appliedProfileClientId = some c
              · have other : core.appliedProfileClientId ≠ some clientId := by
                  rw [marked]
                  exact fun same => gone (Option.some.inj same)
                rw [if_neg other, if_pos marked] at replays
                cases replays
              · rw [if_neg marked]
                have unmarked : (if core.appliedProfileClientId = some clientId then none
                    else core.appliedProfileClientId) ≠ some c := by
                  split
                  · intro same
                    cases same
                  · exact marked
                rw [if_neg unmarked] at replays
                exact replays
      · rw [writes_cancellations] at mem
        cases mem

/-- Everything stops. -/
theorem stop_source {reason : String} (turn : op.handsTo core = core.turnOf [])
    (mem : chunk ∈ writes (core.emergencyStop reason).2) : Source core op chunk := by
  have actions : (core.emergencyStop reason).2 = .write [0x0a, 0x0b, 0x00] ::
      (core.active.toList.map (fun active => cancellation active.job) ++ core.queue.map cancellation) ++
      { core with active := none, queue := [],
                  lastSafetyAction := some reason }.restoreForegroundSpeed.2 := rfl
  have cancels : core.active.toList.map (fun active => cancellation active.job) =
      (core.active.toList.map (·.job)).map cancellation := by rw [List.map_map]; rfl
  rw [actions, writes_append, cancels, ← List.map_append] at mem
  rcases List.mem_append.mp mem with clear | later
  · rcases List.mem_cons.mp clear with rfl | none_
    · exact .fixed (by decide)
    · have nothing : chunk ∈ writes ((core.active.toList.map (·.job) ++ core.queue).map cancellation) :=
        none_
      rw [writes_cancellations] at nothing
      cases nothing
  · exact restore_source _ turn (fun c profile _ replays => replays) later

/-- A payload is handed in. -/
theorem enqueue_source {clientId : ClientId} {payload : TransmitPayload} {speed : Option SpeedMode}
    {stream : Bool} {now clock jobId : Nat} {core' : BrokerCore} {actions : List PhysicalAction}
    (accepted : core.enqueue clientId payload speed stream now clock = some (core', jobId, actions))
    (mem : chunk ∈ writes actions) :
    Source core (.enqueue clientId payload speed stream now clock) chunk := by
  obtain ⟨filled, fits, online, registered⟩ := enqueue_checks accepted
  cases enqueue_cases accepted with
  | joinedActive =>
      rw [List.mem_singleton.mp mem]
      exact .payload rfl
  | joinedTail | waits => cases mem
  | @starts client opened known _ _ idle same =>
      subst same
      refine boundary_source (core.withJob
        (core.newJob clientId payload (speed.getD client.desiredSpeed) stream now)) ?_ ?_
        (fun c profile _ replays => replays) mem
      · show (if _ then _ else _) = _
        rw [if_pos]
        · unfold withJob newJob
          dsimp only
          cases core.queue <;> rfl
        · simp [idle, online, known, fits, filled]
      · intro job held
        rcases List.mem_append.mp held with earlier | last
        · exact .waiting earlier
        · rw [List.mem_singleton.mp last]
          exact .payload rfl

/-- Jobs are canceled, and the active one with them. -/
theorem cancel_source {clientId : ClientId} {includeActive : Bool} {clock : Nat}
    (mem : chunk ∈ writes (core.cancelClient clientId includeActive clock).2) :
    Source core (.cancelClient clientId includeActive clock) chunk := by
  unfold BrokerCore.cancelClient at mem
  cases active : core.active with
  | none =>
      simp only [active] at mem
      split at mem
      · rcases List.mem_cons.mp mem with rfl | none_
        · exact .fixed (by decide)
        · have nothing : chunk ∈ writes ((jobsOf core.queue clientId).map cancellation) := none_
          rw [writes_cancellations] at nothing
          cases nothing
      · rw [writes_cancellations] at mem
        cases mem
  | some a =>
      simp only [active] at mem
      split at mem
      · rename_i mine
        refine passing_source { core with queue := jobsNotOf core.queue clientId, active := none }
          (.write [0x0a] :: (jobsOf core.queue clientId).map cancellation ++ [cancellation a.job]) ?_ rfl
          rfl (fun job held => List.mem_of_mem_filter held) ?_ mem
        · show (if _ then _ else _) = _
          rw [if_pos (by simpa [activeClientId, active] using mine)]
        · intro chunk clear
          have shape : writes (.write [0x0a] :: (jobsOf core.queue clientId).map cancellation ++
              [cancellation a.job]) = [[0x0a]] := by
            rw [writes_append]
            exact congrArg (fun rest => [0x0a] :: rest ++ []) (writes_cancellations _)
          rw [shape, List.mem_singleton] at clear
          rw [clear]
          decide
      · rw [writes_cancellations] at mem
        cases mem

theorem cancelJob_source {clientId : ClientId} {jobId clock : Nat}
    (mem : chunk ∈ writes (core.cancelJob clientId jobId clock).2.2) :
    Source core (.cancelJob clientId jobId clock) chunk := by
  unfold BrokerCore.cancelJob at mem
  split at mem
  · rename_i a found
    refine passing_source { core with active := none } [.write [0x0a], cancellation a.job] ?_ rfl rfl
      (fun job held => held) ?_ mem
    · show (if _ then _ else _) = _
      obtain ⟨active, wanted⟩ := Option.filter_eq_some_iff.mp found
      rw [active]
      exact if_pos wanted
    · intro chunk clear
      rw [List.mem_singleton.mp clear]
      decide
  · rw [writes_cancellations] at mem
    cases mem

/-- The active job is complete. -/
theorem complete_source (core' : BrokerCore) {clock : Nat}
    (turn : op.handsTo core = core.turnOf core.queue)
    (clients : core'.clients = core.clients)
    (applied : core'.appliedProfileClientId = core.appliedProfileClientId)
    (queue : core'.queue = core.queue) (mem : chunk ∈ writes (core'.completeActive clock).2) :
    Source core op chunk := by
  unfold BrokerCore.completeActive at mem
  split at mem
  · cases mem
  · rename_i a _
    refine passing_source { core' with active := none } [.completed a.job.id a.job.clientId] ?_ clients
      applied ?_ (fun _ none_ => by cases none_) mem
    · show op.handsTo core = core.turnOf core'.queue
      rw [queue]
      exact turn
    · intro job held
      exact queue ▸ held

theorem status_source {status : DeviceStatus} {clock : Nat}
    (mem : chunk ∈ writes (core.observeStatus status clock).2) :
    Source core (.observeStatus status clock) chunk := by
  unfold BrokerCore.observeStatus at mem
  split at mem
  · cases mem
  · rename_i a active
    split at mem
    · cases mem
    · rename_i quiet
      split at mem
      · rename_i saw
        refine complete_source
          { core with status, active := some { a with observedStatus := true } } ?_ rfl rfl rfl mem
        show (if _ then _ else _) = _
        rw [if_pos]
        simp [active, saw, quiet]
      · cases mem

theorem settle_source {now settle clock : Nat}
    (mem : chunk ∈ writes (core.confirmIdleAfterSettle now settle clock).2) :
    Source core (.confirmIdleAfterSettle now settle clock) chunk := by
  unfold BrokerCore.confirmIdleAfterSettle at mem
  split at mem
  · rename_i settled
    exact complete_source core (if_pos settled) rfl rfl rfl mem
  · cases mem

/-- **Every chunk that a call writes has a source.** -/
theorem call_source (core : BrokerCore) (op : BrokerOp) :
    ∀ chunk ∈ writes (op.apply core).2.actions, Source core op chunk := by
  intro chunk mem
  cases op with
  | connectPhysical | registerClient | recordSafetyAction | observePot => cases mem
  | physicalError error =>
      have cancels : (core.physicalError error).2 =
          (core.active.toList.map (·.job) ++ core.queue).map cancellation := by
        rw [List.map_append, List.map_map]
        rfl
      have nothing : chunk ∈ writes (core.physicalError error).2 := mem
      rw [cancels, writes_cancellations] at nothing
      cases nothing
  | unregisterClient clientId clock => exact unregister_source mem
  | setClientSpeed clientId speed =>
      simp only [BrokerOp.apply, BrokerCore.setClientSpeed] at mem
      split at mem
      · cases mem
      · split at mem
        · rw [List.mem_singleton.mp mem]
          exact .speed _
        · cases mem
  | setClientCommand clientId command =>
      simp only [BrokerOp.apply] at mem
      split at mem
      · rename_i set
        rcases setClientCommand_actions set with same | same
        · rw [same] at mem
          rw [List.mem_singleton.mp mem]
          exact .command (.inl rfl)
        · rw [same] at mem
          cases mem
      · cases mem
  | activeOwnerCommand clientId command =>
      simp only [BrokerOp.apply] at mem
      rcases activeOwnerCommand_actions core clientId command with same | same
      · rw [same] at mem
        rw [List.mem_singleton.mp mem]
        exact .command (.inr rfl)
      · rw [same] at mem
        cases mem
  | enqueue clientId payload speed stream now clock =>
      simp only [BrokerOp.apply] at mem
      split at mem
      · rename_i accepted
        exact enqueue_source accepted mem
      · cases mem
  | cancelClient clientId includeActive clock => exact cancel_source mem
  | cancelJob clientId jobId clock => exact cancelJob_source mem
  | emergencyStop reason => exact stop_source rfl mem
  | observeStatus status clock => exact status_source mem
  | confirmIdleAfterSettle now settle clock => exact settle_source mem
  | watchdog now =>
      simp only [BrokerOp.apply, BrokerCore.watchdog] at mem
      split at mem
      · rename_i expired
        exact stop_source (if_pos expired) mem
      · cases mem
  | restoreForeground =>
      exact restore_source core rfl (fun c profile _ replays => replays) mem

end

end CatHub.WinKeyer
