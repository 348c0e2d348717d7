/-
# CatHub.WinKeyer.HostSession — the keyer is in host mode outside maintenance.

`transport` is what was written to the current transport, chunk by chunk; it starts anew when the
transport is reopened.  `HostMode` says that the last host-session command on it was Host Open and
that the safe initialization was written behind it.  `host_mode` shows this for every state of a
session without maintenance, provided that no client hands in a host-session command of its own and
that no emergency stop is served during maintenance or before the keyer was reopened.

The second condition is a real one: an emergency stop forgets the maintenance without opening the
session again.  A chunk is read as commands from its first byte on.
-/
import CatHub.WinKeyer.Turns

namespace CatHub.WinKeyer

open Systems Ptt BrokerCore

/-! ## Host-session commands -/

inductive HostCommand where
  | opens
  | closes
  deriving DecidableEq, Repr

def hostCommand? : ClientItem → Option HostCommand
  | .command [0x00, 0x02] => some .opens
  | .command [0x00, 0x03] => some .closes
  | _ => none

/-- The host-session commands in a chunk.  The maintenance entry ends with a bare `03` and stands
for Host Close. -/
def hostCommands (chunk : List UInt8) : List HostCommand :=
  if chunk = maintenanceEntry then [.closes] else (items chunk).filterMap hostCommand?

/-- No chunk holds a host-session command. -/
def Silent (chunks : List (List UInt8)) : Prop := ∀ chunk ∈ chunks, hostCommands chunk = []

theorem Silent.append {chunks more : List (List UInt8)} (first : Silent chunks) (second : Silent more) :
    Silent (chunks ++ more) := by
  intro chunk h
  exact (List.mem_append.mp h).elim (first chunk) (second chunk)

theorem silent_nil : Silent [] := fun _ h => by cases h

theorem silent_singleton {chunk : List UInt8} (h : hostCommands chunk = []) : Silent [chunk] := by
  intro other mem
  rw [List.mem_singleton.mp mem]
  exact h

/-- The chunks on the transport after a step. -/
def onTransport (wire : List (List UInt8)) (e : ActorStep) : List (List UInt8) :=
  match e.input with
  | .reopen _ (.opened _ _) => e.output.written
  | _ => wire ++ e.output.written

/-- What was written to the current transport. -/
def transport (history : List ActorStep) : List (List UInt8) :=
  history.foldl onTransport [hostOpen, safeInitialization]

/-- The last host-session command is Host Open, and the safe initialization follows it. -/
def HostMode (wire : List (List UInt8)) : Prop :=
  ∃ before opened after, wire = before ++ opened :: after ∧
    (hostCommands opened).getLast? = some .opens ∧ Silent after ∧ safeInitialization ∈ after

/-- The last host-session command is Host Open. -/
def HostOpened (wire : List (List UInt8)) : Prop :=
  ∃ before opened after, wire = before ++ opened :: after ∧
    (hostCommands opened).getLast? = some .opens ∧ Silent after

/-! ## Chunks behind Host Open -/

section Wire

variable {wire chunks : List (List UInt8)}

theorem hostOpened_concat (wire : List (List UInt8)) : HostOpened (wire ++ [hostOpen]) :=
  ⟨wire, hostOpen, [], rfl, by decide, silent_nil⟩

/-- Chunks without host-session commands do not close the session. -/
theorem HostOpened.silent (opened : HostOpened wire) (silent : Silent chunks) :
    HostOpened (wire ++ chunks) := by
  obtain ⟨before, first, after, rfl, opens, earlier⟩ := opened
  exact ⟨before, first, after ++ chunks, by rw [List.append_assoc, List.cons_append], opens,
    earlier.append silent⟩

/-- With the safe initialization among them the keyer is in host mode. -/
theorem HostOpened.initialized (opened : HostOpened wire) (silent : Silent chunks)
    (safe : safeInitialization ∈ chunks) : HostMode (wire ++ chunks) := by
  obtain ⟨before, first, after, rfl, opens, earlier⟩ := opened
  exact ⟨before, first, after ++ chunks, by rw [List.append_assoc, List.cons_append], opens,
    earlier.append silent, List.mem_append_right _ safe⟩

theorem HostMode.opened (mode : HostMode wire) : HostOpened wire := by
  obtain ⟨before, first, after, split, opens, silent, _⟩ := mode
  exact ⟨before, first, after, split, opens, silent⟩

theorem HostMode.silent (mode : HostMode wire) (silent : Silent chunks) :
    HostMode (wire ++ chunks) := by
  obtain ⟨before, first, after, rfl, opens, earlier, safe⟩ := mode
  exact ⟨before, first, after ++ chunks, by rw [List.append_assoc, List.cons_append], opens,
    earlier.append silent, List.mem_append_left _ safe⟩

/-- In host mode, what stands behind the last Host Open holds the safe initialization: no host-session
command stands behind it. -/
theorem HostMode.last {opened : List UInt8} {after : List (List UInt8)}
    (mode : HostMode (wire ++ opened :: after)) (speaks : hostCommands opened ≠ [])
    (silent : Silent after) : safeInitialization ∈ after := by
  obtain ⟨before, first, behind, split, opens, quiet, safe⟩ := mode
  rcases List.append_eq_append_iff.mp split with ⟨more, rfl, rest⟩ | ⟨more, rfl, rest⟩
  · -- the split is behind `opened`, which would have to be silent
    cases more with
    | nil =>
        obtain ⟨_, rfl⟩ := List.cons.inj rest
        exact safe
    | cons c more =>
        obtain ⟨_, rfl⟩ := List.cons.inj rest
        have loud := silent first (by simp)
        rw [loud] at opens
        cases opens
  · cases more with
    | nil =>
        obtain ⟨_, rfl⟩ := List.cons.inj rest
        exact safe
    | cons c more =>
        obtain ⟨_, rfl⟩ := List.cons.inj rest
        exact absurd (quiet opened (by simp)) speaks

end Wire

/-! ## The condition -/

/-- The bytes of a request that the keyer is sent as they are, now or when a job starts: a command,
a payload, or what a queued stream becomes with one more chunk. -/
def Request.carried (core : BrokerCore) : Request → List (List UInt8)
  | .configure _ command => [command]
  | .activeOwnerCommand _ command => [command]
  | .enqueue clientId payload _ stream =>
      payload.wireBytes ::
        (if stream then (core.tailStream? clientId).toList.map
          (fun queued => (queued.grow payload).payload.wireBytes)
        else [])
  | _ => []

/-- The request hands in no host-session command outside maintenance, and is no emergency stop
during maintenance or before the keyer was reopened. -/
def KeepsHost (e : ActorStep) : Bool :=
  match e.input with
  | .request (.emergencyStop _) _ _ _ => e.before.loop != .session || !e.before.inMaintenance
  | .request request _ _ _ =>
      (request.carried e.before.core).all (fun bytes => (hostCommands bytes).isEmpty)
  | _ => true

/-- Outside maintenance, a session is in host mode. -/
def InHostMode (history : List ActorStep) (a : Actor) : Prop :=
  a.loop ≠ .stopped → a.core.connected = true → a.maintenanceOwner = none →
    a.maintenanceReopenPending = false → HostMode (transport history)

/-! ## The chunks of the core -/

/-- No stored command and no queued payload is a host-session command. -/
structure Discreet (core : BrokerCore) : Prop where
  profiles : ∀ (c : ClientId) (client : ClientState), core.clients[c]? = some client →
    ∀ command ∈ storedCommands client.profile, hostCommands command = []
  queue : ∀ job ∈ core.queue, hostCommands job.payload.wireBytes = []

/-- The bytes a call hands in. -/
def BrokerOp.carried (core : BrokerCore) : BrokerOp → List (List UInt8)
  | .setClientCommand clientId command => (Request.configure clientId command).carried core
  | .activeOwnerCommand clientId command => (Request.activeOwnerCommand clientId command).carried core
  | .enqueue clientId payload speed stream _ _ =>
      (Request.enqueue clientId payload speed stream).carried core
  | _ => []

theorem hostCommands_speed (speed : SpeedMode) : hostCommands speed.command = [] := by
  cases speed <;> rfl

/-- Nobody's stored commands grow but by a command that is handed in. -/
theorem storedCommands_insert {profile : Profile} {key : Nat} {command stored : List UInt8}
    (h : stored ∈ storedCommands (profile.insert key command)) :
    stored = command ∨ stored ∈ storedCommands profile := by
  obtain ⟨⟨k, v⟩, entry, rfl⟩ := List.mem_map.mp h
  have found := Std.TreeMap.mem_toList_iff_getElem?_eq_some.mp entry
  rw [Std.TreeMap.getElem?_insert] at found
  split at found
  · exact Or.inl (Option.some.inj found).symm
  · exact Or.inr (List.mem_map.mpr ⟨(k, v), Std.TreeMap.mem_toList_iff_getElem?_eq_some.mpr found, rfl⟩)

/-- Every client after a call was there before with its stored commands, or with one more that was
handed in, or it has none. -/
theorem Course.profiles {core core' : BrokerCore} {op : BrokerOp} {actions : List PhysicalAction}
    (course : Course core op actions core') {c : ClientId} {client : ClientState}
    (known : core'.clients[c]? = some client) :
    (∃ before, core.clients[c]? = some before ∧
      ∀ command ∈ storedCommands client.profile, command ∈ storedCommands before.profile ∨
        command ∈ op.carried core) ∨ storedCommands client.profile = [] := by
  cases course.entry known with
  | kept found | paced found => exact Or.inl ⟨_, found, fun _ => Or.inl⟩
  | registered => exact Or.inr rfl
  | configured _ found =>
      refine Or.inl ⟨_, found, fun stored held => ?_⟩
      rcases storedCommands_insert held with rfl | earlier
      · exact Or.inr (List.mem_singleton_self _)
      · exact Or.inl earlier

/-! ## What a call writes -/

namespace Discreet

variable {core core' : BrokerCore}

theorem of_same (d : Discreet core) (clients : core'.clients = core.clients)
    (queue : ∀ job ∈ core'.queue, job ∈ core.queue) : Discreet core' where
  profiles := fun c client known => d.profiles c client (by rw [← clients]; exact known)
  queue := fun job queued => d.queue job (queue job queued)

theorem of_erase (d : Discreet core) {c : ClientId} (clients : core'.clients = core.clients.erase c)
    (queue : Silent (core'.queue.map (·.payload.wireBytes))) : Discreet core' where
  profiles := by
    intro e client known
    rw [clients, clients_erase] at known
    split at known
    · cases known
    · exact d.profiles e client known
  queue := fun job queued => queue _ (List.mem_map_of_mem queued)

/-- Going on writes nothing but stored commands, speeds, payloads and a status request. -/
theorem boundary (d : Discreet core) (clock : Nat) :
    Silent (writes (core.startNextOrRestore clock).2) := by
  rw [writes_startNextOrRestore]
  cases queue : core.queue with
  | cons job rest =>
      have replayed : Silent (writes (core.profileReplay job.clientId)) := by
        rw [writes_profileReplay]
        split
        · cases known : core.clients[job.clientId]? with
          | none => exact silent_nil
          | some client => exact d.profiles _ client known
        · exact silent_nil
      have speed : Silent (speedChunk job) := by
        unfold speedChunk
        split
        · exact silent_singleton (hostCommands_speed _)
        · exact silent_nil
      have payload : hostCommands job.payload.wireBytes = [] := d.queue job (by rw [queue]; simp)
      have status : Silent [job.payload.wireBytes, [0x15]] :=
        (silent_singleton payload).append (silent_singleton rfl)
      exact (replayed.append speed).append status
  | nil =>
      have replayed : Silent core.foregroundReplay := by
        unfold foregroundReplay
        cases foreground : core.foreground with
        | none => exact silent_nil
        | some e =>
            show Silent (if _ then _ else _)
            split
            · have entry := List.mem_of_find?_eq_some foreground
              exact d.profiles e.1 e.2 (Std.TreeMap.mem_toList_iff_getElem?_eq_some.mp entry)
            · exact silent_nil
      exact replayed.append (silent_singleton (hostCommands_speed _))

/-- The core at an ownership boundary is discreet when the call hands in nothing. -/
theorem between {op : BrokerOp} {mid : BrokerCore} (d : Discreet core) (between : Boundary core op mid)
    (handed : Silent (op.carried core)) : Discreet mid := by
  have queue : Silent (mid.queue.map (·.payload.wireBytes)) := by
    intro chunk h
    obtain ⟨job, queued, rfl⟩ := List.mem_map.mp h
    rcases between.queue job queued with earlier | ⟨speed, now, clock, rfl⟩
    · exact d.queue job earlier
    · exact handed _ (List.mem_cons_self ..)
  rcases between.table with ⟨clients, _⟩ | ⟨c, _, _, _, gone, _⟩
  · exact ⟨fun c client known => d.profiles c client (by rw [← clients]; exact known),
      fun job queued => queue _ (List.mem_map_of_mem queued)⟩
  · exact d.of_erase gone queue

end Discreet

/-- A call that hands in no host-session command writes none. -/
theorem Course.silent {core core' : BrokerCore} {op : BrokerOp} {actions : List PhysicalAction}
    (course : Course core op actions core') (d : Discreet core) (handed : Silent (op.carried core)) :
    Silent (writes actions) := by
  cases course with
  | quiet _ chunks | unregistered _ _ chunks =>
      rw [chunks]
      exact silent_nil
  | registered | stored => exact silent_nil
  | grew | commanded | configured =>
      exact silent_singleton (handed _ (List.mem_cons_self ..))
  | swept _ _ _ chunks =>
      rw [chunks]
      exact silent_singleton rfl
  | paced =>
      split
      · exact silent_singleton (hostCommands_speed _)
      · exact silent_nil
  | passed boundary chunks =>
      rw [writes_append]
      refine Silent.append ?_ ((d.between boundary handed).boundary _)
      rcases chunks.chunks with ⟨_, chunks⟩ | ⟨_, chunks | chunks⟩
      · rw [chunks]
        exact silent_nil
      · rw [chunks]
        exact silent_singleton rfl
      · rw [chunks]
        exact silent_singleton rfl

/-- **One call.** -/
theorem discreet_call {core : BrokerCore} (d : Discreet core) (op : BrokerOp)
    (handed : Silent (op.carried core)) :
    Discreet (op.apply core).1 ∧ Silent (writes (op.apply core).2.actions) := by
  cases within : op.within with
  | false =>
      cases op with
      | connectPhysical => exact ⟨d.of_same rfl (fun _ => id), silent_nil⟩
      | physicalError error =>
          refine ⟨d.of_same rfl (fun _ none' => by cases none'), ?_⟩
          show Silent (writes (_ ++ _))
          rw [writes_append, writes_cancellations]
          cases core.active <;> exact silent_nil
      | restoreForeground =>
          -- Restoring the foreground is what a boundary with nothing queued does.
          refine ⟨d.of_same rfl (fun _ => id), ?_⟩
          have idle : Discreet { core with queue := [] } :=
            d.of_same rfl (fun _ none' => by cases none')
          exact idle.boundary 0
      | _ => cases within
  | true =>
      have course := apply_course core within
      refine ⟨⟨fun c client known => ?_, fun job queued => ?_⟩, course.silent d handed⟩
      · intro command stored
        rcases course.profiles known with ⟨before, found, same⟩ | nothing
        · rcases same command stored with earlier | now
          · exact d.profiles c before found command earlier
          · exact handed command now
        · rw [nothing] at stored
          cases stored
      · have effect : Effect core op (op.apply core).2 (op.apply core).1 :=
          effect_within core within
        rcases effect.queue_from job queued with earlier | ⟨speed, now, clock, rfl⟩ |
          ⟨tail, payload, speed, now, clock, last, stream, rfl, rfl⟩
        · exact d.queue job earlier
        · exact handed _ (List.mem_cons_self ..)
        · refine handed _ (List.mem_cons_of_mem _ ?_)
          have joins : core.tailStream? tail.clientId = some tail := by
            simp [tailStream?, last, Job.isStreamOf, stream]
          rw [if_pos rfl, joins]
          exact List.mem_singleton_self _

/-! ## What a decision writes -/

/-- The bytes that a sequence of calls hands in. -/
def handedIn (core : BrokerCore) : List BrokerOp → List (List UInt8)
  | [] => []
  | op :: ops => op.carried core ++ handedIn (op.apply core).1 ops

theorem discreet_calls {core : BrokerCore} (d : Discreet core) (ops : List BrokerOp)
    (handed : Silent (handedIn core ops)) :
    Discreet (core.afterCalls ops) ∧ Silent (writes (core.returned ops)) := by
  induction ops generalizing core with
  | nil => exact ⟨d, silent_nil⟩
  | cons op ops ih =>
      have first := discreet_call d op (fun chunk h => handed chunk (List.mem_append_left _ h))
      have rest := ih first.1 (fun chunk h => handed chunk (List.mem_append_right _ h))
      refine ⟨rest.1, ?_⟩
      rw [returned_cons, writes_append]
      exact first.2.append rest.2

theorem discreet_reopening {core : BrokerCore} (d : Discreet core) (firmware : UInt8) :
    Discreet (core.afterCalls (reopening firmware)) ∧
      Silent (writes (core.returned (reopening firmware))) :=
  discreet_calls d _ silent_nil

/-- The bytes that the trigger of a turn hands in. -/
def Trigger.carried (core : BrokerCore) : Trigger → List (List UInt8)
  | .request asked => asked.carried core
  | _ => []

/-- A decision hands in what its trigger does, or nothing. -/
theorem handedIn_decision (a : Actor) (now later : Nat) (trigger : Trigger) :
    handedIn a.core (a.decisionOps now later trigger) = [] ∨
      handedIn a.core (a.decisionOps now later trigger) = trigger.carried a.core := by
  have lone : ∀ op : BrokerOp, handedIn a.core [op] = op.carried a.core :=
    fun op => List.append_nil _
  have passes : ∀ (barred : Bool) (op : BrokerOp),
      handedIn a.core (if barred then [] else [op]) = [] ∨
        handedIn a.core (if barred then [] else [op]) = op.carried a.core := by
    intro barred op
    cases barred
    · exact Or.inr (lone op)
    · exact Or.inl rfl
  cases trigger with
  | tick => exact Or.inl rfl
  | byte byte =>
      left
      simp only [Actor.decisionOps]
      split
      · split <;> rfl
      · split
        · rfl
        · split
          · rfl
          · split <;> rfl
          · rfl
  | request request =>
      cases request with
      | configure clientId command =>
          exact passes (a.maintenanceBars clientId) (.setClientCommand clientId command)
      | activeOwnerCommand clientId command =>
          exact passes a.inMaintenance (.activeOwnerCommand clientId command)
      | setSpeed clientId speed =>
          left
          simp only [Actor.decisionOps]
          split <;> rfl
      | enqueue clientId payload speed stream =>
          simp only [Actor.decisionOps]
          split
          · exact Or.inr (lone _)
          · exact Or.inl rfl
      | _ => exact Or.inl rfl

/-- A decision whose trigger hands in no host-session command. -/
theorem decides_discreet {a mid : Actor} {now later : Nat} {trigger : Trigger} {o : Observation}
    {actions : List PhysicalAction} (decides : a.Decides now later trigger mid o actions)
    (d : Discreet a.core) (handed : Silent (trigger.carried a.core)) :
    Discreet mid.core ∧ Silent (writes (a.core.returned (a.decisionOps now later trigger))) := by
  have quiet : Silent (handedIn a.core (a.decisionOps now later trigger)) := by
    rcases handedIn_decision a now later trigger with nothing | same
    · rw [nothing]
      exact silent_nil
    · rw [same]
      exact handed
  rw [decides.core]
  exact discreet_calls d _ quiet

theorem silent_poll (a : Actor) (now later : Nat) (trigger : Trigger) :
    Silent (a.pollWrites now later trigger) := by
  cases trigger with
  | tick =>
      simp only [Actor.pollWrites]
      split
      · exact silent_singleton rfl
      · exact silent_nil
  | _ => exact silent_nil

/-- How a decision ends outside maintenance, and what the actor has then written itself: Host Open
when the owner has just left, the safe initialization when the keyer has just answered, and nothing
when it was outside maintenance before. -/
theorem ownWrites_unowned {a : Actor} {trigger : Trigger} (read : ¬ a.Misread trigger)
    (calm : ∀ reason, trigger = .request (.emergencyStop reason) → a.inMaintenance = false)
    (unowned : (a.maintenanceAfter trigger).1 = none) :
    (a.ownWrites trigger = [hostOpen] ∧ (a.maintenanceAfter trigger).2 = true) ∨
      (a.ownWrites trigger = [safeInitialization] ∧ a.maintenanceOwner = none ∧
        a.maintenanceReopenPending = true ∧ (a.maintenanceAfter trigger).2 = false) ∨
      (a.ownWrites trigger = [] ∧ a.maintenanceOwner = none ∧
        (a.maintenanceAfter trigger).2 = a.maintenanceReopenPending) := by
  cases trigger with
  | tick => exact Or.inr (Or.inr ⟨rfl, unowned, rfl⟩)
  | byte byte =>
      cases pending : a.maintenanceReopenPending with
      | true =>
          have answered : byte ≠ 0xff := fun misread => read ⟨pending, misread⟩
          exact Or.inr (Or.inl ⟨by simp [Actor.ownWrites, pending, answered], unowned, rfl, rfl⟩)
      | false => exact Or.inr (Or.inr ⟨by simp [Actor.ownWrites, pending], unowned, rfl⟩)
  | request request =>
      cases request with
      | unregister clientId | releaseMaintenance clientId =>
          by_cases owner : a.maintenanceOwner = some clientId
          · exact Or.inl ⟨if_pos owner, by simp [Actor.maintenanceAfter, owner]⟩
          · simp only [Actor.maintenanceAfter, owner, if_false] at unowned ⊢
            exact Or.inr (Or.inr ⟨if_neg owner, unowned, trivial⟩)
      | emergencyStop reason =>
          have outside := calm reason rfl
          unfold Actor.inMaintenance at outside
          rw [Bool.or_eq_false_iff, Option.isSome_eq_false_iff, Option.isNone_iff_eq_none] at outside
          exact Or.inr (Or.inr ⟨rfl, outside.1, outside.2.symm⟩)
      | maintenanceCommand clientId command =>
          simp only [Actor.maintenanceAfter] at unowned ⊢
          split at unowned
          · cases unowned
          · rename_i refused
            simp only [Actor.ownWrites, refused]
            exact Or.inr (Or.inr ⟨rfl, unowned, rfl⟩)
      | _ => exact Or.inr (Or.inr ⟨rfl, unowned, rfl⟩)

/-! ## Every step -/

theorem transport_concat (history : List ActorStep) (e : ActorStep) :
    transport (history ++ [e]) = onTransport (transport history) e := by
  unfold transport
  rw [List.foldl_append]
  rfl

theorem onTransport_turn (wire : List (List UInt8)) (a a' : Actor) (trigger : Trigger)
    (now later : Nat) (fault : Option WriteFault) (o : Observation) :
    onTransport wire ⟨a, inputOf trigger now later fault, o, a'⟩ = wire ++ o.written := by
  cases trigger <;> rfl

/-- What an actor carries from step to step: nothing in the core is a host-session command, and a
session without an owner has opened the host session, and outside maintenance initialized it. -/
structure Hosted (wire : List (List UInt8)) (a : Actor) : Prop where
  discreet : Discreet a.core
  mode : a.loop = .session → a.maintenanceOwner = none → a.maintenanceReopenPending = false →
    HostMode wire
  opened : a.loop = .session → a.maintenanceOwner = none → a.maintenanceReopenPending = true →
    HostOpened wire

namespace Hosted

variable {wire : List (List UInt8)} {a a' : Actor}

/-- Outside a session only the core matters. -/
theorem off (discreet : Discreet a.core) (off : a.loop ≠ .session) : Hosted wire a :=
  ⟨discreet, fun live => absurd live off, fun live => absurd live off⟩

theorem failed (discreet : Discreet a.core) (message : String) :
    Hosted wire (a.failSession message).1 := by
  have lost : Discreet (a.core.physicalError message).1 :=
    discreet.of_same rfl (fun _ none' => by cases none')
  exact .off lost (fun live => by cases live)

/-- Nothing is written and the maintenance stays as it is. -/
theorem same (h : Hosted wire a) (core : a'.core = a.core) (loop : a'.loop = a.loop)
    (owner : a'.maintenanceOwner = a.maintenanceOwner)
    (pending : a'.maintenanceReopenPending = a.maintenanceReopenPending) : Hosted wire a' := by
  refine ⟨by rw [core]; exact h.discreet, fun live unowned open' => ?_, fun live unowned open' => ?_⟩
  · exact h.mode (loop.symm.trans live) (owner.symm.trans unowned) (pending.symm.trans open')
  · exact h.opened (loop.symm.trans live) (owner.symm.trans unowned) (pending.symm.trans open')

/-- A turn of a session whose chunks are all written. -/
theorem turned (h : Hosted wire a) {mid : Actor} {now later : Nat} {trigger : Trigger}
    {o : Observation} {actions : List PhysicalAction} (live : a.loop = .session)
    (decides : a.Decides now later trigger mid o actions) (read : ¬ a.Misread trigger)
    (calm : ∀ reason, trigger = .request (.emergencyStop reason) → a.inMaintenance = false)
    (handed : Silent (trigger.carried a.core)) (core : a'.core = mid.core)
    (owner : a'.maintenanceOwner = mid.maintenanceOwner)
    (pending : a'.maintenanceReopenPending = mid.maintenanceReopenPending) :
    Hosted (wire ++ writes actions) a' := by
  obtain ⟨discreet, quiet⟩ := decides_discreet decides h.discreet handed
  obtain ⟨owner', pending'⟩ := Prod.mk.inj decides.maintenance
  -- Behind the actor's own chunks nothing speaks of the host session.
  let behind := writes (a.core.returned (a.decisionOps now later trigger)) ++
    a.pollWrites now later trigger
  have silent : Silent behind := quiet.append (silent_poll a now later trigger)
  have chunks : wire ++ writes actions = wire ++ a.ownWrites trigger ++ behind := by
    rw [decides.actions, writes_append, writes_append, writes_map, writes_map]
    simp only [behind, List.append_assoc]
  have cases' : a'.maintenanceOwner = none → _ :=
    fun unowned => ownWrites_unowned read calm
      ((congrArg Prod.fst decides.maintenance).symm.trans (owner.symm.trans unowned))
  have flag : a'.maintenanceReopenPending = (a.maintenanceAfter trigger).2 := pending.trans pending'
  refine ⟨by rw [core]; exact discreet, fun _ unowned open' => ?_, fun _ unowned open' => ?_⟩
  · rw [chunks]
    rcases cases' unowned with ⟨_, awaited⟩ | ⟨own, free, waits, _⟩ | ⟨own, free, kept⟩
    · rw [flag, awaited] at open'
      cases open'
    · rw [own, List.append_assoc]
      exact (h.opened live free waits).initialized ((silent_singleton rfl).append silent)
        (List.mem_append_left _ (List.mem_singleton_self _))
    · rw [own, List.append_nil]
      exact (h.mode live free (kept.symm.trans (flag.symm.trans open'))).silent silent
  · rw [chunks]
    rcases cases' unowned with ⟨own, _⟩ | ⟨_, _, _, answered⟩ | ⟨own, free, kept⟩
    · rw [own]
      exact (hostOpened_concat wire).silent silent
    · rw [flag, answered] at open'
      cases open'
    · rw [own, List.append_nil]
      exact (h.opened live free (kept.symm.trans (flag.symm.trans open'))).silent silent

/-- **One step.** -/
theorem step {input : ActorInput} {o : Observation} (h : Hosted wire a) (free : Unmaintained a)
    (stepped : actor.step a input = some (a', o)) (keeps : KeepsHost ⟨a, input, o, a'⟩ = true) :
    Hosted (onTransport wire ⟨a, input, o, a'⟩) a' := by
  have silent : ∀ request now later fault, input = .request request now later fault →
      Silent (request.carried a.core) := by
    rintro request now later fault rfl chunk held
    cases request with
    | emergencyStop => cases held
    | _ => exact List.isEmpty_iff.mp (List.all_eq_true.mp keeps chunk held)
  cases actor_move stepped with
  | @turn trigger now later fault _ _ live onward timed turn =>
      have handed : Silent (trigger.carried (a.atTime later).core) := by
        cases trigger with
        | request request => exact silent request now later fault rfl
        | byte | tick => exact silent_nil
      have discreet : Discreet (a.atTime later).core := h.discreet
      rw [onTransport_turn]
      cases turn with
      | goesOn decides core owner pending _ _ written _ _ read =>
          rw [written]
          have later' : Hosted wire (a.atTime later) := h.same rfl rfl rfl rfl
          refine later'.turned live decides read ?_ handed core owner pending
          rintro reason rfl
          have outside : (a.loop != .session || !a.inMaintenance) = true := keeps
          rw [live] at outside
          have outside : a.inMaintenance = false := by simpa using outside
          exact outside
      | fails _ decides => exact .failed (decides_discreet decides discreet handed).1 _
      | leaves decides _ core stopped =>
          refine .off ?_ (by rw [stopped]; decide)
          rw [core]
          exact (decides_discreet decides discreet handed).1
      | misread => exact .failed discreet _
  | @sunk request now later fault _ _ _ _ _ off _ _ decides core _ _ loop =>
      have discreet : Discreet (a.atTime later).core := h.discreet
      have handed : Silent ((Trigger.request request).carried (a.atTime later).core) :=
        silent request now later fault rfl
      refine .off ?_ ?_
      · rw [core]
        exact (decides_discreet decides discreet handed).1
      · rcases loop with loop | loop
        · rw [loop]
          decide
        · rw [loop]
          decide
  | left => exact .off h.discreet (fun live => by cases live)
  | lost => exact .failed h.discreet _
  | unopened _ _ _ core _ _ off =>
      refine .off ?_ (by rw [off]; decide)
      rw [core]
      exact h.discreet.of_same rfl (fun _ none' => by cases none')
  | @refailed _ firmware _ _ _ _ _ _ core _ _ off =>
      refine .off ?_ (by rw [off]; decide)
      rw [core]
      exact (discreet_reopening h.discreet firmware).1.of_same rfl (fun _ none' => by cases none')
  | @reopened _ firmware _ _ _ off _ core owner pending _ _ written =>
      obtain ⟨discreet, quiet⟩ := discreet_reopening h.discreet firmware
      refine ⟨by rw [core]; exact discreet, fun _ _ _ => ?_, fun _ _ open' => ?_⟩
      · show HostMode o.written
        rw [written]
        exact (hostOpened_concat []).initialized ((silent_singleton rfl).append quiet)
          (List.mem_cons_self ..)
      · rw [pending, (free off).2] at open'
        cases open'
  | foreign _ _ core owner pending loop _ written =>
      show Hosted (wire ++ o.written) a'
      rw [written, List.append_nil]
      exact h.same core loop owner pending

end Hosted

/-! ## Every run -/

section Runs

variable {maxTx : Nat} {ptt : Option PttManager} {reconnect : Bool} {firmware : UInt8} {start : Nat}
  {history : List ActorStep} {a : Actor}

/-- **The keyer is in host mode outside maintenance.**  In every run in which no client hands in a
host-session command of its own and no emergency stop is served during maintenance or before the
keyer was reopened, whenever the core is connected, nobody owns the keyer and no reopen is pending,
the last host-session command written to the current transport is Host Open, and the safe
initialization was written behind it. -/
theorem host_mode
    (run : actor.Execution (.spawn maxTx ptt reconnect firmware start) history a)
    (keeps : ∀ e ∈ history, KeepsHost e = true) : InHostMode history a := by
  have hosted : Hosted (transport history) a := by
    refine run.guarded (I := fun history a => Hosted (transport history) a) ?_ ?_ keeps
    · refine ⟨⟨fun c client known => ?_, fun _ none' => by cases none'⟩, fun _ _ _ => ?_,
        fun _ _ open' => (by cases open')⟩
      · simp [Actor.spawn, connectPhysical, BrokerCore.new] at known
      · exact (hostOpened_concat []).initialized (silent_singleton rfl)
          (List.mem_singleton_self _)
    · intro history a input o a' earlier hosted step keeps
      rw [transport_concat]
      exact hosted.step (unmaintained_of_execution earlier) step keeps
  intro running online unowned free
  exact hosted.mode ((sound_of_execution run).live running online) unowned free

end Runs

/-- A maintenance session with an emergency stop before it, and a reconnect. -/
theorem host_mode_session :
    ∃ history a, actor.Execution leased history a ∧ a.maintenanceOwner = none ∧
      HostMode (transport history) := by
  have run := actor.execution_exec leased
    [.request (.register 1 true) 0 0 none, .request (.configure 1 [0x03, 0x20]) 0 0 none,
      .request (.emergencyStop "operator") 1 1 none,
      .request (.maintenanceCommand 1 [0x00, 0x0c]) 2 2 none,
      .request (.releaseMaintenance 1) 3 3 none, .byte 31 4 4 none, .readError "gone",
      .reopen 5 (.opened 31 none)] (by decide)
  exact ⟨_, _, run, by decide,
    host_mode run (by decide) (by decide) (by decide) (by decide) (by decide)⟩

/-- An emergency stop between the release and the keyer's answer: the keyer is open, but it was not
initialized. -/
theorem not_in_host_mode : ∃ history a, actor.Execution leased history a ∧ ¬ InHostMode history a := by
  have reached : ∃ history a, actor.Execution leased history a ∧
      transport history = [hostOpen, safeInitialization, maintenanceEntry, [0x13]] ++
        hostOpen :: [[0x0a, 0x0b, 0x00], [0x02, 0x00]] ∧
      a.loop ≠ .stopped ∧ a.core.connected = true ∧ a.maintenanceOwner = none ∧
      a.maintenanceReopenPending = false := by
    have run := actor.execution_exec leased
      [.request (.maintenanceCommand 1 [0x13]) 1 1 none, .request (.releaseMaintenance 1) 2 2 none,
        .request (.emergencyStop "operator") 3 3 none, .byte 31 4 4 none] (by decide)
    exact ⟨_, _, run, by decide, by decide, by decide, by decide, by decide⟩
  obtain ⟨history, a, run, wire, running, online, unowned, free⟩ := reached
  refine ⟨history, a, run, fun hosted => ?_⟩
  have mode := hosted running online unowned free
  rw [wire] at mode
  exact absurd (mode.last (by decide) (by unfold Silent; decide)) (by decide)

end CatHub.WinKeyer
