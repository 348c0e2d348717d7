/-
# CatHub.WinKeyer.ProfileIsolation — what a client meets of the other clients' profiles.

Two runs that differ only in the Configures of clients other than `c` go the same way.  What the keyer
was last told under a key agrees as long as no such Configure has touched the key: whatever is replayed
overwrites the same keys with the same commands.  Under a touched key it agrees where `c` has a command
of its own, which is in the keyer when a job of `c` starts and while `c` is the idle primary.

A touched key that `c` lacks is not reset.  It keeps what another client has set for its own job.
-/
import CatHub.WinKeyer.AlikeActors

namespace CatHub.WinKeyer

open Systems Ptt BrokerCore

/-! ## The property -/

/-- The call starts to write the payload of a job of `c`. -/
def startsJob (c : ClientId) (call : BrokerCall) : Bool :=
  call.after.active.any (fun a => a.job.clientId == c &&
    [PhysicalAction.write a.job.payload.wireBytes, .write [0x15]].isSuffixOf call.output.actions)

/-- The calls that start a job of `c`, each with the profile commands written up to its payload. -/
def jobStarts (c : ClientId) : List (List UInt8) → BrokerHistory →
    List (BrokerCall × List (List UInt8))
  | _, [] => []
  | log, call :: rest =>
      let log := log ++ profileCommands call
      if startsJob c call then (call, log) :: jobStarts c log rest else jobStarts c log rest

/-- In a session, nothing is active and `c` is the primary. -/
def IdleFor (c : ClientId) (a : Actor) : Prop :=
  a.loop = .session ∧ a.core.active = none ∧ a.core.isPrimary c = true

/-- The registers of these keys have the same values. -/
def SameRegisters (keys : Nat → Prop) (log log' : List (List UInt8)) : Prop :=
  ∀ key, keys key → latest profileKey log' key = latest profileKey log key

/-- The registers that `c` meets in two runs are the same, under the keys that `keys` selects from the
core: while `c` is the idle primary, and at the start of each of its jobs, which both runs start. -/
structure Isolated (c : ClientId) (keys : BrokerCore → Nat → Prop) (history : List ActorStep)
    (a : Actor) (history' : List ActorStep) (b : Actor) : Prop where
  idle : IdleFor c a →
    IdleFor c b ∧ SameRegisters (keys a.core) (profileLog history) (profileLog history')
  starts : ∀ input a' o b' p, actor.step a input = some (a', o) → actor.step b input = some (b', p) →
    List.Forall₂ (fun s t => SameRegisters (keys s.1.after) s.2 t.2)
      (jobStarts c (profileLog history) (coreCalls ⟨a, input, o, a'⟩))
      (jobStarts c (profileLog history') (coreCalls ⟨b, input, p, b'⟩))

/-! ## Runs that differ in Configures -/

/-- A Configure of a client other than `c`, which sets a touched key. -/
inductive Touches (c : ClientId) (touched : Nat → Prop) : Request → Prop
  | configure {d : ClientId} {command : List UInt8} : d ≠ c →
      (∀ key, profileKey command = some key → touched key) →
      Touches c touched (.configure d command)

/-- The turn neither ends the session nor hands the station lease back. -/
def Unnoticed (e : ActorStep) : Prop := e.after.loop = e.before.loop ∧ e.after.ptt = e.before.ptt

/-- The histories differ only in Configures of clients other than `c`.  Such a Configure has another
command in the other run, or it is missing there; every key that it sets is touched. -/
inductive Differ (c : ClientId) (touched : Nat → Prop) : List ActorStep → List ActorStep → Prop
  | spawned : Differ c touched [] []
  | shared {history history' : List ActorStep} {e e' : ActorStep} :
      Differ c touched history history' → e'.input = e.input →
      Differ c touched (history ++ [e]) (history' ++ [e'])
  | altered {history history' : List ActorStep} {e e' : ActorStep} {request request' : Request}
      {now later : Nat} {fault : Option WriteFault} :
      Differ c touched history history' → Touches c touched request → Touches c touched request' →
      e.input = .request request now later fault → e'.input = .request request' now later fault →
      Differ c touched (history ++ [e]) (history' ++ [e'])
  | left {history history' : List ActorStep} {e : ActorStep} {request : Request} {now later : Nat}
      {fault : Option WriteFault} :
      Differ c touched history history' → Touches c touched request →
      e.input = .request request now later fault → Unnoticed e →
      Differ c touched (history ++ [e]) history'
  | right {history history' : List ActorStep} {e : ActorStep} {request : Request} {now later : Nat}
      {fault : Option WriteFault} :
      Differ c touched history history' → Touches c touched request →
      e.input = .request request now later fault → Unnoticed e →
      Differ c touched history (history' ++ [e])

/-- The key is not touched, or `c` has a command of its own under it. -/
def Covers (c : ClientId) (touched : Nat → Prop) (core : BrokerCore) (key : Nat) : Prop :=
  touched key → (core.storedAt c key).isSome = true

variable {c : ClientId} {touched : Nat → Prop}

/-! ## What a replay leaves behind -/

section Replays

variable {log : List (List UInt8)} {core : BrokerCore}

/-- The last command of a replay with a key is the stored one. -/
theorem latest_storedCommands {profile : Profile}
    (keyed : ∀ key command, profile[key]? = some command → profileKey command = some key)
    (key : Nat) : latest profileKey (storedCommands profile) key = profile[key]? := by
  cases stored : profile[key]? with
  | some command =>
      have carried := @carries_replay [] profile keyed key command stored
      exact carried
  | none =>
      rw [latest_eq_none]
      rintro command mem keyed'
      obtain ⟨e, entry, rfl⟩ := List.mem_map.mp mem
      have found := Std.TreeMap.mem_toList_iff_getElem?_eq_some.mp entry
      obtain rfl := Option.some.inj ((keyed e.1 e.2 found).symm.trans keyed')
      rw [stored] at found
      cases found

/-- What going on replays: the profile of the successor, unless it counts as applied. -/
theorem replayed_eq (core : BrokerCore) :
    core.replayed =
      match core.successor with
      | none => []
      | some d =>
          if core.appliedProfileClientId = some d then []
          else core.clients[d]?.elim [] (fun client => storedCommands client.profile) := by
  unfold BrokerCore.replayed BrokerCore.successor
  cases queue : core.queue with
  | cons job rest =>
      simp only [writes_profileReplay, ne_eq, ite_not]
  | nil =>
      unfold foregroundReplay
      cases foreground : core.foreground with
      | none => rfl
      | some e =>
          obtain ⟨known, _⟩ := foreground_known foreground
          simp only [Option.map_some, known, Option.elim_some]
          by_cases applied : core.appliedProfileClientId = some e.1
          · rw [if_pos applied, if_neg (not_not_intro applied.symm)]
          · rw [if_neg applied, if_pos (fun same => applied same.symm)]

/-- **A boundary overwrites the keys of the profile that is loaded**, and no others. -/
theorem latest_replayed (keyed : Keyed core)
    (current : ∀ d client, core.appliedProfileClientId = some d → core.clients[d]? = some client →
      Carries log client.profile) (key : Nat) :
    latest profileKey (log ++ core.replayed) key =
      (core.successor.bind (core.storedAt · key)).or (latest profileKey log key) := by
  rw [replayed_eq]
  cases core.successor with
  | none => simp
  | some d =>
      show latest profileKey (log ++ if _ then _ else _) key = (core.storedAt d key).or _
      unfold storedAt
      cases known : core.clients[d]? with
      | none => simp
      | some client =>
          show _ = (client.profile[key]?).or _
          split
          · rename_i applied
            rw [List.append_nil]
            cases stored : client.profile[key]? with
            | none => rfl
            | some command => exact current d client applied known key command stored
          · rw [latest_append]
            exact congrArg (Option.or · _) (latest_storedCommands (keyed d client known) key)

end Replays

/-! ## One call on both -/

/-- The registers agree, but for those of touched keys. -/
abbrev AgreeOff (touched : Nat → Prop) (log log' : List (List UInt8)) : Prop :=
  SameRegisters (¬ touched ·) log log'

section Calls

variable {log log' : List (List UInt8)} {x y x' y' : BrokerCore} {op : BrokerOp}

theorem AgreeOff.append (agree : AgreeOff touched log log') (more : List (List UInt8)) :
    AgreeOff touched (log ++ more) (log' ++ more) := by
  intro key free
  rw [latest_append, latest_append, agree key free]

/-- Boundaries of alike cores overwrite the same keys, off the touched ones with the same commands. -/
theorem AgreeOff.replayed (agree : AgreeOff touched log log') (alike : AlikeCores c touched x y)
    (keyed : Keyed x) (keyed' : Keyed y) (one : OnePrimary x)
    (current : ∀ d client, x.appliedProfileClientId = some d → x.clients[d]? = some client →
      Carries log client.profile)
    (current' : ∀ d client, y.appliedProfileClientId = some d → y.clients[d]? = some client →
      Carries log' client.profile) : AgreeOff touched (log ++ x.replayed) (log' ++ y.replayed) := by
  intro key free
  have same : (y.storedAt · key) = (x.storedAt · key) :=
    funext fun _ => alike.storedAt (Or.inr free)
  rw [latest_replayed keyed current, latest_replayed keyed' current', agree key free,
    alike.successor one, same]

theorem AlikeCores.closing (alike : AlikeCores c touched x y) (one : OnePrimary x) :
    y.closing = x.closing := by
  unfold BrokerCore.closing
  rw [alike.active]
  split
  · rfl
  · rw [alike.foregroundSpeed one]

theorem profileCommands_congr {e e' : BrokerCall} (input : e'.input = e.input)
    (actions : e'.output.actions = e.output.actions) (closing : e'.after.closing = e.after.closing) :
    profileCommands e' = profileCommands e := by
  unfold profileCommands
  rw [input, actions, closing]

/-- A job that starts is written at the end of the call. -/
theorem startsJob_passed {mid : BrokerCore} (idle : mid.active = none) (clock : Nat)
    (ending : List PhysicalAction) (before : BrokerCore) (accepted : Option Nat) :
    startsJob c ⟨before, op, ⟨accepted, ending ++ (mid.startNextOrRestore clock).2⟩,
        (mid.startNextOrRestore clock).1⟩ =
      (mid.startNextOrRestore clock).1.active.any (·.job.clientId == c) := by
  unfold startsJob BrokerCore.startNextOrRestore
  cases mid.queue with
  | nil =>
      have none' : mid.restoreForegroundSpeed.1.active = none := idle
      simp [none']
  | cons job rest =>
      have closes : [PhysicalAction.write job.payload.wireBytes, .write [0x15]].isSuffixOf
          (ending ++ (mid.profileReplay job.clientId ++ speedPrefix job ++
            [.write job.payload.wireBytes, .write [0x15]])) = true := by
        rw [List.isSuffixOf_iff_suffix]
        exact ⟨_, List.append_assoc _ _ _⟩
      simp only [Option.any_some, closes, Bool.and_true]

/-- **One call on both sides.** -/
theorem Beside.agree {actions actions' : List PhysicalAction} {accepted accepted' : Option Nat}
    (beside : Beside c touched op x y x' actions y' actions') (keyed : Keyed x) (keyed' : Keyed y)
    (one : OnePrimary x) (one' : OnePrimary x') (marked : Marked log x) (marked' : Marked log' y)
    (agree : AgreeOff touched log log') :
    AgreeOff touched (log ++ profileCommands ⟨x, op, ⟨accepted, actions⟩, x'⟩)
        (log' ++ profileCommands ⟨y, op, ⟨accepted', actions'⟩, y'⟩) ∧
      startsJob c ⟨y, op, ⟨accepted', actions'⟩, y'⟩ =
        startsJob c ⟨x, op, ⟨accepted, actions⟩, x'⟩ := by
  cases beside with
  | level alike =>
      have same := @profileCommands_congr ⟨x, op, ⟨accepted, actions⟩, x'⟩
        ⟨y, op, ⟨accepted', actions⟩, y'⟩ rfl rfl (alike.closing one')
      rw [same]
      refine ⟨agree.append _, ?_⟩
      unfold startsJob
      rw [alike.active]
  | @passed mid mid' clock ending alike boundary boundary' clearing =>
      have commands := @profileCommands_passed x op ⟨accepted, _⟩ mid clock ending boundary.idle
        clearing rfl
      have commands' := @profileCommands_passed y op ⟨accepted', _⟩ mid' clock ending boundary'.idle
        clearing rfl
      rw [commands, commands', startsJob_passed boundary.idle, startsJob_passed boundary'.idle,
        (alike.goesOn clock).active]
      exact ⟨agree.replayed alike (boundary.keyed keyed) (boundary'.keyed keyed')
        (boundary.onePrimary one) (marked.between boundary) (marked'.between boundary'), rfl⟩

/-- A fresh job start has what its client has stored. -/
theorem FreshCall.stored {call : BrokerCall} (fresh : FreshCall log call)
    (starts : startsJob c call = true) {key : Nat} {command : List UInt8}
    (stored : call.after.storedAt c key = some command) :
    latest profileKey (log ++ profileCommands call) key = some command := by
  obtain ⟨a, active, opens⟩ := (Option.any_eq_true _ _).mp starts
  obtain ⟨owner, closes⟩ := Bool.and_eq_true_iff.mp opens
  obtain rfl := eq_of_beq owner
  obtain ⟨front, actions⟩ := List.isSuffixOf_iff_suffix.mp closes
  obtain ⟨client, known, found⟩ := Option.bind_eq_some_iff.mp stored
  exact fresh front a client active actions.symm known key command found

/-- What `c` has stored is in the keyer, and off the touched keys the registers agree. -/
theorem AgreeOff.covers (agree : AgreeOff touched log log') (alike : AlikeCores c touched x y)
    (own : ∀ key command, x.storedAt c key = some command → latest profileKey log key = some command)
    (own' : ∀ key command, y.storedAt c key = some command →
      latest profileKey log' key = some command) :
    SameRegisters (Covers c touched x) log log' := by
  intro key covers
  by_cases hidden : touched key
  · obtain ⟨command, stored⟩ := Option.isSome_iff_exists.mp (covers hidden)
    have stored' : y.storedAt c key = some command := (alike.storedAt (Or.inl rfl)).trans stored
    rw [own key command stored, own' key command stored']
  · exact agree key hidden

/-- The registers agree at every job start of `c` that its profile covers. -/
abbrev StartsAgree (c : ClientId) (touched : Nat → Prop)
    (starts starts' : List (BrokerCall × List (List UInt8))) : Prop :=
  List.Forall₂ (fun s t => SameRegisters (Covers c touched s.1.after) s.2 t.2) starts starts'

/-- **The calls of a step on both sides.** -/
theorem calls_agree {ops : List BrokerOp} (within : ∀ op ∈ ops, op.within = true)
    (p : Profiled log x) (p' : Profiled log' y) (alike : AlikeCores c touched x y)
    (online : x.connected = true) (agree : AgreeOff touched log log') :
    AgreeOff touched (log ++ (x.callsOf ops).flatMap profileCommands)
        (log' ++ (y.callsOf ops).flatMap profileCommands) ∧
      StartsAgree c touched (jobStarts c log (x.callsOf ops)) (jobStarts c log' (y.callsOf ops)) := by
  induction ops generalizing log log' x y with
  | nil => exact ⟨by simpa [callsOf] using agree, .nil⟩
  | cons op ops ih =>
      have here := within op List.mem_cons_self
      have online' : y.connected = true := alike.connected.trans online
      have beside := apply_beside alike here
      obtain ⟨next, fresh⟩ := p.call here
      obtain ⟨next', fresh'⟩ := p'.call here
      obtain ⟨agree', starts⟩ := @Beside.agree _ _ log log' _ _ _ _ _ _ _
        (op.apply x).2.accepted (op.apply y).2.accepted beside p.keyed p'.keyed p.represented.onePrimary
        next.represented.onePrimary (p.marked online) (p'.marked online') agree
      have stays : (op.apply x).1.connected = true := (apply_course x here).connected.trans online
      obtain ⟨rest, later⟩ := ih (fun o mem => within o (List.mem_cons_of_mem _ mem)) next next'
        beside.alike stays agree'
      refine ⟨?_, ?_⟩
      · rw [List.append_assoc, List.append_assoc] at rest
        exact rest
      · show StartsAgree c touched (if startsJob c _ then _ else _) (if startsJob c _ then _ else _)
        rw [starts]
        split
        · rename_i started
          refine .cons ?_ later
          exact agree'.covers beside.alike (fun _ _ stored => fresh.stored started stored)
            (fun _ _ stored => fresh'.stored (starts.trans started) stored)
        · exact later

/-- Without a connection no job starts. -/
theorem jobStarts_offline {ops : List BrokerOp} (within : ∀ op ∈ ops, op.within = true)
    (p : Profiled log x) (off : x.connected = false) : jobStarts c log (x.callsOf ops) = [] := by
  induction ops generalizing log x with
  | nil => rfl
  | cons op ops ih =>
      have here := within op List.mem_cons_self
      obtain ⟨next, _⟩ := p.call here
      have off' : (op.apply x).1.connected = false := (apply_course x here).connected.trans off
      have idle : (op.apply x).1.active = none :=
        (jobs_eq_nil.mp (next.represented.offline off')).active
      have silent : startsJob c ⟨x, op, (op.apply x).2, (op.apply x).1⟩ = false := by
        simp [startsJob, idle]
      show (if startsJob c _ = true then _ else _) = _
      rw [silent]
      exact ih (fun o mem => within o (List.mem_cons_of_mem _ mem)) next off'

/-- Restoring the foreground starts no job. -/
theorem jobStarts_reopening (idle : x.active = none) (firmware : UInt8) :
    jobStarts c log (x.callsOf (reopening firmware)) = [] := by
  have online : (x.connectPhysical firmware).active = none := idle
  have restored : (x.connectPhysical firmware).restoreForeground.1.active = none := idle
  simp [jobStarts, reopening, callsOf, startsJob, BrokerOp.apply, online, restored]

/-- Behind new connections the registers agree. -/
theorem reopening_agree (keyed : Keyed x) (keyed' : Keyed y) (one : OnePrimary x)
    (alike : AlikeCores c touched x y) (vacant : x.Vacant) (firmware : UInt8) :
    AgreeOff touched ((x.callsOf (reopening firmware)).flatMap profileCommands)
      ((y.callsOf (reopening firmware)).flatMap profileCommands) := by
  have idle' : y.active = none := alike.active.trans vacant.active
  have online := apply_alike alike (.connectPhysical firmware)
  have replays : ∀ {core : BrokerCore}, core.queue = [] →
      core.foregroundReplay = [] ++ core.replayed := by
    intro core drained
    simp only [BrokerCore.replayed, drained, List.nil_append]
  rw [profileCommands_reopening vacant.active, profileCommands_reopening idle',
    replays (show (x.connectPhysical firmware).queue = [] from vacant.queue),
    replays (show (y.connectPhysical firmware).queue = [] from alike.queue.trans vacant.queue)]
  have empty : AgreeOff touched [] [] := fun _ _ => rfl
  exact empty.replayed online keyed keyed' one (fun _ _ marked => by cases marked)
    (fun _ _ marked => by cases marked)

end Calls

/-! ## One step on both sides -/

section Steps

variable {history history' : List ActorStep} {a b a' b' : Actor} {input : ActorInput}
  {o p : Observation}

/-- What is kept along two runs that differ in Configures. -/
structure Twins (c : ClientId) (touched : Nat → Prop) (history : List ActorStep) (a : Actor)
    (history' : List ActorStep) (b : Actor) : Prop where
  alike : AlikeActors c touched a b
  agree : a.loop = .session → AgreeOff touched (profileLog history) (profileLog history')

/-- What is known of each run by itself. -/
structure Fit (history : List ActorStep) (a : Actor) : Prop where
  sound : Sound a
  outside : a.loop ≠ .stopped → a.inMaintenance = false
  profiled : Profiled (profileLog history) a.core

/-- In a session the log goes on. -/
theorem profileLogOn_session (log : List (List UInt8)) {e : ActorStep}
    (live : e.before.loop = .session)
    (step : actor.step e.before e.input = some (e.after, e.output)) :
    profileLogOn log e = log ++ (coreCalls e).flatMap profileCommands := by
  obtain ⟨a, input, o, a'⟩ := e
  cases input with
  | reopen now outcome =>
      simp [actor, show a.loop = .session from live] at step
  | _ => exact if_pos live

/-- A session begins with a transport that is opened again. -/
theorem session_before (step : actor.step a input = some (a', o)) (live : a'.loop = .session) :
    a.loop = .session ∨ ∃ now firmware fault, input = .reopen now (.opened firmware fault) ∧
      a.loop = .reconnecting := by
  cases actor_move step with
  | turn live => exact Or.inl live
  | sunk _ _ _ _ _ _ _ loop =>
      rcases loop with loop | loop
      · rw [loop] at live
        cases live
      · rw [loop] at live
        cases live
  | left | lost => cases live
  | unopened _ _ _ _ _ _ loop | refailed _ _ _ _ _ loop =>
      rw [loop] at live
      cases live
  | @reopened now firmware fault _ _ off => exact Or.inr ⟨now, firmware, fault, rfl, off⟩
  | foreign _ _ _ _ _ loop => exact Or.inl (loop.symm.trans live)

/-- The calls of a step within a session or the reconnect loop. -/
theorem opsOf_within (outside : a.loop ≠ .stopped → a.inMaintenance = false)
    (step : actor.step a input = some (a', o))
    (within : ∀ now firmware fault, input ≠ .reopen now (.opened firmware fault)) :
    ∀ op ∈ opsOf ⟨a, input, o, a'⟩, op.within = true := by
  obtain ⟨_, running⟩ := step_after step
  cases input with
  | request request now later =>
      have free : (a.atTime later).inMaintenance = false := outside (running nofun)
      exact decisionOps_within free now later (.request request)
  | byte byte now later =>
      have free : (a.atTime later).inMaintenance = false := outside (running nofun)
      exact decisionOps_within free now later (.byte byte)
  | tick now later =>
      have free : (a.atTime later).inMaintenance = false := outside (running nofun)
      exact decisionOps_within free now later .tick
  | reopen now outcome =>
      cases outcome with
      | opened firmware fault => exact absurd rfl (within now firmware fault)
      | openFailed | initializationFailed =>
          intro op none'
          cases none'
  | requestsClosed | readError | station =>
      intro op none'
      cases none'

namespace Twins

/-- **The same input on both sides.** -/
theorem shared (twins : Twins c touched history a history' b) (fit : Fit history a)
    (fit' : Fit history' b) (step : actor.step a input = some (a', o))
    (step' : actor.step b input = some (b', p))
    (plain : ∀ d command now later fault,
      input ≠ .request (.maintenanceCommand d command) now later fault) :
    Twins c touched (history ++ [⟨a, input, o, a'⟩]) a' (history' ++ [⟨b, input, p, b'⟩]) b' := by
  have ops : opsOf ⟨b, input, p, b'⟩ = opsOf ⟨a, input, o, a'⟩ := twins.alike.opsOf fit.outside step
  have calls : coreCalls ⟨b, input, p, b'⟩ = b.core.callsOf (opsOf ⟨a, input, o, a'⟩) :=
    congrArg b.core.callsOf ops
  refine ⟨twins.alike.step fit.outside step step' plain, fun live' => ?_⟩
  rw [profileLog_concat, profileLog_concat]
  rcases session_before step live' with live | ⟨now, firmware, fault, rfl, off⟩
  · have within := opsOf_within fit.outside step (fun now firmware fault same => by
      subst same
      simp [actor, live] at step)
    rw [profileLogOn_session _ live step,
      profileLogOn_session _ (twins.alike.loop.trans live) step', calls]
    exact (calls_agree within fit.profiled fit'.profiled twins.alike.core (fit.sound.connected live)
      (twins.agree live)).1
  · show AgreeOff touched ((coreCalls _).flatMap profileCommands)
      ((coreCalls _).flatMap profileCommands)
    rw [calls]
    exact reopening_agree fit.profiled.keyed fit'.profiled.keyed
      fit.profiled.represented.onePrimary twins.alike.core (fit.sound.offline off).2 firmware

/-- The job starts of a step on both sides. -/
theorem starts (twins : Twins c touched history a history' b) (fit : Fit history a)
    (fit' : Fit history' b) (step : actor.step a input = some (a', o)) :
    StartsAgree c touched (jobStarts c (profileLog history) (coreCalls ⟨a, input, o, a'⟩))
      (jobStarts c (profileLog history') (coreCalls ⟨b, input, p, b'⟩)) := by
  have ops : opsOf ⟨b, input, p, b'⟩ = opsOf ⟨a, input, o, a'⟩ := twins.alike.opsOf fit.outside step
  have calls : coreCalls ⟨b, input, p, b'⟩ = b.core.callsOf (opsOf ⟨a, input, o, a'⟩) :=
    congrArg b.core.callsOf ops
  have core := twins.alike.core
  rw [calls]
  by_cases reopens : ∃ now firmware fault, input = .reopen now (.opened firmware fault)
  · obtain ⟨now, firmware, fault, rfl⟩ := reopens
    have off : a.loop = .reconnecting := by
      by_contra other
      simp [actor, other] at step
    have idle := (fit.sound.offline off).2.active
    have none' := @jobStarts_reopening c (profileLog history) a.core idle firmware
    have none'' := @jobStarts_reopening c (profileLog history') b.core (core.active.trans idle) firmware
    show StartsAgree c touched (jobStarts c _ (a.core.callsOf (reopening firmware)))
      (jobStarts c _ (b.core.callsOf (reopening firmware)))
    rw [none', none'']
    exact .nil
  have within := opsOf_within fit.outside step
    (fun now firmware fault same => reopens ⟨now, firmware, fault, same⟩)
  cases loop : a.loop with
  | session =>
      exact (calls_agree within fit.profiled fit'.profiled core (fit.sound.connected loop)
        (twins.agree loop)).2
  | reconnecting =>
      have off := (fit.sound.offline loop).1
      have none' := @jobStarts_offline c _ _ _ within fit.profiled off
      have none'' := @jobStarts_offline c _ _ _ within fit'.profiled (core.connected.trans off)
      unfold coreCalls
      rw [none', none'']
      exact .nil
  | stopped =>
      have foreign : ∃ call, input = .station call := by
        by_contra inside
        exact (step_after step).2 (fun call same => inside ⟨call, same⟩) loop
      obtain ⟨call, rfl⟩ := foreign
      exact .nil

end Twins

/-! ## A Configure on one side -/

/-- A Configure that touches leaves the other registers alone. -/
theorem latest_touched (fit : Fit history a) {request : Request} {now later : Nat}
    {fault : Option WriteFault} (touches : Touches c touched request)
    (step : actor.step a (.request request now later fault) = some (a', o)) {key : Nat}
    (free : ¬ touched key) :
    latest profileKey (profileLog (history ++ [⟨a, .request request now later fault, o, a'⟩])) key =
      latest profileKey (profileLog history) key := by
  obtain ⟨_, running⟩ := step_after step
  obtain @⟨d, command, _, hidden⟩ := touches
  have outside : (a.atTime later).inMaintenance = false := fit.outside (running nofun)
  have calls : coreCalls ⟨a, .request (.configure d command) now later fault, o, a'⟩ =
      a.core.callsOf [.setClientCommand d command] :=
    congrArg a.core.callsOf (if_neg (by rw [Actor.maintenanceBars_outside outside d]; decide))
  rw [profileLog_concat]
  unfold profileLogOn
  rw [calls]
  show latest profileKey (if a.loop = .session then _ else _) key = _
  split
  · have chunks : (a.core.callsOf [.setClientCommand d command]).flatMap profileCommands =
        writes (BrokerOp.apply a.core (.setClientCommand d command)).2.actions :=
      List.append_nil _
    have untouched : latest profileKey
        (writes (BrokerOp.apply a.core (.setClientCommand d command)).2.actions) key = none := by
      rw [latest_eq_none]
      intro chunk mem keyed
      by_cases refused : profileKey command = none ∨ a.core.clients[d]? = none
      · rw [apply_unconfigured refused] at mem
        cases mem
      · obtain ⟨keyless, unknown⟩ := not_or.mp refused
        obtain ⟨key', keyed'⟩ := Option.ne_none_iff_exists'.mp keyless
        obtain ⟨client, known⟩ := Option.ne_none_iff_exists'.mp unknown
        rw [(apply_configured keyed' known).2.2] at mem
        split at mem
        · obtain rfl := List.mem_singleton.mp mem
          exact free (hidden key keyed)
        · cases mem
    rw [latest_append, chunks, untouched, Option.none_or]
  · rfl

namespace Twins

/-- A Configure with other commands on both sides. -/
theorem altered {request request' : Request} {now later : Nat} {fault : Option WriteFault}
    (twins : Twins c touched history a history' b) (fit : Fit history a) (fit' : Fit history' b)
    (touches : Touches c touched request) (touches' : Touches c touched request')
    (step : actor.step a (.request request now later fault) = some (a', o))
    (step' : actor.step b (.request request' now later fault) = some (b', p)) :
    Twins c touched (history ++ [⟨a, .request request now later fault, o, a'⟩]) a'
      (history' ++ [⟨b, .request request' now later fault, p, b'⟩]) b' := by
  refine ⟨?_, fun live' key free => ?_⟩
  · obtain ⟨rfl, running⟩ := step_after step
    obtain ⟨rfl, _⟩ := step_after step'
    obtain @⟨d, command, other, hidden⟩ := touches
    obtain @⟨d', command', other', hidden'⟩ := touches'
    have free : (a.atTime later).inMaintenance = false := fit.outside (running nofun)
    have free' : (b.atTime later).inMaintenance = false := twins.alike.inMaintenance.trans free
    have core := ((twins.alike.core.configured other hidden).symm.configured other' hidden').symm
    have handled := (Actor.handleRequest_configure free now later d command).alike
      (Actor.handleRequest_configure free' now later d' command') (twins.alike.atTime later) core
    unfold Actor.after
    simp only [twins.alike.loop]
    split
    · exact AlikeActors.requestTurn handled fault
    · exact AlikeActors.sinkTurn handled
  · have live : a.loop = .session := by
      rcases session_before step live' with live | ⟨_, _, _, reopens, _⟩
      · exact live
      · cases reopens
    rw [latest_touched fit touches step free, latest_touched fit' touches' step' free]
    exact twins.agree live key free

/-- A Configure on the left, which nobody notices. -/
theorem left {request : Request} {now later : Nat} {fault : Option WriteFault}
    (twins : Twins c touched history a history' b) (fit : Fit history a)
    (touches : Touches c touched request)
    (step : actor.step a (.request request now later fault) = some (a', o)) (loop : a'.loop = a.loop)
    (ptt : a'.ptt = a.ptt) :
    Twins c touched (history ++ [⟨a, .request request now later fault, o, a'⟩]) a' history' b := by
  refine ⟨?_, fun live' key free => ?_⟩
  · obtain @⟨d, command, other, hidden⟩ := touches
    obtain ⟨core, shell⟩ := configure_step fit.outside step loop ptt
    refine ⟨?_, twins.alike.shell.trans shell.symm⟩
    rw [core]
    exact twins.alike.core.configured other hidden
  · rw [latest_touched fit touches step free]
    exact twins.agree (loop.symm.trans live') key free

theorem symm (twins : Twins c touched history a history' b) :
    Twins c touched history' b history a :=
  ⟨twins.alike.symm, fun live key free =>
    (twins.agree (twins.alike.loop.symm.trans live) key free).symm⟩

end Twins

end Steps

/-! ## Every two runs -/

section Runs

variable {maxTx : Nat} {ptt : Option PttManager} {reconnect : Bool} {firmware : UInt8} {start : Nat}
  {history history' : List ActorStep} {a b : Actor}

theorem fit_of_execution
    (run : actor.Execution (.spawn maxTx ptt reconnect firmware start) history a)
    (plain : ∀ e ∈ history, Maintains e = false) : Fit history a := by
  obtain ⟨sound, outside, profiled⟩ := profiled_of_execution run plain
  exact ⟨sound, outside, profiled⟩

/-- The last step of a run without maintenance, from a state of which enough is known. -/
theorem last_fit {e : ActorStep}
    (run : actor.Execution (.spawn maxTx ptt reconnect firmware start) (history ++ [e]) a)
    (plain : ∀ x ∈ history ++ [e], Maintains x = false) :
    actor.Execution (.spawn maxTx ptt reconnect firmware start) history e.before ∧
      actor.step e.before e.input = some (e.after, e.output) ∧ a = e.after ∧
      (∀ x ∈ history, Maintains x = false) ∧ Maintains e = false ∧ Fit history e.before := by
  obtain ⟨before, step, here⟩ := run.last
  obtain ⟨past, last⟩ := List.forall_mem_append.mp plain
  exact ⟨before, step, here, past, last e List.mem_cons_self, fit_of_execution before past⟩

theorem twins_of_executions
    (run : actor.Execution (.spawn maxTx ptt reconnect firmware start) history a)
    (run' : actor.Execution (.spawn maxTx ptt reconnect firmware start) history' b)
    (plain : ∀ e ∈ history, Maintains e = false) (plain' : ∀ e ∈ history', Maintains e = false)
    (differ : Differ c touched history history') : Twins c touched history a history' b := by
  induction differ generalizing a b with
  | spawned =>
      obtain rfl := run.stays
      obtain rfl := run'.stays
      exact ⟨.rfl, fun _ _ _ => rfl⟩
  | @shared history history' e e' earlier same ih =>
      obtain ⟨before, step, rfl, past, free, fit⟩ := last_fit run plain
      obtain ⟨before', step', rfl, past', _, fit'⟩ := last_fit run' plain'
      have twins := ih before before' past past'
      obtain ⟨a, input, o, a'⟩ := e
      obtain ⟨b, input', p, b'⟩ := e'
      obtain rfl : input' = input := same
      refine twins.shared fit fit' step step' ?_
      rintro d command now later fault rfl
      cases free
  | @altered history history' e e' request request' now later fault earlier touches touches' input
      input' ih =>
      obtain ⟨before, step, rfl, past, _, fit⟩ := last_fit run plain
      obtain ⟨before', step', rfl, past', _, fit'⟩ := last_fit run' plain'
      have twins := ih before before' past past'
      obtain ⟨a, _, o, a'⟩ := e
      obtain ⟨b, _, p, b'⟩ := e'
      obtain rfl := input
      obtain rfl := input'
      exact twins.altered fit fit' touches touches' step step'
  | @left history history' e request now later fault earlier touches input unnoticed ih =>
      obtain ⟨before, step, rfl, past, _, fit⟩ := last_fit run plain
      have twins := ih before run' past plain'
      obtain ⟨a, _, o, a'⟩ := e
      obtain rfl := input
      exact twins.left fit touches step unnoticed.1 unnoticed.2
  | @right history history' e request now later fault earlier touches input unnoticed ih =>
      obtain ⟨before, step, rfl, past, _, fit⟩ := last_fit run' plain'
      have twins := ih run before plain past
      obtain ⟨b, _, p, b'⟩ := e
      obtain rfl := input
      exact (twins.symm.left fit touches step unnoticed.1 unnoticed.2).symm

/-- What the idle primary has stored is in the keyer. -/
theorem Fit.idle_stored (fit : Fit history a) (idle : IdleFor c a) :
    ∀ key command, a.core.storedAt c key = some command →
      latest profileKey (profileLog history) key = some command := by
  obtain ⟨live, inactive, leads⟩ := idle
  intro key command stored
  obtain ⟨client, known, primary⟩ := isPrimary_iff.mp leads
  have found : client.profile[key]? = some command := by
    unfold storedAt at stored
    rwa [known] at stored
  have marked := fit.profiled.marked (fit.sound.connected live)
  rcases marked.foreground inactive c client known primary with applied | blank
  · exact marked.current c client applied known key command found
  · rw [blank key] at found
    cases found

/-- **Profile isolation.**  In every two runs without maintenance that differ only in the Configures of
clients other than `c`, a register that `c` meets is the same in both if no such Configure sets it, or if
`c` has a command of its own under its key. -/
theorem profile_isolation
    (run : actor.Execution (.spawn maxTx ptt reconnect firmware start) history a)
    (run' : actor.Execution (.spawn maxTx ptt reconnect firmware start) history' b)
    (plain : ∀ e ∈ history, Maintains e = false) (plain' : ∀ e ∈ history', Maintains e = false)
    (differ : Differ c touched history history') :
    Isolated c (Covers c touched) history a history' b := by
  have twins := twins_of_executions run run' plain plain' differ
  have fit := fit_of_execution run plain
  have fit' := fit_of_execution run' plain'
  have core := twins.alike.core
  refine ⟨fun idle => ?_, fun input a' o b' p step _ => twins.starts fit fit' step⟩
  obtain ⟨live, inactive, leads⟩ := idle
  have idle' : IdleFor c b := ⟨twins.alike.loop.trans live, core.active.trans inactive,
    (core.isPrimary c).trans leads⟩
  exact ⟨idle', (twins.agree live).covers core (fit.idle_stored ⟨live, inactive, leads⟩)
    (fit'.idle_stored idle')⟩

end Runs

/-! ## A weighting that one client sets for itself -/

/-- Both inputs are the same, or Configures that touch. -/
inductive Aligned (c : ClientId) (touched : Nat → Prop) : ActorInput → ActorInput → Prop
  | same (input : ActorInput) : Aligned c touched input input
  | configured {request request' : Request} {now later : Nat} {fault : Option WriteFault} :
      Touches c touched request → Touches c touched request' →
      Aligned c touched (.request request now later fault) (.request request' now later fault)

theorem Differ.extend {earlier earlier' history history' : List ActorStep}
    (differ : Differ c touched earlier earlier')
    (aligned : List.Forall₂ (fun e e' => Aligned c touched e.input e'.input) history history') :
    Differ c touched (earlier ++ history) (earlier' ++ history') := by
  induction aligned generalizing earlier earlier' with
  | nil => simpa using differ
  | @cons e e' history history' first _ ih =>
      have longer : Differ c touched (earlier ++ [e]) (earlier' ++ [e']) := by
        generalize input : e.input = i, input' : e'.input = i' at first
        cases first with
        | same => exact differ.shared (input'.trans input.symm)
        | configured touches touches' => exact differ.altered touches touches' input input'
      have whole := ih longer
      rwa [List.append_assoc, List.append_assoc] at whole

theorem differ_of_aligned {history history' : List ActorStep}
    (aligned : List.Forall₂ (Aligned c touched) (history.map (·.input)) (history'.map (·.input))) :
    Differ c touched history history' := by
  rw [List.forall₂_map_left_iff, List.forall₂_map_right_iff] at aligned
  exact Differ.spawned.extend aligned

/-- Client 1 is the primary.  Client 2 sets the weighting for its job, which the keyer sends. -/
def weightedJob (own : List ActorInput) (weight : UInt8) : List ActorInput :=
  .request (.register 1 true) 0 0 none :: own ++
    [.request (.register 2 false) 0 0 none, .request (.configure 2 [0x03, weight]) 0 0 none,
      .request (.enqueue 2 ⟨[69], [69]⟩ none false) 1 1 none, .byte 0xc4 2 2 none,
      .byte 0xc0 3 3 none]

theorem weightedJob_aligned (own : List ActorInput) (weight weight' : UInt8) :
    List.Forall₂ (Aligned 1 (· = 3)) (weightedJob own weight) (weightedJob own weight') := by
  have touches (w : UInt8) : Touches 1 (· = 3) (.configure 2 [0x03, w]) :=
    .configure (by decide) (fun key keyed => (Option.some.inj keyed).symm)
  have first : List.Forall₂ (Aligned 1 (· = 3)) own own :=
    List.forall₂_same.mpr fun input _ => .same input
  exact .cons (.same _) (List.rel_append first (.cons (.same _)
    (.cons (.configured (touches weight) (touches weight'))
      (.cons (.same _) (.cons (.same _) (.cons (.same _) .nil))))))

theorem weightedJob_differ (own : List ActorInput) (weight weight' : UInt8)
    (run : (actor.exec leased (weightedJob own weight)).isSome)
    (run' : (actor.exec leased (weightedJob own weight')).isSome) :
    Differ 1 (· = 3) ((actor.exec leased (weightedJob own weight)).get run).1
      ((actor.exec leased (weightedJob own weight')).get run').1 := by
  have aligned := weightedJob_aligned own weight weight'
  rw [← actor.exec_inputs leased _ run, ← actor.exec_inputs leased _ run'] at aligned
  exact differ_of_aligned aligned

/-- Client 1 sets a weighting of its own. -/
def ownWeighting : List ActorInput := [.request (.configure 1 [0x03, 40]) 0 0 none]

/-- With a weighting of its own, client 1 has the same one in both runs. -/
theorem profile_isolation_weightedJob :
    ∃ history a history' b, actor.Execution leased history a ∧ actor.Execution leased history' b ∧
      Differ 1 (· = 3) history history' ∧ Isolated 1 (Covers 1 (· = 3)) history a history' b ∧
      IdleFor 1 a ∧ Covers 1 (· = 3) a.core 3 ∧
      latest profileKey (profileLog history') 3 = some [0x03, 40] := by
  have run := actor.execution_exec leased (weightedJob ownWeighting 50) (by decide)
  have run' := actor.execution_exec leased (weightedJob ownWeighting 60) (by decide)
  have differ := weightedJob_differ ownWeighting 50 60 (by decide) (by decide)
  exact ⟨_, _, _, _, run, run', differ, profile_isolation run run' (by decide) (by decide) differ,
    ⟨by decide, by decide, by decide⟩, fun _ => by decide, by decide⟩

/-- Without one it keys with the weighting that client 2 has set for its own job. -/
theorem not_profile_isolation :
    ∃ history a history' b, actor.Execution leased history a ∧ actor.Execution leased history' b ∧
      (∀ e ∈ history, Maintains e = false) ∧ (∀ e ∈ history', Maintains e = false) ∧
      Differ 1 (· = 3) history history' ∧ ¬ Isolated 1 (fun _ _ => True) history a history' b := by
  have run := actor.execution_exec leased (weightedJob [] 50) (by decide)
  have run' := actor.execution_exec leased (weightedJob [] 60) (by decide)
  have differ := weightedJob_differ [] 50 60 (by decide) (by decide)
  refine ⟨_, _, _, _, run, run', by decide, by decide, differ, fun isolated => ?_⟩
  have same := (isolated.idle ⟨by decide, by decide, by decide⟩).2 3 trivial
  revert same
  decide

end CatHub.WinKeyer
