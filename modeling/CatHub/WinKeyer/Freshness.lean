/-
# CatHub.WinKeyer.Freshness — a job is written behind its client's current profile.

A client's profile is replayed in front of its job, unless the marker says that it is in the keyer
already.  The marker is right: the keyer `Carries` the profile of the client it names, that is, the
last profile command written with each of its keys is the stored one.

While nothing is active the marker names the primary, or the primary has no profile yet.  Only so may
the command of an idle primary be written alone.  This holds whenever the foreground was restored
behind a new connection, which is one step of the actor.
-/
import CatHub.Systems.Registers
import CatHub.WinKeyer.Turns

namespace CatHub.WinKeyer

open Systems Ptt BrokerCore

/-! ## The profile commands on the wire -/

/-- What closes the chunks of an ownership boundary: the speed, the payload and a status request of
the job that starts, or the speed of the foreground. -/
def BrokerCore.closing (core : BrokerCore) : List (List UInt8) :=
  match core.active with
  | some a => speedChunk a.job ++ [a.job.payload.wireBytes, [0x15]]
  | none => [core.foregroundSpeed.command]

/-- The profile commands that a call writes: the command of a Configure, and at an ownership boundary
what stands between the Clear Buffer and the closing chunks. -/
def profileCommands (e : BrokerCall) : List (List UInt8) :=
  match e.input with
  | .setClientCommand _ _ => writes e.output.actions
  | .setClientSpeed _ _ => []
  | .activeOwnerCommand _ _ => []
  | op =>
      let chunks := (writes e.output.actions).drop (if op.clears then 1 else 0)
      chunks.take (chunks.length - e.after.closing.length)

/-- The calls of the core in a step. -/
def opsOf (e : ActorStep) : List BrokerOp :=
  match e.input with
  | .request request now later _ => (e.before.atTime later).decisionOps now later (.request request)
  | .byte byte now later _ => (e.before.atTime later).decisionOps now later (.byte byte)
  | .tick now later _ => (e.before.atTime later).decisionOps now later .tick
  | .reopen _ (.opened firmware _) => reopening firmware
  | _ => []

/-- The recorded calls of a step. -/
def coreCalls (e : ActorStep) : BrokerHistory := e.before.core.callsOf (opsOf e)

/-- The profile commands written to the current connection, when those before a step were `log`.
In the reconnect loop there is none, and an opened transport is a new one. -/
def profileLogOn (log : List (List UInt8)) (e : ActorStep) : List (List UInt8) :=
  match e.input with
  | .reopen _ (.opened _ _) => (coreCalls e).flatMap profileCommands
  | _ => if e.before.loop = .session then log ++ (coreCalls e).flatMap profileCommands else log

def profileLog (history : List ActorStep) : List (List UInt8) := history.foldl profileLogOn []

/-! ## The property -/

/-- For every key of the profile the last profile command with that key is the stored one. -/
def Carries (log : List (List UInt8)) (profile : Profile) : Prop :=
  ∀ key command, profile[key]? = some command → latest profileKey log key = some command

/-- When a call starts to write the payload of a job, the keyer carries the profile of its client. -/
def FreshCall (log : List (List UInt8)) (call : BrokerCall) : Prop :=
  ∀ front a client, call.after.active = some a →
    call.output.actions = front ++ [.write a.job.payload.wireBytes, .write [0x15]] →
    call.after.clients[a.job.clientId]? = some client →
    Carries (log ++ profileCommands call) client.profile

/-- Every payload of a step is fresh; `earlier` are the steps before it. -/
def Fresh (earlier : List ActorStep) (e : ActorStep) : Prop :=
  ∀ before call after, coreCalls e = before ++ call :: after →
    FreshCall (profileLog earlier ++ before.flatMap profileCommands) call

/-- The run has no maintenance. -/
def Maintains (e : ActorStep) : Bool :=
  match e.input with
  | .request (.maintenanceCommand _ _) _ _ _ => true
  | _ => false

/-! ## Profiles and logs -/

/-- Every stored command has the key it is stored under. -/
def Keyed (core : BrokerCore) : Prop :=
  ∀ (c : ClientId) (client : ClientState), core.clients[c]? = some client →
    ∀ key command, client.profile[key]? = some command → profileKey command = some key

def Blank (profile : Profile) : Prop := ∀ key : Nat, profile[key]? = none

section Profiles

variable {log : List (List UInt8)} {profile : Profile}

theorem carries_blank (blank : Blank profile) : Carries log profile := by
  intro key command stored
  rw [blank key] at stored
  cases stored

/-- A profile that is replayed is carried. -/
theorem carries_replay (keyed : ∀ key command, profile[key]? = some command →
    profileKey command = some key) : Carries (log ++ storedCommands profile) profile := by
  have entry : ∀ e ∈ profile.toList, profileKey e.2 = some e.1 := fun e mem =>
    keyed e.1 e.2 (Std.TreeMap.mem_toList_iff_getElem?_eq_some.mp mem)
  have distinct : (storedCommands profile).Pairwise (fun x y => profileKey x ≠ profileKey y) := by
    unfold storedCommands
    rw [List.pairwise_map]
    refine (Std.TreeMap.distinct_keys_toList (t := profile)).imp_of_mem ?_
    intro a b ha hb apart same
    rw [entry a ha, entry b hb] at same
    exact apart (Nat.compare_eq_eq.mpr (Option.some.inj same))
  intro key command stored
  have mem : command ∈ storedCommands profile :=
    List.mem_map.mpr ⟨(key, command), Std.TreeMap.mem_toList_iff_getElem?_eq_some.mpr stored, rfl⟩
  rw [latest_append, (latest_eq_some distinct).mpr ⟨mem, keyed key command stored⟩]
  rfl

/-- A profile that is carried but for one command, which is written. -/
theorem carries_insert (carried : Carries log profile) {key : Nat} {command : List UInt8}
    (keyed : profileKey command = some key) :
    Carries (log ++ [command]) (profile.insert key command) := by
  intro key' command' stored
  rw [Std.TreeMap.getElem?_insert] at stored
  rw [latest_append, latest_singleton, keyed]
  by_cases same : key = key'
  · subst same
    simpa using stored
  · have other : profile[key']? = some command' := by simpa [same] using stored
    rw [if_neg (by simpa using same)]
    exact carried key' command' other

end Profiles

theorem keyed_insert {profile : Profile} {key : Nat} {command : List UInt8}
    (keyed : profileKey command = some key)
    (before : ∀ key command, profile[key]? = some command → profileKey command = some key) :
    ∀ key' command', (profile.insert key command)[key']? = some command' →
      profileKey command' = some key' := by
  intro key' command' stored
  rw [Std.TreeMap.getElem?_insert] at stored
  split at stored
  · rename_i same
    obtain rfl := Option.some.inj stored
    rw [keyed, Nat.compare_eq_eq.mp same]
  · exact before key' command' stored

/-- Every call leaves the stored commands under their keys. -/
theorem Course.keyed {core core' : BrokerCore} {op : BrokerOp} {actions : List PhysicalAction}
    (course : Course core op actions core') (keyed : Keyed core) : Keyed core' := by
  intro c client known
  cases course.entry known with
  | kept found => exact keyed c client found
  | @paced before _ found => exact keyed c before found
  | registered =>
      intro key command stored
      simp at stored
  | configured keyed' found => exact keyed_insert keyed' (keyed c _ found)

/-! ## What a call writes of the profiles -/

/-- The profile commands that going on writes. -/
def BrokerCore.replayed (core : BrokerCore) : List (List UInt8) :=
  match core.queue with
  | job :: _ => writes (core.profileReplay job.clientId)
  | [] => core.foregroundReplay

/-- The job that starts is its client's, whose profile is then marked. -/
theorem startNextOrRestore_marks {core : BrokerCore} (idle : core.active = none) {clock : Nat}
    {a : ActiveJob} (active : (core.startNextOrRestore clock).1.active = some a) :
    (core.startNextOrRestore clock).1.appliedProfileClientId = some a.job.clientId := by
  unfold startNextOrRestore at active ⊢
  split at active
  · simp only [Option.some.injEq] at active
    subst active
    simp only []
    split
    · rfl
    · rename_i same
      simpa using same
  · have none' : core.active = some a := active
    rw [idle] at none'
    cases none'

/-- Going on writes the profile commands of the job or the foreground, and what closes them. -/
theorem closing_startNextOrRestore {core : BrokerCore} (idle : core.active = none) (clock : Nat) :
    writes (core.startNextOrRestore clock).2 =
      core.replayed ++ (core.startNextOrRestore clock).1.closing := by
  rw [writes_startNextOrRestore]
  cases queue : core.queue with
  | cons job rest =>
      have closing : (core.startNextOrRestore clock).1.closing =
          speedChunk job ++ [job.payload.wireBytes, [0x15]] := by
        unfold BrokerCore.startNextOrRestore BrokerCore.closing
        rw [queue]
      simp only [closing, BrokerCore.replayed, queue, List.append_assoc]
  | nil =>
      have after : (core.startNextOrRestore clock).1 = core.restoreForegroundSpeed.1 := by
        unfold BrokerCore.startNextOrRestore
        rw [queue]
      have idle' : core.restoreForegroundSpeed.1.active = none := idle
      have closing : core.restoreForegroundSpeed.1.closing = [core.foregroundSpeed.command] := by
        unfold BrokerCore.closing
        rw [idle']
        rfl
      simp only [after, closing, BrokerCore.replayed, queue]

section Calls

variable {core core' : BrokerCore} {op : BrokerOp} {answer : Answer}

theorem profileCommands_silent (silent : writes answer.actions = []) :
    profileCommands ⟨core, op, answer, core'⟩ = [] := by
  unfold profileCommands
  cases op <;> simp [silent]

/-- At an ownership boundary the profile commands are those that going on writes. -/
theorem profileCommands_passed {mid : BrokerCore} {clock : Nat} {ending : List PhysicalAction}
    (idle : mid.active = none) (clearing : Clearing op ending)
    (actions : answer.actions = ending ++ (mid.startNextOrRestore clock).2) :
    profileCommands ⟨core, op, answer, (mid.startNextOrRestore clock).1⟩ = mid.replayed := by
  have chunks := closing_startNextOrRestore idle clock
  set closing := (mid.startNextOrRestore clock).1.closing with closes
  have behind : (writes answer.actions).drop (if op.clears then 1 else 0) =
      mid.replayed ++ closing := by
    rw [actions, writes_append, chunks]
    rcases clearing.chunks with ⟨clears, none'⟩ | ⟨clears, one | one⟩
    · simp [clears, none']
    · simp [clears, one]
    · simp [clears, one]
  have cut : (mid.replayed ++ closing).take ((mid.replayed ++ closing).length - closing.length) =
      mid.replayed := by
    simp
  unfold profileCommands
  have passes := clearing.passes
  cases op with
  | setClientCommand | setClientSpeed | activeOwnerCommand => cases passes
  | _ => simp only [behind, ← closes, cut]

/-- Behind a new connection the foreground's profile is written. -/
theorem profileCommands_reopening (idle : core.active = none) (firmware : UInt8) :
    (core.callsOf (reopening firmware)).flatMap profileCommands =
      (core.connectPhysical firmware).foregroundReplay := by
  let online : BrokerCore := core.connectPhysical firmware
  have last : profileCommands ⟨online, .restoreForeground, { actions := online.restoreForeground.2 },
      online.restoreForeground.1⟩ = online.foregroundReplay := by
    have idle' : online.restoreForegroundSpeed.1.active = none := idle
    simp [profileCommands, restoreForeground, BrokerOp.clears, writes_restoreForegroundSpeed,
      BrokerCore.closing, idle']
  show profileCommands _ ++ (profileCommands _ ++ []) = _
  rw [List.append_nil]
  exact congrArg₂ (· ++ ·) (profileCommands_silent rfl) last

end Calls

/-! ## The marker is right -/

/-- The keyer carries the profile that counts as applied, and while nothing is active that is the
primary's, unless it is blank. -/
structure Marked (log : List (List UInt8)) (core : BrokerCore) : Prop where
  current : ∀ c client, core.appliedProfileClientId = some c → core.clients[c]? = some client →
    Carries log client.profile
  foreground : core.active = none → ∀ c (client : ClientState), core.clients[c]? = some client →
    client.primary = true → core.appliedProfileClientId = some c ∨ Blank client.profile

/-- There is at most one primary. -/
def OnePrimary (core : BrokerCore) : Prop :=
  ∀ c d, core.isPrimary c = true → core.isPrimary d = true → c = d

namespace Marked

variable {log : List (List UInt8)} {core core' : BrokerCore}

theorem same (m : Marked log core) (settings : SameSettings core core') : Marked log core' where
  current := by
    rw [settings.applied, settings.clients]
    exact m.current
  foreground := by
    rw [settings.applied, settings.clients, ← activeClientId_none, settings.active,
      activeClientId_none]
    exact m.foreground

/-- The core at an ownership boundary: only the marker of a departed client is gone. -/
theorem between {op : BrokerOp} {mid : BrokerCore} (m : Marked log core)
    (boundary : Boundary core op mid) :
    ∀ c client, mid.appliedProfileClientId = some c → mid.clients[c]? = some client →
      Carries log client.profile := by
  intro c client applied known
  rcases boundary.table with ⟨clients, marker⟩ | ⟨d, _, _, _, gone, marker⟩
  · rw [marker] at applied
    rw [clients] at known
    exact m.current c client applied known
  · rw [gone, clients_erase] at known
    rw [marker, BrokerCore.unmarked] at applied
    split at known
    · cases known
    · split at applied
      · cases applied
      · exact m.current c client applied known

/-- With an empty queue the foreground's profile is replayed, unless it is marked. -/
theorem restored (keyed : Keyed core) (one : OnePrimary core)
    (current : ∀ c client, core.appliedProfileClientId = some c → core.clients[c]? = some client →
      Carries log client.profile) :
    Marked (log ++ core.foregroundReplay) core.restoreForegroundSpeed.1 := by
  cases foreground : core.foreground with
  | none =>
      have applied : core.restoreForegroundSpeed.1.appliedProfileClientId =
          core.appliedProfileClientId := by
        simp [restoreForegroundSpeed, foreground, refreshPotWpm]
      have silent : core.foregroundReplay = [] := by simp [foregroundReplay, foreground]
      rw [silent, List.append_nil]
      refine ⟨fun c client marked known => ?_, fun _ c client known primary => ?_⟩
      · exact current c client (applied.symm.trans marked) known
      · have entry : (c, client) ∈ core.clients.toList :=
          Std.TreeMap.mem_toList_iff_getElem?_eq_some.mpr known
        have other := List.find?_eq_none.mp foreground _ entry
        exact absurd primary other
  | some e =>
      obtain ⟨d, owner⟩ := e
      have known : core.clients[d]? = some owner :=
        Std.TreeMap.mem_toList_iff_getElem?_eq_some.mp (List.mem_of_find?_eq_some foreground)
      have primary : owner.primary = true := by
        simpa using List.find?_some foreground
      have applied : core.restoreForegroundSpeed.1.appliedProfileClientId = some d := by
        by_cases same : some d = core.appliedProfileClientId
        · simp [restoreForegroundSpeed, foreground, refreshPotWpm, same]
        · simp [restoreForegroundSpeed, foreground, refreshPotWpm, same]
      refine ⟨fun c client marked found => ?_, fun _ c client found leads => Or.inl ?_⟩
      · obtain rfl := Option.some.inj (applied.symm.trans marked)
        obtain rfl := Option.some.inj (known.symm.trans found)
        by_cases same : some d = core.appliedProfileClientId
        · have silent : core.foregroundReplay = [] := by
            simp [foregroundReplay, foreground, same]
          rw [silent, List.append_nil]
          exact current d owner same.symm known
        · have replayed : core.foregroundReplay = storedCommands owner.profile := by
            simp [foregroundReplay, foreground, same]
          rw [replayed]
          exact carries_replay (keyed d owner known)
      · rw [applied]
        refine congrArg some (one d c ?_ ?_)
        · rw [isPrimary_of_client known, primary]
        · have found : core.clients[c]? = some client := found
          rw [isPrimary_of_client found, leads]

/-- Going on marks the client of the job that starts, or the foreground. -/
theorem goesOn (keyed : Keyed core) (one : OnePrimary core) (idle : core.active = none)
    (current : ∀ c client, core.appliedProfileClientId = some c → core.clients[c]? = some client →
      Carries log client.profile) (clock : Nat) :
    Marked (log ++ core.replayed) (core.startNextOrRestore clock).1 := by
  cases queue : core.queue with
  | nil =>
      have going : core.startNextOrRestore clock = core.restoreForegroundSpeed := by
        unfold startNextOrRestore
        rw [queue]
      have silent : core.replayed = core.foregroundReplay := by simp only [replayed, queue]
      rw [going, silent]
      exact restored keyed one current
  | cons job rest =>
      have active : (core.startNextOrRestore clock).1.active =
          some { job, sawBusy := false, observedStatus := false, startedAt := clock } := by
        unfold startNextOrRestore
        rw [queue]
      have applied := startNextOrRestore_marks idle active
      refine ⟨fun c client marked found => ?_, ?_⟩
      · obtain rfl := Option.some.inj (applied.symm.trans marked)
        rw [startNextOrRestore_clients] at found
        simp only [replayed, queue, writes_profileReplay]
        by_cases same : core.appliedProfileClientId = some job.clientId
        · rw [if_neg (not_not_intro same), List.append_nil]
          exact current _ client same found
        · rw [if_pos same, found]
          exact carries_replay (keyed _ client found)
      · intro idle'
        rw [active] at idle'
        cases idle'

/-- A new entry without a profile, or with the profile it had. -/
theorem entered (m : Marked log core) {c : ClientId} {next : ClientState}
    (settings : SameSettings (core.withClient c next) core')
    (known : (∃ client, core.clients[c]? = some client ∧ next.profile = client.profile ∧
      next.primary = client.primary) ∨ Blank next.profile) : Marked log core' := by
  refine Marked.same ⟨fun d client marked found => ?_, fun idle d client found leads => ?_⟩ settings
  · rw [clients_withClient] at found
    split at found
    · rename_i here
      obtain rfl := Option.some.inj found
      rcases known with ⟨before, old, profile, _⟩ | blank
      · rw [profile]
        exact m.current c before (here ▸ marked) old
      · exact carries_blank blank
    · exact m.current d client marked found
  · rw [clients_withClient] at found
    split at found
    · rename_i here
      obtain rfl := Option.some.inj found
      rcases known with ⟨before, old, profile, primary⟩ | blank
      · rw [profile, here]
        exact m.foreground idle c before old (primary ▸ leads)
      · exact Or.inr blank
    · exact m.foreground idle d client found leads

/-- A client without an active job leaves. -/
theorem left (m : Marked log core) {c : ClientId}
    (settings : SameSettings { core with clients := core.clients.erase c
                                         appliedProfileClientId := core.unmarked c } core') :
    Marked log core' := by
  refine Marked.same ⟨fun d client marked found => ?_, fun idle d client found leads => ?_⟩ settings
  · change core.unmarked c = some d at marked
    change (core.clients.erase c)[d]? = some client at found
    rw [clients_erase] at found
    rw [unmarked] at marked
    split at found
    · cases found
    · split at marked
      · cases marked
      · exact m.current d client marked found
  · change (core.clients.erase c)[d]? = some client at found
    show core.unmarked c = some d ∨ _
    rw [clients_erase] at found
    split at found
    · cases found
    · rename_i other
      rcases m.foreground idle d client found leads with marked | blank
      · refine Or.inl ?_
        rw [unmarked, marked, if_neg]
        simpa using other
      · exact Or.inr blank

/-- The command of an idle primary is written, and marks it. -/
theorem configured (m : Marked log core) (one : OnePrimary core) {c : ClientId} {client : ClientState}
    {key : Nat} {command : List UInt8} (keyed : profileKey command = some key)
    (known : core.clients[c]? = some client) (idle : core.active = none)
    (primary : client.primary = true)
    (settings : SameSettings { core.withClient c
        { client with profile := client.profile.insert key command } with
      appliedProfileClientId := some c } core') : Marked (log ++ [command]) core' := by
  -- The rest of the profile is in the keyer, since nothing is active.
  have carried : Carries log client.profile := by
    rcases m.foreground idle c client known primary with marked | blank
    · exact m.current c client marked known
    · exact carries_blank blank
  refine Marked.same ⟨fun d found marked entry => ?_, fun _ d found entry leads => Or.inl ?_⟩ settings
  · obtain rfl := Option.some.inj marked
    change (core.withClient c _).clients[c]? = some found at entry
    rw [clients_withClient, if_pos rfl] at entry
    obtain rfl := Option.some.inj entry
    exact carries_insert carried keyed
  · change (core.withClient c _).clients[d]? = some found at entry
    show some c = some d
    rw [clients_withClient] at entry
    split at entry
    · rename_i here
      rw [here]
    · refine congrArg some (one c d ?_ ?_)
      · rw [isPrimary_of_client known, primary]
      · rw [isPrimary_of_client entry, leads]

/-- Anybody else's command is stored, and takes the mark away. -/
theorem stored (m : Marked log core) {c : ClientId} {client : ClientState} {key : Nat}
    {command : List UInt8} (known : core.clients[c]? = some client)
    (other : core.active = none → client.primary = false)
    (settings : SameSettings { core.withClient c
        { client with profile := client.profile.insert key command } with
      appliedProfileClientId := core.unmarked c } core') : Marked log core' := by
  refine Marked.same ⟨fun d found marked entry => ?_, fun idle d found entry leads => ?_⟩ settings
  · change core.unmarked c = some d at marked
    change (core.withClient c _).clients[d]? = some found at entry
    rw [unmarked] at marked
    rw [clients_withClient] at entry
    split at marked
    · cases marked
    · rename_i unmarked
      rw [if_neg] at entry
      · exact m.current d found marked entry
      · rintro rfl
        exact unmarked marked
  · change (core.withClient c _).clients[d]? = some found at entry
    show core.unmarked c = some d ∨ _
    rw [clients_withClient] at entry
    split at entry
    · obtain rfl := Option.some.inj entry
      rw [other idle] at leads
      cases leads
    · rename_i apart
      rcases m.foreground idle d found entry leads with marked | blank
      · refine Or.inl ?_
        rw [unmarked, marked, if_neg]
        simpa using apart
      · exact Or.inr blank

end Marked

/-! ## The core at a boundary -/

namespace BrokerCore.Boundary

variable {core mid : BrokerCore} {op : BrokerOp}

/-- Nobody new is known at an ownership boundary. -/
theorem known (boundary : Boundary core op mid) {c : ClientId} {client : ClientState}
    (found : mid.clients[c]? = some client) : core.clients[c]? = some client := by
  rcases boundary.table with ⟨same, _⟩ | ⟨d, _, _, _, gone, _⟩
  · rwa [same] at found
  · rw [gone, clients_erase] at found
    split at found
    · cases found
    · exact found

theorem keyed (boundary : Boundary core op mid) (keyed : Keyed core) : Keyed mid :=
  fun c client found => keyed c client (boundary.known found)

theorem onePrimary (boundary : Boundary core op mid) (one : OnePrimary core) : OnePrimary mid := by
  have primary : ∀ c, mid.isPrimary c = true → core.isPrimary c = true := by
    intro c leads
    obtain ⟨client, found, flag⟩ : ∃ client, mid.clients[c]? = some client ∧ client.primary := by
      simpa [BrokerCore.isPrimary, Option.any_eq_true] using leads
    rw [isPrimary_of_client (boundary.known found), flag]
  exact fun c d hc hd => one c d (primary c hc) (primary d hd)

end BrokerCore.Boundary

section Calls

variable {log : List (List UInt8)} {core core' : BrokerCore} {op : BrokerOp} {answer : Answer}

/-- Two writes in front of the end are more than a call writes within a job. -/
theorem freshCall_short (short : (writes answer.actions).length ≤ 1) :
    FreshCall log ⟨core, op, answer, core'⟩ := by
  intro front a client _ opening
  have actions : answer.actions = front ++ [.write a.job.payload.wireBytes, .write [0x15]] := opening
  have two : writes [PhysicalAction.write a.job.payload.wireBytes, .write [0x15]] =
      [a.job.payload.wireBytes, [0x15]] := rfl
  rw [actions, writes_append, two, List.length_append] at short
  simp at short

/-- **One call.** -/
theorem Course.marked (course : Course core op answer.actions core') (keyed : Keyed core)
    (one : OnePrimary core) (m : Marked log core) :
    Marked (log ++ profileCommands ⟨core, op, answer, core'⟩) core' ∧
      FreshCall log ⟨core, op, answer, core'⟩ := by
  have quiet : profileCommands ⟨core, op, answer, core'⟩ = [] → Marked log core' →
      Marked (log ++ profileCommands ⟨core, op, answer, core'⟩) core' := by
    intro silent marked
    rw [silent, List.append_nil]
    exact marked
  have silent : writes answer.actions = [] → Marked log core' →
      Marked (log ++ profileCommands ⟨core, op, answer, core'⟩) core' ∧
        FreshCall log ⟨core, op, answer, core'⟩ := by
    intro none' marked
    exact ⟨quiet (profileCommands_silent none') marked, freshCall_short (by rw [none']; simp)⟩
  obtain ⟨accepted, actions⟩ := answer
  change Course core op actions core' at course
  cases course with
  | quiet settings none' => exact silent none' (m.same settings)
  | @grew a payload _ _ _ _ active settings =>
      -- The chunk is what closes the call.
      obtain ⟨b, active'⟩ : ∃ b, core'.active = some b := by
        have clients := settings.active
        cases active' : core'.active with
        | some b => exact ⟨b, rfl⟩
        | none => simp [activeClientId, active, active'] at clients
      refine ⟨quiet ?_ (m.same settings), freshCall_short (Nat.le_refl 1)⟩
      simp [profileCommands, writes, BrokerOp.clears, BrokerCore.closing, active']
  | commanded => exact ⟨quiet rfl m, freshCall_short (Nat.le_refl 1)⟩
  | swept _ _ settings chunks =>
      refine ⟨quiet ?_ (m.same settings), freshCall_short ?_⟩
      · simp [profileCommands, chunks, BrokerOp.clears]
      · show (writes actions).length ≤ 1
        rw [chunks]
        exact Nat.le_refl 1
  | registered _ settings =>
      exact silent rfl (m.entered settings (Or.inr (fun key => by simp)))
  | unregistered _ settings none' => exact silent none' (m.left settings)
  | @paced _ _ client _ known settings =>
      refine ⟨quiet rfl (m.entered settings (Or.inl ⟨client, known, rfl, rfl⟩)), freshCall_short ?_⟩
      show (writes (if _ then _ else _)).length ≤ 1
      split <;> simp [writes]
  | configured keyed' known idle primary settings =>
      exact ⟨m.configured one keyed' known idle primary settings, freshCall_short (Nat.le_refl 1)⟩
  | stored _ known other settings => exact silent rfl (m.stored known other settings)
  | @passed _ mid clock ending boundary clearing =>
      have keyed' : Keyed mid := boundary.keyed keyed
      have one' : OnePrimary mid := boundary.onePrimary one
      have commands := @profileCommands_passed core op
        ⟨accepted, ending ++ (mid.startNextOrRestore clock).2⟩ mid clock ending boundary.idle clearing
        rfl
      have marked := Marked.goesOn keyed' one' boundary.idle (m.between boundary) clock
      rw [← commands] at marked
      refine ⟨marked, fun front a client active _ known => ?_⟩
      exact marked.current _ client (startNextOrRestore_marks boundary.idle active) known

end Calls

theorem Course.connected {core core' : BrokerCore} {op : BrokerOp} {actions : List PhysicalAction}
    (course : Course core op actions core') : core'.connected = core.connected := by
  cases course with
  | quiet settings | grew _ settings | swept _ _ settings | registered _ settings
  | unregistered _ settings | paced _ settings | configured _ _ _ _ settings
  | stored _ _ _ settings => exact settings.connected
  | commanded => rfl
  | passed boundary => exact (startNextOrRestore_link _ _).connected.trans boundary.connected

/-! ## The calls of a step -/

/-- What is kept from call to call: in a connection the marker is right. -/
structure Profiled (log : List (List UInt8)) (core : BrokerCore) : Prop where
  represented : core.Represented
  keyed : Keyed core
  marked : core.connected = true → Marked log core

namespace Profiled

variable {log : List (List UInt8)} {core core' : BrokerCore}

/-- Without a connection the log says nothing. -/
theorem offline (p : Profiled log core) (off : core.connected = false) (log' : List (List UInt8)) :
    Profiled log' core :=
  ⟨p.represented, p.keyed, fun on => by rw [off] at on; cases on⟩

theorem lost (p : Profiled log core) (message : String) (log' : List (List UInt8)) :
    Profiled log' (core.physicalError message).1 :=
  ⟨represented_step p.represented (.physicalError message), p.keyed, fun on => by cases on⟩

/-- One call within a connection, or without one. -/
theorem call (p : Profiled log core) {op : BrokerOp} (within : op.within = true) :
    Profiled (log ++ profileCommands ⟨core, op, (op.apply core).2, (op.apply core).1⟩)
        (op.apply core).1 ∧
      FreshCall log ⟨core, op, (op.apply core).2, (op.apply core).1⟩ := by
  have course := apply_course core within
  have represented := represented_step p.represented op
  cases link : core.connected with
  | true =>
      obtain ⟨marked, fresh⟩ := course.marked p.keyed p.represented.onePrimary (p.marked link)
      exact ⟨⟨represented, course.keyed p.keyed, fun _ => marked⟩, fresh⟩
  | false =>
      have off : (op.apply core).1.connected = false := course.connected.trans link
      refine ⟨⟨represented, course.keyed p.keyed, fun on => ?_⟩, fun front a client active => ?_⟩
      · rw [off] at on
        cases on
      · -- nothing is active
        have idle := (jobs_eq_nil.mp (represented.offline off)).active
        have active : (op.apply core).1.active = some a := active
        rw [idle] at active
        cases active

/-- A sequence of such calls: each is fresh after those before it. -/
theorem calls (p : Profiled log core) {ops : List BrokerOp} (within : ∀ op ∈ ops, op.within = true) :
    Profiled (log ++ (core.callsOf ops).flatMap profileCommands) (core.afterCalls ops) ∧
      ∀ before call after, core.callsOf ops = before ++ call :: after →
        FreshCall (log ++ before.flatMap profileCommands) call := by
  induction ops generalizing log core with
  | nil =>
      refine ⟨by simpa [callsOf] using p, fun before call after split => ?_⟩
      simp [callsOf] at split
  | cons op ops ih =>
      obtain ⟨first, fresh⟩ := p.call (within op List.mem_cons_self)
      obtain ⟨rest, later⟩ := ih first (fun o mem => within o (List.mem_cons_of_mem _ mem))
      rw [List.append_assoc] at rest
      refine ⟨rest, fun before call after split => ?_⟩
      cases before with
      | nil =>
          obtain ⟨rfl, _⟩ := List.cons.inj split
          simpa using fresh
      | cons b before =>
          obtain ⟨rfl, tail⟩ := List.cons.inj split
          have here := later before call after tail
          rw [List.append_assoc] at here
          exact here

/-- A new connection, behind which the foreground is restored. -/
theorem reopened (p : Profiled log core) (idle : core.active = none) (firmware : UInt8) :
    Profiled ((core.callsOf (reopening firmware)).flatMap profileCommands)
      (core.afterCalls (reopening firmware)) := by
  let online : BrokerCore := core.connectPhysical firmware
  have represented : (core.afterCalls (reopening firmware)).Represented :=
    represented_step (represented_step p.represented (.connectPhysical firmware)) .restoreForeground
  have primary : OnePrimary online := p.represented.onePrimary
  have blank : ∀ c client, online.appliedProfileClientId = some c → online.clients[c]? = some client →
      Carries [] client.profile := fun c client marked => by cases marked
  have marked := Marked.restored (show Keyed online from p.keyed) primary blank
  rw [profileCommands_reopening idle]
  exact ⟨represented, p.keyed, fun _ => marked⟩

end Profiled

/-! ## Every step -/

/-- Outside maintenance a decision makes no call that opens or loses the connection. -/
theorem decisionOps_within {a : Actor} (outside : a.inMaintenance = false) (now later : Nat)
    (trigger : Trigger) : ∀ op ∈ a.decisionOps now later trigger, op.within = true := by
  intro op mem
  cases trigger with
  | tick =>
      simp only [Actor.decisionOps, List.mem_cons, List.not_mem_nil, or_false] at mem
      rcases mem with rfl | rfl <;> rfl
  | byte byte =>
      rw [Actor.decisionOps_byte outside] at mem
      split at mem
      · obtain rfl := List.mem_singleton.mp mem
        rfl
      · rcases List.mem_append.mp mem with noted | observed
        · split at noted
          · obtain rfl := List.mem_singleton.mp noted
            rfl
          · cases noted
        · obtain rfl := List.mem_singleton.mp observed
          rfl
      · cases mem
  | request request =>
      have one : ∀ called : BrokerOp, called.within = true → op ∈ [called] → op.within = true := by
        rintro called within single
        rw [List.mem_singleton.mp single]
        exact within
      cases request with
      | maintenanceCommand | releaseMaintenance => cases mem
      | register | unregister | cancel | cancelJob | emergencyStop | shutdown => exact one _ rfl mem
      | enqueue =>
          simp only [Actor.decisionOps] at mem
          split at mem
          · exact one _ rfl mem
          · cases mem
      | setSpeed | configure | activeOwnerCommand =>
          simp only [Actor.decisionOps] at mem
          split at mem
          · cases mem
          · exact one _ rfl mem

theorem afterCalls_connected {core : BrokerCore} {ops : List BrokerOp}
    (within : ∀ op ∈ ops, op.within = true) : (core.afterCalls ops).connected = core.connected := by
  induction ops generalizing core with
  | nil => rfl
  | cons op ops ih =>
      have rest := @ih (op.apply core).1 (fun o mem => within o (List.mem_cons_of_mem _ mem))
      exact rest.trans (apply_course core (within op List.mem_cons_self)).connected

theorem Actor.maintenanceAfter_outside {a : Actor} (outside : a.inMaintenance = false)
    {trigger : Trigger} (plain : ∀ c command, trigger ≠ .request (.maintenanceCommand c command)) :
    a.maintenanceAfter trigger = (none, false) := by
  obtain ⟨owner, pending⟩ := Bool.or_eq_false_iff.mp outside
  have owner : a.maintenanceOwner = none := by simpa using owner
  cases trigger with
  | tick => simp [maintenanceAfter, owner, pending]
  | byte => simp [maintenanceAfter, owner]
  | request request =>
      cases request with
      | maintenanceCommand c command => exact absurd rfl (plain c command)
      | _ => simp [maintenanceAfter, owner, pending]

/-- Without a maintenance command there is no maintenance. -/
theorem outside_step {a a' : Actor} {input : ActorInput} {o : Observation}
    (outside : a.loop ≠ .stopped → a.inMaintenance = false)
    (step : actor.step a input = some (a', o)) (plain : Maintains ⟨a, input, o, a'⟩ = false) :
    a'.loop ≠ .stopped → a'.inMaintenance = false := by
  have flags : ∀ {b : Actor}, a'.maintenanceOwner = b.maintenanceOwner →
      a'.maintenanceReopenPending = b.maintenanceReopenPending → b.inMaintenance = false →
      a'.inMaintenance = false := by
    intro b owner pending free
    rw [Actor.inMaintenance_congr owner pending]
    exact free
  have decided : ∀ {later : Nat} {trigger : Trigger} {mid : Actor}, a.loop ≠ .stopped →
      (∀ c command, trigger ≠ .request (.maintenanceCommand c command)) →
      (mid.maintenanceOwner, mid.maintenanceReopenPending) =
        (a.atTime later).maintenanceAfter trigger → mid.inMaintenance = false := by
    intro later trigger mid running plain maintenance
    have free : (a.atTime later).inMaintenance = false := outside running
    rw [Actor.maintenanceAfter_outside free plain] at maintenance
    obtain ⟨owner, pending⟩ := Prod.mk.inj maintenance
    simp [Actor.inMaintenance, owner, pending]
  intro running'
  cases actor_move step with
  | @turn trigger now later fault _ _ live _ _ turn =>
      have running : a.loop ≠ .stopped := by rw [live]; decide
      have plain' : ∀ c command, trigger ≠ .request (.maintenanceCommand c command) := by
        rintro c command rfl
        cases plain
      cases turn with
      | goesOn decides _ owner pending =>
          exact flags owner pending (decided running plain' decides.maintenance)
      | fails | misread => rfl
      | leaves _ _ _ stopped => exact absurd stopped running'
  | @sunk request _ _ _ _ _ _ _ _ off _ _ decides _ owner pending =>
      have running : a.loop ≠ .stopped := by rw [off]; decide
      refine flags owner pending (decided running ?_ decides.maintenance)
      rintro c command same
      cases same
      cases plain
  | left => exact absurd rfl running'
  | lost => rfl
  | unopened off _ _ _ owner pending | refailed off _ _ owner pending
  | reopened off _ _ owner pending =>
      exact flags owner pending (outside (by rw [off]; decide))
  | foreign _ _ _ owner pending loop =>
      exact flags owner pending (outside (by rw [← loop]; exact running'))

theorem profileLog_concat (history : List ActorStep) (e : ActorStep) :
    profileLog (history ++ [e]) = profileLogOn (profileLog history) e := by
  unfold profileLog
  rw [List.foldl_append]
  rfl

/-- The log and the calls of a turn. -/
theorem coreCalls_turn (a a' : Actor) (trigger : Trigger) (now later : Nat)
    (fault : Option WriteFault) (o : Observation) :
    coreCalls ⟨a, inputOf trigger now later fault, o, a'⟩ =
      a.core.callsOf ((a.atTime later).decisionOps now later trigger) := by
  cases trigger <;> rfl

theorem profileLogOn_turn {a a' : Actor} (live : a.loop = .session) (trigger : Trigger)
    (now later : Nat) (fault : Option WriteFault) (o : Observation) (log : List (List UInt8)) :
    profileLogOn log ⟨a, inputOf trigger now later fault, o, a'⟩ = log ++
      (a.core.callsOf ((a.atTime later).decisionOps now later trigger)).flatMap profileCommands := by
  rw [← coreCalls_turn a a' trigger now later fault o]
  cases trigger <;> exact if_pos live

/-- **One step.** -/
theorem profiled_step {a a' : Actor} {input : ActorInput} {o : Observation} {log : List (List UInt8)}
    (s : Sound a) (outside : a.loop ≠ .stopped → a.inMaintenance = false)
    (p : Profiled log a.core) (step : actor.step a input = some (a', o)) :
    Profiled (profileLogOn log ⟨a, input, o, a'⟩) a'.core := by
  cases actor_move step with
  | @turn trigger now later fault _ _ live _ _ turn =>
      have free : (a.atTime later).inMaintenance = false := outside (by rw [live]; decide)
      obtain ⟨after, _⟩ := p.calls (decisionOps_within free now later trigger)
      rw [profileLogOn_turn live]
      cases turn with
      | goesOn decides core =>
          rw [core, decides.core]
          exact after
      | fails message decides =>
          have lost := after.lost message (log ++ (a.core.callsOf
            ((a.atTime later).decisionOps now later trigger)).flatMap profileCommands)
          have core : a.core.afterCalls _ = _ := decides.core.symm
          rw [core] at lost
          exact lost
      | leaves decides _ core =>
          rw [core, decides.core]
          exact after
      | misread message => exact p.lost message _
  | @sunk request now later _ _ _ _ _ _ off _ _ decides core =>
      have free : (a.atTime later).inMaintenance = false := outside (by rw [off]; decide)
      have within := decisionOps_within free now later (.request request)
      rw [core, decides.core]
      refine (p.calls within).1.offline ?_ _
      exact (afterCalls_connected within).trans (s.offline off).1
  | left =>
      have same : profileLogOn log ⟨a, .requestsClosed, o, a.leave⟩ = log := by
        simp [profileLogOn, coreCalls, opsOf, callsOf]
      rw [same]
      exact p
  | lost => exact p.lost _ _
  | unopened _ _ _ core =>
      rw [core]
      exact p.lost _ _
  | refailed off _ core =>
      rw [core]
      exact (p.reopened (s.offline off).2.active _).lost _ _
  | reopened off _ core =>
      rw [core]
      exact p.reopened (s.offline off).2.active _
  | @foreign call _ _ _ _ core =>
      have same : profileLogOn log ⟨a, .station call, o, a'⟩ = log := by
        simp [profileLogOn, coreCalls, opsOf, callsOf]
      rw [same, core]
      exact p

/-- The payloads of a step are fresh when the marker is right before it. -/
theorem fresh_step {earlier : List ActorStep} {a a' : Actor} {input : ActorInput} {o : Observation}
    (s : Sound a) (outside : a.loop ≠ .stopped → a.inMaintenance = false)
    (p : Profiled (profileLog earlier) a.core) (step : actor.step a input = some (a', o)) :
    Fresh earlier ⟨a, input, o, a'⟩ := by
  have aside : coreCalls ⟨a, input, o, a'⟩ = [] → Fresh earlier ⟨a, input, o, a'⟩ := by
    intro none' before call after split
    rw [none'] at split
    simp at split
  cases actor_move step with
  | @turn trigger now later fault _ _ live =>
      have free : (a.atTime later).inMaintenance = false := outside (by rw [live]; decide)
      unfold Fresh
      rw [coreCalls_turn]
      exact (p.calls (decisionOps_within free now later trigger)).2
  | @sunk request now later fault _ _ _ _ _ off =>
      have free : (a.atTime later).inMaintenance = false := outside (by rw [off]; decide)
      exact (p.calls (decisionOps_within free now later (.request request))).2
  | left | lost | foreign => exact aside rfl
  | @unopened now outcome _ _ _ _ _ unopened =>
      refine aside ?_
      cases outcome with
      | opened firmware fault => exact absurd rfl (unopened firmware fault)
      | openFailed | initializationFailed => rfl
  | @refailed now firmware fault _ _ _ off | @reopened now firmware fault _ _ off =>
      -- Restoring the foreground starts no job.
      intro before call after split front b client active
      have idle : a.core.active = none := (s.offline off).2.active
      have mem : call ∈ a.core.callsOf (reopening firmware) := by
        have split : a.core.callsOf (reopening firmware) = before ++ call :: after := split
        rw [split]
        simp
      have kept : call.after.active = a.core.active := by
        simp only [reopening, callsOf, List.mem_cons, List.not_mem_nil, or_false] at mem
        rcases mem with rfl | rfl <;> rfl
      rw [kept, idle] at active
      cases active

section Runs

variable {maxTx : Nat} {ptt : Option PttManager} {reconnect : Bool} {firmware : UInt8} {start : Nat}
  {history : List ActorStep} {a : Actor}

/-- In every run without maintenance the marker is right. -/
theorem profiled_of_execution
    (run : actor.Execution (.spawn maxTx ptt reconnect firmware start) history a)
    (plain : ∀ e ∈ history, Maintains e = false) :
    Sound a ∧ (a.loop ≠ .stopped → a.inMaintenance = false) ∧
      Profiled (profileLog history) a.core := by
  refine run.guarded (I := fun history a => Sound a ∧
    (a.loop ≠ .stopped → a.inMaintenance = false) ∧ Profiled (profileLog history) a.core) ?_ ?_ plain
  · refine ⟨sound_spawn, fun _ => rfl, represented_step (represented_new maxTx) (.connectPhysical _),
      fun c client known => ?_, fun _ => ⟨?_, fun _ c client known => ?_⟩⟩
    · simp [Actor.spawn, connectPhysical, BrokerCore.new] at known
    · intro c client marked
      cases marked
    · simp [Actor.spawn, connectPhysical, BrokerCore.new] at known
  · rintro history a input o a' earlier ⟨sound, outside, profiled⟩ step plain
    rw [profileLog_concat]
    exact ⟨(actor_calls sound step).sound, outside_step outside step plain,
      profiled_step sound outside profiled step⟩

/-- **Profile freshness.**  In every run without maintenance, whenever the payload of a job starts to
be written, for every key of its client's stored profile the last profile command with that key
written to the current connection is the stored one. -/
theorem profile_fresh
    (run : actor.Execution (.spawn maxTx ptt reconnect firmware start) history a)
    (plain : ∀ e ∈ history, Maintains e = false) :
    ∀ earlier e later, history = earlier ++ e :: later → Fresh earlier e := by
  rintro earlier e later rfl
  obtain ⟨sound, outside, profiled⟩ := profiled_of_execution run.before
    (fun h mem => plain h (List.mem_append_left _ mem))
  exact fresh_step sound outside profiled (run.step_of_mem e (by simp))

end Runs

/-- Two clients with a profile each: the job of the second one is written behind its profile, and the
primary's is restored. -/
theorem profile_fresh_session :
    ∃ history a, actor.Execution leased history a ∧
      (∀ earlier e later, history = earlier ++ e :: later → Fresh earlier e) ∧
      profileLog history = [[0x03, 32], [0x03, 40], [0x03, 32]] := by
  have run := actor.execution_exec leased
    [.request (.register 1 true) 0 0 none, .request (.configure 1 [0x03, 32]) 0 0 none,
      .request (.register 2 false) 0 0 none, .request (.configure 2 [0x03, 40]) 0 0 none,
      .request (.enqueue 2 ⟨[69], [69]⟩ none false) 1 1 none, .byte 0xc4 2 2 none,
      .byte 0xc0 3 3 none, .request (.enqueue 1 ⟨[84], [84]⟩ none false) 4 4 none] (by decide)
  exact ⟨_, _, run, profile_fresh run (by decide), by decide⟩

end CatHub.WinKeyer
