/-
# CatHub.WinKeyer.PotSpeed — whether the published pot speed is the one on the knob.

The keyer reports the pot as an offset above the minimum that the last Speed Pot Setup command has
set, and 5 without one.  The broker keeps that minimum in `physicalPotMinWpm` and publishes the sum.
It sets the minimum at four places: when an idle primary sends a setup, when a client's profile is
taken over for its job, when the foreground is restored, and never when a connection is opened.

The restore is where it goes wrong.  It replays the foreground's profile only if that is not the one
applied, and a profile without a setup replays none; yet the minimum is set in every case, to 5 where
the profile has no setup.  `pot_speed_real` says that in every run the published speed is the real one
as long as each restore either replays a setup or leaves the minimum where it is.
-/
import CatHub.WinKeyer.Freshness
import CatHub.WinKeyer.Ownership

namespace CatHub.WinKeyer

open Systems BrokerCore

/-! ## The minimum in the keyer -/

/-- The minimum that an item of the host stream sets. -/
def setupMinimum? : ClientItem → Option UInt8
  | .command command => speedPotMinimum command
  | .data _ => none

/-- The minimum that some chunks leave in the keyer, if they contain a Speed Pot Setup command. -/
def lastMinimum (wire : List (List UInt8)) : Option UInt8 :=
  (wire.flatMap (fun chunk => (items chunk).filterMap setupMinimum?)).getLast?

/-- The minimum in the keyer after the calls since a connection was opened. -/
def keyerMinimum (since : BrokerHistory) : UInt8 :=
  (lastMinimum (since.flatMap (fun call => writes call.output.actions))).getD 5

theorem lastMinimum_append (wire more : List (List UInt8)) :
    lastMinimum (wire ++ more) = (lastMinimum more).or (lastMinimum wire) := by
  unfold lastMinimum
  rw [List.flatMap_append, List.getLast?_append]

theorem lastMinimum_none {wire : List (List UInt8)}
    (plain : ∀ chunk ∈ wire, lastMinimum [chunk] = none) : lastMinimum wire = none := by
  induction wire with
  | nil => rfl
  | cons chunk wire ih =>
      rw [← List.singleton_append, lastMinimum_append,
        ih (fun c mem => plain c (List.mem_cons_of_mem chunk mem)), plain chunk List.mem_cons_self]
      rfl

theorem lastMinimum_speed (speed : SpeedMode) : lastMinimum [speed.command] = none := by
  cases speed <;> rfl

theorem saturatingAdd_toNat (a b : UInt8) :
    (saturatingAdd a b).toNat = min 255 (a.toNat + b.toNat) := by
  unfold saturatingAdd
  split
  · rename_i fits
    rw [UInt8.toNat_add, Nat.mod_eq_of_lt (by omega), Nat.min_eq_right fits]
  · rename_i overflows
    exact (Nat.min_eq_left (Nat.le_of_not_le overflows)).symm

/-! ## The condition -/

/-- The client table and the marker when a call has taken its client out. -/
def BrokerCore.tableAfter (core : BrokerCore) : BrokerOp → BrokerCore
  | .unregisterClient clientId _ =>
      { core with clients := core.clients.erase clientId
                  appliedProfileClientId := core.unmarked clientId }
  | _ => core

/-- Whether a call restores the foreground: it ends the last work there is, or all of it. -/
def BrokerCore.restores (core : BrokerCore) : BrokerOp → Bool
  | .unregisterClient clientId _ =>
      core.activeClientId == some clientId && (jobsNotOf core.queue clientId).isEmpty
  | .cancelClient clientId includeActive _ =>
      includeActive && core.activeClientId == some clientId && (jobsNotOf core.queue clientId).isEmpty
  | .cancelJob clientId jobId _ =>
      core.active.any (fun a => a.job.clientId == clientId && a.job.id == jobId) && core.queue.isEmpty
  | .emergencyStop _ => true
  | .watchdog now => core.active.any (fun a => now - a.startedAt ≥ core.maxTx)
  | .observeStatus status _ =>
      core.active.any (·.sawBusy) && !(status.busy || status.waiting || status.keyDown) &&
        core.queue.isEmpty
  | .confirmIdleAfterSettle now settle _ =>
      core.active.any (fun a => a.observedStatus && now - a.startedAt ≥ settle) &&
        !core.status.busy && !core.status.waiting && !core.status.keyDown && core.queue.isEmpty
  | .restoreForeground => true
  | _ => false

/-- A restore that leaves the right minimum behind: the foreground's profile has a setup and is
replayed, or the minimum it would be given is the one that is tracked. -/
def BrokerCore.restoresMinimum (core : BrokerCore) : Bool :=
  (core.foreground.any (fun e => some e.1 != core.appliedProfileClientId) &&
    (core.foreground.bind (fun e => profilePotMinimum e.2.profile)).isSome) ||
  (core.foreground.bind (fun e => profilePotMinimum e.2.profile)).getD 5 == core.physicalPotMinWpm

/-- A chunk that is handed in with a call and written as it is. -/
def BrokerOp.hands : BrokerOp → Option (List UInt8)
  | .activeOwnerCommand _ command => some command
  | .enqueue _ payload _ _ _ _ => some payload.wireBytes
  | _ => none

/-- What the calls since a connection was opened must meet: a restore leaves the right minimum, and no
payload and no command passed on sets another one. -/
def TracksPot (call : BrokerCall) : Bool :=
  (!call.before.restores call.input || (call.before.tableAfter call.input).restoresMinimum) &&
    call.before.queue.all (fun job => lastMinimum [job.payload.wireBytes] == none) &&
    call.input.hands.all (fun chunk => lastMinimum [chunk] == none)

/-- A Configure command sets on the wire the minimum that the broker reads in it. -/
def ReadsSetup (call : BrokerCall) : Bool :=
  match call.input with
  | .setClientCommand _ command => lastMinimum [command] == speedPotMinimum command
  | _ => true

/-- The calls since a connection was opened.  The old minimum is still kept when it is opened: it is
5, or the foreground is restored at once, or nothing has happened yet and no offset is known. -/
inductive SinceConnect (opening : BrokerCall) : BrokerHistory → Prop
  | kept {later : BrokerHistory} : opening.before.physicalPotMinWpm = 5 →
      (∀ call ∈ later, TracksPot call = true) → SinceConnect opening later
  | restored {call : BrokerCall} {later : BrokerHistory} : call.input = .restoreForeground →
      (∀ call ∈ later, TracksPot call = true) → SinceConnect opening (call :: later)
  | unobserved : opening.before.potValue = none → SinceConnect opening []

def BrokerOp.connects : BrokerOp → Bool
  | .connectPhysical _ => true
  | _ => false

/-! ## What a call does to the pot -/

namespace BrokerCore

/-- The pot is untouched. -/
structure SamePot (a b : BrokerCore) : Prop where
  value : b.potValue = a.potValue
  wpm : b.potWpm = a.potWpm
  minimum : b.physicalPotMinWpm = a.physicalPotMinWpm

/-- The published speed is the offset above the tracked minimum. -/
def PotSettled (core : BrokerCore) : Prop :=
  core.potWpm = core.potValue.map (saturatingAdd core.physicalPotMinWpm)

theorem SamePot.rfl {core : BrokerCore} : SamePot core core := ⟨Eq.refl _, Eq.refl _, Eq.refl _⟩

theorem SamePot.settled {a b : BrokerCore} (same : SamePot a b) (settled : a.PotSettled) :
    b.PotSettled := by
  unfold PotSettled
  rw [same.wpm, same.value, same.minimum]
  exact settled

theorem refreshPotWpm_settled (core : BrokerCore) : core.refreshPotWpm.PotSettled := rfl

end BrokerCore

/-- What a call of a connection does to the pot, and what it writes on the way. -/
inductive PotCourse (core : BrokerCore) : BrokerOp → List PhysicalAction → BrokerCore → Prop
  /-- The pot stays; what is written is a fixed chunk, a speed, or what was handed in. -/
  | steady {op : BrokerOp} {actions : List PhysicalAction} {core' : BrokerCore} :
      SamePot core core' → (∀ chunk ∈ writes actions, IsClear chunk ∨
        (∃ speed : SpeedMode, chunk = speed.command) ∨ op.hands = some chunk) →
      PotCourse core op actions core'
  | observed {value : UInt8} : PotCourse core (.observePot value) [] (core.observePot value)
  /-- The command of an idle primary is written. -/
  | configured {clientId : ClientId} {command : List UInt8} {core' : BrokerCore} :
      core'.physicalPotMinWpm = (speedPotMinimum command).getD core.physicalPotMinWpm →
      (core.PotSettled → core'.PotSettled) →
      PotCourse core (.setClientCommand clientId command) [.write command] core'
  /-- What was active has ended, and the next job starts or the foreground is restored. -/
  | passed {op : BrokerOp} {mid : BrokerCore} {clock : Nat} {ending : List PhysicalAction} :
      SamePot core mid → mid.clients = (core.tableAfter op).clients →
      mid.appliedProfileClientId = (core.tableAfter op).appliedProfileClientId →
      (∀ job ∈ mid.queue, job ∈ core.queue ∨ op.hands = some job.payload.wireBytes) →
      (mid.queue = [] → core.restores op = true) → (∀ chunk ∈ writes ending, IsClear chunk) →
      PotCourse core op (ending ++ (mid.startNextOrRestore clock).2) (mid.startNextOrRestore clock).1
  | restored : PotCourse core .restoreForeground core.restoreForegroundSpeed.2
      core.restoreForegroundSpeed.1

namespace PotCourse

variable {core : BrokerCore}

theorem silent {op : BrokerOp} {actions : List PhysicalAction} {core' : BrokerCore}
    (same : SamePot core core') (silent : writes actions = []) : PotCourse core op actions core' :=
  .steady same (by rw [silent]; simp)

theorem cleared {op : BrokerOp} {actions : List PhysicalAction} {core' : BrokerCore}
    (same : SamePot core core') (chunks : writes actions = [[0x0a]]) :
    PotCourse core op actions core' :=
  .steady same (by rw [chunks]; simp [IsClear])

theorem clear_writes {chunks : List (List UInt8)} (clear : chunks = [] ∨ chunks = [[0x0a]] ∨
    chunks = [[0x0a, 0x0b, 0x00]]) : ∀ chunk ∈ chunks, IsClear chunk := by
  rcases clear with rfl | rfl | rfl <;> simp [IsClear]

theorem setClientSpeed (clientId : ClientId) (speed : SpeedMode) :
    PotCourse core (.setClientSpeed clientId speed) (core.setClientSpeed clientId speed).2
      (core.setClientSpeed clientId speed).1 := by
  unfold BrokerCore.setClientSpeed
  split
  · exact .silent .rfl rfl
  · refine .steady ⟨rfl, rfl, rfl⟩ (fun chunk mem => Or.inr (Or.inl ⟨speed, ?_⟩))
    split at mem
    · simpa [writes] using mem
    · simp [writes] at mem

theorem setClientCommand {clientId : ClientId} {command : List UInt8} {core' : BrokerCore}
    {actions : List PhysicalAction}
    (h : core.setClientCommand clientId command = some (core', actions)) :
    PotCourse core (.setClientCommand clientId command) actions core' := by
  unfold BrokerCore.setClientCommand at h
  split at h
  · cases h
  split at h
  · cases h
  simp only [] at h
  split at h
  · cases h
    refine .configured ?_ (fun settled => ?_)
    · cases speedPotMinimum command <;> rfl
    · cases speedPotMinimum command with
      | none => exact settled
      | some minimum => exact refreshPotWpm_settled _
  split at h
  · cases h
    exact .silent ⟨rfl, rfl, rfl⟩ rfl
  · cases h
    exact .silent ⟨rfl, rfl, rfl⟩ rfl

theorem enqueue {clientId : ClientId} {payload : TransmitPayload} {speed : Option SpeedMode}
    {stream : Bool} {now clock : Nat} {core' : BrokerCore} {jobId : Nat}
    {actions : List PhysicalAction}
    (h : core.enqueue clientId payload speed stream now clock = some (core', jobId, actions)) :
    PotCourse core (.enqueue clientId payload speed stream now clock) actions core' := by
  cases enqueue_cases h with
  | joinedActive =>
      refine .steady ⟨rfl, rfl, rfl⟩ (fun chunk mem => Or.inr (Or.inr ?_))
      simp only [writes, List.filterMap_cons, List.filterMap_nil, List.mem_singleton] at mem
      rw [mem]
      rfl
  | joinedTail | waits => exact .silent ⟨rfl, rfl, rfl⟩ rfl
  | @starts client opened _ _ _ _ same =>
      subst same
      rw [← List.nil_append (BrokerCore.startNextOrRestore _ clock).2]
      refine .passed ⟨rfl, rfl, rfl⟩ rfl rfl (fun job mem => ?_) (fun drained => ?_)
        (clear_writes (Or.inl rfl))
      · rcases List.mem_append.mp mem with old | new
        · exact Or.inl old
        · rw [List.mem_singleton.mp new]
          exact Or.inr rfl
      · exact absurd drained (by simp [withJob])

theorem cancelClient (clientId : ClientId) (includeActive : Bool) (clock : Nat) :
    PotCourse core (.cancelClient clientId includeActive clock)
      (core.cancelClient clientId includeActive clock).2
      (core.cancelClient clientId includeActive clock).1 := by
  unfold BrokerCore.cancelClient
  cases active : core.active with
  | none =>
      simp only []
      split
      · refine .cleared ⟨rfl, rfl, rfl⟩ ?_
        show [0x0a] :: writes ((jobsOf core.queue clientId).map cancellation) = _
        rw [writes_cancellations]
      · exact .silent ⟨rfl, rfl, rfl⟩ (writes_cancellations _)
  | some a =>
      simp only []
      split
      · rename_i includes
        obtain ⟨includes, owner⟩ := Bool.and_eq_true_iff.mp includes
        refine .passed ⟨rfl, rfl, rfl⟩ rfl rfl (fun job mem => Or.inl (List.mem_filter.mp mem).1)
          (fun drained => ?_) (clear_writes (Or.inr (Or.inl ?_)))
        · have drained : jobsNotOf core.queue clientId = [] := drained
          have owner : a.job.clientId = clientId := by simpa using owner
          simp [restores, includes, BrokerCore.activeClientId, active, owner, drained]
        · show [0x0a] :: writes ((jobsOf core.queue clientId).map cancellation ++
            [cancellation a.job]) = _
          rw [writes_append, writes_cancellations]
          rfl
      · exact .silent ⟨rfl, rfl, rfl⟩ (writes_cancellations _)

theorem cancelJob (clientId : ClientId) (jobId : Nat) (clock : Nat) :
    PotCourse core (.cancelJob clientId jobId clock) (core.cancelJob clientId jobId clock).2.2
      (core.cancelJob clientId jobId clock).1 := by
  unfold BrokerCore.cancelJob
  split
  · rename_i a matching
    obtain ⟨active, same⟩ := Option.filter_eq_some_iff.mp matching
    refine .passed ⟨rfl, rfl, rfl⟩ rfl rfl (fun job mem => Or.inl mem) (fun drained => ?_)
      (clear_writes (Or.inr (Or.inl rfl)))
    have drained : core.queue = [] := drained
    simp [restores, active, drained] at same ⊢
    exact same
  · exact .silent ⟨rfl, rfl, rfl⟩ (writes_cancellations _)

theorem unregisterClient (clientId : ClientId) (clock : Nat) :
    PotCourse core (.unregisterClient clientId clock) (core.unregisterClient clientId clock).2
      (core.unregisterClient clientId clock).1 := by
  unfold BrokerCore.unregisterClient
  cases active : core.active with
  | none => exact .silent ⟨rfl, rfl, rfl⟩ (writes_cancellations _)
  | some a =>
      simp only []
      split
      · rename_i owner
        refine .passed ⟨rfl, rfl, rfl⟩ rfl rfl (fun job mem => Or.inl (List.mem_filter.mp mem).1)
          (fun drained => ?_) (clear_writes (Or.inr (Or.inl ?_)))
        · have drained : jobsNotOf core.queue clientId = [] := drained
          simp [restores, BrokerCore.activeClientId, active, owner, drained]
        · rw [writes_append, writes_cancellations]
          rfl
      · exact .silent ⟨rfl, rfl, rfl⟩ (writes_cancellations _)

theorem emergencyStop (op : BrokerOp) (restores : core.restores op = true)
    (table : core.tableAfter op = core) (reason : String) :
    PotCourse core op (core.emergencyStop reason).2 (core.emergencyStop reason).1 := by
  let mid : BrokerCore := { core with active := none, queue := [], lastSafetyAction := some reason }
  have passed := @PotCourse.passed core op mid 0
    (.write [0x0a, 0x0b, 0x00] :: (core.active.toList.map (fun active => cancellation active.job) ++
      core.queue.map cancellation)) ⟨rfl, rfl, rfl⟩ (by rw [table]) (by rw [table])
    (fun job mem => by cases mem) (fun _ => restores) (clear_writes (Or.inr (Or.inr ?_)))
  · exact passed
  · have silent : writes (core.active.toList.map (fun active => cancellation active.job)) = [] := by
      cases core.active <;> rfl
    show [0x0a, 0x0b, 0x00] :: writes (_ ++ core.queue.map cancellation) = _
    rw [writes_append, writes_cancellations, silent]
    rfl

theorem completeActive {op : BrokerOp} {core' : BrokerCore} {a : ActiveJob} (clock : Nat)
    (active : core'.active = some a) (same : SamePot core core') (clients : core'.clients = core.clients)
    (applied : core'.appliedProfileClientId = core.appliedProfileClientId)
    (queue : core'.queue = core.queue) (table : core.tableAfter op = core)
    (restores : core.queue = [] → core.restores op = true) :
    PotCourse core op (core'.completeActive clock).2 (core'.completeActive clock).1 := by
  unfold BrokerCore.completeActive
  rw [active]
  simp only []
  rw [← List.singleton_append]
  refine .passed ⟨same.value, same.wpm, same.minimum⟩
    (by rw [table]; exact clients) (by rw [table]; exact applied) (fun job mem => Or.inl ?_)
    (fun drained => restores ?_) (clear_writes (Or.inl rfl))
  · rw [← queue]
    exact mem
  · rw [← queue]
    exact drained

theorem observeStatus (status : DeviceStatus) (clock : Nat) :
    PotCourse core (.observeStatus status clock) (core.observeStatus status clock).2
      (core.observeStatus status clock).1 := by
  unfold BrokerCore.observeStatus
  cases active : core.active with
  | none => exact .silent ⟨rfl, rfl, rfl⟩ rfl
  | some a =>
      simp only []
      split
      · exact .silent ⟨rfl, rfl, rfl⟩ rfl
      · rename_i idle
        split
        · rename_i busy
          refine completeActive clock rfl ⟨rfl, rfl, rfl⟩ rfl rfl rfl rfl (fun drained => ?_)
          simp [restores, active, busy, drained] at idle ⊢
          exact idle
        · exact .silent ⟨rfl, rfl, rfl⟩ rfl

theorem confirmIdleAfterSettle (now settle clock : Nat) :
    PotCourse core (.confirmIdleAfterSettle now settle clock)
      (core.confirmIdleAfterSettle now settle clock).2
      (core.confirmIdleAfterSettle now settle clock).1 := by
  unfold BrokerCore.confirmIdleAfterSettle
  split
  · rename_i settled
    obtain ⟨a, active⟩ : ∃ a, core.active = some a := by
      cases active : core.active with
      | none => simp [active] at settled
      | some a => exact ⟨a, rfl⟩
    refine completeActive clock active .rfl rfl rfl rfl rfl (fun drained => ?_)
    simp only [restores, drained, List.isEmpty_nil, Bool.and_true]
    exact settled
  · exact .silent .rfl rfl

end PotCourse

/-- Every call but the opening of a connection. -/
theorem apply_pot (core : BrokerCore) {op : BrokerOp} (stays : op.connects = false) :
    PotCourse core op (op.apply core).2.actions (op.apply core).1 := by
  cases op with
  | connectPhysical => cases stays
  | physicalError error =>
      refine .silent ⟨rfl, rfl, rfl⟩ ?_
      show writes (_ ++ core.queue.map cancellation) = []
      rw [writes_append, writes_cancellations]
      cases core.active <;> rfl
  | registerClient clientId primary =>
      refine .silent ?_ rfl
      simp only [BrokerOp.apply, registerClient]
      split <;> exact ⟨rfl, rfl, rfl⟩
  | unregisterClient clientId clock => exact .unregisterClient clientId clock
  | setClientSpeed clientId speed => exact .setClientSpeed clientId speed
  | setClientCommand clientId command =>
      simp only [BrokerOp.apply]
      split
      · rename_i set
        exact .setClientCommand set
      · exact .silent .rfl rfl
  | activeOwnerCommand clientId command =>
      refine .steady .rfl (fun chunk mem => Or.inr (Or.inr ?_))
      rcases activeOwnerCommand_actions core clientId command with passed | silent
      · simp only [BrokerOp.apply, passed, writes, List.filterMap_cons, List.filterMap_nil,
          List.mem_singleton] at mem
        rw [mem]
        rfl
      · simp [BrokerOp.apply, silent, writes] at mem
  | enqueue clientId payload speed stream now clock =>
      simp only [BrokerOp.apply]
      split
      · rename_i taken
        exact .enqueue taken
      · exact .silent .rfl rfl
  | cancelClient clientId includeActive clock => exact .cancelClient clientId includeActive clock
  | cancelJob clientId jobId clock => exact .cancelJob clientId jobId clock
  | emergencyStop reason => exact .emergencyStop _ rfl rfl reason
  | recordSafetyAction action => exact .silent ⟨rfl, rfl, rfl⟩ rfl
  | observeStatus status clock => exact .observeStatus status clock
  | confirmIdleAfterSettle now settle clock => exact .confirmIdleAfterSettle now settle clock
  | observePot value => exact .observed
  | watchdog now =>
      simp only [BrokerOp.apply, watchdog]
      split
      · rename_i expired
        exact .emergencyStop (.watchdog now) expired rfl _
      · exact .silent .rfl rfl
  | restoreForeground => exact .restored

/-! ## The tracked minimum follows the wire -/

/-- The stored commands have their keys, and set on the wire what the broker reads in them. -/
def SetupsStored (core : BrokerCore) : Prop :=
  ∀ (c : ClientId) (client : ClientState), core.clients[c]? = some client → ∀ key command,
    client.profile[key]? = some command →
      profileKey command = some key ∧ lastMinimum [command] = speedPotMinimum command

theorem speedPotMinimum_other {command : List UInt8} {key : Nat} (keyed : profileKey command = some key)
    (other : key ≠ 5) : speedPotMinimum command = none := by
  unfold speedPotMinimum
  split
  · rename_i setup
    refine absurd ?_ other
    cases command with
    | nil => cases setup
    | cons opcode rest =>
        obtain rfl := Option.some.inj setup
        exact (Option.some.inj keyed).symm
  · rfl

/-- A replayed profile sets the minimum that is read in it. -/
theorem lastMinimum_stored {profile : Profile} (stored : ∀ key command, profile[key]? = some command →
      profileKey command = some key ∧ lastMinimum [command] = speedPotMinimum command) :
    lastMinimum (storedCommands profile) = profilePotMinimum profile := by
  have entry : ∀ e ∈ profile.toList, profileKey e.2 = some e.1 ∧
      lastMinimum [e.2] = speedPotMinimum e.2 := fun e mem =>
    stored e.1 e.2 (Std.TreeMap.mem_toList_iff_getElem?_eq_some.mp mem)
  have others : ∀ es : List (Nat × List UInt8), (∀ e ∈ es, e ∈ profile.toList ∧ e.1 ≠ 5) →
      lastMinimum (es.map Prod.snd) = none := by
    intro es apart
    refine lastMinimum_none (fun chunk mem => ?_)
    obtain ⟨e, listed, rfl⟩ := List.mem_map.mp mem
    obtain ⟨keyed, reads⟩ := entry e (apart e listed).1
    rw [reads, speedPotMinimum_other keyed (apart e listed).2]
  unfold storedCommands profilePotMinimum
  cases setup : profile[5]? with
  | none =>
      refine others _ (fun e mem => ⟨mem, ?_⟩)
      rintro same
      have found := Std.TreeMap.mem_toList_iff_getElem?_eq_some.mp mem
      rw [same, setup] at found
      cases found
  | some command =>
      -- The one entry with this key stands among entries with others.
      have mem : (5, command) ∈ profile.toList :=
        Std.TreeMap.mem_toList_iff_getElem?_eq_some.mpr setup
      obtain ⟨front, back, split⟩ := List.append_of_mem mem
      have distinct := Std.TreeMap.distinct_keys_toList (t := profile)
      rw [split] at distinct
      obtain ⟨_, behind, across⟩ := List.pairwise_append.mp distinct
      have front' : lastMinimum (front.map Prod.snd) = none := by
        refine others front (fun e mem => ⟨by rw [split]; exact List.mem_append_left _ mem, ?_⟩)
        intro same
        exact across e mem _ List.mem_cons_self (Nat.compare_eq_eq.mpr same)
      have back' : lastMinimum (back.map Prod.snd) = none := by
        refine others back (fun e mem => ⟨by
          rw [split]
          exact List.mem_append_right _ (List.mem_cons_of_mem _ mem), ?_⟩)
        intro same
        exact (List.pairwise_cons.mp behind).1 e mem (Nat.compare_eq_eq.mpr same.symm)
      rw [split, List.map_append, List.map_cons, ← List.singleton_append, lastMinimum_append,
        lastMinimum_append, front', back', (stored 5 command setup).2]
      simp

theorem lastMinimum_clear {chunk : List UInt8} (clear : IsClear chunk) : lastMinimum [chunk] = none := by
  rcases clear with rfl | rfl <;> rfl

namespace BrokerCore

/-- The tracked minimum after some chunks is the one they leave in the keyer. -/
def Follows (core : BrokerCore) (chunks : List (List UInt8)) (core' : BrokerCore) : Prop :=
  core'.physicalPotMinWpm = (lastMinimum chunks).getD core.physicalPotMinWpm

theorem Follows.none {core core' : BrokerCore} {chunks : List (List UInt8)}
    (same : core'.physicalPotMinWpm = core.physicalPotMinWpm) (plain : lastMinimum chunks = none) :
    core.Follows chunks core' := by
  unfold Follows
  rw [plain, same]
  rfl

/-- Before a job the client's profile is taken over. -/
theorem started_follows {core : BrokerCore} {clock : Nat} {job : Job} {rest : List Job}
    (queue : core.queue = job :: rest) (stored : SetupsStored core)
    (plain : lastMinimum [job.payload.wireBytes] = none) :
    core.Follows (writes (core.startNextOrRestore clock).2) (core.startNextOrRestore clock).1 := by
  have wire : lastMinimum (writes (core.startNextOrRestore clock).2) =
      lastMinimum (writes (core.profileReplay job.clientId)) := by
    have speed : lastMinimum (speedChunk job) = none := by
      unfold speedChunk
      split
      · exact lastMinimum_speed job.speed
      · rfl
    have closing : lastMinimum [job.payload.wireBytes, [0x15]] = none := by
      rw [← List.singleton_append, lastMinimum_append, plain]
      rfl
    rw [writes_startNextOrRestore, queue]
    simp only []
    rw [lastMinimum_append, lastMinimum_append, speed, closing]
    rfl
  have minimum : (core.startNextOrRestore clock).1.physicalPotMinWpm =
      if core.appliedProfileClientId ≠ some job.clientId then
        (core.clients[job.clientId]?.bind (fun client => profilePotMinimum client.profile)).getD
          core.physicalPotMinWpm
      else core.physicalPotMinWpm := by
    unfold startNextOrRestore
    rw [queue]
    simp only []
    split
    · unfold applyProfileOf
      simp only []
      cases core.clients[job.clientId]?.bind (fun client => profilePotMinimum client.profile) <;> rfl
    · rfl
  unfold Follows
  rw [wire, minimum, writes_profileReplay]
  split
  · cases known : core.clients[job.clientId]? with
    | none => rfl
    | some client =>
        show _ = (lastMinimum (storedCommands client.profile)).getD _
        rw [lastMinimum_stored (stored job.clientId client known)]
        rfl
  · rfl

/-- The foreground's profile, if it is replayed, and its speed. -/
theorem lastMinimum_restore {core : BrokerCore} (stored : SetupsStored core) :
    lastMinimum (writes core.restoreForegroundSpeed.2) =
      if core.foreground.any (fun e => some e.1 != core.appliedProfileClientId) then
        core.foreground.bind (fun e => profilePotMinimum e.2.profile)
      else none := by
  rw [writes_restoreForegroundSpeed, lastMinimum_append, lastMinimum_speed]
  unfold foregroundReplay
  cases foreground : core.foreground with
  | none => rfl
  | some e =>
      have known : core.clients[e.1]? = some e.2 :=
        Std.TreeMap.mem_toList_iff_getElem?_eq_some.mp (List.mem_of_find?_eq_some foreground)
      by_cases marked : some e.1 = core.appliedProfileClientId
      · simp [marked, lastMinimum]
      · simp [marked, lastMinimum_stored (stored e.1 e.2 known)]

theorem restored_follows {core : BrokerCore} (stored : SetupsStored core)
    (right : core.restoresMinimum = true) :
    core.Follows (writes core.restoreForegroundSpeed.2) core.restoreForegroundSpeed.1 := by
  have minimum : core.restoreForegroundSpeed.1.physicalPotMinWpm =
      (core.foreground.bind (fun e => profilePotMinimum e.2.profile)).getD 5 := rfl
  unfold Follows
  rw [minimum, lastMinimum_restore stored]
  rcases Bool.or_eq_true_iff.mp right with changed | same
  · obtain ⟨replayed, setup⟩ := Bool.and_eq_true_iff.mp changed
    obtain ⟨m, setup⟩ := Option.isSome_iff_exists.mp setup
    rw [if_pos replayed, setup]
    rfl
  · have same := eq_of_beq same
    split
    · rw [← same]
      cases core.foreground.bind (fun e => profilePotMinimum e.2.profile) <;> rfl
    · exact same

end BrokerCore

/-! ## Every call -/

theorem startNextOrRestore_settled {core : BrokerCore} (settled : core.PotSettled) (clock : Nat) :
    (core.startNextOrRestore clock).1.PotSettled := by
  unfold startNextOrRestore
  split
  · rename_i job rest queue
    simp only []
    split
    · unfold applyProfileOf
      split
      · exact refreshPotWpm_settled _
      · exact settled
    · exact settled
  · exact refreshPotWpm_settled _

/-- The published speed is computed from the tracked minimum. -/
theorem PotCourse.settled {core core' : BrokerCore} {op : BrokerOp} {actions : List PhysicalAction}
    (course : PotCourse core op actions core') (settled : core.PotSettled) : core'.PotSettled := by
  cases course with
  | steady same => exact same.settled settled
  | observed => exact refreshPotWpm_settled _
  | configured _ kept => exact kept settled
  | passed same => exact startNextOrRestore_settled (same.settled settled) _
  | restored => exact refreshPotWpm_settled _

/-- The tracked minimum goes where the wire puts it. -/
theorem PotCourse.follows {core core' : BrokerCore} {op : BrokerOp} {answer : Answer}
    (course : PotCourse core op answer.actions core') (stored : SetupsStored core)
    (reads : ReadsSetup ⟨core, op, answer, core'⟩ = true)
    (tracks : TracksPot ⟨core, op, answer, core'⟩ = true) :
    core.Follows (writes answer.actions) core' := by
  obtain ⟨⟨restores, queued⟩, handed⟩ := (Bool.and_eq_true_iff.mp tracks).imp_left
    Bool.and_eq_true_iff.mp
  have plain : ∀ chunk, op.hands = some chunk → lastMinimum [chunk] = none := by
    intro chunk same
    change op.hands.all _ = true at handed
    rw [same] at handed
    exact eq_of_beq handed
  obtain ⟨accepted, actions⟩ := answer
  change PotCourse core op actions core' at course
  show core.Follows (writes actions) core'
  cases course with
  | steady same chunks =>
      refine .none same.minimum (lastMinimum_none (fun chunk mem => ?_))
      rcases chunks chunk mem with clear | ⟨speed, rfl⟩ | same'
      · exact lastMinimum_clear clear
      · exact lastMinimum_speed speed
      · exact plain chunk same'
  | observed => exact .none rfl rfl
  | @configured clientId command _ minimum =>
      have wire : lastMinimum (writes [.write command]) = speedPotMinimum command :=
        eq_of_beq reads
      unfold Follows
      rw [wire, minimum]
  | @passed _ mid clock ending same clients applied queue drained clear =>
      have table : ∀ (c : ClientId) (client : ClientState), mid.clients[c]? = some client →
          core.clients[c]? = some client := by
        intro c client known
        rw [clients] at known
        cases op with
        | unregisterClient d _ =>
            change (core.clients.erase d)[c]? = some client at known
            rw [clients_erase] at known
            split at known
            · cases known
            · exact known
        | _ => exact known
      have stored' : SetupsStored mid := fun c client known => stored c client (table c client known)
      have ended : lastMinimum (writes ending) = none :=
        lastMinimum_none (fun chunk mem => lastMinimum_clear (clear chunk mem))
      have goesOn : mid.Follows (writes (mid.startNextOrRestore clock).2)
          (mid.startNextOrRestore clock).1 := by
        cases waiting : mid.queue with
        | cons job rest =>
            refine started_follows waiting stored' ?_
            rcases queue job (by rw [waiting]; exact List.mem_cons_self) with old | new
            · exact eq_of_beq (List.all_eq_true.mp queued job old)
            · exact plain _ new
        | nil =>
            have going : mid.startNextOrRestore clock = mid.restoreForegroundSpeed := by
              unfold startNextOrRestore
              rw [waiting]
            rw [going]
            refine restored_follows stored' ?_
            have right : (core.tableAfter op).restoresMinimum = true := by
              have restores : (!core.restores op || (core.tableAfter op).restoresMinimum) = true :=
                restores
              rw [drained waiting] at restores
              exact restores
            have minimum : (core.tableAfter op).physicalPotMinWpm = mid.physicalPotMinWpm := by
              rw [same.minimum]
              cases op <;> rfl
            have foreground : (core.tableAfter op).foreground = mid.foreground := by
              unfold foreground
              rw [clients]
            unfold restoresMinimum at right ⊢
            rw [foreground, minimum, ← applied] at right
            exact right
      unfold Follows at goesOn ⊢
      rw [writes_append, lastMinimum_append, ended, Option.or_none, goesOn, same.minimum]
  | restored =>
      exact restored_follows stored restores

theorem setupsStored_step {core core' : BrokerCore} {op : BrokerOp} {answer : Answer}
    (stored : SetupsStored core) (step : broker.step core op = some (core', answer))
    (reads : ReadsSetup ⟨core, op, answer, core'⟩ = true) : SetupsStored core' := by
  simp only [broker, Option.ite_none_left_eq_some, Option.some.injEq] at step
  have after : core' = (op.apply core).1 := (congrArg Prod.fst step.2).symm
  subst after
  intro c client known
  cases within : op.within with
  | false =>
      refine stored c client ?_
      cases op with
      | connectPhysical | physicalError | restoreForeground => exact known
      | _ => cases within
  | true =>
      cases (apply_course core within).entry known with
      | kept found => exact stored c client found
      | @paced before _ found => exact stored c before found
      | registered =>
          intro key command entry
          simp at entry
      | @configured before command key keyed found =>
          intro key' command' entry
          rw [Std.TreeMap.getElem?_insert] at entry
          split at entry
          · rename_i same
            obtain rfl := Option.some.inj entry
            rw [← Nat.compare_eq_eq.mp same]
            exact ⟨keyed, eq_of_beq reads⟩
          · exact stored c before found key' command' entry

/-! ## Every run -/

section Runs

variable {maxTx : Nat} {earlier later : BrokerHistory} {opening : BrokerCall}
  {start core : BrokerCore}

theorem broker_step_apply {core' : BrokerCore} {op : BrokerOp} {answer : Answer}
    (step : broker.step core op = some (core', answer)) :
    core' = (op.apply core).1 ∧ answer = (op.apply core).2 := by
  simp only [broker, Option.ite_none_left_eq_some, Option.some.injEq] at step
  exact ⟨(congrArg Prod.fst step.2).symm, (congrArg Prod.snd step.2).symm⟩

theorem settled_of_execution (run : broker.Execution start later core) (settled : start.PotSettled) :
    core.PotSettled := by
  refine run.invariant (I := fun _ core => core.PotSettled) settled ?_
  rintro history s op answer t - settled step
  obtain ⟨rfl, -⟩ := broker_step_apply step
  cases opens : op.connects with
  | false => exact (apply_pot s opens).settled settled
  | true =>
      cases op with
      | connectPhysical => exact settled
      | _ => cases opens

theorem setupsStored_of_execution (run : broker.Execution start later core)
    (stored : SetupsStored start) (reads : ∀ call ∈ later, ReadsSetup call = true) : SetupsStored core :=
  run.guarded (I := fun _ core => SetupsStored core) stored
    (fun _ _ _ _ _ _ stored step reads => setupsStored_step stored step reads) reads

/-- Within a connection the tracked minimum follows the wire. -/
theorem follows_of_execution (run : broker.Execution start later core) (stored : SetupsStored start)
    (meets : ∀ call ∈ later,
      ReadsSetup call = true ∧ call.input.connects = false ∧ TracksPot call = true) :
    core.physicalPotMinWpm = (lastMinimum
      (later.flatMap (fun call => writes call.output.actions))).getD start.physicalPotMinWpm := by
  refine (run.guarded (I := fun history core => SetupsStored core ∧
    core.physicalPotMinWpm = (lastMinimum (history.flatMap
      (fun call => writes call.output.actions))).getD start.physicalPotMinWpm) ⟨stored, rfl⟩ ?_ meets).2
  rintro history s op answer t - ⟨stored, tracked⟩ step ⟨reads, stays, tracks⟩
  refine ⟨setupsStored_step stored step reads, ?_⟩
  obtain ⟨rfl, rfl⟩ := broker_step_apply step
  have follows := (apply_pot s stays).follows stored reads tracks
  unfold Follows at follows
  rw [follows, tracked, List.flatMap_append, lastMinimum_append]
  simp only [List.flatMap_cons, List.flatMap_nil, List.append_nil]
  cases lastMinimum (writes (op.apply s).2.actions) <;> rfl

/-- Behind a new connection the restore sets the minimum that it writes. -/
theorem opened_follows (stored : SetupsStored core) (opened : core.appliedProfileClientId = none) :
    core.restoreForegroundSpeed.1.physicalPotMinWpm =
      (lastMinimum (writes core.restoreForegroundSpeed.2)).getD 5 := by
  have minimum : core.restoreForegroundSpeed.1.physicalPotMinWpm =
      (core.foreground.bind (fun e => profilePotMinimum e.2.profile)).getD 5 := rfl
  rw [minimum, lastMinimum_restore stored, opened]
  cases core.foreground <;> rfl

/-- **Published pot speed.**  In every run, behind the last opened connection, once an offset is known
the published speed is that offset above the minimum in the keyer, if the calls since the connection
was opened track the minimum. -/
theorem pot_speed_real (run : broker.Execution (.new maxTx) (earlier ++ opening :: later) core)
    (opens : opening.input.connects = true) (last : ∀ call ∈ later, call.input.connects = false)
    (reads : ∀ call ∈ earlier ++ opening :: later, ReadsSetup call = true)
    (since : SinceConnect opening later) :
    ∀ value, core.potValue = some value → core.potWpm.map UInt8.toNat =
      some (min 255 ((keyerMinimum later).toNat + value.toNat)) := by
  intro value observed
  have settled : core.PotSettled := settled_of_execution run rfl
  have fresh : SetupsStored (.new maxTx) := by
    intro c client known
    simp [BrokerCore.new] at known
  -- The connection is opened in some state, and the calls behind it are a run of their own.
  obtain ⟨before, first, behind⟩ := run.split
  obtain ⟨here, step, rest⟩ := behind.uncons
  have stored : SetupsStored before :=
    setupsStored_of_execution first fresh (fun call mem => reads call (List.mem_append_left _ mem))
  obtain ⟨firmware, input⟩ : ∃ firmware, opening.input = .connectPhysical firmware := by
    cases input : opening.input with
    | connectPhysical firmware => exact ⟨firmware, rfl⟩
    | _ =>
        rw [input] at opens
        cases opens
  have after : opening.after = before.connectPhysical firmware := by
    rw [input] at step
    exact (broker_step_apply step).1
  have stored' : SetupsStored opening.after := by
    rw [after]
    exact stored
  have reads' : ∀ call ∈ later, ReadsSetup call = true := fun call mem =>
    reads call (List.mem_append_right _ (List.mem_cons_of_mem _ mem))
  have real : core.physicalPotMinWpm = keyerMinimum later → core.potWpm.map UInt8.toNat =
      some (min 255 ((keyerMinimum later).toNat + value.toNat)) := by
    intro tracked
    rw [settled, observed, tracked]
    exact congrArg some (saturatingAdd_toNat _ _)
  cases since with
  | kept five tracks =>
      refine real ?_
      rw [follows_of_execution rest stored'
        (fun call mem => ⟨reads' call mem, last call mem, tracks call mem⟩), after]
      show (_ : Option UInt8).getD before.physicalPotMinWpm = _
      rw [← here, five]
      rfl
  | @restored call later restores tracks =>
      refine real ?_
      obtain ⟨_, step', rest'⟩ := rest.uncons
      rw [restores] at step'
      obtain ⟨after', answer⟩ := broker_step_apply step'
      have table : call.after.clients = opening.after.clients := by
        rw [after']
        rfl
      have stored'' : SetupsStored call.after := by
        unfold SetupsStored
        rw [table]
        exact stored'
      have minimum : call.after.physicalPotMinWpm = (lastMinimum (writes call.output.actions)).getD 5 := by
        rw [after', answer]
        exact opened_follows stored' (by rw [after]; rfl)
      rw [follows_of_execution rest' stored'' (fun call mem => ⟨reads' call (List.mem_cons_of_mem _ mem),
        last call (List.mem_cons_of_mem _ mem), tracks call mem⟩), minimum]
      unfold keyerMinimum
      rw [List.flatMap_cons, lastMinimum_append]
      cases lastMinimum (later.flatMap (fun call => writes call.output.actions)) <;> rfl
  | unobserved unknown =>
      have silent : core.potValue = none := by
        rw [rest.stays, after, ← here]
        exact unknown
      rw [silent] at observed
      cases observed

end Runs

/-- Client 2 sets up the pot for its own job. -/
def foreignSetup : List BrokerOp :=
  [.registerClient 1 true, .registerClient 2 false, .setClientCommand 2 [0x05, 15, 30, 0],
    .observePot 10, .enqueue 2 ⟨[69], [69]⟩ none false 1 1, .observeStatus (.fromByte 0xc4) 2]

/-- While its job is active the setup is in the keyer, and is published. -/
theorem pot_speed_real_foreignSetup :
    ∃ opening later core, broker.Execution (.new 60) (opening :: later) core ∧
      core.potWpm.map UInt8.toNat = some (min 255 ((keyerMinimum later).toNat + 10)) ∧
      keyerMinimum later = 15 := by
  have nothing : broker.Execution (.new 60) [] (.new 60) := .start
  have first := nothing.goOn (.connectPhysical 31) (by decide)
  have run := first.append (broker.execution_exec _ foreignSetup (by decide))
  exact ⟨_, _, _, run, @pot_speed_real 60 [] _ _ _ run rfl (by decide) (by decide)
    (.kept rfl (by decide)) 10 (by decide), by decide⟩

/-- The restore of client 1 behind it writes no setup, but takes the minimum back. -/
theorem pot_speed_not_real :
    ∃ opening later core, broker.Execution (.new 60) (opening :: later) core ∧
      opening.input.connects = true ∧ (∀ call ∈ later, call.input.connects = false) ∧
      core.potValue = some 10 ∧ core.potWpm.map UInt8.toNat = some 15 ∧
      min 255 ((keyerMinimum later).toNat + 10) = 25 := by
  have nothing : broker.Execution (.new 60) [] (.new 60) := .start
  have first := nothing.goOn (.connectPhysical 31) (by decide)
  have run := first.append (broker.execution_exec _
    (foreignSetup ++ [.observeStatus (.fromByte 0xc0) 3]) (by decide))
  exact ⟨_, _, _, run, rfl, by decide, by decide, by decide, by decide⟩

end CatHub.WinKeyer
