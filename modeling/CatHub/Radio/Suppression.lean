/-
# CatHub.Radio.Suppression — redundant mode writes against a radio that recalls stored modes.

A client's mode write is dropped when the cache already holds the mode.  Between the client and the
radio four things move on their own: writes reach the radio, the radio reports its frequency, mode
and DATA flag in frames of its own order, the frames are recorded whenever they arrive, and the
write itself is recorded once its bytes are out.  A frequency write may make the radio recall a
stored mode, so its record marks the cached mode facts as uncertain, but only if it still changes
the cached frequency.

A mode fact is safe when it is marked, when the record of the write that changed it is outstanding,
or when the radio agrees with it.  `Timely` names the orders of steps under which every fact stays
safe.
-/
import CatHub.Radio.Transceiver
import CatHub.Systems.Execution

namespace CatHub.Radio

open Ts590 Systems

/-! ## Mode facts and their values -/

/-- The value of a mode fact. -/
inductive FactValue where
  | digit (digit : UInt8)
  | flag (on : Bool)
  deriving DecidableEq, Repr

/-- The VFO that a mode fact is about. -/
def ModeFact.vfo : ModeFact → Vfo
  | .base vfo | .data vfo => vfo

/-- The value that the cache holds. -/
def Snapshot.fact (s : Snapshot) : ModeFact → FactValue
  | .base vfo => .digit (s.vfo vfo).mode.toKenwoodDigit
  | .data vfo => .flag (s.vfo vfo).data

/-- The value that the settings of the fact's VFO have. -/
def VfoSettings.fact (settings : VfoSettings) : ModeFact → FactValue
  | .base _ => .digit settings.modeDigit
  | .data _ => .flag settings.data

/-- The value that the radio has. -/
def Transceiver.fact (r : Transceiver) (f : ModeFact) : FactValue := (r.vfo f.vfo).fact f

/-- The mode fact that a change tells, and its value. -/
def StateChange.tells : StateChange → Option (ModeFact × FactValue)
  | .mode v newMode => some (.base v, .digit newMode.toKenwoodDigit)
  | .dataMode v on => some (.data v, .flag on)
  | _ => none

/-- A change tells at most one mode fact. -/
theorem fact_applyChange (s : Snapshot) (change : StateChange) (f : ModeFact) :
    (s.applyChange change).1.fact f =
      match change.tells with
      | some (g, value) => if f = g then value else s.fact f
      | none => s.fact f := by
  cases change with
  | freq vfo hz => cases vfo <;> rcases f with (_ | _) | (_ | _) <;> rfl
  | mode vfo mode => cases vfo <;> rcases f with (_ | _) | (_ | _) <;> rfl
  | dataMode vfo on => cases vfo <;> rcases f with (_ | _) | (_ | _) <;> rfl
  | rxVfo vfo => rcases f with (_ | _) | (_ | _) <;> rfl
  | split enabled txVfo => rcases f with (_ | _) | (_ | _) <;> rfl
  | ptt keyed => rcases f with (_ | _) | (_ | _) <;> rfl
  | rit enabled offsetHz => rcases f with (_ | _) | (_ | _) <;> rfl
  | xit enabled offsetHz => rcases f with (_ | _) | (_ | _) <;> rfl
  | txPower power => rcases f with (_ | _) | (_ | _) <;> rfl

/-- A change that tells a mode fact settles it and leaves the other marks. -/
theorem marked_record_tells (h : StateHandle) {change : StateChange} (source : RadioEventSource)
    {g : ModeFact} {value : FactValue} (tells : change.tells = some (g, value)) (f : ModeFact) :
    f ∈ (h.record change source).uncertainMode ↔ f ∈ h.uncertainMode ∧ f ≠ g := by
  cases change with
  | mode vfo mode =>
      cases tells
      exact List.mem_filter.trans (and_congr_right fun _ => bne_iff_ne)
  | dataMode vfo on =>
      cases tells
      exact List.mem_filter.trans (and_congr_right fun _ => bne_iff_ne)
  | _ => cases tells

/-- Any other change only adds marks. -/
theorem marked_record (h : StateHandle) {change : StateChange} (source : RadioEventSource)
    (silent : change.tells = none) {f : ModeFact} (marked : f ∈ h.uncertainMode) :
    f ∈ (h.record change source).uncertainMode := by
  cases change with
  | mode vfo mode => cases silent
  | dataMode vfo on => cases silent
  | freq vfo hz =>
      show f ∈ if _ then (h.uncertainMode.insert (ModeFact.base vfo)).insert (ModeFact.data vfo)
        else h.uncertainMode
      split
      · exact List.mem_insert_of_mem (List.mem_insert_of_mem marked)
      · exact marked
  | _ => exact marked

/-- A frequency write that changes the cached frequency marks both facts of its VFO. -/
theorem marked_tuned (h : StateHandle) {vfo : Vfo} {hz : Nat}
    (differs : (h.snapshot.vfo vfo).freqHz ≠ hz) {f : ModeFact} (about : f.vfo = vfo) :
    f ∈ (h.record (.freq vfo hz) .optimisticWrite).uncertainMode := by
  have changed : ((h.snapshot.vfo vfo).freqHz != hz &&
      (RadioEventSource.optimisticWrite == .optimisticWrite)) = true := by
    simpa using differs
  show f ∈ if _ then (h.uncertainMode.insert (ModeFact.base vfo)).insert (ModeFact.data vfo)
    else h.uncertainMode
  rw [if_pos changed]
  subst about
  cases f with
  | base v => exact List.mem_insert_of_mem List.mem_insert_self
  | data v => exact List.mem_insert_self

/-- What a suppressed mode write knows. -/
theorem fact_of_redundant {h : StateHandle} {mutation : StateMutation} {f : ModeFact}
    {value : FactValue} (tells : mutation.intoChange.tells = some (f, value))
    (operating : f.vfo = h.snapshot.rxVfo) (redundant : h.isRedundant mutation = true) :
    f ∉ h.uncertainMode ∧ h.snapshot.fact f = value := by
  cases mutation with
  | setMode v mode =>
      cases tells
      obtain rfl : v = h.snapshot.rxVfo := operating
      simp only [StateHandle.isRedundant, Snapshot.isRedundant, Bool.and_eq_true,
        Bool.not_eq_true', beq_iff_eq] at redundant
      exact ⟨by simpa using redundant.1, congrArg FactValue.digit redundant.2⟩
  | setDataMode v on =>
      cases tells
      simp only [StateHandle.isRedundant, Snapshot.isRedundant, Bool.and_eq_true,
        Bool.not_eq_true', beq_iff_eq] at redundant
      exact ⟨by simpa using redundant.1, congrArg FactValue.flag redundant.2⟩
  | _ => cases tells

/-! ## The hub and the radio -/

/-- What the radio says about itself in a frame. -/
inductive Report where
  | freq (vfo : Vfo) (hz : Nat)
  | mode (digit : UInt8)
  | data (on : Bool)
  deriving DecidableEq, Repr

/-- The frame of a report. -/
def Report.frame : Report → List UInt8
  | .freq v hz => freqSet v hz
  | .mode digit => ascii ['M', 'D'] ++ [digit, terminator]
  | .data on => ascii (if on then ['D', 'A', '1', ';'] else ['D', 'A', '0', ';'])

/-- What a report can be about. -/
inductive Subject where
  | freq (vfo : Vfo)
  | mode
  | data
  deriving DecidableEq, Repr

/-- What the radio has to say now; mode and DATA flag are those of the receive VFO. -/
def Transceiver.report (r : Transceiver) : Subject → Report
  | .freq v => .freq v (r.vfo v).freqHz
  | .mode => .mode (r.vfo r.rx).modeDigit
  | .data => .data (r.vfo r.rx).data

/-- The radio, the frames on their way from it, the cache, and the write whose bytes are out but
whose records are not made yet, with the snapshot it was built from. -/
structure Rig where
  radio : Transceiver := {}
  wire : List Report := []
  state : StateHandle := {}
  applying : Option (Snapshot × StateMutation) := none
  deriving DecidableEq, Repr

/-- The steps, in any order: a write goes out and the radio obeys it, recalling a stored mode if the
write is a frequency; the write is recorded; the radio reports; the hub records one of the frames
under way; a client asks whether a write is redundant. -/
inductive RigInput where
  | send (mutation : StateMutation) (stored : Option StoredMode)
  | record
  | report (subject : Subject)
  | deliver (position : Nat)
  | ask (mutation : StateMutation)
  deriving DecidableEq, Repr

/-- Writes are applied one at a time. -/
def rig : Machine Rig RigInput Unit where
  step
    | g, .send mutation stored =>
        match g.applying with
        | some _ => none
        | none =>
            let snap := g.state.snapshot
            some ({ g with
              radio := g.radio.execute stored (applyBytes snap mutation)
              applying := some (snap, mutation) }, ())
    | g, .record =>
        match g.applying with
        | none => none
        | some (snap, mutation) =>
            some ({ g with
              state := recordAll g.state (applyRecords snap mutation) .optimisticWrite
              applying := none }, ())
    | g, .report subject => some ({ g with wire := g.wire ++ [g.radio.report subject] }, ())
    | g, .deliver position =>
        match g.wire[position]? with
        | none => none
        | some report =>
            some ({ g with
              wire := g.wire.eraseIdx position
              state := (recordEvent g.state report.frame .nativePush).1 }, ())
    | g, .ask _ => some (g, ())

/-- Cache and radio say the same, and nothing is under way. -/
structure Synchronized (g : Rig) : Prop where
  agrees : ∀ f, g.state.snapshot.fact f = g.radio.fact f
  rx : g.state.snapshot.rxVfo = g.radio.rx
  idle : g.applying = none
  quiet : g.wire = []

/-- A mode write that is suppressed on the operating VFO asks for what the radio has. -/
def Suppressed (g : Rig) : StateMutation → Prop
  | .setMode v mode =>
      v = g.state.snapshot.rxVfo → g.state.isRedundant (.setMode v mode) = true →
        (g.radio.vfo g.radio.rx).modeDigit = mode.toKenwoodDigit
  | .setDataMode v on =>
      v = g.state.snapshot.rxVfo → g.state.isRedundant (.setDataMode v on) = true →
        (g.radio.vfo g.radio.rx).data = on
  | _ => True

/-! ## When suppression is sound -/

/-- The mode facts that the frames of a write change and its records settle. -/
def owes : StateMutation → ModeFact → Bool
  | .setVfoFreq v _, f => f.vfo == v
  | .setMode v _, f => f == .base v
  | .setDataMode v _, f => f == .data v
  | _, _ => false

/-- The record of a mode fact is outstanding. -/
def Rig.owes (g : Rig) (f : ModeFact) : Bool :=
  match g.applying with
  | some (_, mutation) => Radio.owes mutation f
  | none => false

/-- The cache holds what the radio has, or the mark says that it may not. -/
def Rig.settled (g : Rig) (f : ModeFact) : Bool :=
  g.state.uncertainMode.contains f || g.state.snapshot.fact f == g.radio.fact f

/-- A step at the right time: a mode write names the VFO that operates; a frequency write is
recorded before the cache has its frequency from elsewhere, or when the mode facts are settled
anyway; a mode or DATA frame is recorded while it is still true of the VFO it is recorded for; and a
client asks while the receive VFO is known and the fact it asks for awaits no record. -/
def Timely (g : Rig) : RigInput → Bool
  | .send (.setMode v _) _ | .send (.setDataMode v _) _ => v == g.radio.rx
  | .send _ _ => true
  | .record =>
      match g.applying with
      | some (_, .setVfoFreq v hz) =>
          (g.state.snapshot.vfo v).freqHz != hz || (g.settled (.base v) && g.settled (.data v))
      | _ => true
  | .report _ => true
  | .deliver position =>
      match g.wire[position]? with
      | some (.mode digit) =>
          (Mode.fromKenwoodDigit digit).toKenwoodDigit ==
            (g.radio.vfo g.state.snapshot.rxVfo).modeDigit
      | some (.data on) => on == (g.radio.vfo g.state.snapshot.rxVfo).data
      | _ => true
  | .ask mutation =>
      g.state.snapshot.rxVfo == g.radio.rx &&
        mutation.intoChange.tells.all fun (f, _) => !g.owes f

/-! ## Every fact stays safe -/

/-- Every mode fact is settled or its record is outstanding, and what the outstanding record tells
is what the radio has. -/
structure Safe (g : Rig) : Prop where
  facts : ∀ f, g.settled f = true ∨ g.owes f = true
  carried : ∀ snap mutation f value, g.applying = some (snap, mutation) →
    mutation.intoChange.tells = some (f, value) → g.radio.fact f = value

theorem settled_iff (g : Rig) (f : ModeFact) :
    g.settled f = true ↔
      f ∈ g.state.uncertainMode ∨ g.state.snapshot.fact f = g.radio.fact f := by
  simp [Rig.settled]

theorem Synchronized.safe {g : Rig} (start : Synchronized g) : Safe g where
  facts f := .inl ((settled_iff g f).mpr (.inr (start.agrees f)))
  carried snap mutation f value applying := by
    rw [start.idle] at applying
    cases applying

/-- Setting one VFO changes the facts of that VFO only. -/
theorem fact_setVfo (r : Transceiver) (target : VfoSettings) (v : Vfo) (f : ModeFact) :
    (r.setVfo target v).fact f = if f.vfo = v then target.fact f else r.fact f := by
  rw [Transceiver.fact, Transceiver.vfo_setVfo]
  split <;> rfl

/-- Setting one fact of the receive VFO changes that fact only. -/
theorem fact_setReceiving (r : Transceiver) {target : VfoSettings} {g : ModeFact}
    (receiving : g.vfo = r.rx) (others : ∀ f, f ≠ g → f.vfo = g.vfo → target.fact f = r.fact f)
    (f : ModeFact) :
    (r.setVfo target r.rx).fact f = if f = g then target.fact g else r.fact f := by
  rw [fact_setVfo, ← receiving]
  by_cases same : f = g
  · rw [if_pos same, same, if_pos rfl]
  · rw [if_neg same]
    split
    · rename_i sameVfo
      exact others f same sameVfo
    · rfl

/-- A mode write on the operating VFO sets the mode there. -/
theorem fact_executeMode (r : Transceiver) (stored : Option StoredMode) (snap : Snapshot) (mode : Mode)
    {v : Vfo} (receiving : (ModeFact.base v).vfo = r.rx) (f : ModeFact) :
    (r.execute stored (applyBytes snap (.setMode v mode))).fact f =
      if f = .base v then .digit mode.toKenwoodDigit else r.fact f := by
  rw [applyBytes, Transceiver.execute_modeSet]
  refine fact_setReceiving r receiving ?_ f
  intro other different sameVfo
  cases other with
  | base w => exact absurd (congrArg ModeFact.base sameVfo) different
  | data w =>
      obtain rfl : w = r.rx := sameVfo.trans receiving
      rfl

/-- A DATA write on the operating VFO sets the flag there. -/
theorem fact_executeData (r : Transceiver) (stored : Option StoredMode) (snap : Snapshot) (on : Bool)
    {v : Vfo} (receiving : (ModeFact.data v).vfo = r.rx) (f : ModeFact) :
    (r.execute stored (applyBytes snap (.setDataMode v on))).fact f =
      if f = .data v then .flag on else r.fact f := by
  rw [applyBytes, Transceiver.execute_dataSet]
  refine fact_setReceiving r receiving ?_ f
  intro other different sameVfo
  cases other with
  | data w => exact absurd (congrArg ModeFact.data sameVfo) different
  | base w =>
      obtain rfl : w = r.rx := sameVfo.trans receiving
      rfl

/-- A write that sets the fact that it tells, and owes, leaves the others alone. -/
theorem fact_told {r r' : Transceiver} {f g : ModeFact} {value : FactValue} {owed : Bool}
    (sets : r'.fact f = if f = g then value else r.fact f) (owing : owed = (f == g)) :
    (owed = false → r'.fact f = r.fact f) ∧
      ∀ told, some (g, value) = some (f, told) → r'.fact f = told := by
  rw [sets, owing]
  refine ⟨fun free => if_neg (by simpa using free), fun told tells => ?_⟩
  cases tells
  exact if_pos rfl

/-- What a write does to the mode facts of the radio: those that its records do not settle, it leaves
alone; and a mode write on the operating VFO does what it tells. -/
theorem fact_execute (r : Transceiver) (stored : Option StoredMode) (snap : Snapshot)
    {mutation : StateMutation}
    (operating : ∀ f value, mutation.intoChange.tells = some (f, value) → f.vfo = r.rx)
    (f : ModeFact) :
    (owes mutation f = false → (r.execute stored (applyBytes snap mutation)).fact f = r.fact f) ∧
      ∀ value, mutation.intoChange.tells = some (f, value) →
        (r.execute stored (applyBytes snap mutation)).fact f = value := by
  cases mutation with
  | setVfoFreq v hz =>
      refine ⟨fun free => ?_, fun _ tells => by cases tells⟩
      rw [applyBytes, Transceiver.execute_freqSet]
      exact (fact_setVfo r _ v f).trans (if_neg (by simpa [owes] using free))
  | setMode v mode =>
      exact fact_told (fact_executeMode r stored snap mode (operating _ _ rfl) f) rfl
  | setDataMode v on =>
      exact fact_told (fact_executeData r stored snap on (operating _ _ rfl) f) rfl
  | setRxVfo v =>
      refine ⟨fun _ => ?_, fun _ tells => by cases tells⟩
      rw [applyBytes, Transceiver.execute_vfoSelect]
      rcases f with (_ | _) | (_ | _) <;> rfl
  | setSplit enabled txVfo =>
      refine ⟨fun _ => ?_, fun _ tells => by cases tells⟩
      cases enabled
      · rw [applyBytes, if_neg Bool.false_ne_true, Transceiver.execute_vfoSelect]
        rcases f with (_ | _) | (_ | _) <;> rfl
      · rw [applyBytes, if_pos rfl, Transceiver.execute_vfoSelect]
        rcases f with (_ | _) | (_ | _) <;> rfl
  | setPtt keyed source =>
      refine ⟨fun _ => ?_, fun _ tells => by cases tells⟩
      cases keyed <;> cases source <;> rcases f with (_ | _) | (_ | _) <;> rfl
  | setRit offsetHz enabled =>
      refine ⟨fun _ => ?_, fun _ tells => by cases tells⟩
      cases enabled <;> rcases f with (_ | _) | (_ | _) <;> rfl
  | setXit offsetHz enabled =>
      refine ⟨fun _ => ?_, fun _ tells => by cases tells⟩
      cases enabled <;> rcases f with (_ | _) | (_ | _) <;> rfl

/-- A record that tells no mode fact leaves settled what is settled. -/
theorem settled_record {r : Transceiver} {h : StateHandle} {change : StateChange}
    (source : RadioEventSource) (silent : change.tells = none) {f : ModeFact}
    (settled : f ∈ h.uncertainMode ∨ h.snapshot.fact f = r.fact f) :
    f ∈ (h.record change source).uncertainMode ∨
      (h.record change source).snapshot.fact f = r.fact f := by
  rcases settled with marked | agrees
  · exact .inl (marked_record h source silent marked)
  · right
    rw [StateHandle.record_snapshot, fact_applyChange, silent]
    exact agrees

/-- A record that tells a mode fact as the radio has it settles it, and leaves the others. -/
theorem settled_record_tells {r : Transceiver} {h : StateHandle} {change : StateChange}
    (source : RadioEventSource) {g : ModeFact} {value : FactValue}
    (tells : change.tells = some (g, value)) (radio : r.fact g = value) {f : ModeFact}
    (settled : f ≠ g → f ∈ h.uncertainMode ∨ h.snapshot.fact f = r.fact f) :
    f ∈ (h.record change source).uncertainMode ∨
      (h.record change source).snapshot.fact f = r.fact f := by
  rw [marked_record_tells h source tells, StateHandle.record_snapshot, fact_applyChange, tells]
  by_cases same : f = g
  · right
    rw [same, radio]
    exact if_pos rfl
  · rcases settled same with marked | agrees
    · exact .inl ⟨marked, same⟩
    · exact .inr ((if_neg same).trans agrees)

/-- What a frame records. -/
theorem recordEvent_report (h : StateHandle) (report : Report) (source : RadioEventSource) :
    (recordEvent h report.frame source).1 = h ∨
      ∃ change, (recordEvent h report.frame source).1 = h.record change source ∧
        match report with
        | .freq v _ => ∃ n, change = .freq v n
        | .mode digit => change = .mode h.snapshot.rxVfo (Mode.fromKenwoodDigit digit)
        | .data on => change = .dataMode h.snapshot.rxVfo on := by
  cases report with
  | freq v hz =>
      rw [Report.frame, recordEvent_freqFrame]
      cases parseU64 (decimal 11 hz) with
      | none => exact .inl rfl
      | some n => exact .inr ⟨_, rfl, n, rfl⟩
  | mode digit =>
      rcases recordEvent_modeFrame h digit source with recorded | unread
      · exact .inr ⟨_, recorded, rfl⟩
      · exact .inl unread
  | data on =>
      right
      cases on
      · exact ⟨_, rfl, rfl⟩
      · exact ⟨_, rfl, rfl⟩

theorem safe_send {g : Rig} (safe : Safe g) (idle : g.applying = none) {mutation : StateMutation}
    {stored : Option StoredMode} (timely : Timely g (.send mutation stored) = true) :
    Safe { g with
      radio := g.radio.execute stored (applyBytes g.state.snapshot mutation)
      applying := some (g.state.snapshot, mutation) } := by
  have operating : ∀ f value, mutation.intoChange.tells = some (f, value) →
      f.vfo = g.radio.rx := by
    intro f value tells
    cases mutation with
    | setMode v mode => cases tells; exact eq_of_beq timely
    | setDataMode v on => cases tells; exact eq_of_beq timely
    | _ => cases tells
  have obeyed := fact_execute g.radio stored g.state.snapshot operating
  constructor
  · intro f
    cases owed : owes mutation f with
    | true => exact .inr owed
    | false =>
        left
        have before : g.settled f = true := by
          have free : g.owes f = false := by rw [Rig.owes, idle]
          rcases safe.facts f with settled | owes
          · exact settled
          · rw [free] at owes
            cases owes
        rw [settled_iff] at before ⊢
        rw [(obeyed f).1 owed]
        exact before
  · intro snap m f value applying tells
    cases applying
    exact (obeyed f).2 value tells

theorem safe_record {g : Rig} (safe : Safe g) {snap : Snapshot} {mutation : StateMutation}
    (applying : g.applying = some (snap, mutation)) (timely : Timely g .record = true) :
    Safe { g with
      state := recordAll g.state (applyRecords snap mutation) .optimisticWrite
      applying := none } := by
  have before : ∀ f, owes mutation f = false →
      f ∈ g.state.uncertainMode ∨ g.state.snapshot.fact f = g.radio.fact f := by
    intro f free
    rcases safe.facts f with settled | owed
    · exact (settled_iff g f).mp settled
    · rw [Rig.owes, applying] at owed
      exact absurd (free.symm.trans owed) Bool.false_ne_true
  have carried := fun f value => safe.carried snap mutation f value applying
  constructor
  · intro f
    refine .inl ((settled_iff _ f).mpr ?_)
    show f ∈ (recordAll g.state (applyRecords snap mutation) .optimisticWrite).uncertainMode ∨ _
    cases mutation with
    | setVfoFreq v hz =>
        cases owed : owes (.setVfoFreq v hz) f with
        | false => exact settled_record .optimisticWrite rfl (before f owed)
        | true =>
            have about : f.vfo = v := eq_of_beq owed
            rw [Timely, applying] at timely
            rcases Bool.or_eq_true_iff.mp timely with differs | settled
            · exact .inl (marked_tuned g.state (bne_iff_ne.mp differs) about)
            · obtain ⟨base, data⟩ := Bool.and_eq_true_iff.mp settled
              subst about
              cases f with
              | base v => exact settled_record .optimisticWrite rfl ((settled_iff g _).mp base)
              | data v => exact settled_record .optimisticWrite rfl ((settled_iff g _).mp data)
    | setMode v mode =>
        refine settled_record_tells .optimisticWrite rfl (carried _ _ rfl) fun other => ?_
        exact before f (beq_eq_false_iff_ne.mpr other)
    | setDataMode v on =>
        refine settled_record_tells .optimisticWrite rfl (carried _ _ rfl) fun other => ?_
        exact before f (beq_eq_false_iff_ne.mpr other)
    | setRxVfo v =>
        have first := @settled_record g.radio g.state (.rxVfo v) .optimisticWrite rfl f
          (before f rfl)
        cases on : snap.split with
        | true =>
            rw [applyRecords, on]
            exact first
        | false =>
            rw [applyRecords, on]
            exact settled_record .optimisticWrite rfl first
    | setSplit enabled txVfo => exact settled_record .optimisticWrite rfl (before f rfl)
    | setPtt keyed source => exact settled_record .optimisticWrite rfl (before f rfl)
    | setRit offsetHz enabled => exact settled_record .optimisticWrite rfl (before f rfl)
    | setXit offsetHz enabled => exact settled_record .optimisticWrite rfl (before f rfl)
  · intro _ _ _ _ none
    cases none

/-- Recording a frame in time leaves settled what is settled. -/
theorem settled_report {g : Rig} {position : Nat} {report : Report}
    (taken : g.wire[position]? = some report) (timely : Timely g (.deliver position) = true)
    {f : ModeFact}
    (settled : f ∈ g.state.uncertainMode ∨ g.state.snapshot.fact f = g.radio.fact f) :
    f ∈ (recordEvent g.state report.frame .nativePush).1.uncertainMode ∨
      (recordEvent g.state report.frame .nativePush).1.snapshot.fact f = g.radio.fact f := by
  rw [Timely, taken] at timely
  rcases recordEvent_report g.state report .nativePush with unread | ⟨change, recorded, told⟩
  · rw [unread]
    exact settled
  rw [recorded]
  cases report with
  | freq v hz =>
      obtain ⟨n, rfl⟩ := told
      exact settled_record .nativePush rfl settled
  | mode digit =>
      subst told
      have radio : g.radio.fact (.base g.state.snapshot.rxVfo) =
          .digit (Mode.fromKenwoodDigit digit).toKenwoodDigit :=
        congrArg FactValue.digit (eq_of_beq timely).symm
      exact settled_record_tells .nativePush rfl radio fun _ => settled
  | data on =>
      subst told
      have radio : g.radio.fact (.data g.state.snapshot.rxVfo) = .flag on :=
        congrArg FactValue.flag (eq_of_beq timely).symm
      exact settled_record_tells .nativePush rfl radio fun _ => settled

theorem safe_deliver {g : Rig} (safe : Safe g) {position : Nat} {report : Report}
    (taken : g.wire[position]? = some report) (timely : Timely g (.deliver position) = true) :
    Safe { g with
      wire := g.wire.eraseIdx position
      state := (recordEvent g.state report.frame .nativePush).1 } := by
  constructor
  · intro f
    rcases safe.facts f with settled | owed
    · exact .inl ((settled_iff _ f).mpr (settled_report taken timely ((settled_iff g f).mp settled)))
    · exact .inr owed
  · exact safe.carried

/-- A suppressed mode write on the operating VFO asks for what the radio has. -/
theorem safe_suppressed {g : Rig} (safe : Safe g) {mutation : StateMutation}
    (timely : Timely g (.ask mutation) = true) : Suppressed g mutation := by
  obtain ⟨known, recorded⟩ := Bool.and_eq_true_iff.mp timely
  have rx : g.state.snapshot.rxVfo = g.radio.rx := eq_of_beq known
  -- what the cache knows for certain, the radio has
  have has : ∀ f value, mutation.intoChange.tells = some (f, value) →
      f.vfo = g.state.snapshot.rxVfo → g.state.isRedundant mutation = true →
      g.radio.fact f = value := by
    intro f value tells operating redundant
    obtain ⟨certain, cached⟩ := fact_of_redundant tells operating redundant
    rw [tells] at recorded
    rcases safe.facts f with settled | owed
    · rcases (settled_iff g f).mp settled with marked | agrees
      · exact absurd marked certain
      · rw [← agrees, cached]
    · have waits : (!g.owes f) = true := recorded
      rw [owed] at waits
      cases waits
  cases mutation with
  | setMode v mode =>
      intro operating redundant
      have radio := has _ _ rfl operating redundant
      rw [← rx, ← operating]
      exact FactValue.digit.inj radio
  | setDataMode v on =>
      intro operating redundant
      have radio := has _ _ rfl operating redundant
      rw [← rx, ← operating]
      exact FactValue.flag.inj radio
  | _ => exact trivial

/-- One timely step keeps every mode fact safe. -/
theorem safe_step {g g' : Rig} {input : RigInput} {o : Unit} (safe : Safe g)
    (step : rig.step g input = some (g', o)) (timely : Timely g input = true) : Safe g' := by
  cases input with
  | send mutation stored =>
      simp only [rig] at step
      split at step
      · cases step
      · rename_i idle
        cases step
        exact safe_send safe idle timely
  | record =>
      simp only [rig] at step
      split at step
      · cases step
      · rename_i snap mutation applying
        cases step
        exact safe_record safe applying timely
  | report subject =>
      cases step
      exact ⟨safe.facts, safe.carried⟩
  | deliver position =>
      simp only [rig] at step
      split at step
      · cases step
      · rename_i report taken
        cases step
        exact safe_deliver safe taken timely
  | ask mutation =>
      cases step
      exact safe

/-! ## Every run -/

/-- **Suppression is sound in time.**  From a synchronized start, in every run whose steps are all
timely, a mode write that is held to be redundant on the operating VFO asks for the mode digit or
the DATA flag that the radio has. -/
theorem suppression_sound {start g : Rig} {history : List (Transition Rig RigInput Unit)}
    (synchronized : Synchronized start) (run : rig.Execution start history g)
    (timely : ∀ e ∈ history, Timely e.before e.input = true) :
    ∀ e ∈ history, ∀ mutation, e.input = .ask mutation → Suppressed e.before mutation := by
  refine (run.always (I := Safe) (G := fun e => Timely e.before e.input = true)
    (P := fun e => ∀ mutation, e.input = .ask mutation → Suppressed e.before mutation)
    synchronized.safe ?_ timely).2
  intro g input o g' safe step now
  refine ⟨safe_step safe step now, ?_⟩
  rintro mutation rfl
  exact safe_suppressed safe now

/-- A band change that recalls CW is recorded before the radio's frames arrive; the client's USB is
then not suppressed, and it is suppressed once the radio has it. -/
theorem suppression_sound_bandChange :
    ∃ history g, rig.Execution {} history g ∧
      ∀ e ∈ history, ∀ mutation, e.input = .ask mutation → Suppressed e.before mutation := by
  have run := rig.execution_exec {}
    [.send (.setVfoFreq .a 14074000) (some (0x33, false)), .record, .report (.freq .a),
      .report .mode, .deliver 0, .ask (.setMode .a .usb), .deliver 0, .ask (.setMode .a .usb),
      .send (.setMode .a .usb) none, .record, .ask (.setMode .a .usb)] (by decide)
  have synchronized : Synchronized {} :=
    ⟨fun f => by rcases f with (_ | _) | (_ | _) <;> rfl, rfl, rfl, rfl⟩
  exact ⟨_, _, run, suppression_sound synchronized run (by decide)⟩

/-- The frequency frame overtakes the record of the write: no fact is marked, and USB is suppressed
although the radio has recalled CW. -/
theorem not_suppression_sound :
    ∃ start history g, Synchronized start ∧ rig.Execution start history g ∧
      ¬ ∀ e ∈ history, ∀ mutation, e.input = .ask mutation → Suppressed e.before mutation := by
  have run := rig.execution_exec {}
    [.send (.setVfoFreq .a 14074000) (some (0x33, false)), .report (.freq .a), .deliver 0, .record,
      .ask (.setMode .a .usb)] (by decide)
  have synchronized : Synchronized {} :=
    ⟨fun f => by rcases f with (_ | _) | (_ | _) <;> rfl, rfl, rfl, rfl⟩
  refine ⟨{}, _, _, synchronized, run, fun sound => ?_⟩
  have last := sound _ (List.getLast_mem (by decide)) (.setMode .a .usb) (by decide) (by decide)
    (by decide)
  exact absurd last (by decide)

end CatHub.Radio
