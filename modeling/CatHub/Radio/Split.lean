/-
# CatHub.Radio.Split — split, receive VFO and transmit VFO in the snapshot.

Split is on exactly when the two VFOs differ.  The `FT` frame and the `IF` frame record the split
bit that belongs to their VFOs; an `FR` frame and a switch of the receive VFO record the receive
VFO alone, and a split write takes its split bit from the client.  `keepsSplit` says when a step
leaves the three fields coherent.  It also decides whether an `FR` and an `FT` frame may arrive in
either order.
-/
import CatHub.Radio.Ts590
import CatHub.Systems.Execution

namespace CatHub.Radio

open Ts590 Systems

/-! ## Frames and writes -/

/-- What changes the snapshot: a native frame, and a modeled write that succeeds. -/
inductive StateInput where
  | frame (bytes : List UInt8) (source : RadioEventSource)
  | write (mutation : StateMutation)
  deriving DecidableEq, Repr

namespace StateHandle

/-- The state after an input. -/
def take (h : StateHandle) : StateInput → StateHandle
  | .frame bytes source => (recordEvent h bytes source).1
  | .write mutation => (Ts590.apply h mutation).2

end StateHandle

/-- The snapshot under native frames and writes. -/
def stateMachine : Machine StateHandle StateInput Unit where
  step h input := some (h.take input, ())

/-- Split is on exactly when the transmit VFO is not the receive VFO. -/
def Coherent (s : Snapshot) : Prop := s.split = (s.txVfo != s.rxVfo)

instance (s : Snapshot) : Decidable (Coherent s) := inferInstanceAs (Decidable (_ = _))

/-- The VFO that a frame of the given verb selects. -/
def selects (verb frame : List UInt8) : Option Vfo :=
  (splitFrame frame).bind fun (v, payload) => if v = verb then parseRxVfoDigit payload else none

/-- An input that leaves a coherent snapshot coherent. -/
def keepsSplit (s : Snapshot) : StateInput → Bool
  | .frame bytes _ => (selects (ascii ['F', 'R']) bytes).all (· == s.rxVfo)
  | .write (.setRxVfo vfo) => !s.split || vfo == s.rxVfo
  | .write (.setSplit enabled txVfo) => enabled == (txVfo.getD s.txVfo != s.rxVfo)
  | .write _ => true

/-! ## One step -/

/-- The split bit and the two VFOs. -/
def vfos (s : Snapshot) : Bool × Vfo × Vfo := (s.split, s.rxVfo, s.txVfo)

theorem coherent_iff {s : Snapshot} {split : Bool} {rx tx : Vfo} (are : vfos s = (split, rx, tx)) :
    Coherent s ↔ split = (tx != rx) := by
  cases are
  exact Iff.rfl

theorem coherent_congr {s t : Snapshot} (same : vfos t = vfos s) : Coherent t ↔ Coherent s :=
  coherent_iff same

/-- A change of anything else leaves the split bit and the VFOs alone. -/
theorem vfos_applyChange (s : Snapshot) (change : StateChange)
    (other : match change with | .rxVfo _ | .split .. => False | _ => True) :
    vfos (s.applyChange change).1 = vfos s := by
  cases change with
  | rxVfo vfo => exact other.elim
  | split enabled txVfo => exact other.elim
  | freq vfo hz => cases vfo <;> rfl
  | mode vfo mode => cases vfo <;> rfl
  | dataMode vfo on => cases vfo <;> rfl
  | ptt keyed => rfl
  | rit enabled offsetHz => rfl
  | xit enabled offsetHz => rfl
  | txPower power => rfl

/-- What a frame that is no `IF` frame can do to the VFOs. -/
theorem reportedChange_vfos {s : Snapshot} {verb payload : List UInt8} {change : StateChange}
    (reported : reportedChange s verb payload = some change) :
    (verb = ascii ['F', 'R'] ∧ ∃ v, parseRxVfoDigit payload = some v ∧ change = .rxVfo v) ∨
      (verb = ascii ['F', 'T'] ∧
        ∃ w, parseRxVfoDigit payload = some w ∧ change = .split (s.rxVfo != w) (some w)) ∨
      (verb ≠ ascii ['F', 'R'] ∧ verb ≠ ascii ['F', 'T'] ∧
        ∀ t : Snapshot, vfos (t.applyChange change).1 = vfos t) := by
  by_cases fr : verb = ascii ['F', 'R']
  · subst fr
    obtain ⟨v, parsed, rfl⟩ := Option.map_eq_some_iff.mp reported
    exact .inl ⟨rfl, v, parsed, rfl⟩
  by_cases ft : verb = ascii ['F', 'T']
  · subst ft
    obtain ⟨w, parsed, rfl⟩ := Option.map_eq_some_iff.mp reported
    exact .inr (.inl ⟨rfl, w, parsed, rfl⟩)
  refine .inr (.inr ⟨fr, ft, fun t => ?_⟩)
  rw [reportedChange, if_neg fr, if_neg ft] at reported
  split_ifs at reported
  · obtain ⟨hz, -, rfl⟩ := Option.map_eq_some_iff.mp reported
    exact vfos_applyChange t _ trivial
  · obtain ⟨hz, -, rfl⟩ := Option.map_eq_some_iff.mp reported
    exact vfos_applyChange t _ trivial
  · obtain ⟨digit, -, rfl⟩ := Option.map_eq_some_iff.mp reported
    exact vfos_applyChange t _ trivial
  · obtain ⟨digit, -, rfl⟩ := Option.map_eq_some_iff.mp reported
    exact vfos_applyChange t _ trivial
  · obtain ⟨power, -, rfl⟩ := Option.map_eq_some_iff.mp reported
    exact vfos_applyChange t _ trivial

/-- An `IF` frame selects nothing by itself. -/
theorem selects_status {verb frame : List UInt8} {status : IfStatus}
    (other : verb ≠ ascii ['I', 'F']) (parsed : parseIfStatus frame = some status) :
    selects verb frame = none := by
  obtain ⟨⟨found, payload⟩, split, rest⟩ := Option.bind_eq_some_iff.mp parsed
  simp only at rest
  have named : found = ascii ['I', 'F'] := by
    by_contra unnamed
    rw [if_pos unnamed] at rest
    cases rest
  rw [selects, split, Option.bind_some, named]
  exact if_neg (Ne.symm other)

/-- An `IF` frame makes any snapshot coherent. -/
theorem coherent_status (h : StateHandle) (status : IfStatus) (source : RadioEventSource) :
    Coherent (recordAll h (ifChanges status) source).snapshot := by
  obtain ⟨freqHz, ptt, mode, rxVfo, split⟩ := status
  cases split <;> cases rxVfo <;> rfl

/-- A frame that selects neither VFO leaves them, and the split bit, alone. -/
theorem recordEvent_vfos (h : StateHandle) {frame : List UInt8} (source : RadioEventSource)
    (status : parseIfStatus frame = none) (fr : selects (ascii ['F', 'R']) frame = none)
    (ft : selects (ascii ['F', 'T']) frame = none) :
    vfos (recordEvent h frame source).1.snapshot = vfos h.snapshot := by
  rw [recordEvent, status]
  cases split : splitFrame frame with
  | none => rfl
  | some parts =>
      obtain ⟨verb, payload⟩ := parts
      cases reported : reportedChange h.snapshot verb payload with
      | none => simp only [reported]
      | some change =>
          simp only [reported]
          simp only [selects, split, Option.bind_some] at fr ft
          rcases reportedChange_vfos reported with ⟨rfl, v, parsed, -⟩ | ⟨rfl, w, parsed, -⟩ |
            ⟨-, -, same⟩
          · rw [if_pos rfl, parsed] at fr
            cases fr
          · rw [if_pos rfl, parsed] at ft
            cases ft
          · exact same h.snapshot

/-- A frame that selects a VFO records what is reported for its verb. -/
theorem recordEvent_selecting (h : StateHandle) {verb frame : List UInt8}
    (source : RadioEventSource) {v : Vfo} (other : verb ≠ ascii ['I', 'F'])
    (chosen : selects verb frame = some v) :
    ∃ payload, parseRxVfoDigit payload = some v ∧
      ∀ change, reportedChange h.snapshot verb payload = some change →
        recordEvent h frame source = (h.record change source, true) := by
  obtain ⟨⟨found, payload⟩, split, parsed⟩ := Option.bind_eq_some_iff.mp chosen
  simp only at parsed
  split_ifs at parsed with named
  subst named
  have status : parseIfStatus frame = none := by
    rw [parseIfStatus, split]
    exact if_pos other
  refine ⟨payload, parsed, fun change reported => ?_⟩
  rw [recordEvent, status, split]
  simp only [reported]

/-- A frame that selects the receive VFO records it and nothing else. -/
theorem recordEvent_fr (h : StateHandle) {frame : List UInt8} (source : RadioEventSource) {v : Vfo}
    (fr : selects (ascii ['F', 'R']) frame = some v) :
    recordEvent h frame source = (h.record (.rxVfo v) source, true) := by
  obtain ⟨payload, parsed, records⟩ := recordEvent_selecting h source (by decide) fr
  exact records _ (congrArg (Option.map StateChange.rxVfo) parsed)

/-- A frame that selects the transmit VFO records it with the split bit against the receive VFO. -/
theorem recordEvent_ft (h : StateHandle) {frame : List UInt8} (source : RadioEventSource) {w : Vfo}
    (ft : selects (ascii ['F', 'T']) frame = some w) :
    recordEvent h frame source =
      (h.record (.split (h.snapshot.rxVfo != w) (some w)) source, true) := by
  obtain ⟨payload, parsed, records⟩ := recordEvent_selecting h source (by decide) ft
  exact records _
    (congrArg (Option.map fun tx => StateChange.split (h.snapshot.rxVfo != tx) (some tx)) parsed)

/-- From a coherent snapshot, a new receive VFO keeps it coherent exactly when it is the old one. -/
theorem coherent_rxVfo {s : Snapshot} (coherent : Coherent s) (v : Vfo) :
    Coherent (s.applyChange (.rxVfo v)).1 ↔ v = s.rxVfo := by
  have same : Coherent (s.applyChange (.rxVfo v)).1 ↔ (s.txVfo != s.rxVfo) = (s.txVfo != v) := by
    rw [← coherent]
    exact Iff.rfl
  rw [same]
  cases s.txVfo <;> cases s.rxVfo <;> cases v <;> decide

theorem coherent_frame (h : StateHandle) (coherent : Coherent h.snapshot) (frame : List UInt8)
    (source : RadioEventSource) :
    Coherent (recordEvent h frame source).1.snapshot ↔
      keepsSplit h.snapshot (.frame frame source) = true := by
  cases status : parseIfStatus frame with
  | some status' =>
      have records : (recordEvent h frame source).1 = recordAll h (ifChanges status') source := by
        rw [recordEvent, status]
      rw [records, keepsSplit, selects_status (by decide) status]
      exact iff_of_true (coherent_status h status' source) rfl
  | none =>
      cases fr : selects (ascii ['F', 'R']) frame with
      | some v =>
          rw [recordEvent_fr h source fr, keepsSplit, fr, Option.all_some, beq_iff_eq]
          exact coherent_rxVfo coherent v
      | none =>
          rw [keepsSplit, fr]
          refine iff_of_true ?_ rfl
          cases ft : selects (ascii ['F', 'T']) frame with
          | some w =>
              rw [recordEvent_ft h source ft]
              exact bne_comm
          | none => exact (coherent_congr (recordEvent_vfos h source status fr ft)).mpr coherent

theorem coherent_write (h : StateHandle) (coherent : Coherent h.snapshot)
    (mutation : StateMutation) :
    Coherent (Ts590.apply h mutation).2.snapshot ↔
      keepsSplit h.snapshot (.write mutation) = true := by
  cases mutation with
  | setRxVfo vfo =>
      cases on : h.snapshot.split with
      | false =>
          have records : vfos (Ts590.apply h (.setRxVfo vfo)).2.snapshot = (false, vfo, vfo) := by
            simp only [Ts590.apply, applyRecords, on]
            rfl
          rw [coherent_iff records, keepsSplit, on]
          exact iff_of_true (bne_self_eq_false vfo).symm rfl
      | true =>
          have records : (Ts590.apply h (.setRxVfo vfo)).2.snapshot =
              (h.snapshot.applyChange (.rxVfo vfo)).1 := by
            show (recordAll h (_ :: if h.snapshot.split then [] else _) _).snapshot = _
            rw [if_pos on]
            rfl
          rw [records, keepsSplit, on, coherent_rxVfo coherent]
          exact beq_iff_eq.symm
  | setSplit enabled txVfo =>
      rw [keepsSplit, beq_iff_eq]
      exact Iff.rfl
  | setVfoFreq vfo hz =>
      have same := vfos_applyChange h.snapshot (.freq vfo hz) trivial
      exact iff_of_true ((coherent_congr same).mpr coherent) rfl
  | setMode vfo mode =>
      have same := vfos_applyChange h.snapshot (.mode vfo mode) trivial
      exact iff_of_true ((coherent_congr same).mpr coherent) rfl
  | setDataMode vfo on =>
      have same := vfos_applyChange h.snapshot (.dataMode vfo on) trivial
      exact iff_of_true ((coherent_congr same).mpr coherent) rfl
  | setPtt keyed source => exact iff_of_true coherent rfl
  | setRit offsetHz enabled => exact iff_of_true coherent rfl
  | setXit offsetHz enabled => exact iff_of_true coherent rfl

/-- One input keeps a coherent snapshot coherent exactly when `keepsSplit` says so. -/
theorem coherent_take (h : StateHandle) (coherent : Coherent h.snapshot) (input : StateInput) :
    Coherent (h.take input).snapshot ↔ keepsSplit h.snapshot input = true := by
  cases input with
  | frame bytes source => exact coherent_frame h coherent bytes source
  | write mutation => exact coherent_write h coherent mutation

/-! ## Every run -/

/-- What an `FR` and an `FT` frame leave, one after the other. -/
theorem vfos_frThenFt (h : StateHandle) {fr ft : List UInt8} {v w : Vfo} (source : RadioEventSource)
    (selectsRx : selects (ascii ['F', 'R']) fr = some v)
    (selectsTx : selects (ascii ['F', 'T']) ft = some w) :
    vfos (recordEvent (recordEvent h fr source).1 ft source).1.snapshot = (v != w, v, w) := by
  rw [recordEvent_ft _ source selectsTx, recordEvent_fr _ source selectsRx]
  rfl

/-- What they leave in the other order. -/
theorem vfos_ftThenFr (h : StateHandle) {fr ft : List UInt8} {v w : Vfo} (source : RadioEventSource)
    (selectsRx : selects (ascii ['F', 'R']) fr = some v)
    (selectsTx : selects (ascii ['F', 'T']) ft = some w) :
    vfos (recordEvent (recordEvent h ft source).1 fr source).1.snapshot =
      (h.snapshot.rxVfo != w, v, w) := by
  rw [recordEvent_fr _ source selectsRx, recordEvent_ft _ source selectsTx]
  rfl

/-- **Split coherence.**  From a coherent snapshot, every state of a run is coherent exactly when
every input keeps split; and the two frames that report the VFOs may come in either order exactly
when the receive VFO they report is the one the snapshot already has. -/
theorem split_coherent_iff {start : StateHandle} (coherent : Coherent start.snapshot) :
    (∀ history h, stateMachine.Execution start history h →
      ((∀ e ∈ history, Coherent e.after.snapshot) ↔
        ∀ e ∈ history, keepsSplit e.before.snapshot e.input = true)) ∧
    ∀ fr ft v w source, selects (ascii ['F', 'R']) fr = some v →
      selects (ascii ['F', 'T']) ft = some w →
      (vfos (recordEvent (recordEvent start fr source).1 ft source).1.snapshot =
          vfos (recordEvent (recordEvent start ft source).1 fr source).1.snapshot ↔
        v = start.snapshot.rxVfo) := by
  constructor
  · intro history h run
    -- while every state so far is coherent, so is the present one, and the next input decides
    refine (run.invariant (I := fun history h =>
      ((∀ e ∈ history, Coherent e.after.snapshot) → Coherent h.snapshot) ∧
        ((∀ e ∈ history, Coherent e.after.snapshot) ↔
          ∀ e ∈ history, keepsSplit e.before.snapshot e.input = true)) ?_ ?_).2
    · exact ⟨fun _ => coherent, by simp⟩
    · rintro history h input o h' - ⟨now, past⟩ step
      cases step
      simp only [List.forall_mem_append, List.forall_mem_singleton]
      refine ⟨And.right, ?_⟩
      constructor
      · rintro ⟨states, last⟩
        exact ⟨past.mp states, (coherent_take h (now states) input).mp last⟩
      · rintro ⟨inputs, last⟩
        have states := past.mpr inputs
        exact ⟨states, (coherent_take h (now states) input).mpr last⟩
  · intro fr ft v w source selectsRx selectsTx
    rw [vfos_frThenFt start source selectsRx selectsTx,
      vfos_ftThenFr start source selectsRx selectsTx]
    simp only [Prod.mk.injEq, and_true]
    cases v <;> cases w <;> cases start.snapshot.rxVfo <;> decide

/-- The operator splits, then asks for the receive VFO that is already selected. -/
theorem split_coherent_iff_splitThenA :
    Coherent ({} : StateHandle).snapshot ∧
      (∃ history h, stateMachine.Execution {} history h ∧
        ∀ e ∈ history, Coherent e.after.snapshot) ∧
      let afterFr := (recordEvent {} (rxVfoSet .a) .nativePush).1
      let afterFt := (recordEvent {} (txVfoSet .b) .nativePush).1
      vfos (recordEvent afterFr (txVfoSet .b) .nativePush).1.snapshot =
        vfos (recordEvent afterFt (rxVfoSet .a) .nativePush).1.snapshot := by
  have run := stateMachine.execution_exec {}
    [.frame (txVfoSet .b) .nativePush, .write (.setRxVfo .a), .write (.setSplit true (some .b))]
    (by decide)
  have both := @split_coherent_iff {} (by decide)
  refine ⟨by decide, ⟨_, _, run, (both.1 _ _ run).mpr (by decide)⟩, ?_⟩
  exact (both.2 _ _ .a .b .nativePush (by decide) (by decide)).mpr rfl

/-- An `FR` frame for B leaves a radio that now receives on B and transmits on A without split. -/
theorem not_split_coherent :
    ∃ start history h, Coherent start.snapshot ∧ stateMachine.Execution start history h ∧
      ¬ Coherent h.snapshot := by
  have run := stateMachine.execution_exec {} [.frame (rxVfoSet .b) .nativePush] (by decide)
  exact ⟨{}, _, _, by decide, run, by decide⟩

end CatHub.Radio
