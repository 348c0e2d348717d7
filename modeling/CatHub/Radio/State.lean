/-
# CatHub.Radio.State — the universal radio state every endpoint reads from.

`Snapshot` is the point-in-time view of the radio, `applyChange` folds an observed change into it,
and `isRedundant` decides whether a modeled write would leave the radio unchanged.  `StateHandle`
adds the mode facts that a frequency write may have invalidated; while such a fact is uncertain, a
mode write is not suppressed.  The notification bus and the native-push coverage set are not part
of this model.
-/
import CatHub.Radio.Vocabulary

namespace CatHub.Radio

/-! ## The snapshot -/

/-- A point-in-time view of one VFO. -/
structure VfoSnapshot where
  freqHz : Nat := 0
  mode : Mode := .usb
  modeKnown : Bool := false
  data : Bool := false
  passbandHz : Nat := 2400
  deriving DecidableEq, Repr

/-- A consistent point-in-time view of the whole radio. -/
structure Snapshot where
  a : VfoSnapshot := {}
  b : VfoSnapshot := {}
  rxVfo : Vfo := .a
  txVfo : Vfo := .a
  split : Bool := false
  ptt : Bool := false
  powerOn : Bool := true
  txPower : Option TxPower := none
  ritEnabled : Bool := false
  ritOffsetHz : Int := 0
  xitEnabled : Bool := false
  xitOffsetHz : Int := 0
  deriving DecidableEq, Repr

namespace Snapshot

/-- The view of one VFO. -/
def vfo (s : Snapshot) : Vfo → VfoSnapshot
  | .a => s.a
  | .b => s.b

def setVfo (s : Snapshot) (target : VfoSnapshot) : Vfo → Snapshot
  | .a => { s with a := target }
  | .b => { s with b := target }

theorem vfo_setVfo (s : Snapshot) (target : VfoSnapshot) (v w : Vfo) :
    (s.setVfo target v).vfo w = if w = v then target else s.vfo w := by
  cases v <;> cases w <;> rfl

/-- Writing one VFO leaves the rest of the snapshot alone. -/
theorem setVfo_rest (s : Snapshot) (target : VfoSnapshot) (v : Vfo) :
    (s.setVfo target v).rxVfo = s.rxVfo ∧ (s.setVfo target v).txVfo = s.txVfo ∧
      (s.setVfo target v).split = s.split ∧ (s.setVfo target v).ptt = s.ptt := by
  cases v <;> exact ⟨rfl, rfl, rfl, rfl⟩

/-- Whether applying `mutation` would leave the radio unchanged.  Modes are compared by the digit
written to the radio, and PTT is never redundant. -/
def isRedundant (s : Snapshot) : StateMutation → Bool
  | .setRxVfo vfo => s.rxVfo == vfo
  | .setVfoFreq vfo hz => (s.vfo vfo).freqHz == hz
  | .setMode _ mode => (s.vfo s.rxVfo).mode.toKenwoodDigit == mode.toKenwoodDigit
  | .setDataMode vfo on => (s.vfo vfo).data == on
  | .setSplit enabled txVfo => s.split == enabled && s.txVfo == txVfo.getD s.txVfo
  | .setRit offsetHz enabled => s.ritEnabled == enabled && s.ritOffsetHz == offsetHz
  | .setXit offsetHz enabled => s.xitEnabled == enabled && s.xitOffsetHz == offsetHz
  | .setPtt _ _ => false

/-- Apply a change; the flag says whether any value actually changed. -/
def applyChange (s : Snapshot) : StateChange → Snapshot × Bool
  | .rxVfo vfo => ({ s with rxVfo := vfo }, s.rxVfo != vfo)
  | .freq vfo hz => (s.setVfo { s.vfo vfo with freqHz := hz } vfo, (s.vfo vfo).freqHz != hz)
  | .mode vfo mode =>
      (s.setVfo { s.vfo vfo with mode := mode, modeKnown := true } vfo, (s.vfo vfo).mode != mode)
  | .dataMode vfo on => (s.setVfo { s.vfo vfo with data := on } vfo, (s.vfo vfo).data != on)
  | .split enabled txVfo =>
      let newTx := txVfo.getD s.txVfo
      ({ s with split := enabled, txVfo := newTx }, s.split != enabled || s.txVfo != newTx)
  | .ptt keyed => ({ s with ptt := keyed }, s.ptt != keyed)
  | .rit enabled offsetHz =>
      ({ s with ritEnabled := enabled, ritOffsetHz := offsetHz },
        s.ritEnabled != enabled || s.ritOffsetHz != offsetHz)
  | .xit enabled offsetHz =>
      ({ s with xitEnabled := enabled, xitOffsetHz := offsetHz },
        s.xitEnabled != enabled || s.xitOffsetHz != offsetHz)
  | .txPower power => ({ s with txPower := power }, s.txPower != power)

/-- The changes that rebuild the snapshot for a client that fell behind the event stream. -/
def asChanges (s : Snapshot) : List StateChange :=
  [.freq .a s.a.freqHz, .freq .b s.b.freqHz,
   .mode .a s.a.mode, .mode .b s.b.mode,
   .dataMode .a s.a.data, .dataMode .b s.b.data,
   .split s.split (some s.txVfo),
   .rit s.ritEnabled s.ritOffsetHz, .xit s.xitEnabled s.xitOffsetHz,
   .ptt s.ptt, .txPower s.txPower,
   .rxVfo s.rxVfo]

end Snapshot

/-! ## The state handle -/

/-- A cached mode fact that a frequency change may have invalidated. -/
inductive ModeFact where
  | base (vfo : Vfo)
  | data (vfo : Vfo)
  deriving DecidableEq, Repr

/-- The shared state: the snapshot and the mode facts that are uncertain. -/
structure StateHandle where
  snapshot : Snapshot := {}
  uncertainMode : List ModeFact := []
  deriving DecidableEq, Repr

namespace StateHandle

/-- The uncertain facts after a change.  A frequency write may recall stored modes; a fact becomes
certain again as soon as it is observed or written. -/
def settleModeFacts (uncertain : List ModeFact) (change : StateChange) (changed : Bool)
    (source : RadioEventSource) : List ModeFact :=
  match change with
  | .freq vfo _ =>
      if changed && source == .optimisticWrite then
        (uncertain.insert (.base vfo)).insert (.data vfo)
      else uncertain
  | .mode vfo _ => uncertain.filter (· != .base vfo)
  | .dataMode vfo _ => uncertain.filter (· != .data vfo)
  | _ => uncertain

/-- Record an observed change. -/
def record (h : StateHandle) (change : StateChange) (source : RadioEventSource) : StateHandle :=
  let (snapshot, changed) := h.snapshot.applyChange change
  { snapshot, uncertainMode := settleModeFacts h.uncertainMode change changed source }

@[simp] theorem record_snapshot (h : StateHandle) (change : StateChange)
    (source : RadioEventSource) :
    (h.record change source).snapshot = (h.snapshot.applyChange change).1 := rfl

/-- Whether a modeled write is safely redundant against the cache. -/
def isRedundant (h : StateHandle) (mutation : StateMutation) : Bool :=
  let invalidated := match mutation with
    | .setMode vfo _ => h.uncertainMode.contains (.base vfo)
    | .setDataMode vfo _ => h.uncertainMode.contains (.data vfo)
    | _ => false
  !invalidated && h.snapshot.isRedundant mutation

end StateHandle

end CatHub.Radio
