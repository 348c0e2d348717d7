/-
# CatHub.Radio.Decomposition — a snapshot as the changes that carry its values.

`Reported` is what changes tell of a snapshot: a change sets one of the values, and `reported_after` says
that the snapshot follows.  So a client that replays the snapshot has all of its values, whatever it had
before.

A change is sent if it changes one of the values.  The power state, the passbands and the flags of the
modes that have been observed are not among them.
-/
import CatHub.Radio.Broadcast
import Mathlib.Logic.Function.Basic

namespace CatHub.Radio

open Systems

/-! ## Values -/

/-- What changes tell of a snapshot. -/
@[ext] structure Reported where
  freqHz : Vfo → Nat
  mode : Vfo → Mode
  data : Vfo → Bool
  rxVfo : Vfo
  split : Bool
  txVfo : Vfo
  rit : Bool × Int
  xit : Bool × Int
  ptt : Bool
  txPower : Option TxPower

namespace Reported

/-- A change sets one of the values. -/
def after (r : Reported) : StateChange → Reported
  | .rxVfo vfo => { r with rxVfo := vfo }
  | .freq vfo hz => { r with freqHz := Function.update r.freqHz vfo hz }
  | .mode vfo mode => { r with mode := Function.update r.mode vfo mode }
  | .dataMode vfo on => { r with data := Function.update r.data vfo on }
  | .split enabled txVfo => { r with split := enabled, txVfo := txVfo.getD r.txVfo }
  | .ptt keyed => { r with ptt := keyed }
  | .rit enabled offsetHz => { r with rit := (enabled, offsetHz) }
  | .xit enabled offsetHz => { r with xit := (enabled, offsetHz) }
  | .txPower power => { r with txPower := power }

/-- What a change sets is there already. -/
def Holds (r : Reported) : StateChange → Prop
  | .rxVfo vfo => r.rxVfo = vfo
  | .freq vfo hz => r.freqHz vfo = hz
  | .mode vfo mode => r.mode vfo = mode
  | .dataMode vfo on => r.data vfo = on
  | .split enabled txVfo => r.split = enabled ∧ r.txVfo = txVfo.getD r.txVfo
  | .ptt keyed => r.ptt = keyed
  | .rit enabled offsetHz => r.rit = (enabled, offsetHz)
  | .xit enabled offsetHz => r.xit = (enabled, offsetHz)
  | .txPower power => r.txPower = power

theorem holds_after (r : Reported) (change : StateChange) : (r.after change).Holds change := by
  cases change with
  | freq vfo hz => exact Function.update_self ..
  | mode vfo mode => exact Function.update_self ..
  | dataMode vfo on => exact Function.update_self ..
  | split enabled txVfo => cases txVfo <;> exact ⟨rfl, rfl⟩
  | _ => rfl

/-- A change that sets what is there changes nothing. -/
theorem after_of_holds {r : Reported} {change : StateChange} (holds : r.Holds change) :
    r.after change = r := by
  cases change with
  | freq vfo hz =>
      subst holds
      rw [after, Function.update_eq_self]
  | mode vfo mode =>
      subst holds
      rw [after, Function.update_eq_self]
  | dataMode vfo on =>
      subst holds
      rw [after, Function.update_eq_self]
  | split enabled txVfo =>
      obtain ⟨rfl, tx⟩ := holds
      rw [after, ← tx]
  | rit enabled offsetHz => exact congrArg (fun rit => { r with rit }) (Eq.symm holds)
  | xit enabled offsetHz => exact congrArg (fun xit => { r with xit }) (Eq.symm holds)
  | _ =>
      subst holds
      rfl

theorem after_eq_iff {r : Reported} {change : StateChange} : r.after change = r ↔ r.Holds change :=
  ⟨fun same => same ▸ r.holds_after change, after_of_holds⟩

/-- The changes that set every value. -/
def changes (r : Reported) : List StateChange :=
  [.freq .a (r.freqHz .a), .freq .b (r.freqHz .b), .mode .a (r.mode .a), .mode .b (r.mode .b),
   .dataMode .a (r.data .a), .dataMode .b (r.data .b), .split r.split (some r.txVfo),
   .rit r.rit.1 r.rit.2, .xit r.xit.1 r.xit.2, .ptt r.ptt, .txPower r.txPower, .rxVfo r.rxVfo]

/-- What was there before is lost. -/
theorem rebuild_changes (r before : Reported) : rebuild after r.changes before = r := by
  refine Reported.ext (funext fun v => ?_) (funext fun v => ?_) (funext fun v => ?_)
    rfl rfl rfl rfl rfl rfl rfl
  · cases v <;> rfl
  · cases v <;> rfl
  · cases v <;> rfl

end Reported

section
variable (s : Snapshot) (change : StateChange)

def Snapshot.reported : Reported where
  freqHz vfo := (s.vfo vfo).freqHz
  mode vfo := (s.vfo vfo).mode
  data vfo := (s.vfo vfo).data
  rxVfo := s.rxVfo
  split := s.split
  txVfo := s.txVfo
  rit := (s.ritEnabled, s.ritOffsetHz)
  xit := (s.xitEnabled, s.xitOffsetHz)
  ptt := s.ptt
  txPower := s.txPower

/-! ## Changes -/

/-- Writing one VFO sets three values. -/
theorem reported_setVfo (target : VfoSnapshot) (vfo : Vfo) : (s.setVfo target vfo).reported =
    { s.reported with
      freqHz := Function.update s.reported.freqHz vfo target.freqHz
      mode := Function.update s.reported.mode vfo target.mode
      data := Function.update s.reported.data vfo target.data } := by
  cases vfo <;>
    exact Reported.ext (funext fun v => by cases v <;> rfl) (funext fun v => by cases v <;> rfl)
      (funext fun v => by cases v <;> rfl) rfl rfl rfl rfl rfl rfl rfl

/-- The snapshot after a change has the values after the change. -/
theorem reported_after : (s.after change).reported = s.reported.after change := by
  -- what is written back to the VFO with the new value are its old ones
  have freqHz : ∀ vfo, Function.update s.reported.freqHz vfo (s.vfo vfo).freqHz = s.reported.freqHz :=
    fun vfo => Function.update_eq_self vfo _
  have mode : ∀ vfo, Function.update s.reported.mode vfo (s.vfo vfo).mode = s.reported.mode :=
    fun vfo => Function.update_eq_self vfo _
  have data : ∀ vfo, Function.update s.reported.data vfo (s.vfo vfo).data = s.reported.data :=
    fun vfo => Function.update_eq_self vfo _
  cases change with
  | freq vfo hz =>
      refine (reported_setVfo s _ vfo).trans ?_
      rw [mode, data]
      rfl
  | mode vfo mode =>
      refine (reported_setVfo s _ vfo).trans ?_
      rw [freqHz, data]
      rfl
  | dataMode vfo on =>
      refine (reported_setVfo s _ vfo).trans ?_
      rw [freqHz, mode]
      rfl
  | _ => rfl

theorem reported_rebuild (changes : List StateChange) :
    (rebuild Snapshot.after changes s).reported = rebuild Reported.after changes s.reported :=
  rebuild_view _ reported_after changes s

/-- Making a change twice makes it once. -/
theorem after_after : (s.after change).after change = s.after change := by
  rcases change with _ | ⟨_ | _, _⟩ | ⟨_ | _, _⟩ | ⟨_ | _, _⟩ | ⟨_, _ | _⟩ | _ | _ | _ | _ <;> rfl

/-- The flag compares what the change sets with what is there. -/
theorem unchanged_iff : (s.applyChange change).2 = false ↔ s.reported.Holds change := by
  cases change <;>
    simp [Snapshot.applyChange, Reported.Holds, Snapshot.reported]

/-- The flag says whether one of the values is another one afterwards. -/
theorem changed_iff : (s.applyChange change).2 = true ↔ (s.after change).reported ≠ s.reported := by
  rw [reported_after, ne_eq, Reported.after_eq_iff, ← unchanged_iff, Bool.not_eq_false]

/-- The second time the flag is down. -/
theorem applyChange_after : (s.after change).applyChange change = (s.after change, false) := by
  have unchanged : ((s.after change).applyChange change).2 = false := by
    rw [unchanged_iff, reported_after]
    exact s.reported.holds_after change
  exact Prod.ext (after_after s change) unchanged

/-! ## The whole snapshot -/

theorem asChanges_eq : s.asChanges = s.reported.changes := rfl

end

/-- **Decomposition.**  Folding the changes of a snapshot over any other one yields its values; the flag
of a change says exactly whether a value differs; and a change made twice is made once. -/
theorem snapshot_decomposition :
    (∀ s t : Snapshot, (rebuild Snapshot.after s.asChanges t).reported = s.reported) ∧
      (∀ (s : Snapshot) (change : StateChange),
        (s.applyChange change).2 = true ↔ (s.after change).reported ≠ s.reported) ∧
      ∀ (s : Snapshot) (change : StateChange),
        (s.after change).applyChange change = (s.after change, false) := by
  refine ⟨fun s t => ?_, changed_iff, applyChange_after⟩
  rw [reported_rebuild, asChanges_eq, Reported.rebuild_changes]

end CatHub.Radio
