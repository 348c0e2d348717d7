/-
# CatHub.Radio.Broadcast — the event stream against the snapshot.

`record` updates the snapshot under its lock and sends the change to the subscribers after the lock
is released, so two recorders can send in another order than they updated in.  A subscriber that
folds the stream then ends on another snapshot.  It ends on the right one if no change overtakes an
earlier change of the same slot.

The values are those that `asChanges` lists.  Whether a mode has been observed at all is not among
them: a mode that is recorded for the first time with the value it already has is never sent.
-/
import CatHub.Radio.State
import CatHub.Systems.Execution
import CatHub.Systems.Outbox

namespace CatHub.Radio

open Systems

/-! ## Slots -/

/-- The part of the snapshot that a change writes. -/
inductive Slot where
  | rxVfo
  | freq (vfo : Vfo)
  | mode (vfo : Vfo)
  | dataMode (vfo : Vfo)
  | split
  | ptt
  | rit
  | xit
  | txPower
  deriving DecidableEq, Repr

def StateChange.slot : StateChange → Slot
  | .rxVfo _ => .rxVfo
  | .freq v _ => .freq v
  | .mode v _ => .mode v
  | .dataMode v _ => .dataMode v
  | .split .. => .split
  | .ptt _ => .ptt
  | .rit .. => .rit
  | .xit .. => .xit
  | .txPower _ => .txPower

/-- The snapshot after a change. -/
def Snapshot.after (s : Snapshot) (change : StateChange) : Snapshot := (s.applyChange change).1

/-- Changes of different slots can be made in either order. -/
theorem after_comm (c d : StateChange) (apart : d.slot ≠ c.slot) (s : Snapshot) :
    (s.after d).after c = (s.after c).after d := by
  -- one case for each pair of slots: either both sides compute to the same record or it is one slot
  rcases c with _ | ⟨_ | _, _⟩ | ⟨_ | _, _⟩ | ⟨_ | _, _⟩ | _ | _ | _ | _ | _ <;>
    rcases d with _ | ⟨_ | _, _⟩ | ⟨_ | _, _⟩ | ⟨_ | _, _⟩ | _ | _ | _ | _ | _ <;>
    first
    | rfl
    | exact absurd rfl apart

/-! ## Values -/

/-- The snapshot up to the flags that say whether a mode has been observed. -/
def Snapshot.values (s : Snapshot) : Snapshot :=
  { s with a := { s.a with modeKnown := true }, b := { s.b with modeKnown := true } }

theorem asChanges_values (s : Snapshot) : s.values.asChanges = s.asChanges := rfl

theorem values_after (s : Snapshot) (change : StateChange) :
    (s.after change).values = s.values.after change := by
  rcases change with _ | ⟨_ | _, _⟩ | ⟨_ | _, _⟩ | ⟨_ | _, _⟩ | _ | _ | _ | _ | _ <;> rfl

theorem values_rebuild (changes : List StateChange) (s : Snapshot) :
    (rebuild Snapshot.after changes s).values = rebuild Snapshot.after changes s.values :=
  rebuild_view _ values_after changes s

/-- The code writes only where it finds a difference: elsewhere the model writes what is there.  A mode
is written in either case, with the mark that it has been observed. -/
theorem after_of_unchanged (s : Snapshot) {change : StateChange}
    (other : ∀ vfo mode, change ≠ .mode vfo mode) (same : (s.applyChange change).2 = false) :
    s.after change = s := by
  cases change with
  | mode v mode => exact absurd rfl (other v mode)
  | rxVfo v =>
      obtain rfl : s.rxVfo = v := by simpa [Snapshot.applyChange] using same
      rfl
  | freq v hz =>
      obtain rfl : (s.vfo v).freqHz = hz := by simpa [Snapshot.applyChange] using same
      cases v <;> rfl
  | dataMode v on =>
      obtain rfl : (s.vfo v).data = on := by simpa [Snapshot.applyChange] using same
      cases v <;> rfl
  | split enabled txVfo =>
      obtain ⟨rfl, tx⟩ : s.split = enabled ∧ s.txVfo = txVfo.getD s.txVfo := by
        simpa [Snapshot.applyChange] using same
      show { s with split := s.split, txVfo := txVfo.getD s.txVfo } = s
      rw [← tx]
  | ptt keyed =>
      obtain rfl : s.ptt = keyed := by simpa [Snapshot.applyChange] using same
      rfl
  | rit enabled offsetHz =>
      obtain ⟨rfl, rfl⟩ : s.ritEnabled = enabled ∧ s.ritOffsetHz = offsetHz := by
        simpa [Snapshot.applyChange] using same
      rfl
  | xit enabled offsetHz =>
      obtain ⟨rfl, rfl⟩ : s.xitEnabled = enabled ∧ s.xitOffsetHz = offsetHz := by
        simpa [Snapshot.applyChange] using same
      rfl
  | txPower power =>
      obtain rfl : s.txPower = power := by simpa [Snapshot.applyChange] using same
      rfl

/-- What `record` does not send has not changed a value. -/
theorem values_unchanged (s : Snapshot) (change : StateChange)
    (same : (s.applyChange change).2 = false) : (s.after change).values = s.values := by
  cases change with
  | mode v mode =>
      obtain rfl : (s.vfo v).mode = mode := by simpa [Snapshot.applyChange] using same
      cases v <;> rfl
  | _ => rw [after_of_unchanged s (fun _ _ absurd => by cases absurd) same]

/-! ## Recorders -/

section Recorders

variable {ρ : Type} [DecidableEq ρ]

/-- The state and the changes that recorders have made: sent, or still to be sent. -/
structure Bus (ρ : Type) where
  state : StateHandle := {}
  outbox : Outbox ρ StateChange := {}
  deriving DecidableEq, Repr

/-- The two halves of `record`. -/
inductive BusInput (ρ : Type) where
  | update (recorder : ρ) (change : StateChange) (source : RadioEventSource)
  | send (recorder : ρ)
  deriving DecidableEq, Repr

/-- Recorders in any order.  A recorder sends before it records again; a change that changes nothing
is not sent. -/
def bus (ρ : Type) [DecidableEq ρ] : Machine (Bus ρ) (BusInput ρ) Unit where
  step
    | b, .update recorder change source =>
        if b.outbox.busy recorder then none
        else
          let changed := (b.state.snapshot.applyChange change).2
          some ({ state := b.state.record change source
                  outbox := if changed then b.outbox.put recorder change else b.outbox }, ())
    | b, .send recorder => (b.outbox.publish recorder).map fun outbox => ({ b with outbox }, ())

/-- No change is sent before an earlier one of its slot. -/
def InOrder (b : Bus ρ) : BusInput ρ → Bool
  | .update .. => true
  | .send recorder => b.outbox.inOrder StateChange.slot recorder

/-- What was sent and what is still to be sent rebuilds the snapshot. -/
def Rebuilds (start : Snapshot) (b : Bus ρ) : Prop :=
  rebuild Snapshot.after b.outbox.all start.values = b.state.snapshot.values

theorem rebuilds_step {start : Snapshot} {b b' : Bus ρ} {input : BusInput ρ} {o : Unit}
    (rebuilds : Rebuilds start b) (step : (bus ρ).step b input = some (b', o))
    (ordered : InOrder b input = true) : Rebuilds start b' := by
  cases input with
  | update recorder change source =>
      simp only [bus] at step
      split at step
      · cases step
      cases step
      show rebuild _ (Outbox.all (if _ then _ else _)) _ = (b.state.snapshot.after change).values
      split
      · rw [Outbox.all_put, rebuild_concat, rebuilds, values_after]
      · rename_i same
        rw [rebuilds, values_unchanged _ _ (Bool.eq_false_iff.mpr same)]
  | send recorder =>
      obtain ⟨outbox, published, here⟩ := Option.map_eq_some_iff.mp step
      cases here
      show rebuild Snapshot.after outbox.all start.values = b.state.snapshot.values
      rw [Outbox.rebuild_publish after_comm published ordered]
      exact rebuilds

/-- **The event stream agrees with the snapshot.**  In every run of any recorders in which no change
is sent before an earlier one of its slot, once nothing is left to send, folding the stream over the
initial snapshot yields the values of the current one. -/
theorem broadcast_agrees {start b : Bus ρ} {history : List (Transition (Bus ρ) (BusInput ρ) Unit)}
    (fresh : start.outbox = {}) (run : (bus ρ).Execution start history b)
    (ordered : ∀ e ∈ history, InOrder e.before e.input = true) (idle : b.outbox.waiting = []) :
    (rebuild Snapshot.after b.outbox.log start.state.snapshot).asChanges =
      b.state.snapshot.asChanges := by
  have rebuilds : Rebuilds start.state.snapshot b := by
    refine run.guarded (I := fun _ b => Rebuilds start.state.snapshot b)
      (G := fun e => InOrder e.before e.input = true) ?_ ?_ ordered
    · rw [Rebuilds, fresh]
      rfl
    · intro history b input o b' _ rebuilds step now
      exact rebuilds_step rebuilds step now
  have sent : b.outbox.all = b.outbox.log := by
    rw [Outbox.all, idle]
    exact List.append_nil _
  rw [Rebuilds, sent, ← values_rebuild] at rebuilds
  rw [← asChanges_values, rebuilds, asChanges_values]

end Recorders

/-- The transport task and the scheduler task. -/
inductive Recorder where
  | transport
  | scheduler
  deriving DecidableEq, Repr

/-- Two tasks change the two frequencies, and send in the opposite order. -/
theorem broadcast_agrees_twoVfos :
    ∃ history b, (bus Recorder).Execution {} history b ∧
      (rebuild Snapshot.after b.outbox.log {}).asChanges = b.state.snapshot.asChanges := by
  have run := (bus Recorder).execution_exec {}
    [.update .transport (.freq .a 14074000) .nativePush,
      .update .scheduler (.freq .b 7030000) .optimisticWrite,
      .send .scheduler, .send .transport] (by decide)
  exact ⟨_, _, run, broadcast_agrees rfl run (by decide) (by decide)⟩

/-- Two tasks change one frequency, and send in the opposite order. -/
theorem not_broadcast_agrees :
    ∃ history b, (bus Recorder).Execution {} history b ∧ b.outbox.waiting = [] ∧
      (rebuild Snapshot.after b.outbox.log {}).asChanges ≠ b.state.snapshot.asChanges := by
  have run := (bus Recorder).execution_exec {}
    [.update .transport (.freq .a 14074000) .nativePush,
      .update .scheduler (.freq .a 14076000) .optimisticWrite,
      .send .scheduler, .send .transport] (by decide)
  exact ⟨_, _, run, by decide, by decide⟩

end CatHub.Radio
