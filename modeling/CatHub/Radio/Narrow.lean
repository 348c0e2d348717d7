/-
# CatHub.Radio.Narrow — frequencies that fit into a frame.

A frequency frame has room for eleven digits, a parsed frequency may have twenty.  A frame is narrow if
the frequency that it would enter fits; the eleven digits of an `IF` always do.  `Snapshot.Narrow` is the
invariant, which every narrow change keeps.
-/
import CatHub.Radio.Backend

namespace CatHub.Radio

/-! ## Snapshots and changes -/

/-- Both frequencies have at most eleven digits. -/
def Snapshot.Narrow (s : Snapshot) : Prop := ∀ vfo, (s.vfo vfo).freqHz < 10 ^ 11

def StateChange.Narrow (change : StateChange) : Prop := ∀ vfo hz, change = .freq vfo hz → hz < 10 ^ 11

theorem Snapshot.narrow_default : ({} : Snapshot).Narrow := by
  intro vfo
  cases vfo <;> decide

section
variable {s : Snapshot} {change : StateChange}

theorem Snapshot.Narrow.setVfo {target : VfoSnapshot} (narrow : s.Narrow) (vfo : Vfo)
    (fits : target.freqHz < 10 ^ 11) : (s.setVfo target vfo).Narrow := by
  intro other
  rw [Snapshot.vfo_setVfo]
  split
  · exact fits
  · exact narrow other

theorem Snapshot.Narrow.applyChange (narrow : s.Narrow) (fits : change.Narrow) :
    (s.applyChange change).1.Narrow := by
  cases change with
  | freq vfo hz => exact narrow.setVfo vfo (fits vfo hz rfl)
  | mode vfo mode => exact narrow.setVfo vfo (narrow vfo)
  | dataMode vfo on => exact narrow.setVfo vfo (narrow vfo)
  | _ =>
      intro vfo
      have before := narrow vfo
      cases vfo <;> exact before

theorem Snapshot.Narrow.asChanges (narrow : s.Narrow) : ∀ change ∈ s.asChanges, change.Narrow := by
  rintro _ mem vfo hz rfl
  simp only [Snapshot.asChanges, List.mem_cons, StateChange.freq.injEq, reduceCtorEq,
    List.not_mem_nil, or_false] at mem
  rcases mem with ⟨rfl, rfl⟩ | ⟨rfl, rfl⟩
  · exact narrow .a
  · exact narrow .b

end

namespace Ts590

/-! ## Frames -/

/-- A frequency that the frame would enter has at most eleven digits. -/
def NarrowFrame (frame : List UInt8) : Prop :=
  ∀ verb payload hz, splitFrame frame = some (verb, payload) →
    verb = ascii ['F', 'A'] ∨ verb = ascii ['F', 'B'] → parseU64 payload = some hz → hz < 10 ^ 11

/-- The changes that a frame of the radio records. -/
def eventChanges (snapshot : Snapshot) (frame : List UInt8) : List StateChange :=
  match parseIfStatus frame with
  | some status => ifChanges status
  | none =>
      match splitFrame frame with
      | none => []
      | some (verb, payload) => (reportedChange snapshot verb payload).toList

theorem recordEvent_eq (h : StateHandle) (frame : List UInt8) (source : RadioEventSource) :
    recordEvent h frame source =
      (recordAll h (eventChanges h.snapshot frame) source, !(eventChanges h.snapshot frame).isEmpty) := by
  unfold recordEvent eventChanges
  cases parseIfStatus frame with
  | some status => rfl
  | none =>
      cases splitFrame frame with
      | none => rfl
      | some parts =>
          dsimp only
          cases reportedChange h.snapshot parts.1 parts.2 <;> rfl

/-- The frequency of an `IF` has eleven bytes. -/
theorem parseIfStatus_narrow {frame : List UInt8} {status : IfStatus}
    (parsed : parseIfStatus frame = some status) : status.freqHz < 10 ^ 11 := by
  obtain ⟨parts, -, fields⟩ := Option.bind_eq_some_iff.mp parsed
  dsimp only at fields
  split at fields
  · cases fields
  · obtain ⟨rxVfo, -, later⟩ := Option.bind_eq_some_iff.mp fields
    split at later
    · obtain ⟨field, ⟨⟩, later⟩ := Option.bind_eq_some_iff.mp later
      obtain ⟨hz, number, later⟩ := Option.bind_eq_some_iff.mp later
      obtain ⟨_, -, later⟩ := Option.bind_eq_some_iff.mp later
      obtain ⟨_, -, later⟩ := Option.bind_eq_some_iff.mp later
      obtain ⟨_, -, later⟩ := Option.bind_eq_some_iff.mp later
      cases later
      exact (parseU64_lt number).trans_le (Nat.pow_le_pow_right (by decide) (List.length_take_le _ _))
    · cases later

theorem ifChanges_narrow {status : IfStatus} (fits : status.freqHz < 10 ^ 11) :
    ∀ change ∈ ifChanges status, change.Narrow := by
  rintro _ mem vfo hz rfl
  simp only [ifChanges, List.mem_cons, StateChange.freq.injEq, reduceCtorEq, List.not_mem_nil,
    or_false] at mem
  exact mem.2 ▸ fits

theorem reportedChange_narrow {snapshot : Snapshot} {frame verb payload : List UInt8}
    {change : StateChange} (narrow : NarrowFrame frame)
    (split : splitFrame frame = some (verb, payload))
    (reported : reportedChange snapshot verb payload = some change) : change.Narrow := by
  rintro vfo hz rfl
  unfold reportedChange at reported
  by_cases fa : verb = ascii ['F', 'A']
  · rw [if_pos fa] at reported
    obtain ⟨n, number, same⟩ := Option.map_eq_some_iff.mp reported
    cases same
    exact narrow verb payload _ split (.inl fa) number
  rw [if_neg fa] at reported
  by_cases fb : verb = ascii ['F', 'B']
  · rw [if_pos fb] at reported
    obtain ⟨n, number, same⟩ := Option.map_eq_some_iff.mp reported
    cases same
    exact narrow verb payload _ split (.inr fb) number
  rw [if_neg fb] at reported
  -- no other verb reports a frequency
  repeat' split at reported
  all_goals first
    | cases reported
    | obtain ⟨_, -, same⟩ := Option.map_eq_some_iff.mp reported
      cases same

theorem eventChanges_narrow {snapshot : Snapshot} {frame : List UInt8} (narrow : NarrowFrame frame) :
    ∀ change ∈ eventChanges snapshot frame, change.Narrow := by
  unfold eventChanges
  cases status : parseIfStatus frame with
  | some status => exact ifChanges_narrow (parseIfStatus_narrow ‹_›)
  | none =>
      cases split : splitFrame frame with
      | none => exact List.forall_mem_nil _
      | some parts =>
          intro change mem
          exact reportedChange_narrow narrow split (Option.mem_toList.mp mem)

theorem recordAll_narrow {h : StateHandle} {changes : List StateChange} {source : RadioEventSource}
    (narrow : h.snapshot.Narrow) (fits : ∀ change ∈ changes, change.Narrow) :
    (recordAll h changes source).snapshot.Narrow :=
  recordAll_keeps (I := fun h => h.snapshot.Narrow) Snapshot.Narrow.applyChange narrow fits

end Ts590

end CatHub.Radio
