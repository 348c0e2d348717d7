/-
# CatHub.Radio.Bridge — which VFO a bridged write reaches.

The bridge files what it writes under the VFO that the write names, and what it reads under VFO A;
the rig executes `F` on its current VFO and answers `f` from it.  `bridge` is the machine of frequency
writes, split writes and polls, each meeting any `Fate`; `Faithful` is the condition under which one of
them keeps the snapshot's frequencies and split equal to the rig's, and `faithful_run` says that
operations which all meet it never let the two come apart.
-/
import CatHub.Radio.Downstream
import CatHub.Systems.Execution

namespace CatHub.Bridge

open Systems Radio

/-! ## The machine -/

/-- An operation that concerns frequencies or split. -/
inductive VfoOperation where
  | setVfoFreq (vfo : Vfo) (hz : UInt64)
  | setSplit (enabled : Bool) (txVfo : Option Vfo)
  | poll
  deriving DecidableEq, Repr

def VfoOperation.call : VfoOperation → BackendCall Unit
  | .setVfoFreq vfo hz => Rigctld.apply (.setVfoFreq vfo hz.toNat)
  | .setSplit enabled txVfo => Rigctld.apply (.setSplit enabled txVfo)
  | .poll => Rigctld.poll

/-- The rig and the state between operations. -/
structure Bridged where
  rig : Downstream
  handle : StateHandle

/-- One operation after another, each with what it meets. -/
def bridge : Machine Bridged (VfoOperation × Fate) (Except BackendError Unit) where
  step s call :=
    let (result, bench) := call.2.run call.1.call ⟨s.rig, s.handle, 0⟩
    some (⟨bench.rig, bench.handle⟩, result)

/-! ## Agreement -/

/-- The split setting that the state holds is the rig's, and so are the frequencies of the VFOs in
`known`. -/
structure Agrees (known : Vfo → Prop) (rig : Downstream) (h : StateHandle) : Prop where
  freq : ∀ v, known v → (h.snapshot.vfo v).freqHz = (rig.freq v).toNat
  split : h.snapshot.split = rig.split
  txVfo : h.snapshot.txVfo = rig.txVfo

/-- What a change of frequency or split says is so of the rig; the changes that concern neither, of
modes and power, are always fine. -/
def Truthful (rig : Downstream) : StateChange → Prop
  | .freq v hz => hz = (rig.freq v).toNat
  | .split enabled txVfo => enabled = rig.split ∧ txVfo = some rig.txVfo
  | .mode .. | .dataMode .. | .txPower _ => True
  | _ => False

namespace Agrees

variable {known : Vfo → Prop} {rig : Downstream} {h : StateHandle} {source : RadioEventSource}

/-- A frequency is known after it was recorded truthfully, and unknown after it was not. -/
theorem record_freq (a : Agrees known rig h) (w : Vfo) (hz : Nat) :
    Agrees (fun v => if v = w then hz = (rig.freq w).toNat else known v) rig
      (h.record (.freq w hz) source) := by
  obtain ⟨-, tx, split, -⟩ := Snapshot.setVfo_rest h.snapshot
    { h.snapshot.vfo w with freqHz := hz } w
  refine ⟨fun v right => ?_, split.trans a.split, tx.trans a.txVfo⟩
  rw [StateHandle.record_snapshot, Snapshot.applyChange, Snapshot.vfo_setVfo]
  by_cases here : v = w
  · subst here
    rw [if_pos rfl] at right ⊢
    exact right
  · rw [if_neg here] at right ⊢
    exact a.freq v right

theorem mono {known' : Vfo → Prop} (a : Agrees known rig h) (fewer : ∀ v, known' v → known v) :
    Agrees known' rig h :=
  ⟨fun v right => a.freq v (fewer v right), a.split, a.txVfo⟩

/-- A truthful record makes the last unknown frequency known. -/
theorem learns (a : Agrees known rig h) (w : Vfo) (others : ∀ v, v ≠ w → known v) :
    Agrees (fun _ => True) rig (h.record (.freq w (rig.freq w).toNat) source) := by
  refine (a.record_freq w _).mono (fun v _ => ?_)
  split
  · rfl
  · rename_i other
    exact others v other

/-- The rig writes its current VFO, and the hub records that. -/
theorem write_current (a : Agrees (fun _ => True) rig h) (hz : UInt64) :
    Agrees (fun _ => True) (rig.obey (.setFreq hz))
      (h.record (.freq rig.current hz.toNat) source) := by
  have kept := @record_freq _ _ _ source a rig.current hz.toNat
  refine ⟨fun v _ => ?_, kept.split, kept.txVfo⟩
  rw [StateHandle.record_snapshot, Snapshot.applyChange, Snapshot.vfo_setVfo]
  by_cases here : v = rig.current
  · subst here
    simp [Downstream.obey]
  · simp [Downstream.obey, here, a.freq v trivial]

/-- A truthful record leaves what is known right. -/
theorem record_truthful {change : StateChange} (a : Agrees known rig h)
    (truthful : Truthful rig change) : Agrees known rig (h.record change source) := by
  have freq : ∀ (w : Vfo) (target : VfoSnapshot), target.freqHz = (h.snapshot.vfo w).freqHz →
      ∀ v, ((h.snapshot.setVfo target w).vfo v).freqHz = (h.snapshot.vfo v).freqHz := by
    intro w target same v
    rw [Snapshot.vfo_setVfo]
    split
    · rename_i here
      rw [same, here]
    · rfl
  cases change with
  | freq w hz =>
      refine (a.record_freq w hz).mono (fun v right => ?_)
      split
      · exact truthful
      · exact right
  | mode w m =>
      obtain ⟨-, tx, split, -⟩ := Snapshot.setVfo_rest h.snapshot
        { h.snapshot.vfo w with mode := m, modeKnown := true } w
      refine ⟨fun v right => ?_, split.trans a.split, tx.trans a.txVfo⟩
      exact (freq w { h.snapshot.vfo w with mode := m, modeKnown := true } rfl v).trans
        (a.freq v right)
  | dataMode w on =>
      obtain ⟨-, tx, split, -⟩ := Snapshot.setVfo_rest h.snapshot
        { h.snapshot.vfo w with data := on } w
      refine ⟨fun v right => ?_, split.trans a.split, tx.trans a.txVfo⟩
      exact (freq w { h.snapshot.vfo w with data := on } rfl v).trans (a.freq v right)
  | split enabled txVfo =>
      obtain ⟨rfl, rfl⟩ := truthful
      refine ⟨fun v right => ?_, rfl, rfl⟩
      have kept : (h.record (.split rig.split (some rig.txVfo)) source).snapshot.vfo v =
          h.snapshot.vfo v := by
        cases v <;> rfl
      rw [kept]
      exact a.freq v right
  | txPower power =>
      refine ⟨fun v right => ?_, a.split, a.txVfo⟩
      have kept : (h.record (.txPower power) source).snapshot.vfo v = h.snapshot.vfo v := by
        cases v <;> rfl
      rw [kept]
      exact a.freq v right
  | rxVfo | ptt | rit | xit => exact truthful.elim

theorem recordAll_truthful {changes : List StateChange} (a : Agrees known rig h)
    (truthful : ∀ change ∈ changes, Truthful rig change) :
    Agrees known rig (Ts590.recordAll h changes source) :=
  Ts590.recordAll_keeps record_truthful a truthful

end Agrees

/-! ## The condition -/

/-- The snapshot's frequencies, split flag and transmit VFO are the rig's. -/
def Bridged.Synchronized (s : Bridged) : Prop := Agrees (fun _ => True) s.rig s.handle

/-- The condition on one operation, by what it says and what it meets.

A frequency write must name the rig's current VFO, unless nothing would change; one that the rig obeys
and the hub never hears of must change nothing.  A split write must name a transmit VFO where B, the
default of the bridge, is not the one the hub keeps.  A poll must find VFO A current, or B on the same
frequency, or come to read A as the transmit VFO after all, or fail before it reads anything. -/
def Faithful (rig : Downstream) : VfoOperation × Fate → Prop
  | (.setVfoFreq vfo hz, fate) =>
      if fate.acknowledged then
        vfo = rig.current ∨ (rig.freq vfo = hz ∧ rig.freq rig.current = hz)
      else fate.obeyed = true → rig.freq rig.current = hz
  | (.setSplit enabled txVfo, fate) =>
      if fate.acknowledged then txVfo ≠ none ∨ rig.txVfo = .b
      else fate.obeyed = true → rig.split = enabled ∧ rig.txVfo = txVfo.getD .b
  | (.poll, fate) =>
      rig.freq .a = rig.freq rig.current ∨
        (rig.split = true ∧ rig.txVfo = .a ∧ ∀ cut ∈ fate.cut, 3 < cut.index) ∨
        (∃ cut ∈ fate.cut, cut.index = 0)

section
variable {rig : Downstream} {h : StateHandle} {fate : Fate}

/-! ## Polls -/

theorem truthful_detailChanges : ∀ change ∈ rig.detailChanges, Truthful rig change := by
  intro change mem
  rcases List.mem_cons.mp mem with rfl | mode
  · rfl
  · split at mode
    · cases mode
    · unfold Rigctld.splitModeChanges at mode
      dsimp only at mode
      split at mode
      · cases mode
      · rcases List.mem_cons.mp mode with rfl | data
        · trivial
        · rw [List.mem_singleton.mp data]
          trivial

/-- Of what a poll reports only the first frequency can be wrong. -/
theorem truthful_pollChanges :
    ∃ rest, rig.pollChanges = .freq .a (rig.freq rig.current).toNat :: rest ∧
      ∀ change ∈ rest, Truthful rig change := by
  refine ⟨_, rfl, ?_⟩
  intro change mem
  rcases List.mem_cons.mp mem with rfl | mem
  · trivial
  · rcases List.mem_cons.mp mem with rfl | mem
    · exact ⟨rfl, rfl⟩
    · split at mem
      · exact truthful_detailChanges change mem
      · cases mem

/-- A poll on the right frequency, cut off or not. -/
theorem synchronized_poll_current (sync : Agrees (fun _ => True) rig h)
    (right : rig.freq .a = rig.freq rig.current) {seen : List StateChange}
    (part : seen <+: rig.pollChanges) :
    Agrees (fun _ => True) rig (Ts590.recordAll h seen .pollDiff) := by
  obtain ⟨rest, form, truthful⟩ := @truthful_pollChanges rig
  apply sync.recordAll_truthful
  intro change mem
  have listed := part.subset mem
  rw [form] at listed
  rcases List.mem_cons.mp listed with rfl | later
  · exact congrArg UInt64.toNat right.symm
  · exact truthful change later

/-- A poll that comes to read A as the transmit VFO, cut off after that or not. -/
theorem synchronized_poll_split (sync : Agrees (fun _ => True) rig h) (on : rig.split = true)
    (txVfo : rig.txVfo = .a) {seen : List StateChange} (part : seen <+: rig.pollChanges)
    (late : 4 ≤ seen.length) :
    Agrees (fun _ => True) rig (Ts590.recordAll h seen .pollDiff) := by
  -- The first record may spoil A; the fourth, the split frequency, repairs it.
  have form : rig.pollChanges = [.freq .a (rig.freq rig.current).toNat,
      .mode .a (Mode.fromHamlibToken (Rigctld.text (Rigctld.firstLine
        (rig.modeReply rig.current)))), .split rig.split (some rig.txVfo),
      .freq .a (rig.freq .a).toNat] ++ rig.detailChanges.tail := by
    simp [Downstream.pollChanges, Downstream.detailChanges, on, txVfo]
  rw [form] at part
  obtain ⟨more, rfl⟩ := List.prefix_of_prefix_length_le (List.prefix_append _ _) part late
  have spoilt : Agrees (fun v => v ≠ .a) rig
      (h.record (.freq .a (rig.freq rig.current).toNat) .pollDiff) := by
    refine (sync.record_freq .a _).mono (fun v other => ?_)
    rw [if_neg other]
    trivial
  have between := @Agrees.recordAll_truthful _ _ _ .pollDiff
    [.mode .a (Mode.fromHamlibToken (Rigctld.text (Rigctld.firstLine (rig.modeReply rig.current)))),
      .split rig.split (some rig.txVfo)] spoilt (by simp [Truthful])
  rw [Ts590.recordAll, List.foldl_append]
  refine (between.learns .a (fun _ other => other)).recordAll_truthful (fun change mem => ?_)
  have listed := ((List.prefix_append_right_inj _).mp part).subset mem
  exact truthful_detailChanges change (List.mem_of_mem_tail listed)

theorem length_pollChanges (on : rig.split = true) : 4 ≤ rig.pollChanges.length := by
  simp [Downstream.pollChanges, Downstream.detailChanges, on]

theorem poll_fails_first (first : ∃ cut ∈ fate.cut, cut.index = 0) :
    (fate.run Rigctld.poll ⟨rig, h, 0⟩).1.isOk = false := by
  obtain ⟨cut, cuts, first⟩ := first
  have cuts : fate.cut = some cut := cuts
  rw [Fate.run, Rigctld.poll, ExceptT.run_bind, Program.exec_bind, BackendCall.submit, ExceptT.run_mk,
    Program.exec_ask, Program.exec_done]
  simp only [Fate.answer, cuts, first, if_true]
  rfl

theorem synchronized_poll {bench : Bench} (sync : Agrees (fun _ => True) rig h)
    (faithful : Faithful rig (.poll, fate)) (ends : bench = (fate.run Rigctld.poll ⟨rig, h, 0⟩).2) :
    Agrees (fun _ => True) bench.rig bench.handle := by
  have polled := @triple_poll fate rig h ⟨rig, h, 0⟩ ⟨rfl, rfl, rfl⟩
  have fails := @poll_fails_first rig h fate
  rw [Fate.run] at ends fails
  generalize Rigctld.poll.run.exec fate.answer ⟨rig, h, 0⟩ = stop at polled fails ends
  obtain ⟨result, bench'⟩ := stop
  subst ends
  cases result with
  | error error =>
      obtain ⟨cut, seen, cuts, part, count, same, recorded⟩ := polled
      rw [same, recorded]
      rcases faithful with right | ⟨on, txVfo, late⟩ | ⟨cut', cuts', first⟩
      · exact synchronized_poll_current sync right part
      · refine synchronized_poll_split sync on txVfo part ?_
        have later := late cut cuts
        rcases count with ⟨whole, -⟩ | count
        · exact whole ▸ length_pollChanges on
        · omega
      · obtain rfl : cut' = cut := Option.some.inj (cuts'.symm.trans cuts)
        rcases count with ⟨-, late⟩ | count
        · omega
        · rw [List.length_eq_zero_iff.mp (count.trans first)]
          exact sync
  | ok =>
      obtain ⟨power, same, recorded⟩ := polled
      rw [same, recorded, Ts590.recordAll, List.foldl_append]
      refine Agrees.record_truthful ?_ (show Truthful rig (.txPower power) from trivial)
      rcases faithful with right | ⟨on, txVfo, -⟩ | first
      · exact synchronized_poll_current sync right List.prefix_rfl
      · exact synchronized_poll_split sync on txVfo List.prefix_rfl (length_pollChanges on)
      · exact absurd (fails first) (by simp [Except.isOk, Except.toBool])

/-! ## Writes -/

theorem obey_setFreq_same {hz : UInt64} (same : rig.freq rig.current = hz) :
    rig.obey (.setFreq hz) = rig := by
  rw [Downstream.obey, ← same, Function.update_eq_self]

theorem synchronized_setVfoFreq {vfo : Vfo} {hz : UInt64} (sync : Agrees (fun _ => True) rig h)
    (faithful : Faithful rig (.setVfoFreq vfo hz, fate)) :
    Agrees (fun _ => True) (if fate.obeyed then rig.obey (.setFreq hz) else rig)
      (if fate.acknowledged then h.record (.freq vfo hz.toNat) .optimisticWrite else h) := by
  rw [Faithful] at faithful
  split at faithful
  · rename_i acknowledged
    rw [if_pos acknowledged, if_pos (Fate.obeyed_of_acknowledged acknowledged)]
    rcases faithful with rfl | ⟨here, same⟩
    · exact sync.write_current hz
    · rw [obey_setFreq_same same]
      exact sync.record_truthful (show hz.toNat = _ by rw [here])
  · rename_i lost
    rw [if_neg lost]
    split
    · rename_i obeyed
      rw [obey_setFreq_same (faithful obeyed)]
      exact sync
    · exact sync

theorem synchronized_setSplit {enabled : Bool} {txVfo : Option Vfo}
    (sync : Agrees (fun _ => True) rig h) (faithful : Faithful rig (.setSplit enabled txVfo, fate)) :
    Agrees (fun _ => True) (if fate.obeyed then rig.obey (.setSplit enabled (txVfo.getD .b)) else rig)
      (if fate.acknowledged then h.record (.split enabled txVfo) .optimisticWrite else h) := by
  have freq : ∀ v, ((h.record (.split enabled txVfo) .optimisticWrite).snapshot.vfo v).freqHz =
      (rig.freq v).toNat := by
    intro v
    rw [← sync.freq v trivial]
    cases v <;> rfl
  rw [Faithful] at faithful
  split at faithful
  · rename_i acknowledged
    rw [if_pos acknowledged, if_pos (Fate.obeyed_of_acknowledged acknowledged)]
    refine ⟨fun v _ => freq v, rfl, ?_⟩
    cases txVfo with
    | some vfo => rfl
    | none =>
        rcases faithful with named | default
        · exact absurd rfl named
        · exact sync.txVfo.trans default
  · rename_i lost
    rw [if_neg lost]
    split
    · rename_i obeyed
      obtain ⟨same, sameVfo⟩ := faithful obeyed
      rw [Downstream.obey, ← same, ← sameVfo]
      exact sync
    · exact sync

end

/-! ## Runs -/

theorem step_setVfoFreq (s : Bridged) (vfo : Vfo) (hz : UInt64) (fate : Fate) :
    ∃ result, result.isOk = fate.acknowledged ∧
      bridge.step s (.setVfoFreq vfo hz, fate) =
        some (⟨if fate.obeyed then s.rig.obey (.setFreq hz) else s.rig,
          if fate.acknowledged then s.handle.record (.freq vfo hz.toNat) .optimisticWrite
          else s.handle⟩, result) := by
  obtain ⟨ok, ran⟩ := run_applyCommand fate (Rigctld.setFreqCommand hz.toNat)
    (.setVfoFreq vfo hz.toNat) s.rig s.handle (by rw [RigCommand.decode_setFreq]; rfl)
  rw [RigCommand.decode_setFreq] at ran
  refine ⟨_, ok, ?_⟩
  simp only [bridge, VfoOperation.call, Rigctld.apply]
  rw [ran]
  rfl

theorem step_setSplit (s : Bridged) (enabled : Bool) (txVfo : Option Vfo) (fate : Fate) :
    ∃ result, result.isOk = fate.acknowledged ∧
      bridge.step s (.setSplit enabled txVfo, fate) =
        some (⟨if fate.obeyed then s.rig.obey (.setSplit enabled (txVfo.getD .b)) else s.rig,
          if fate.acknowledged then s.handle.record (.split enabled txVfo) .optimisticWrite
          else s.handle⟩, result) := by
  obtain ⟨ok, ran⟩ := run_applyCommand fate (Rigctld.setSplitCommand enabled (txVfo.getD .b))
    (.setSplit enabled txVfo) s.rig s.handle (by rw [RigCommand.decode_setSplit]; rfl)
  rw [RigCommand.decode_setSplit] at ran
  refine ⟨_, ok, ?_⟩
  simp only [bridge, VfoOperation.call, Rigctld.apply]
  rw [ran]
  rfl

/-- An operation that meets its condition keeps the bridge synchronized, whether or not it
succeeds. -/
theorem synchronized_step {s t : Bridged} {call : VfoOperation × Fate}
    {result : Except BackendError Unit} (sync : s.Synchronized) (faithful : Faithful s.rig call)
    (step : bridge.step s call = some (t, result)) : t.Synchronized := by
  obtain ⟨operation, fate⟩ := call
  cases operation with
  | poll =>
      simp only [bridge, Option.some.injEq, Prod.mk.injEq] at step
      obtain ⟨rfl, -⟩ := step
      exact synchronized_poll sync faithful rfl
  | setVfoFreq vfo hz =>
      obtain ⟨_, -, took⟩ := step_setVfoFreq s vfo hz fate
      rw [took] at step
      cases step
      exact synchronized_setVfoFreq sync faithful
  | setSplit enabled txVfo =>
      obtain ⟨_, -, took⟩ := step_setSplit s enabled txVfo fate
      rw [took] at step
      cases step
      exact synchronized_setSplit sync faithful

/-- In a run from a synchronized state whose operations all meet their condition, the snapshot's
frequencies, split flag and transmit VFO are the rig's after every operation. -/
theorem faithful_run {s t : Bridged}
    {history : List (Transition Bridged (VfoOperation × Fate) (Except BackendError Unit))}
    (run : bridge.Execution s history t) (start : s.Synchronized)
    (faithful : ∀ e ∈ history, Faithful e.before.rig e.input) :
    ∀ e ∈ history, e.after.Synchronized :=
  (run.always (I := Bridged.Synchronized) (G := fun e => Faithful e.before.rig e.input)
    (P := fun e => e.after.Synchronized) start
    (fun _ _ _ _ sync step meets =>
      ⟨synchronized_step sync meets step, synchronized_step sync meets step⟩) faithful).2

/-- A rig on two frequencies with VFO A current, and a state that agrees with it. -/
def tuned : Bridged where
  rig := {
    freq := fun v => if v = .a then 14074000 else 7030000
    token := fun _ => ['U', 'S', 'B'] }
  handle := { snapshot := { a := { freqHz := 14074000 }, b := { freqHz := 7030000 } } }

theorem tuned_synchronized : tuned.Synchronized :=
  ⟨fun v _ => by cases v <;> rfl, rfl, rfl⟩

/-- A frequency, a split and a poll, all on a rig whose VFO A is current. -/
theorem faithful_run_tuned :
    let calls : List (VfoOperation × Fate) :=
      [(.setVfoFreq .a 14200000, {}), (.setSplit true (some .b), {}), (.poll, {})]
    ∃ history t, bridge.Execution tuned history t ∧ history.map (·.input) = calls ∧
      ∀ e ∈ history, e.after.Synchronized := by
  intro calls
  have enabled : (bridge.exec tuned calls).isSome := rfl
  refine ⟨_, _, bridge.execution_exec tuned calls enabled, bridge.exec_inputs tuned calls enabled, ?_⟩
  refine faithful_run (bridge.execution_exec tuned calls enabled) tuned_synchronized ?_
  intro e mem
  simp only [calls, bridge, Machine.exec, Option.get_some, List.mem_cons, List.not_mem_nil,
    or_false] at mem
  rcases mem with rfl | rfl | rfl
  · exact .inl rfl
  · exact .inl (by decide)
  · exact .inl rfl

/-- A frequency for VFO B goes to VFO A, and is filed under B. -/
theorem setVfoFreq_reaches_current :
    ¬ ∀ (s t : Bridged)
      (history : List (Transition Bridged (VfoOperation × Fate) (Except BackendError Unit))),
      bridge.Execution s history t → s.Synchronized →
        ∀ e ∈ history, e.output.isOk = true → e.after.Synchronized := by
  intro claim
  obtain ⟨result, ok, step⟩ := step_setVfoFreq tuned .b 7100000 {}
  have run := (@Machine.Execution.start _ _ _ bridge tuned).next step
  have after := claim _ _ _ run tuned_synchronized _ (List.mem_singleton.mpr rfl) ok
  -- the state holds 7.1 MHz for B, where the rig is still on 7.03 MHz
  have freqB : (7100000 : UInt64).toNat = (7030000 : UInt64).toNat := after.freq .b trivial
  exact absurd freqB (by decide)

end CatHub.Bridge
