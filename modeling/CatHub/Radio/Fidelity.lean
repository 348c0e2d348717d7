/-
# CatHub.Radio.Fidelity — the snapshot after a write against the radio after its frames.

`apply` builds the bytes and the records of a write apart from each other, so a snapshot that
agreed with the radio need not agree afterwards.  `faithful` is the exact condition.  What it
excludes are the writes whose frames move a VFO that the records leave alone: split receives on A
whatever VFO was receiving, a split disable moves the transmit VFO to A, and a switch of the
receive VFO under split can end the split.
-/
import CatHub.Radio.Transceiver

namespace CatHub.Radio

open Ts590

/-! ## Agreement -/

/-- The snapshot and the radio agree: in the receive and transmit VFO, in split, in both
frequencies, in the operating mode and its DATA flag, and in the transmit state. -/
structure Agrees (r : Transceiver) (s : Snapshot) : Prop where
  rx : s.rxVfo = r.rx
  tx : s.txVfo = r.tx
  split : s.split = r.split
  freq : ∀ v, (s.vfo v).freqHz = (r.vfo v).freqHz
  mode : (s.vfo s.rxVfo).mode.toKenwoodDigit = (r.vfo r.rx).modeDigit
  data : (s.vfo s.rxVfo).data = (r.vfo r.rx).data
  ptt : s.ptt = r.keyed

instance (r : Transceiver) (s : Snapshot) : Decidable (Agrees r s) :=
  decidable_of_iff
    (s.rxVfo = r.rx ∧ s.txVfo = r.tx ∧ s.split = r.split ∧
      (s.a.freqHz = r.a.freqHz ∧ s.b.freqHz = r.b.freqHz) ∧
      (s.vfo s.rxVfo).mode.toKenwoodDigit = (r.vfo r.rx).modeDigit ∧
      (s.vfo s.rxVfo).data = (r.vfo r.rx).data ∧ s.ptt = r.keyed)
    ⟨fun ⟨rx, tx, split, freq, mode, data, ptt⟩ =>
      ⟨rx, tx, split, fun v => by cases v; exacts [freq.1, freq.2], mode, data, ptt⟩,
     fun h => ⟨h.rx, h.tx, h.split, ⟨h.freq .a, h.freq .b⟩, h.mode, h.data, h.ptt⟩⟩

/-- The writes in question: RIT and XIT are not, and a mode write names the operating VFO. -/
def operating (s : Snapshot) : StateMutation → Bool
  | .setMode vfo _ | .setDataMode vfo _ => vfo == s.rxVfo
  | .setRit .. | .setXit .. => false
  | _ => true

/-- When the records of a write say what its frames do. -/
def faithful (r : Transceiver) (s : Snapshot) : StateMutation → Bool
  | .setRxVfo vfo =>
      (!s.split || vfo == s.rxVfo) && (s.vfo vfo).mode.toKenwoodDigit == (r.vfo vfo).modeDigit &&
        (s.vfo vfo).data == (r.vfo vfo).data
  | .setSplit true txVfo =>
      s.rxVfo == .a && txVfo.getD .b == .b && txVfo.getD s.txVfo == .b
  | .setSplit false txVfo => s.rxVfo == .a && txVfo.getD s.txVfo == .a
  | _ => true

/-! ## Every write -/

/-- Writing one VFO on both sides: its frequencies must agree again, and its modes if that VFO is
the one that operates. -/
theorem Agrees.setVfo {r : Transceiver} {s : Snapshot} (agrees : Agrees r s)
    {seen : VfoSnapshot} {actual : VfoSettings} {v : Vfo} (freq : seen.freqHz = actual.freqHz)
    (mode : v = s.rxVfo → seen.mode.toKenwoodDigit = actual.modeDigit ∧ seen.data = actual.data) :
    Agrees (r.setVfo actual v) (s.setVfo seen v) := by
  obtain ⟨sameRx, sameTx, sameSplit, samePtt⟩ := s.setVfo_rest seen v
  obtain ⟨rRx, rTx, rKeyed⟩ := r.setVfo_rest actual v
  have operates : r.rx = v ↔ v = s.rxVfo := by rw [agrees.rx]; exact eq_comm
  refine ⟨?_, ?_, ?_, ?_, ?_, ?_, ?_⟩
  · rw [sameRx, rRx, agrees.rx]
  · rw [sameTx, rTx, agrees.tx]
  · rw [sameSplit, agrees.split, Transceiver.split, Transceiver.split, rRx, rTx]
  · intro w
    rw [Snapshot.vfo_setVfo, Transceiver.vfo_setVfo]
    split
    · exact freq
    · exact agrees.freq w
  · rw [Snapshot.vfo_setVfo, Transceiver.vfo_setVfo, sameRx, rRx, agrees.rx]
    split
    · rename_i same
      exact (mode (operates.mp same)).1
    · rw [← agrees.mode, agrees.rx]
  · rw [Snapshot.vfo_setVfo, Transceiver.vfo_setVfo, sameRx, rRx, agrees.rx]
    split
    · rename_i same
      exact (mode (operates.mp same)).2
    · rw [← agrees.data, agrees.rx]
  · rw [samePtt, rKeyed, agrees.ptt]

/-- A frequency write moves one frequency on both sides. -/
theorem Agrees.tuned {r : Transceiver} {s : Snapshot} (agrees : Agrees r s) (v : Vfo) (hz : Nat) :
    Agrees (r.tune none v hz) (s.applyChange (.freq v hz)).1 := by
  apply agrees.setVfo rfl
  rintro rfl
  have mode := agrees.mode
  have data := agrees.data
  rw [← agrees.rx] at mode data
  exact ⟨mode, data⟩

/-- A mode write on the operating VFO sets the operating mode on both sides. -/
theorem Agrees.moded {r : Transceiver} {s : Snapshot} (agrees : Agrees r s) (mode : Mode) :
    Agrees (r.setVfo { r.vfo r.rx with modeDigit := mode.toKenwoodDigit } r.rx)
      (s.applyChange (.mode s.rxVfo mode)).1 := by
  rw [← agrees.rx]
  refine agrees.setVfo ?_ ?_
  · exact agrees.freq s.rxVfo
  · intro _
    have data := agrees.data
    rw [← agrees.rx] at data
    exact ⟨rfl, data⟩

/-- A DATA write on the operating VFO sets the operating DATA flag on both sides. -/
theorem Agrees.flagged {r : Transceiver} {s : Snapshot} (agrees : Agrees r s) (on : Bool) :
    Agrees (r.setVfo { r.vfo r.rx with data := on } r.rx)
      (s.applyChange (.dataMode s.rxVfo on)).1 := by
  rw [← agrees.rx]
  refine agrees.setVfo ?_ ?_
  · exact agrees.freq s.rxVfo
  · intro _
    have mode := agrees.mode
    rw [← agrees.rx] at mode
    exact ⟨mode, rfl⟩

theorem Agrees.keyed {r : Transceiver} {s : Snapshot} (agrees : Agrees r s) (keyed : Bool) :
    Agrees { r with keyed } { s with ptt := keyed } :=
  ⟨agrees.rx, agrees.tx, agrees.split, agrees.freq, agrees.mode, agrees.data, rfl⟩

/-- Frames that select the VFOs `rx` and `tx`, against a snapshot that now claims other ones. -/
theorem Agrees.selected {r : Transceiver} {s : Snapshot} (agrees : Agrees r s) (rx tx v w : Vfo)
    (split : Bool) :
    Agrees { r with rx, tx } { s with rxVfo := v, txVfo := w, split } ↔
      v = rx ∧ w = tx ∧ split = (rx != tx) ∧
        (s.vfo rx).mode.toKenwoodDigit = (r.vfo rx).modeDigit ∧
        (s.vfo rx).data = (r.vfo rx).data := by
  constructor
  · rintro ⟨sameRx, sameTx, sameSplit, -, mode, data, -⟩
    obtain rfl : v = rx := sameRx
    exact ⟨rfl, sameTx, sameSplit, mode, data⟩
  · rintro ⟨rfl, rfl, sameSplit, mode, data⟩
    exact ⟨rfl, rfl, sameSplit, agrees.freq, mode, data, agrees.ptt⟩

/-- The snapshot and the radio agree again after a write exactly when it is faithful. -/
theorem apply_agrees_iff (r : Transceiver) (h : StateHandle) (mutation : StateMutation)
    (covered : operating h.snapshot mutation = true) (agrees : Agrees r h.snapshot) :
    Agrees (r.execute none (apply h mutation).1) (apply h mutation).2.snapshot ↔
      faithful r h.snapshot mutation = true := by
  cases mutation with
  | setRxVfo vfo =>
      have bytes : r.execute none (apply h (.setRxVfo vfo)).1 =
          { r with rx := vfo, tx := if h.snapshot.split then h.snapshot.txVfo else vfo } :=
        Transceiver.execute_vfoSelect ..
      rw [bytes]
      cases on : h.snapshot.split with
      | false =>
          have records : (apply h (.setRxVfo vfo)).2.snapshot =
              { h.snapshot with rxVfo := vfo, txVfo := vfo, split := false } := by
            simp only [apply, applyRecords, on]
            rfl
          rw [records, agrees.selected]
          simp [faithful, on]
      | true =>
          have records : (apply h (.setRxVfo vfo)).2.snapshot =
              { h.snapshot with
                rxVfo := vfo, txVfo := h.snapshot.txVfo, split := h.snapshot.split } := by
            show (recordAll h (_ :: if h.snapshot.split then [] else _) _).snapshot = _
            rw [if_pos on]
            rfl
          have apart : h.snapshot.rxVfo ≠ h.snapshot.txVfo := by
            have split := agrees.split
            rw [on, Transceiver.split, ← agrees.rx, ← agrees.tx] at split
            simpa using split.symm
          rw [records, agrees.selected]
          simp [faithful, on, Vfo.ne_iff_eq apart, and_assoc]
  | setVfoFreq vfo hz =>
      refine iff_of_true ?_ rfl
      rw [show (apply h (.setVfoFreq vfo hz)).1 = freqSet vfo hz from rfl,
        Transceiver.execute_freqSet]
      exact agrees.tuned vfo hz
  | setMode vfo mode =>
      refine iff_of_true ?_ rfl
      obtain rfl : vfo = h.snapshot.rxVfo := eq_of_beq covered
      rw [show (apply h (.setMode h.snapshot.rxVfo mode)).1 =
        ascii ['M', 'D'] ++ [mode.toKenwoodDigit, terminator] from rfl,
        Transceiver.execute_modeSet]
      exact agrees.moded mode
  | setDataMode vfo on =>
      refine iff_of_true ?_ rfl
      obtain rfl : vfo = h.snapshot.rxVfo := eq_of_beq covered
      rw [show (apply h (.setDataMode h.snapshot.rxVfo on)).1 =
        ascii (if on then ['D', 'A', '1', ';'] else ['D', 'A', '0', ';']) from rfl,
        Transceiver.execute_dataSet]
      exact agrees.flagged on
  | setSplit enabled txVfo =>
      have operates : h.snapshot.rxVfo = .a →
          (h.snapshot.vfo .a).mode.toKenwoodDigit = (r.vfo .a).modeDigit ∧
            (h.snapshot.vfo .a).data = (r.vfo .a).data := by
        intro onA
        have mode := agrees.mode
        have data := agrees.data
        rw [← agrees.rx, onA] at mode data
        exact ⟨mode, data⟩
      have records : (apply h (.setSplit enabled txVfo)).2.snapshot =
          { h.snapshot with
            rxVfo := h.snapshot.rxVfo, txVfo := txVfo.getD h.snapshot.txVfo, split := enabled } :=
        rfl
      have bytes : r.execute none (apply h (.setSplit enabled txVfo)).1 =
          { r with rx := .a, tx := if enabled then txVfo.getD .b else .a } := by
        cases enabled
        · exact Transceiver.execute_vfoSelect ..
        · exact Transceiver.execute_vfoSelect ..
      rw [records, bytes, agrees.selected]
      cases enabled with
      | false =>
          simp only [faithful, Bool.and_eq_true, beq_iff_eq]
          constructor
          · rintro ⟨onA, sameTx, -⟩
            exact ⟨onA, sameTx⟩
          · rintro ⟨onA, sameTx⟩
            exact ⟨onA, sameTx, rfl, operates onA⟩
      | true =>
          simp only [faithful, Bool.and_eq_true, beq_iff_eq, if_true]
          constructor
          · rintro ⟨onA, sameTx, apart, -⟩
            have onB : txVfo.getD .b = .b := by
              cases h : txVfo.getD .b with
              | a => rw [h] at apart; exact absurd apart (by decide)
              | b => rfl
            exact ⟨⟨onA, onB⟩, sameTx.trans onB⟩
          · rintro ⟨⟨onA, onB⟩, sameTx⟩
            rw [onB]
            exact ⟨onA, sameTx, rfl, operates onA⟩
  | setPtt keyed source =>
      refine iff_of_true ?_ rfl
      cases keyed
      · exact agrees.keyed false
      · cases source <;> exact agrees.keyed true
  | setRit offsetHz enabled => exact absurd covered Bool.false_ne_true
  | setXit offsetHz enabled => exact absurd covered Bool.false_ne_true

/-- A state that receives and transmits on B. -/
def receivingOnB : StateHandle := { snapshot := { rxVfo := .b, txVfo := .b } }

/-- The radio that the snapshot of `receivingOnB` describes. -/
def tunedToB : Transceiver := { rx := .b, tx := .b }

theorem apply_agrees_splitOnA :
    Agrees tunedToB receivingOnB.snapshot ∧
      Agrees (tunedToB.execute none (apply receivingOnB (.setRxVfo .a)).1)
        (apply receivingOnB (.setRxVfo .a)).2.snapshot :=
  ⟨by decide, (apply_agrees_iff tunedToB receivingOnB (.setRxVfo .a) (by decide) (by decide)).mpr
    (by decide)⟩

/-- The radio goes to A and splits, the snapshot stays on B and holds B to be both VFOs. -/
theorem apply_not_agrees :
    ¬ ∀ (r : Transceiver) (h : StateHandle) (mutation : StateMutation),
      operating h.snapshot mutation = true → Agrees r h.snapshot →
        Agrees (r.execute none (apply h mutation).1) (apply h mutation).2.snapshot := by
  intro all
  have agrees := all tunedToB receivingOnB (.setSplit true (some .b)) (by decide) (by decide)
  revert agrees
  decide

end CatHub.Radio
