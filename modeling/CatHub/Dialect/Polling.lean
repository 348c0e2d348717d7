/-
# CatHub.Dialect.Polling — what a poll of the TS-590 restores.

A `Panel` is the radio with all that its answers carry: the transceiver, what an `IF` answer holds
besides the facts that the backend reads, and the configured power.  `polled_agrees` says that a poll
brings the snapshot into agreement with the radio from any snapshot whatever, and
`agrees_since_poll` that it stays so, whatever was lost before, until someone else turns the radio's
knobs or an old frame comes in late.
-/
import CatHub.Dialect.Resync
import CatHub.Radio.Fidelity

namespace CatHub.Dialect

open Systems Radio

open Radio.Ts590 (ascii terminator decimal splitFrame splitFrame_append isAsciiAlphabetic
  vfoDigit parseIfStatus parseU64_decimal length_decimal_iff decimal_figures
  recordEvent recordAll ifChanges recordEvent_freqSet freqSet pollCommands applyBytes)

/-! ## The radio and its answers -/

/-- A byte that neither ends a frame nor is a letter. -/
def Inner (byte : UInt8) : Prop := byte ≠ terminator ∧ isAsciiAlphabetic byte = false

instance (byte : UInt8) : Decidable (Inner byte) :=
  @instDecidableAnd _ _ inferInstance inferInstance

/-- The radio as its answers show it. -/
structure Panel where
  radio : Transceiver := {}
  /-- The step, the offsets and the memory channel of an `IF` answer. -/
  fill : List UInt8 := ascii ['0', '0', '0', '0', '+', '0', '0', '0', '0', '0', '0', '0', '0', '0', '0']
  scan : UInt8 := 0x30
  /-- The tone and shift fields of an `IF` answer. -/
  trail : List UInt8 := ascii ['0', '0', '0', '0']
  watts : Nat := 100
  deriving DecidableEq, Repr

namespace Panel

def flagDigit (on : Bool) : UInt8 := if on then 0x31 else 0x30

/-- The facts of an `IF` answer without its verb and its terminator. -/
def ifPayload (p : Panel) : List UInt8 :=
  let r := p.radio
  decimal 11 (r.vfo r.rx).freqHz ++ (p.fill ++
    [flagDigit r.keyed, (r.vfo r.rx).modeDigit, vfoDigit r.rx, p.scan, flagDigit r.split] ++ p.trail)

/-- What the radio answers to which query. -/
def answers (p : Panel) : List (List UInt8 × List UInt8) :=
  let operating := p.radio.vfo p.radio.rx
  [(ascii ['F', 'A', ';'], freqSet .a p.radio.a.freqHz),
   (ascii ['F', 'B', ';'], freqSet .b p.radio.b.freqHz),
   (ascii ['I', 'F', ';'], ascii ['I', 'F'] ++ p.ifPayload ++ [terminator]),
   (ascii ['M', 'D', ';'], ascii ['M', 'D'] ++ [operating.modeDigit, terminator]),
   (ascii ['D', 'A', ';'], ascii ['D', 'A'] ++ [flagDigit operating.data, terminator]),
   (ascii ['P', 'C', ';'], ascii ['P', 'C'] ++ decimal 3 p.watts ++ [terminator])]

/-- Answer a query, obey anything else. -/
def device (bytes : List UInt8) (p : Panel) : Except BackendError (List UInt8) × Panel :=
  match p.answers.lookup bytes with
  | some frame => (.ok frame, p)
  | none => (.ok [], { p with radio := p.radio.execute none bytes })

/-- A radio that answers in its format: frequencies of eleven digits, modes that there are, fields of
their widths without letters. -/
structure Sound (p : Panel) : Prop where
  narrow : ∀ v, (p.radio.vfo v).freqHz < 10 ^ 11
  known : ∀ v, ∃ mode : Mode, (p.radio.vfo v).modeDigit = mode.toKenwoodDigit
  fill : p.fill.length = 15 ∧ ∀ byte ∈ p.fill, Inner byte
  scan : Inner p.scan
  trail : ∀ byte ∈ p.trail, Inner byte
  watts : p.watts < 2 ^ 32

/-- The poll asks what the radio answers, in that order. -/
theorem asked (p : Panel) : p.answers.map Prod.fst = pollCommands := rfl

end Panel

/-! ## Reading the answers -/

/-- What the backend reads off an `IF` answer. -/
def Panel.status (p : Panel) : Ts590.IfStatus where
  freqHz := (p.radio.vfo p.radio.rx).freqHz
  ptt := p.radio.keyed
  mode := Mode.fromKenwoodDigit (p.radio.vfo p.radio.rx).modeDigit
  rxVfo := p.radio.rx
  split := p.radio.split

section
variable {p : Panel}

theorem inner_modeDigit (mode : Mode) : Inner mode.toKenwoodDigit := by cases mode <;> decide

theorem Panel.Sound.ifInner (sound : p.Sound) : ∀ byte ∈ p.ifPayload, Inner byte := by
  obtain ⟨mode, known⟩ := sound.known p.radio.rx
  have digits : ∀ on, Inner (Panel.flagDigit on) := by decide
  have vfos : ∀ v, Inner (vfoDigit v) := by intro v; cases v <;> decide
  unfold Panel.ifPayload
  dsimp only
  rw [known, List.forall_mem_append, List.forall_mem_append, List.forall_mem_append]
  refine ⟨fun _ => decimal_figures, ⟨sound.fill.2, ?_⟩, sound.trail⟩
  simp only [List.forall_mem_cons, List.not_mem_nil, false_imp_iff, implies_true, and_true]
  exact ⟨digits _, inner_modeDigit mode, vfos _, sound.scan, digits _⟩

/-- The backend reads the fields of an `IF` answer where the radio puts them. -/
theorem parseIfStatus_answer (sound : p.Sound) :
    parseIfStatus (ascii ['I', 'F'] ++ p.ifPayload ++ [terminator]) = some p.status := by
  have verb : ∀ byte ∈ ascii ['I', 'F'], isAsciiAlphabetic byte = true :=
    List.all_eq_true.mp (by decide)
  have parts := splitFrame_append (by decide : ascii ['I', 'F'] ≠ []) verb sound.ifInner
    (.inr rfl : [terminator] = [] ∨ [terminator] = [terminator])
  have width : (decimal 11 (p.radio.vfo p.radio.rx).freqHz).length = 11 :=
    length_decimal_iff.mpr (sound.narrow p.radio.rx)
  have field : ∀ n, p.ifPayload[n + 15 + 11]? =
      ([Panel.flagDigit p.radio.keyed, (p.radio.vfo p.radio.rx).modeDigit, vfoDigit p.radio.rx, p.scan,
        Panel.flagDigit p.radio.split] ++ p.trail)[n]? := by
    intro n
    rw [Panel.ifPayload, List.getElem?_append_right (by omega), width, Nat.add_sub_cancel,
      List.append_assoc, List.getElem?_append_right (sound.fill.1 ▸ Nat.le_add_left 15 n), sound.fill.1,
      Nat.add_sub_cancel]
  have tx : p.ifPayload[26]? = some (Panel.flagDigit p.radio.keyed) := field 0
  have digit : p.ifPayload[27]? = some (p.radio.vfo p.radio.rx).modeDigit := field 1
  have vfo : p.ifPayload[28]? = some (vfoDigit p.radio.rx) := field 2
  have bit : p.ifPayload[30]? = some (Panel.flagDigit p.radio.split) := field 4
  have whole : 11 ≤ p.ifPayload.length := by
    rw [Panel.ifPayload, List.length_append, width]
    omega
  have freq : p.ifPayload.take 11 = decimal 11 (p.radio.vfo p.radio.rx).freqHz := List.take_left' width
  have narrow := sound.narrow p.radio.rx
  have number := parseU64_decimal (by decide : 0 < 11)
    (by omega : (p.radio.vfo p.radio.rx).freqHz < 2 ^ 64)
  have flag : ∀ on, (Panel.flagDigit on == 0x31) = on := by decide
  rw [parseIfStatus, parts]
  simp only [Option.bind_eq_bind, Option.bind_some, vfo, vfoOfDigit_digit, whole, if_true, freq, number,
    tx, digit, bit, flag, ne_eq, not_true_eq_false, if_false]
  rfl

/-! ## What the answers record -/

/-- The configured power, against the limit in the mode of the VFO that transmits. -/
def Panel.power (p : Panel) (s : Snapshot) : TxPower :=
  TxPower.fromWatts p.watts
    (Ts590.maxPowerWatts (s.vfo (if s.split then s.txVfo else s.rxVfo)).mode)

/-- The changes that an answer records on a state. -/
def Panel.told (p : Panel) (s : Snapshot) (query : List UInt8) : List StateChange :=
  let operating := p.radio.vfo p.radio.rx
  if query = ascii ['F', 'A', ';'] then [.freq .a p.radio.a.freqHz]
  else if query = ascii ['F', 'B', ';'] then [.freq .b p.radio.b.freqHz]
  else if query = ascii ['I', 'F', ';'] then ifChanges p.status
  else if query = ascii ['M', 'D', ';'] then
    [.mode s.rxVfo (Mode.fromKenwoodDigit operating.modeDigit)]
  else if query = ascii ['D', 'A', ';'] then [.dataMode s.rxVfo operating.data]
  else [.txPower (some (p.power s))]

theorem recordEvent_answer (sound : p.Sound) (h : StateHandle) (source : RadioEventSource)
    {query frame : List UInt8} (answered : (query, frame) ∈ p.answers) :
    recordEvent h frame source = (recordAll h (p.told h.snapshot query) source, true) := by
  have narrow : ∀ v, (p.radio.vfo v).freqHz < 2 ^ 64 := fun v => (sound.narrow v).trans (by decide)
  obtain ⟨mode, known⟩ := sound.known p.radio.rx
  simp only [Panel.answers, List.mem_cons, Prod.mk.injEq, List.not_mem_nil, or_false] at answered
  rcases answered with ⟨rfl, rfl⟩ | ⟨rfl, rfl⟩ | ⟨rfl, rfl⟩ | ⟨rfl, rfl⟩ | ⟨rfl, rfl⟩ | ⟨rfl, rfl⟩
  · exact recordEvent_freqSet h .a (narrow .a) source
  · exact recordEvent_freqSet h .b (narrow .b) source
  · rw [recordEvent, parseIfStatus_answer sound]
    rfl
  · rw [known, show ascii ['M', 'D'] ++ [mode.toKenwoodDigit, terminator] = modeFrame mode from rfl,
      recordEvent_mode]
    simp only [Panel.told, known, Mode.fromKenwoodDigit_digit]
    rfl
  · cases data : (p.radio.vfo p.radio.rx).data <;> simp only [Panel.told, data] <;> rfl
  · have verb : ∀ byte ∈ ascii ['P', 'C'], isAsciiAlphabetic byte = true :=
      List.all_eq_true.mp (by decide)
    have parts : splitFrame (ascii ['P', 'C'] ++ decimal 3 p.watts ++ [terminator]) =
        some (ascii ['P', 'C'], decimal 3 p.watts) :=
      splitFrame_append (by decide) verb (fun _ => decimal_figures) (.inr rfl)
    have number := parseU64_decimal (by decide : 0 < 3) (sound.watts.trans (by decide))
    have status : parseIfStatus (ascii ['P', 'C'] ++ decimal 3 p.watts ++ [terminator]) = none := by
      rw [parseIfStatus, parts]
      rfl
    have change : Ts590.reportedChange h.snapshot (ascii ['P', 'C']) (decimal 3 p.watts) =
        some (.txPower (some (p.power h.snapshot))) := by
      have read : Ts590.reportedPower h.snapshot (decimal 3 p.watts) = some (p.power h.snapshot) := by
        rw [Ts590.reportedPower, number, Option.bind_eq_bind, Option.bind_some, if_pos sound.watts]
        rfl
      show (Ts590.reportedPower h.snapshot (decimal 3 p.watts)).map _ = _
      rw [read]
      rfl
    rw [recordEvent, status, parts]
    simp only [change]
    rfl

end

/-! ## The poll -/

section
variable {ρ : Type} (device : List UInt8 → ρ → Except BackendError (List UInt8) × ρ)

/-- In front of any device, the program that records a frame is `recordEvent`. -/
theorem exec_recordReply_behind (frame : List UInt8) (source : RadioEventSource) (h : StateHandle)
    (r : ρ) :
    (Ts590.recordReply frame source).run.exec (behind device) (h, r) =
      (.ok (), ((recordEvent h frame source).1, r)) := by
  unfold Ts590.recordReply recordEvent
  cases status : parseIfStatus frame with
  | some status => exact exec_recordAll_behind device _ source h r
  | none =>
      cases parts : splitFrame frame with
      | none => rfl
      | some both =>
          obtain ⟨verb, payload⟩ := both
          simp only [BackendCall.snapshot, ExceptT.run_bind]
          cases reported : Ts590.reportedChange h.snapshot verb payload with
          | none => simp [ExceptT.run_mk, behind, reported]
          | some change => simp [ExceptT.run_mk, behind, reported, BackendCall.record]

end

/-- One turn of the poll. -/
def query (cmd : List UInt8) : BackendCall Unit := do
  let reply ← BackendCall.submit cmd (.reply [cmd.take 2])
  Ts590.recordReply reply .pollDiff

/-- One query after the other is answered, and its answer recorded. -/
theorem exec_queries {p : Panel} (h : StateHandle) (queries : List (List UInt8 × List UInt8))
    (answered : ∀ q ∈ queries, p.answers.lookup q.1 = some q.2) :
    ((queries.map Prod.fst).forM query : BackendCall Unit).run.exec (behind Panel.device) (h, p) =
      (.ok (), (recordFrames h (queries.map Prod.snd) .pollDiff, p)) := by
  induction queries generalizing h with
  | nil => rfl
  | cons asked queries ih =>
      obtain ⟨here, later⟩ := List.forall_mem_cons.mp answered
      have submitted : (BackendCall.submit asked.1 (.reply [asked.1.take 2])).run.exec
          (behind Panel.device) (h, p) = (.ok asked.2, (h, p)) := by
        show ((Panel.device asked.1 p).1, (h, (Panel.device asked.1 p).2)) = _
        rw [Panel.device, here]
      have turned : (query asked.1).run.exec (behind Panel.device) (h, p) =
          (.ok (), ((recordEvent h asked.2 .pollDiff).1, p)) := by
        unfold query
        rw [ExceptT.run_bind, Program.exec_bind, submitted]
        exact exec_recordReply_behind Panel.device asked.2 .pollDiff h p
      show (query asked.1 >>= fun _ => (queries.map Prod.fst).forM query).run.exec _ _ = _
      rw [ExceptT.run_bind, Program.exec_bind, turned]
      exact ih _ later

/-- A poll leaves the radio alone and records its answers. -/
theorem exec_poll (h : StateHandle) (p : Panel) :
    Ts590.poll.run.exec (behind Panel.device) (h, p) =
      (.ok (), (recordFrames h (p.answers.map Prod.snd) .pollDiff, p)) := by
  unfold Ts590.poll
  rw [← p.asked]
  refine exec_queries h p.answers (fun q mem => ?_)
  simp only [Panel.answers, List.mem_cons, List.not_mem_nil, or_false] at mem
  rcases mem with rfl | rfl | rfl | rfl | rfl | rfl <;> rfl

/-! ## Agreement -/

/-- A poll brings the snapshot into agreement with the radio, whatever it held before. -/
theorem polled_agrees {p : Panel} (sound : p.Sound) (h : StateHandle) (source : RadioEventSource) :
    Agrees p.radio (recordFrames h (p.answers.map Prod.snd) source).snapshot := by
  have step : ∀ q ∈ p.answers, ∀ h,
      recordEvent h q.2 source = (recordAll h (p.told h.snapshot q.1) source, true) :=
    fun q mem h => recordEvent_answer sound h source mem
  have known : (Mode.fromKenwoodDigit (p.radio.vfo p.radio.rx).modeDigit).toKenwoodDigit =
      (p.radio.vfo p.radio.rx).modeDigit := by
    obtain ⟨mode, same⟩ := sound.known p.radio.rx
    rw [same, Mode.fromKenwoodDigit_digit]
    cases mode <;> rfl
  simp only [Panel.answers, List.forall_mem_cons, List.not_mem_nil, false_imp_iff, implies_true,
    and_true] at step
  obtain ⟨fa, fb, status, md, da, pc⟩ := step
  simp only [recordFrames, Panel.answers, List.map_cons, List.map_nil, List.foldl_cons, List.foldl_nil,
    fa, fb, status, md, da, pc]
  obtain ⟨⟨a, b, rx, tx, keyed⟩, fill, scan, trail, watts⟩ := p
  cases rx <;> cases tx <;>
  · refine ⟨rfl, rfl, rfl, fun v => ?_, known, rfl, rfl⟩
    cases v <;> rfl

theorem Panel.Sound.digit {p : Panel} (sound : p.Sound) (v : Vfo) :
    (Mode.fromKenwoodDigit (p.radio.vfo v).modeDigit).toKenwoodDigit = (p.radio.vfo v).modeDigit := by
  obtain ⟨mode, known⟩ := sound.known v
  rw [known, Mode.fromKenwoodDigit_digit]
  cases mode <;> rfl

/-- What the radio reports of its own accord keeps an agreement. -/
theorem agrees_reported {p : Panel} (sound : p.Sound) {h : StateHandle} (agrees : Agrees p.radio h.snapshot)
    (source : RadioEventSource) {query frame : List UInt8} (answered : (query, frame) ∈ p.answers) :
    Agrees p.radio (recordEvent h frame source).1.snapshot := by
  have digit := sound.digit p.radio.rx
  rw [recordEvent_answer sound h source answered]
  obtain ⟨⟨a, b, rx, tx, split, ptt, powerOn, power, rit, ritHz, xit, xitHz⟩, uncertain⟩ := h
  obtain ⟨⟨ra, rb, rrx, rtx, keyed⟩, fill, scan, trail, watts⟩ := p
  obtain ⟨sameRx, sameTx, sameSplit, freq, mode, data, keys⟩ := agrees
  obtain rfl : rx = rrx := sameRx
  obtain rfl : tx = rtx := sameTx
  have freqA : a.freqHz = ra.freqHz := freq .a
  have freqB : b.freqHz = rb.freqHz := freq .b
  simp only [Panel.told]
  split_ifs
  · -- a frequency that was right already
    refine ⟨rfl, rfl, sameSplit, fun v => ?_, ?_, ?_, keys⟩
    · cases v
      exacts [rfl, freqB]
    · cases rx <;> exact mode
    · cases rx <;> exact data
  · refine ⟨rfl, rfl, sameSplit, fun v => ?_, ?_, ?_, keys⟩
    · cases v
      exacts [freqA, rfl]
    · cases rx <;> exact mode
    · cases rx <;> exact data
  · -- the status tells everything but the other frequency and DATA
    cases rx <;> cases tx <;>
    · refine ⟨rfl, rfl, rfl, fun v => ?_, digit, data, rfl⟩
      cases v <;> first | rfl | exact freqA | exact freqB
  · cases rx <;>
    · refine ⟨rfl, rfl, sameSplit, fun v => ?_, digit, data, keys⟩
      cases v
      exacts [freqA, freqB]
  · cases rx <;>
    · refine ⟨rfl, rfl, sameSplit, fun v => ?_, mode, rfl, keys⟩
      cases v
      exacts [freqA, freqB]
  · exact ⟨rfl, rfl, sameSplit, freq, mode, data, keys⟩

/-! ## Runs -/

/-- The radio and the hub. -/
structure Shack where
  panel : Panel
  hub : StateHandle
  deriving DecidableEq, Repr

inductive ShackInput where
  | poll
  | write (mutation : StateMutation)
  /-- The radio reports, of its own accord, what it would answer to a query. -/
  | report (query : List UInt8)
  /-- Someone turns the knobs, or another radio is connected; nothing is reported. -/
  | turn (panel : Panel)
  /-- A frame comes in, from whenever. -/
  | stray (frame : List UInt8)
  deriving DecidableEq, Repr

/-- The scheduler runs an operation of the backend on the radio. -/
def Shack.perform (s : Shack) (kind : OpKind) : Shack :=
  let (_, hub, panel) := (Radio.execute ts590Backend kind).run.exec (behind Panel.device) (s.hub, s.panel)
  { panel, hub }

def shack : Machine Shack ShackInput Unit where
  step s
  | .poll => some (s.perform .poll, ())
  | .write mutation => some (s.perform (.apply mutation), ())
  | .report query =>
      (s.panel.answers.lookup query).map fun frame =>
        ({ s with hub := (recordEvent s.hub frame .nativePush).1 }, ())
  | .turn panel => some ({ s with panel }, ())
  | .stray frame => some ({ s with hub := (recordEvent s.hub frame .nativePush).1 }, ())

/-- A write to a frequency that has eleven digits. -/
def Fits : StateMutation → Prop
  | .setVfoFreq _ hz => hz < 10 ^ 11
  | _ => True

instance (mutation : StateMutation) : Decidable (Fits mutation) := by
  unfold Fits
  split <;> infer_instance

/-- A step that only asks the radio, hears it, or makes a write whose records say what its frames do: no RIT
or XIT, a mode for the operating VFO only, and no frequency beyond eleven digits. -/
def Careful (s : Shack) : ShackInput → Prop
  | .poll | .report _ => True
  | .write mutation =>
      Fits mutation ∧ operating s.hub.snapshot mutation = true ∧
        faithful s.panel.radio s.hub.snapshot mutation = true
  | .turn _ | .stray _ => False

theorem perform_poll (s : Shack) :
    s.perform .poll = ⟨s.panel, recordFrames s.hub (s.panel.answers.map Prod.snd) .pollDiff⟩ := by
  have polled := exec_poll s.hub s.panel
  have ran : (Radio.execute ts590Backend .poll).run.exec (behind Panel.device) (s.hub, s.panel) =
      (.ok [], (recordFrames s.hub (s.panel.answers.map Prod.snd) .pollDiff, s.panel)) := by
    unfold Radio.execute
    rw [ExceptT.run_bind, Program.exec_bind, show ts590Backend.poll = Ts590.poll from rfl, polled]
    rfl
  rw [Shack.perform, ran]

/-- The bytes of a write are no query. -/
theorem lookup_applyBytes (p : Panel) (s : Snapshot) (mutation : StateMutation) :
    p.answers.lookup (applyBytes s mutation) = none := by
  have long : ∀ bytes : List UInt8, 3 < bytes.length → p.answers.lookup bytes = none := by
    intro bytes long
    rw [List.lookup_eq_none_iff]
    intro q mem
    have short : ∀ cmd ∈ pollCommands, cmd.length = 3 := by decide
    have width := short q.1 (p.asked ▸ List.mem_map_of_mem mem)
    rw [bne_iff_ne]
    rintro rfl
    omega
  cases mutation with
  | setPtt keyed source => cases keyed <;> cases source <;> rfl
  | setVfoFreq vfo hz =>
      apply long
      have wide : 11 ≤ (decimal 11 hz).length := by
        rw [decimal, List.length_map, Ts590.length_paddedDigits]
        exact Nat.le_max_left _ _
      simp only [applyBytes, freqSet, List.length_append]
      omega
  | setRxVfo vfo => exact long _ (show 3 < 8 by decide)
  | setSplit enabled txVfo => cases enabled <;> exact long _ (show 3 < 8 by decide)
  | setMode vfo mode => exact long _ (show 3 < 4 by decide)
  | setDataMode vfo on => cases on <;> exact long _ (show 3 < 4 by decide)
  | setRit hz enabled | setXit hz enabled => cases enabled <;> exact long _ (show 3 < 4 by decide)

theorem perform_write (s : Shack) (mutation : StateMutation) :
    s.perform (.apply mutation) =
      ⟨{ s.panel with radio := s.panel.radio.execute none (Ts590.apply s.hub mutation).1 },
        (Ts590.apply s.hub mutation).2⟩ := by
  have ran := exec_apply_behind Panel.device mutation s.hub s.panel
  rw [Panel.device, lookup_applyBytes] at ran
  rw [Shack.perform, ran]
  rfl

/-- A write leaves the radio one that answers in its format. -/
theorem Panel.Sound.write {p : Panel} (sound : p.Sound) {h : StateHandle} {mutation : StateMutation}
    (fits : Fits mutation) (covered : operating h.snapshot mutation = true) :
    Panel.Sound { p with radio := p.radio.execute none (Ts590.apply h mutation).1 } := by
  suffices kept : ∀ r : Transceiver, p.radio.execute none (Ts590.apply h mutation).1 = r →
      (∀ v, (r.vfo v).freqHz < 10 ^ 11) ∧ ∀ v, ∃ mode : Mode, (r.vfo v).modeDigit = mode.toKenwoodDigit by
    obtain ⟨narrow, known⟩ := kept _ rfl
    exact ⟨narrow, known, sound.fill, sound.scan, sound.trail, sound.watts⟩
  rintro r rfl
  cases mutation with
  | setRxVfo vfo =>
      rw [show (Ts590.apply h (.setRxVfo vfo)).1 = Ts590.rxVfoSet vfo ++
        Ts590.txVfoSet (if h.snapshot.split then h.snapshot.txVfo else vfo) from rfl,
        Transceiver.execute_vfoSelect]
      exact ⟨sound.narrow, sound.known⟩
  | setVfoFreq vfo hz =>
      rw [show (Ts590.apply h (.setVfoFreq vfo hz)).1 = freqSet vfo hz from rfl,
        Transceiver.execute_freqSet]
      refine ⟨fun v => ?_, fun v => ?_⟩ <;> rw [Transceiver.tune, Transceiver.vfo_setVfo] <;> split
      · exact fits
      · exact sound.narrow v
      · exact sound.known vfo
      · exact sound.known v
  | setMode vfo mode =>
      rw [show (Ts590.apply h (.setMode vfo mode)).1 =
        ascii ['M', 'D'] ++ [mode.toKenwoodDigit, terminator] from rfl, Transceiver.execute_modeSet]
      refine ⟨fun v => ?_, fun v => ?_⟩ <;> rw [Transceiver.vfo_setVfo] <;> split
      · exact sound.narrow p.radio.rx
      · exact sound.narrow v
      · exact ⟨mode, rfl⟩
      · exact sound.known v
  | setDataMode vfo on =>
      rw [show (Ts590.apply h (.setDataMode vfo on)).1 =
        ascii (if on then ['D', 'A', '1', ';'] else ['D', 'A', '0', ';']) from rfl,
        Transceiver.execute_dataSet]
      refine ⟨fun v => ?_, fun v => ?_⟩ <;> rw [Transceiver.vfo_setVfo] <;> split
      · exact sound.narrow p.radio.rx
      · exact sound.narrow v
      · exact sound.known p.radio.rx
      · exact sound.known v
  | setSplit enabled txVfo =>
      cases enabled with
      | false =>
          rw [show (Ts590.apply h (.setSplit false txVfo)).1 =
            Ts590.rxVfoSet .a ++ Ts590.txVfoSet .a from rfl, Transceiver.execute_vfoSelect]
          exact ⟨sound.narrow, sound.known⟩
      | true =>
          rw [show (Ts590.apply h (.setSplit true txVfo)).1 =
            Ts590.rxVfoSet .a ++ Ts590.txVfoSet (txVfo.getD .b) from rfl, Transceiver.execute_vfoSelect]
          exact ⟨sound.narrow, sound.known⟩
  | setPtt keyed source =>
      cases keyed with
      | false => exact ⟨sound.narrow, sound.known⟩
      | true => cases source <;> exact ⟨sound.narrow, sound.known⟩
  | setRit hz enabled | setXit hz enabled => exact absurd covered Bool.false_ne_true

/-- A careful step keeps an agreement. -/
theorem agrees_step {s t : Shack} {input : ShackInput} {o : Unit} (sound : s.panel.Sound)
    (agrees : Agrees s.panel.radio s.hub.snapshot) (took : shack.step s input = some (t, o))
    (careful : Careful s input) : t.panel.Sound ∧ Agrees t.panel.radio t.hub.snapshot := by
  cases input with
  | poll =>
      simp only [shack, Option.some.injEq, Prod.mk.injEq, and_true, perform_poll] at took
      subst took
      exact ⟨sound, polled_agrees sound s.hub .pollDiff⟩
  | write mutation =>
      obtain ⟨fits, covered, faithful⟩ := careful
      simp only [shack, Option.some.injEq, Prod.mk.injEq, and_true, perform_write] at took
      subst took
      exact ⟨sound.write fits covered,
        (apply_agrees_iff s.panel.radio s.hub mutation covered agrees).mpr faithful⟩
  | report query =>
      obtain ⟨frame, answered, same⟩ := Option.map_eq_some_iff.mp took
      obtain ⟨front, back, among, -⟩ := List.lookup_eq_some_iff.mp answered
      have mem : (query, frame) ∈ s.panel.answers := by
        rw [among]
        exact List.mem_append_right _ List.mem_cons_self
      cases same
      exact ⟨sound, agrees_reported sound agrees .nativePush mem⟩
  | turn | stray => exact careful.elim

/-- **A poll restores the picture.**  Whatever happened before, from a poll of a radio that answers in its
format the snapshot agrees with the radio, and it does so for as long as the hub polls, the radio reports
and only careful writes are made.  A poll is one step here: nothing happens between its queries. -/
theorem agrees_since_poll {start stop : Shack} {earlier later : List (Transition Shack ShackInput Unit)}
    {e : Transition Shack ShackInput Unit}
    (run : shack.Execution start (earlier ++ e :: later) stop) (polled : e.input = .poll)
    (sound : e.before.panel.Sound) (careful : ∀ e ∈ later, Careful e.before e.input) :
    Agrees stop.panel.radio stop.hub.snapshot ∧ e.after.panel = e.before.panel := by
  obtain ⟨mid, first, second⟩ := run.split
  obtain ⟨here, took, rest⟩ := second.uncons
  rw [polled] at took
  simp only [shack, Option.some.injEq, Prod.mk.injEq, and_true, perform_poll] at took
  rw [← here] at took
  have after : e.after.panel = e.before.panel := took ▸ rfl
  refine ⟨?_, after⟩
  have begins : e.after.panel.Sound ∧ Agrees e.after.panel.radio e.after.hub.snapshot := by
    rw [← took]
    exact ⟨sound, polled_agrees sound e.before.hub .pollDiff⟩
  exact (rest.always (I := fun s => s.panel.Sound ∧ Agrees s.panel.radio s.hub.snapshot)
    (P := fun _ => True) begins
    (fun s i o t holds took careful => ⟨agrees_step holds.1 holds.2 took careful, trivial⟩)
    careful).1.2

/-- A radio in split, that receives CW on A. -/
def splitPanel : Panel :=
  { radio := { a := { freqHz := 7030000, modeDigit := 0x33 }, b := { freqHz := 7035000 }, tx := .b } }

theorem splitPanel_sound : splitPanel.Sound where
  narrow v := by cases v <;> decide
  known v := by
    cases v
    · exact ⟨.cw, rfl⟩
    · exact ⟨.usb, rfl⟩
  fill := ⟨rfl, each_of_all (by decide)⟩
  scan := by decide
  trail := each_of_all (by decide)
  watts := by decide

/-- A hub that knows nothing polls the radio in split and then tunes VFO B. -/
theorem agrees_since_poll_fresh :
    let fresh : Shack := ⟨splitPanel, {}⟩
    let polled := fresh.perform .poll
    let tuned := polled.perform (.apply (.setVfoFreq .b 7031000))
    Agrees tuned.panel.radio tuned.hub.snapshot ∧ polled.panel = fresh.panel := by
  intro fresh polled tuned
  have first : shack.step fresh .poll = some (polled, ()) := rfl
  have second : shack.step polled (.write (.setVfoFreq .b 7031000)) = some (tuned, ()) := rfl
  refine @agrees_since_poll fresh tuned [] [⟨polled, .write (.setVfoFreq .b 7031000), (), tuned⟩]
    ⟨fresh, .poll, (), polled⟩ ((Machine.Execution.start.next first).next second) rfl splitPanel_sound ?_
  rw [List.forall_mem_singleton]
  exact ⟨show 7031000 < 10 ^ 11 by decide, rfl, rfl⟩

end CatHub.Dialect
