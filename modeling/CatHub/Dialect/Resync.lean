/-
# CatHub.Dialect.Resync — the state as frames, and the frames as state.

An `IF` answer is written by the dialects as one format string and read by the backend at fixed
offsets; `parseIfStatus_frame` ties the two together for every frequency of eleven digits.  From it, the
six frames that re-present the state to a mirror that lagged rebuild that state on top of any other.
-/
import CatHub.Dialect.Kenwood
import CatHub.Radio.Split

namespace CatHub.Dialect

open Systems Radio Ptt

open Radio.Ts590 (ascii terminator decimal splitFrame splitFrame_append isAsciiAlphabetic
  vfoDigit vfoOfDigit IfStatus parseIfStatus parseU64_decimal length_decimal_iff decimal_figures
  recordEvent recordAll ifChanges recordEvent_freqSet)

/-! ## The status frame -/

/-- What an `IF` answer tells of a snapshot. -/
def statusOf (s : Snapshot) (rxVfo : Vfo) (split : Bool) : IfStatus where
  freqHz := (s.vfo s.rxVfo).freqHz
  ptt := s.ptt
  mode := (s.vfo s.rxVfo).mode.rendered
  rxVfo
  split

theorem vfoOfDigit_digit (vfo : Vfo) : vfoOfDigit (vfoDigit vfo) = some vfo := by
  cases vfo <;> decide

/-- The tail of an `IF` answer without its terminator. -/
def ifFigures (ptt : Bool) (mode : Mode) (rxVfo : Vfo) (split : Bool) : List UInt8 :=
  ascii ['0', '0', '0', '0', '+', '0', '0', '0', '0', '0', '0', '0', '0', '0', '0'] ++
    [if ptt then 0x31 else 0x30, mode.toKenwoodDigit, vfoDigit rxVfo, 0x30,
      if split then 0x31 else 0x30] ++ ascii ['0', '0', '0', '0']

theorem ifTail_eq (ptt : Bool) (mode : Mode) (rxVfo : Vfo) (split : Bool) :
    ifTail ptt mode rxVfo split = ifFigures ptt mode rxVfo split ++ [terminator] := rfl

/-- It has neither letters nor a terminator. -/
theorem ifFigures_plain (ptt : Bool) (mode : Mode) (rxVfo : Vfo) (split : Bool) :
    ∀ byte ∈ ifFigures ptt mode rxVfo split,
      byte ≠ terminator ∧ isAsciiAlphabetic byte = false := by
  have all : (ifFigures ptt mode rxVfo split).all
      (fun byte => byte != terminator && !isAsciiAlphabetic byte) = true := by
    cases mode <;> cases rxVfo <;> cases ptt <;> cases split <;> decide
  simpa using all

/-- The backend's offsets are where the format string puts the fields. -/
theorem parseIfStatus_frame {hz : Nat} (narrow : hz < 10 ^ 11) (ptt : Bool) (mode : Mode) (rxVfo : Vfo)
    (split : Bool) :
    parseIfStatus (ascii ['I', 'F'] ++ decimal 11 hz ++ ifTail ptt mode rxVfo split) =
      some ⟨hz, ptt, mode.rendered, rxVfo, split⟩ := by
  set figures := ifFigures ptt mode rxVfo split with tail
  have width : (decimal 11 hz).length = 11 := length_decimal_iff.mpr narrow
  have verb : ∀ byte ∈ ascii ['I', 'F'], isAsciiAlphabetic byte = true :=
    List.all_eq_true.mp (by decide)
  have parts : splitFrame (ascii ['I', 'F'] ++ decimal 11 hz ++ ifTail ptt mode rxVfo split) =
      some (ascii ['I', 'F'], decimal 11 hz ++ figures) := by
    rw [ifTail_eq, ← List.append_assoc, List.append_assoc _ (decimal 11 hz)]
    refine splitFrame_append (by decide) verb ?_ (.inr rfl)
    rw [List.forall_mem_append]
    exact ⟨fun _ => decimal_figures, ifFigures_plain ptt mode rxVfo split⟩
  have field : ∀ n, (decimal 11 hz ++ figures)[n + 11]? = figures[n]? := by
    intro n
    rw [List.getElem?_append_right (by omega), width, Nat.add_sub_cancel]
  have vfo : (decimal 11 hz ++ figures)[28]? = some (vfoDigit rxVfo) := field 17
  have tx : (decimal 11 hz ++ figures)[26]? = some (if ptt then 0x31 else 0x30) := field 15
  have digit : (decimal 11 hz ++ figures)[27]? = some mode.toKenwoodDigit := field 16
  have bit : (decimal 11 hz ++ figures)[30]? = some (if split then 0x31 else 0x30) := field 19
  have whole : 11 ≤ (decimal 11 hz ++ figures).length := by
    rw [List.length_append, width]
    omega
  have freq : (decimal 11 hz ++ figures).take 11 = decimal 11 hz := List.take_left' width
  have number := parseU64_decimal (by decide : 0 < 11) (by omega : hz < 2 ^ 64)
  have flag : ∀ b : Bool, ((if b then 0x31 else 0x30 : UInt8) == 0x31) = b := by decide
  rw [parseIfStatus, parts]
  simp only [Option.bind_eq_bind, Option.bind_some, vfo, vfoOfDigit_digit, whole, if_true, freq, number,
    tx, digit, bit, Mode.fromKenwoodDigit_digit, flag, ne_eq, not_true_eq_false, if_false]
  rfl

/-- **The status round trip.**  What the backend parses from an `IF` answer is what the snapshot says of
its operating VFO; the TS-2000 dialect answers with the same bytes, and a single-VFO endpoint is told
VFO A and no split. -/
theorem if_status_round_trip {s : Snapshot} (narrow : (s.vfo s.rxVfo).freqHz < 10 ^ 11) :
    parseIfStatus (synthIf s false) = some (statusOf s s.rxVfo s.split) ∧
      Ts2000Dialect.synthIf s = synthIf s false ∧
      parseIfStatus (synthIf s true) = some (statusOf s .a false) :=
  ⟨parseIfStatus_frame narrow s.ptt _ s.rxVfo s.split, rfl,
    parseIfStatus_frame narrow s.ptt _ .a false⟩

/-- A radio that transmits on B, in split and in a mode that nobody knows. -/
def onB : Snapshot :=
  { b := { freqHz := 14074000, mode := .unknown }, rxVfo := .b, split := true, ptt := true }

theorem if_status_round_trip_onB :
    parseIfStatus (synthIf onB false) = some ⟨14074000, true, .usb, .b, true⟩ ∧
      Ts2000Dialect.synthIf onB = synthIf onB false ∧
      parseIfStatus (synthIf onB true) = some ⟨14074000, true, .usb, .a, false⟩ :=
  if_status_round_trip (by decide)

/-! ## The mirror -/

/-- The frames that re-present the state to a native controller. -/
def snapshotResyncFrames (snap : Snapshot) : List (List UInt8) :=
  [freqFrame (ascii ['F', 'A']) (snap.vfo .a).freqHz,
   freqFrame (ascii ['F', 'B']) (snap.vfo .b).freqHz,
   vfoFrame (ascii ['F', 'R']) snap.rxVfo,
   vfoFrame (ascii ['F', 'T']) snap.txVfo,
   modeFrame (snap.vfo snap.rxVfo).mode,
   synthIf snap false]

/-- Record frames in order. -/
def recordFrames (h : StateHandle) (frames : List (List UInt8)) (source : RadioEventSource) :
    StateHandle := frames.foldl (fun h frame => (recordEvent h frame source).1) h

theorem selects_vfoFrame {verb : List UInt8} (named : verb ≠ [])
    (letters : ∀ byte ∈ verb, isAsciiAlphabetic byte = true) (vfo : Vfo) :
    selects verb (vfoFrame verb vfo) = some vfo := by
  have digit : ∀ byte ∈ [vfoDigit vfo], byte ≠ terminator ∧ isAsciiAlphabetic byte = false := by
    rw [List.forall_mem_singleton]
    cases vfo <;> decide
  have parts : splitFrame (vfoFrame verb vfo) = some (verb, [vfoDigit vfo]) := by
    have joined := splitFrame_append named letters digit (.inr rfl)
    rwa [List.append_assoc] at joined
  rw [selects, parts, Option.bind_some]
  exact (if_pos rfl).trans (vfoOfDigit_digit vfo)

/-- A mode frame records its mode for the VFO that the cache holds to be receiving. -/
theorem recordEvent_mode (h : StateHandle) (mode : Mode) (source : RadioEventSource) :
    recordEvent h (modeFrame mode) source =
      (h.record (.mode h.snapshot.rxVfo mode.rendered) source, true) := by
  have parts : ∀ mode, splitFrame (modeFrame mode) = some (ascii ['M', 'D'], [mode.toKenwoodDigit]) := by
    intro mode
    cases mode <;> decide
  rw [recordEvent, parseIfStatus, parts, ← Mode.fromKenwoodDigit_digit]
  rfl

/-- An `IF` answer records the operating VFO, the split and the transmitter. -/
theorem recordEvent_synthIf (h : StateHandle) {s : Snapshot} (narrow : (s.vfo s.rxVfo).freqHz < 10 ^ 11)
    (source : RadioEventSource) :
    recordEvent h (synthIf s false) source =
      (recordAll h (ifChanges (statusOf s s.rxVfo s.split)) source, true) := by
  rw [recordEvent, (if_status_round_trip narrow).1]

/-- **The mirror is rebuilt.**  On top of any state, the frames of a coherent snapshot record its
frequencies, its VFOs and split, its operating mode and whether it transmits. -/
theorem resync_rebuilds {s : Snapshot} (coherent : Coherent s) (narrowA : s.a.freqHz < 10 ^ 11)
    (narrowB : s.b.freqHz < 10 ^ 11) (t : StateHandle) (source : RadioEventSource) :
    let rebuilt := (recordFrames t (snapshotResyncFrames s) source).snapshot
    rebuilt.a.freqHz = s.a.freqHz ∧ rebuilt.b.freqHz = s.b.freqHz ∧ rebuilt.rxVfo = s.rxVfo ∧
      rebuilt.txVfo = s.txVfo ∧ rebuilt.split = s.split ∧
      (rebuilt.vfo rebuilt.rxVfo).mode = (s.vfo s.rxVfo).mode.rendered ∧ rebuilt.ptt = s.ptt := by
  have fa : ∀ h, recordEvent h (freqFrame (ascii ['F', 'A']) (s.vfo .a).freqHz) source =
      (h.record (.freq .a s.a.freqHz) source, true) :=
    fun h => recordEvent_freqSet h .a (by omega : s.a.freqHz < 2 ^ 64) source
  have fb : ∀ h, recordEvent h (freqFrame (ascii ['F', 'B']) (s.vfo .b).freqHz) source =
      (h.record (.freq .b s.b.freqHz) source, true) :=
    fun h => recordEvent_freqSet h .b (by omega : s.b.freqHz < 2 ^ 64) source
  have receives : (ascii ['F', 'R']).all isAsciiAlphabetic = true := by decide
  have transmits : (ascii ['F', 'T']).all isAsciiAlphabetic = true := by decide
  have fr := selects_vfoFrame (by decide : ascii ['F', 'R'] ≠ []) (List.all_eq_true.mp receives) s.rxVfo
  have ft := selects_vfoFrame (by decide : ascii ['F', 'T'] ≠ []) (List.all_eq_true.mp transmits) s.txVfo
  have narrow : (s.vfo s.rxVfo).freqHz < 10 ^ 11 := by
    cases s.rxVfo
    · exact narrowA
    · exact narrowB
  have frames : recordFrames t (snapshotResyncFrames s) source =
      recordAll t ([.freq .a s.a.freqHz, .freq .b s.b.freqHz, .rxVfo s.rxVfo,
        .split (s.rxVfo != s.txVfo) (some s.txVfo), .mode s.rxVfo (s.vfo s.rxVfo).mode.rendered] ++
        ifChanges (statusOf s s.rxVfo s.split)) source := by
    simp only [recordFrames, snapshotResyncFrames, List.foldl_cons, List.foldl_nil, fa, fb,
      recordEvent_fr _ source fr, recordEvent_ft _ source ft, recordEvent_mode,
      recordEvent_synthIf _ narrow]
    rfl
  intro rebuilt
  have states : rebuilt = _ := congrArg StateHandle.snapshot frames
  rw [states]
  -- during split the transmit VFO that `IF` implies is the one that `FT` told
  obtain ⟨a, b, rx, tx, split, ptt⟩ := s
  obtain rfl : split = (tx != rx) := coherent
  cases rx <;> cases tx <;> exact ⟨rfl, rfl, rfl, rfl, rfl, rfl, rfl⟩

/-- A mirror that holds a fresh state is rebuilt as the one on B, in split. -/
theorem resync_rebuilds_onB :
    Coherent onB ∧
      let rebuilt := (recordFrames {} (snapshotResyncFrames onB) .nativePush).snapshot
      rebuilt.a.freqHz = 0 ∧ rebuilt.b.freqHz = 14074000 ∧ rebuilt.rxVfo = .b ∧
        rebuilt.txVfo = .a ∧ rebuilt.split = true ∧ (rebuilt.vfo rebuilt.rxVfo).mode = .usb ∧
        rebuilt.ptt = true :=
  have coherent : Coherent onB := by decide
  ⟨coherent, resync_rebuilds coherent (by decide) (by decide) {} .nativePush⟩

end CatHub.Dialect
