/-
# CatHub.Radio.Probes — what a poll of the bridge learns where some of its probes fail.

A poll asks the rig in up to five probes, and any of them may be answered with an `RPRT` line instead
of a value.  `Learns` says what each field should be afterwards: what the newest probe that could read it
read, and otherwise what it was.  The readers of the split details look for an `RPRT` line first.
The mode reader takes it for an unknown mode and the split reader for a split that is off, and the mode
reader knows nothing of DATA; `Forgiving` is where that does no harm.
-/
import CatHub.Radio.Downstream
import Mathlib.Data.List.DropRight

namespace CatHub.Bridge

open Systems Radio

open Ts590 (parseU64 recordAll trim isWhitespace)

open Rigctld (isRprtError firstLine text splitReply splitModeChanges rprt)

/-! ## Readings -/

/-- How a probe came out. -/
inductive Outcome (α : Type) where
  | failed
  | read (value : α)
  | garbled
  deriving DecidableEq, Repr

section
variable {α : Type}

def Outcome.of (read : List UInt8 → Option α) (reply : List UInt8) : Outcome α :=
  if isRprtError reply then .failed
  else match read reply with
    | some value => .read value
    | none => .garbled

/-- What a field may be after the probes that report it, the newest first.  Nothing is said of a reply
that is neither a value nor an error. -/
def Allowed (before : α) : List (Outcome α) → α → Prop
  | [], after => after = before
  | .failed :: older, after => Allowed before older after
  | .read value :: _, after => after = value
  | .garbled :: _, _ => True

end

def readFreq (reply : List UInt8) : Option Nat := parseU64 (firstLine reply)

/-- Mode, whether it is known, and DATA. -/
def readMode (reply : List UInt8) : Option (Mode × Bool × Bool) :=
  let (mode, data) := Mode.decomposeHamlibToken (text (firstLine reply))
  if mode = .unknown then none else some (mode, true, data)

/-! ## Probes -/

section
variable (reply : List UInt8 → Except BackendError (List UInt8))

/-- A link that answers every command, or fails, in front of a state that nobody else changes. -/
def answering : (q : LinkQuestion) → StateHandle → q.Answer × StateHandle
  | .submit bytes _, h => (reply bytes, h)
  | .snapshot, h => (h.snapshot, h)
  | .record change source, h => ((), h.record change source)

/-- The replies that a poll gets to its probes: it ends with the first one that the link fails, and asks
for the details of a split only. -/
def heardFreq : Option (List UInt8) := (reply Rigctld.pollGetFreq).toOption

def heardMode : Option (List UInt8) :=
  (heardFreq reply).bind fun _ => (reply Rigctld.pollGetMode).toOption

def heardSplit : Option (List UInt8) :=
  (heardMode reply).bind fun _ => (reply Rigctld.pollGetSplit).toOption

/-- The transmit VFO of a split that is on. -/
def splitOn : Option Vfo :=
  (heardSplit reply).bind fun s => if (splitReply s).1 then some (splitReply s).2 else none

def heardSplitFreq : Option (List UInt8) :=
  (splitOn reply).bind fun _ => (reply Rigctld.pollGetSplitFreq).toOption

def heardSplitMode : Option (List UInt8) :=
  (heardSplitFreq reply).bind fun _ => (reply Rigctld.pollGetSplitMode).toOption

/-- How the probes came out that report a VFO: the split details, then the current VFO, filed under A. -/
def outcomes {α : Type} (read : List UInt8 → Option α) (current detail : Option (List UInt8)) (vfo : Vfo) :
    List (Outcome α) :=
  (if splitOn reply = some vfo then (detail.map (Outcome.of read)).toList else []) ++
    if vfo = .a then (current.map (Outcome.of read)).toList else []

end

/-! ## Fields -/

def freqOf (vfo : Vfo) (s : Snapshot) : Nat := (s.vfo vfo).freqHz

def modeOf (vfo : Vfo) (s : Snapshot) : Mode × Bool × Bool :=
  ((s.vfo vfo).mode, (s.vfo vfo).modeKnown, (s.vfo vfo).data)

def splitOf (s : Snapshot) : Bool × Vfo := (s.split, s.txVfo)

/-- Each field is what its newest succeeding probe read, or what it was. -/
structure Learns (reply : List UInt8 → Except BackendError (List UInt8)) (before after : Snapshot) :
    Prop where
  freq : ∀ vfo, Allowed (freqOf vfo before)
    (outcomes reply readFreq (heardFreq reply) (heardSplitFreq reply) vfo) (freqOf vfo after)
  mode : ∀ vfo, Allowed (modeOf vfo before)
    (outcomes reply readMode (heardMode reply) (heardSplitMode reply) vfo) (modeOf vfo after)
  split : Allowed (splitOf before)
    ((heardSplit reply).map (Outcome.of fun s => some (splitReply s))).toList (splitOf after)

/-- The mode of VFO A is read again, as that of the transmit VFO. -/
def ReadAgain (reply : List UInt8 → Except BackendError (List UInt8)) : Prop :=
  splitOn reply = some .a ∧ ∃ x ∈ heardSplitMode reply, isRprtError x = false

/-- What the readers take an `RPRT` line for is what the snapshot holds already; and no DATA flag is
involved in a mode that the mode probe reads, unless the mode is read again. -/
structure Forgiving (reply : List UInt8 → Except BackendError (List UInt8)) (before : Snapshot) :
    Prop where
  failedMode : ∀ m ∈ heardMode reply, isRprtError m = true → ¬ ReadAgain reply →
    before.a.mode = .unknown ∧ before.a.modeKnown = true
  plainMode : ∀ m ∈ heardMode reply, isRprtError m = false → ¬ ReadAgain reply →
    ∀ mode known data, readMode m = some (mode, known, data) → data = false ∧ before.a.data = false
  failedSplit : ∀ s ∈ heardSplit reply, isRprtError s = true →
    before.split = false ∧ before.txVfo = (splitReply s).2

/-! ## What the readers make of an error line -/

section
variable {bytes : List UInt8}

theorem trim_of_isRprtError (error : isRprtError bytes = true) :
    ∃ code, trim (text (firstLine bytes)) = rprt ++ code := by
  obtain ⟨code, dropped⟩ := Option.isSome_iff_exists.mp error
  obtain ⟨front, whole, same⟩ := List.dropPrefix?_eq_some_iff.mp dropped
  exact ⟨code, by rw [whole, eq_of_beq same]⟩

theorem readFreq_of_isRprtError (error : isRprtError bytes = true) : readFreq bytes = none := by
  cases number : readFreq bytes with
  | none => rfl
  | some n => exact absurd (isRprtError_number number) (by rw [error]; decide)

theorem fromHamlibToken_of_isRprtError (error : isRprtError bytes = true) :
    Mode.fromHamlibToken (text (firstLine bytes)) = .unknown := by
  obtain ⟨code, line⟩ := trim_of_isRprtError error
  simp [Mode.fromHamlibToken, line, rprt]

theorem splitReply_of_isRprtError (error : isRprtError bytes = true) :
    (splitReply bytes).1 = false := by
  obtain ⟨code, line⟩ := trim_of_isRprtError error
  simp [splitReply, line, rprt]

theorem trim_trim (line : List Char) : trim (trim line) = trim line := by
  have front : (trim line).dropWhile isWhitespace = trim line := by
    refine List.dropWhile_eq_self_iff.mpr (fun some_ => ?_)
    have part : trim line <+: line.dropWhile isWhitespace := List.rdropWhile_prefix _ _
    obtain ⟨back, whole⟩ := part
    have longer : 0 < (line.dropWhile isWhitespace).length := by
      rw [← whole, List.length_append]
      omega
    have solid := List.dropWhile_get_zero_not isWhitespace line longer
    have same : (line.dropWhile isWhitespace).get ⟨0, longer⟩ = (trim line).get ⟨0, some_⟩ := by
      simp only [List.get_eq_getElem, ← whole, List.getElem_append_left some_]
    rwa [same] at solid
  have back := List.rdropWhile_idempotent isWhitespace (line.dropWhile isWhitespace)
  rw [trim, front]
  exact back

/-- The mode probe reads the tokens without DATA. -/
theorem fromHamlibToken_of_readMode {mode : Mode} {known data : Bool}
    (read : readMode bytes = some (mode, known, data)) :
    known = true ∧ mode ≠ .unknown ∧
      Mode.fromHamlibToken (text (firstLine bytes)) = if data then .unknown else mode := by
  rw [readMode, Mode.decomposeHamlibToken] at read
  cases dropped : (trim (text (firstLine bytes))).dropPrefix? pkt with
  | some base =>
      simp only [dropped] at read
      obtain ⟨named, ⟨⟩⟩ := Option.ite_none_left_eq_some.mp read
      obtain ⟨front, whole, same⟩ := List.dropPrefix?_eq_some_iff.mp dropped
      rw [eq_of_beq same] at whole
      refine ⟨rfl, named, ?_⟩
      simp [Mode.fromHamlibToken, whole, pkt]
  | none =>
      simp only [dropped] at read
      obtain ⟨named, ⟨⟩⟩ := Option.ite_none_left_eq_some.mp read
      refine ⟨rfl, named, ?_⟩
      simp only [Mode.fromHamlibToken, trim_trim]
      rfl

end

/-! ## A poll -/

section
variable (reply : List UInt8 → Except BackendError (List UInt8))

/-- The changes that a frequency and a split mode reply report. -/
def freqChanges (vfo : Vfo) (f : List UInt8) : List StateChange :=
  ((readFreq f).map (StateChange.freq vfo)).toList

def detailModeChanges (txVfo : Vfo) (m : List UInt8) : List StateChange :=
  if isRprtError m then [] else splitModeChanges txVfo m

/-- What a poll records of its probes. -/
def recorded : List StateChange :=
  (heardFreq reply).elim [] (freqChanges .a) ++
  (heardMode reply).elim [] (fun m => [.mode .a (Mode.fromHamlibToken (text (firstLine m)))]) ++
  (heardSplit reply).elim [] (fun s => [.split (splitReply s).1 (some (splitReply s).2)]) ++
  (splitOn reply).elim [] fun txVfo =>
    (heardSplitFreq reply).elim [] (freqChanges txVfo) ++
      (heardSplitMode reply).elim [] (detailModeChanges txVfo)

variable {reply}

theorem exec_submit {α : Type} (bytes : List UInt8) (expect : Expect)
    (next : List UInt8 → BackendCall α) (h : StateHandle) :
    (BackendCall.submit bytes expect >>= next).run.exec (answering reply) h =
      match reply bytes with
      | .ok r => (next r).run.exec (answering reply) h
      | .error error => (.error error, h) := by
  simp only [ExceptT.run_bind, Program.exec_bind, BackendCall.submit, ExceptT.run_mk,
    Program.exec_ask, Program.exec_done, answering]
  cases reply bytes <;> rfl

theorem exec_record {α : Type} (change : StateChange) (next : Unit → BackendCall α) (h : StateHandle) :
    (BackendCall.record change .pollDiff >>= next).run.exec (answering reply) h =
      (next ()).run.exec (answering reply) (h.record change .pollDiff) := rfl

theorem exec_recordRead {α β : Type} (read : Option β) (change : β → StateChange)
    (next : Unit → BackendCall α) (h : StateHandle) :
    (Rigctld.recordRead read change >>= next).run.exec (answering reply) h =
      (next ()).run.exec (answering reply) (recordAll h (read.map change).toList .pollDiff) := by
  cases read <;> rfl

theorem exec_recordChanges (changes : List StateChange) (h : StateHandle) :
    (BackendCall.recordAll changes .pollDiff).run.exec (answering reply) h =
      (.ok (), recordAll h changes .pollDiff) := by
  induction changes generalizing h with
  | nil => rfl
  | cons change changes ih => exact ih (h.record change .pollDiff)

/-- Reading the power records at most the power. -/
theorem exec_pollTxPower (h : StateHandle) :
    ∃ power : Option (Option TxPower), (Rigctld.pollTxPower.run.exec (answering reply) h).2 =
      recordAll h (power.map StateChange.txPower).toList .pollDiff := by
  unfold Rigctld.pollTxPower
  rw [exec_submit]
  cases reply Rigctld.pollGetRfpower with
  | error => exact ⟨none, rfl⟩
  | ok r =>
      dsimp only
      split
      · exact ⟨some none, rfl⟩
      · rw [ExceptT.run_bind, BackendCall.snapshot, ExceptT.run_mk, Program.exec_bind]
        simp only [Program.exec_ask, Program.exec_done, answering]
        rw [exec_submit]
        split
        · exact ⟨some _, rfl⟩
        · exact ⟨none, rfl⟩

theorem exec_pollSplitDetails (txVfo : Vfo) (h : StateHandle) :
    (Rigctld.pollSplitDetails txVfo).run.exec (answering reply) h =
      match reply Rigctld.pollGetSplitFreq with
      | .error error => (.error error, h)
      | .ok f =>
          match reply Rigctld.pollGetSplitMode with
          | .error error => (.error error, recordAll h (freqChanges txVfo f) .pollDiff)
          | .ok m => (.ok (), recordAll h (freqChanges txVfo f ++ detailModeChanges txVfo m) .pollDiff) := by
  unfold Rigctld.pollSplitDetails
  rw [exec_submit]
  cases reply Rigctld.pollGetSplitFreq with
  | error => rfl
  | ok f =>
    dsimp only
    have read : (if isRprtError f then none else parseU64 (firstLine f)) = readFreq f := by
      split
      · rw [readFreq_of_isRprtError ‹_›]
      · rfl
    rw [read, exec_recordRead, exec_submit]
    cases reply Rigctld.pollGetSplitMode with
    | error => rfl
    | ok m =>
      dsimp only
      rw [exec_recordChanges]
      simp [recordAll, freqChanges, detailModeChanges]

/-- A poll records what its probes report, and then at most a power. -/
theorem exec_poll (h : StateHandle) :
    ∃ power : Option (Option TxPower), (Rigctld.poll.run.exec (answering reply) h).2 =
      recordAll h (recorded reply ++ (power.map StateChange.txPower).toList) .pollDiff := by
  unfold Rigctld.poll
  rw [exec_submit]
  cases freq : reply Rigctld.pollGetFreq with
  | error =>
      refine ⟨none, ?_⟩
      simp [recorded, heardFreq, heardMode, heardSplit, splitOn, freq, Except.toOption, recordAll]
  | ok f =>
    dsimp only
    rw [exec_recordRead, exec_submit]
    cases mode : reply Rigctld.pollGetMode with
    | error =>
        refine ⟨none, ?_⟩
        simp [recorded, heardFreq, heardMode, heardSplit, splitOn, freq, mode, Except.toOption,
          freqChanges, readFreq]
    | ok m =>
      dsimp only
      rw [exec_record, exec_submit]
      cases split : reply Rigctld.pollGetSplit with
      | error =>
          refine ⟨none, ?_⟩
          simp [recorded, heardFreq, heardMode, heardSplit, splitOn, freq, mode, split,
            Except.toOption, freqChanges, readFreq, recordAll]
      | ok s =>
        dsimp only
        rw [exec_record]
        have past : recorded reply = freqChanges .a f ++
            [.mode .a (Mode.fromHamlibToken (text (firstLine m))),
              .split (splitReply s).1 (some (splitReply s).2)] ++
            (splitOn reply).elim [] fun txVfo =>
              (heardSplitFreq reply).elim [] (freqChanges txVfo) ++
                (heardSplitMode reply).elim [] (detailModeChanges txVfo) := by
          simp [recorded, heardFreq, heardMode, heardSplit, freq, mode, split, Except.toOption]
        have on : splitOn reply = if (splitReply s).1 then some (splitReply s).2 else none := by
          simp [splitOn, heardFreq, heardMode, heardSplit, freq, mode, split, Except.toOption]
        rw [past, on]
        cases enabled : (splitReply s).1 with
        | false =>
            obtain ⟨power, ends⟩ := @exec_pollTxPower reply (recordAll h (freqChanges .a f ++
              [.mode .a (Mode.fromHamlibToken (text (firstLine m))),
                .split false (some (splitReply s).2)]) .pollDiff)
            refine ⟨power, ?_⟩
            simpa [recordAll, freqChanges, readFreq] using ends
        | true =>
            rw [enabled] at on
            simp only [if_true, ExceptT.run_bind, Program.exec_bind, exec_pollSplitDetails]
            cases splitFreq : reply Rigctld.pollGetSplitFreq with
            | error =>
                refine ⟨none, ?_⟩
                simp [heardSplitFreq, heardSplitMode, on, splitFreq, Except.toOption, recordAll,
                  freqChanges, readFreq]
            | ok f' =>
              dsimp only
              cases splitMode : reply Rigctld.pollGetSplitMode with
              | error =>
                  refine ⟨none, ?_⟩
                  simp [heardSplitFreq, heardSplitMode, on, splitFreq, splitMode, Except.toOption,
                    recordAll, freqChanges, readFreq]
              | ok m' =>
                  obtain ⟨power, ends⟩ := @exec_pollTxPower reply (recordAll h (freqChanges .a f ++
                    [.mode .a (Mode.fromHamlibToken (text (firstLine m))),
                      .split true (some (splitReply s).2)] ++ (freqChanges (splitReply s).2 f' ++
                        detailModeChanges (splitReply s).2 m')) .pollDiff)
                  refine ⟨power, ?_⟩
                  simpa [heardSplitFreq, heardSplitMode, on, splitFreq, splitMode, Except.toOption,
                    recordAll, freqChanges, readFreq] using ends

end

/-! ## What is left of it -/

section
variable {h : StateHandle}

theorem recordAll_append (h : StateHandle) (first rest : List StateChange) :
    recordAll h (first ++ rest) .pollDiff = recordAll (recordAll h first .pollDiff) rest .pollDiff :=
  List.foldl_append

/-- Changes that do not concern a field leave it alone. -/
theorem view_recordAll {β : Type} {view : Snapshot → β} {changes : List StateChange}
    (silent : ∀ change ∈ changes, ∀ s : Snapshot, view (s.applyChange change).1 = view s)
    (h : StateHandle) :
    view (recordAll h changes .pollDiff).snapshot = view h.snapshot :=
  Ts590.recordAll_keeps (I := fun after => view after.snapshot = view h.snapshot)
    (fun same silent => (silent _).trans same) rfl silent

/-- A mode leaves every frequency and the split alone, and so on: a change concerns one field. -/
theorem freqOf_applyChange {change : StateChange} {vfo : Vfo} (other : ∀ hz, change ≠ .freq vfo hz)
    (s : Snapshot) : freqOf vfo (s.applyChange change).1 = freqOf vfo s := by
  cases change with
  | freq w hz =>
      cases w <;> cases vfo <;> first | rfl | exact absurd rfl (other hz)
  | mode w m => cases w <;> cases vfo <;> rfl
  | dataMode w on => cases w <;> cases vfo <;> rfl
  | _ => cases vfo <;> rfl

theorem modeOf_applyChange {change : StateChange} {vfo : Vfo} (mode : ∀ m, change ≠ .mode vfo m)
    (data : ∀ on, change ≠ .dataMode vfo on) (s : Snapshot) :
    modeOf vfo (s.applyChange change).1 = modeOf vfo s := by
  cases change with
  | mode w m =>
      cases w <;> cases vfo <;> first | rfl | exact absurd rfl (mode m)
  | dataMode w on =>
      cases w <;> cases vfo <;> first | rfl | exact absurd rfl (data on)
  | freq w hz => cases w <;> cases vfo <;> rfl
  | _ => cases vfo <;> rfl

theorem splitOf_applyChange {change : StateChange} (other : ∀ on tx, change ≠ .split on tx)
    (s : Snapshot) : splitOf (s.applyChange change).1 = splitOf s := by
  cases change with
  | split on tx => exact absurd rfl (other on tx)
  | freq w hz => cases w <;> rfl
  | mode w m => cases w <;> rfl
  | dataMode w on => cases w <;> rfl
  | _ => rfl

theorem Allowed.trans {α : Type} {before between after : α} {newer older : List (Outcome α)}
    (last : Allowed between newer after) (first : Allowed before older between) :
    Allowed before (newer ++ older) after := by
  induction newer with
  | nil =>
      obtain rfl : after = between := last
      exact first
  | cons outcome newer ih =>
      cases outcome with
      | failed => exact ih last
      | read value => exact last
      | garbled => trivial

/-- Failed probes say nothing. -/
theorem allowed_failed_iff {α : Type} {before after : α} {newer older : List (Outcome α)}
    (failed : ∀ outcome ∈ newer, outcome = .failed) :
    Allowed before (newer ++ older) after ↔ Allowed before older after := by
  induction newer with
  | nil => rfl
  | cons outcome newer ih =>
      obtain ⟨rfl, later⟩ := List.forall_mem_cons.mp failed
      exact ih later

/-- A probe that did not fail makes the older ones irrelevant. -/
theorem Allowed.cons_of_ne {α : Type} {between after : α} {outcome : Outcome α}
    (last : Allowed between [outcome] after) (succeeded : outcome ≠ .failed) (before : α)
    (older : List (Outcome α)) : Allowed before (outcome :: older) after := by
  cases outcome with
  | failed => exact absurd rfl succeeded
  | read value => exact last
  | garbled => trivial

theorem outcome_failed_iff {α : Type} {read : List UInt8 → Option α} {reply : List UInt8} :
    Outcome.of read reply = .failed ↔ isRprtError reply = true := by
  unfold Outcome.of
  cases isRprtError reply with
  | true => simp
  | false => cases read reply <;> simp

/-- A frequency reply of a VFO. -/
theorem allowed_freqChanges (vfo : Vfo) (f : List UInt8) (h : StateHandle) :
    Allowed (freqOf vfo h.snapshot) [Outcome.of readFreq f]
      (freqOf vfo (recordAll h (freqChanges vfo f) .pollDiff).snapshot) := by
  unfold Outcome.of freqChanges
  split
  · rename_i error
    rw [readFreq_of_isRprtError error]
    rfl
  · cases readFreq f with
    | none => trivial
    | some hz => cases vfo <;> rfl

/-- A split mode reply of a VFO; where it is an error, nothing is recorded. -/
theorem allowed_detailModeChanges (vfo : Vfo) (m : List UInt8) (h : StateHandle) :
    Allowed (modeOf vfo h.snapshot) [Outcome.of readMode m]
      (modeOf vfo (recordAll h (detailModeChanges vfo m) .pollDiff).snapshot) := by
  unfold Outcome.of detailModeChanges
  split
  · rfl
  · unfold readMode splitModeChanges
    dsimp only
    by_cases unknown : (Mode.decomposeHamlibToken (text (firstLine m))).1 = .unknown
    · rw [if_pos unknown]
      trivial
    · rw [if_neg unknown, if_neg unknown]
      cases vfo <;> rfl

end

section
variable (reply : List UInt8 → Except BackendError (List UInt8)) (h : StateHandle)

/-- The state after the frequency, after the mode and the split, and after the details. -/
def afterFreq : StateHandle := recordAll h ((heardFreq reply).elim [] (freqChanges .a)) .pollDiff

def afterMode : StateHandle :=
  recordAll (afterFreq reply h)
    ((heardMode reply).elim [] fun m => [.mode .a (Mode.fromHamlibToken (text (firstLine m)))]) .pollDiff

def afterSplit : StateHandle :=
  recordAll (afterMode reply h)
    ((heardSplit reply).elim [] fun s => [.split (splitReply s).1 (some (splitReply s).2)]) .pollDiff

def afterDetails : StateHandle :=
  recordAll (afterSplit reply h)
    ((splitOn reply).elim [] fun txVfo =>
      (heardSplitFreq reply).elim [] (freqChanges txVfo) ++
        (heardSplitMode reply).elim [] (detailModeChanges txVfo)) .pollDiff

variable {reply h}

/-- What a poll leaves is, but for the power, the state after the details. -/
theorem poll_leaves {β : Type} {view : Snapshot → β}
    (power : ∀ (s : Snapshot) p, view (s.applyChange (.txPower p)).1 = view s) :
    view (Rigctld.poll.run.exec (answering reply) h).2.snapshot =
      view (afterDetails reply h).snapshot := by
  obtain ⟨observed, ends⟩ := @exec_poll reply h
  rw [ends, recordAll_append]
  refine (view_recordAll (fun change mem s => ?_) _).trans ?_
  · obtain ⟨p, -, rfl⟩ := Option.map_eq_some_iff.mp (Option.mem_toList.mp mem)
    exact power s p
  · rw [recorded, recordAll_append, recordAll_append, recordAll_append]
    rfl

theorem mem_freqChanges {vfo : Vfo} {f : List UInt8} {change : StateChange}
    (mem : change ∈ freqChanges vfo f) : ∃ hz, change = .freq vfo hz := by
  obtain ⟨hz, -, rfl⟩ := Option.map_eq_some_iff.mp (Option.mem_toList.mp mem)
  exact ⟨hz, rfl⟩

theorem mem_detailModeChanges {vfo : Vfo} {m : List UInt8} {change : StateChange}
    (mem : change ∈ detailModeChanges vfo m) :
    (∃ mode, change = .mode vfo mode) ∨ ∃ on, change = .dataMode vfo on := by
  unfold detailModeChanges splitModeChanges at mem
  dsimp only at mem
  split at mem
  · cases mem
  · split at mem
    · cases mem
    · simp only [List.mem_cons, List.not_mem_nil, or_false] at mem
      exact mem.imp (fun is => ⟨_, is⟩) (fun is => ⟨_, is⟩)

/-- The details concern the transmit VFO. -/
theorem mem_details {change : StateChange}
    (mem : change ∈ (splitOn reply).elim [] fun txVfo =>
      (heardSplitFreq reply).elim [] (freqChanges txVfo) ++
        (heardSplitMode reply).elim [] (detailModeChanges txVfo)) :
    ∃ txVfo, splitOn reply = some txVfo ∧ ((∃ hz, change = .freq txVfo hz) ∨
      (∃ mode, change = .mode txVfo mode) ∨ ∃ on, change = .dataMode txVfo on) := by
  cases on : splitOn reply with
  | none =>
      rw [on] at mem
      cases mem
  | some txVfo =>
      refine ⟨txVfo, rfl, ?_⟩
      rw [on, Option.elim_some] at mem
      rcases List.mem_append.mp mem with first | second
      · cases heard : heardSplitFreq reply with
        | none =>
            rw [heard] at first
            cases first
        | some f =>
            rw [heard] at first
            exact .inl (mem_freqChanges first)
      · cases heard : heardSplitMode reply with
        | none =>
            rw [heard] at second
            cases second
        | some m =>
            rw [heard] at second
            exact .inr (mem_detailModeChanges second)

/-- The details of another VFO leave a frequency and a mode alone. -/
theorem details_other {β : Type} {view : Snapshot → β} {vfo : Vfo} (other : splitOn reply ≠ some vfo)
    (freq : ∀ w hz, w ≠ vfo → ∀ s : Snapshot, view (s.applyChange (.freq w hz)).1 = view s)
    (mode : ∀ w m, w ≠ vfo → ∀ s : Snapshot, view (s.applyChange (.mode w m)).1 = view s)
    (data : ∀ w on, w ≠ vfo → ∀ s : Snapshot, view (s.applyChange (.dataMode w on)).1 = view s) :
    view (afterDetails reply h).snapshot = view (afterSplit reply h).snapshot := by
  refine view_recordAll (fun change mem => ?_) _
  obtain ⟨txVfo, on, concerns⟩ := mem_details mem
  have away : txVfo ≠ vfo := fun same => other (same ▸ on)
  rcases concerns with ⟨hz, rfl⟩ | ⟨m, rfl⟩ | ⟨flag, rfl⟩
  · exact freq txVfo hz away
  · exact mode txVfo m away
  · exact data txVfo flag away

/-- The mode and the split probe leave every frequency alone. -/
theorem freqOf_afterSplit (vfo : Vfo) :
    freqOf vfo (afterSplit reply h).snapshot = freqOf vfo (afterFreq reply h).snapshot := by
  unfold afterSplit afterMode
  cases heardSplit reply <;> cases heardMode reply <;> cases vfo <;> rfl

/-- **Frequencies are learned right**, whichever probes fail. -/
theorem learns_freq (reply : List UInt8 → Except BackendError (List UInt8)) (h : StateHandle) (vfo : Vfo) :
    Allowed (freqOf vfo h.snapshot)
      (outcomes reply readFreq (heardFreq reply) (heardSplitFreq reply) vfo)
      (freqOf vfo (afterDetails reply h).snapshot) := by
  refine @Allowed.trans _ _ (freqOf vfo (afterSplit reply h).snapshot) _ _ _ ?_ ?_
  · split
    · rename_i on
      rw [afterDetails, on, Option.elim_some, recordAll_append]
      have last := @view_recordAll _ (freqOf vfo)
        ((heardSplitMode reply).elim [] (detailModeChanges vfo)) ?_
      · rw [last]
        cases heardSplitFreq reply with
        | none => rfl
        | some f => exact allowed_freqChanges vfo f _
      · intro change mem
        cases heard : heardSplitMode reply with
        | none =>
            rw [heard] at mem
            cases mem
        | some m =>
            rw [heard] at mem
            rcases mem_detailModeChanges mem with ⟨mode, rfl⟩ | ⟨on, rfl⟩ <;>
              exact freqOf_applyChange (fun _ same => nomatch same)
    · rename_i other
      refine details_other other (fun w hz away => ?_) (fun w m _ => ?_) (fun w on _ => ?_)
      · refine freqOf_applyChange (fun hz' same => ?_)
        exact away (StateChange.freq.inj same).1
      · exact freqOf_applyChange (fun _ same => nomatch same)
      · exact freqOf_applyChange (fun _ same => nomatch same)
  · rw [freqOf_afterSplit]
    unfold afterFreq
    cases heardFreq reply with
    | none =>
        split <;> rfl
    | some f =>
        split
        · rename_i here
          subst here
          exact allowed_freqChanges .a f h
        · rename_i away
          refine view_recordAll (fun change mem => ?_) h
          obtain ⟨hz, rfl⟩ := mem_freqChanges mem
          refine freqOf_applyChange (fun hz' same => ?_)
          exact away (StateChange.freq.inj same).1.symm

/-- The details of a VFO teach its mode right. -/
theorem learns_detailMode {vfo : Vfo} (on : splitOn reply = some vfo) :
    Allowed (modeOf vfo (afterSplit reply h).snapshot)
      ((heardSplitMode reply).map (Outcome.of readMode)).toList
      (modeOf vfo (afterDetails reply h).snapshot) := by
  rw [afterDetails, on, Option.elim_some, recordAll_append]
  have first := @view_recordAll _ (modeOf vfo) ((heardSplitFreq reply).elim [] (freqChanges vfo)) ?_
    (afterSplit reply h)
  · rw [← first]
    cases heardSplitMode reply with
    | none => rfl
    | some m => exact allowed_detailModeChanges vfo m _
  · intro change mem
    cases heard : heardSplitFreq reply with
    | none =>
        rw [heard] at mem
        cases mem
    | some f =>
        rw [heard] at mem
        obtain ⟨hz, rfl⟩ := mem_freqChanges mem
        exact modeOf_applyChange (fun _ same => nomatch same) (fun _ same => nomatch same)

theorem modeOf_details_other {vfo : Vfo} (other : splitOn reply ≠ some vfo) :
    modeOf vfo (afterDetails reply h).snapshot = modeOf vfo (afterSplit reply h).snapshot := by
  refine details_other other (fun w hz _ => ?_) (fun w m away => ?_) (fun w on away => ?_)
  · exact modeOf_applyChange (fun _ same => nomatch same) (fun _ same => nomatch same)
  · exact modeOf_applyChange (fun _ same => away (StateChange.mode.inj same).1)
      (fun _ same => nomatch same)
  · exact modeOf_applyChange (fun _ same => nomatch same)
      (fun _ same => away (StateChange.dataMode.inj same).1)

theorem afterFreq_modes (vfo : Vfo) :
    modeOf vfo (afterFreq reply h).snapshot = modeOf vfo h.snapshot := by
  refine view_recordAll (fun change mem => ?_) h
  cases heard : heardFreq reply with
  | none =>
      rw [heard] at mem
      cases mem
  | some f =>
      rw [heard] at mem
      obtain ⟨hz, rfl⟩ := mem_freqChanges mem
      exact modeOf_applyChange (fun _ same => nomatch same) (fun _ same => nomatch same)

/-- **The mode of VFO B is learned right.** -/
theorem learns_modeB (reply : List UInt8 → Except BackendError (List UInt8)) (h : StateHandle) :
    Allowed (modeOf .b h.snapshot)
      (outcomes reply readMode (heardMode reply) (heardSplitMode reply) .b)
      (modeOf .b (afterDetails reply h).snapshot) := by
  have current : modeOf .b (afterSplit reply h).snapshot = modeOf .b h.snapshot := by
    refine Eq.trans ?_ (@afterFreq_modes reply h .b)
    unfold afterSplit afterMode
    cases heardSplit reply <;> cases heardMode reply <;> rfl
  refine @Allowed.trans _ _ (modeOf .b (afterSplit reply h).snapshot) _ _ _ ?_ current
  split
  · exact learns_detailMode ‹_›
  · exact modeOf_details_other ‹_›

/-- What the mode probe leaves of VFO A. -/
theorem modeOf_afterSplit :
    modeOf .a (afterSplit reply h).snapshot = (heardMode reply).elim (modeOf .a h.snapshot) fun m =>
      (Mode.fromHamlibToken (text (firstLine m)), true, h.snapshot.a.data) := by
  have before := @afterFreq_modes reply h .a
  have data : (afterFreq reply h).snapshot.a.data = h.snapshot.a.data :=
    congrArg (fun mode => mode.2.2) before
  unfold afterSplit afterMode
  cases heardSplit reply <;> cases heardMode reply with
  | none => exact before
  | some m => exact congrArg (fun on => (_, true, on)) data

/-- The mode probe alone teaches VFO A right exactly where it does no harm. -/
theorem learns_currentMode_iff :
    Allowed (modeOf .a h.snapshot) ((heardMode reply).map (Outcome.of readMode)).toList
        (modeOf .a (afterSplit reply h).snapshot) ↔
      ∀ m ∈ heardMode reply,
        (isRprtError m = true → h.snapshot.a.mode = .unknown ∧ h.snapshot.a.modeKnown = true) ∧
        (isRprtError m = false → ∀ mode known data, readMode m = some (mode, known, data) →
          data = false ∧ h.snapshot.a.data = false) := by
  rw [modeOf_afterSplit]
  cases heardMode reply with
  | none => simp [Allowed]
  | some m =>
      simp only [Option.elim_some, Option.map_some, Option.toList_some, Option.mem_def,
        Option.some.injEq, forall_eq']
      cases error : isRprtError m with
      | true =>
          rw [outcome_failed_iff.mpr error, fromHamlibToken_of_isRprtError error]
          simp only [Allowed, modeOf, Snapshot.vfo, Prod.mk.injEq, and_true, forall_const,
            Bool.true_eq_false, false_imp_iff]
          exact and_congr eq_comm eq_comm
      | false =>
          simp only [Outcome.of, error, Bool.false_eq_true, if_false, false_imp_iff, true_and,
            true_imp_iff]
          cases read : readMode m with
          | none => simp [Allowed]
          | some value =>
              obtain ⟨mode, known, data⟩ := value
              obtain ⟨rfl, named, token⟩ := fromHamlibToken_of_readMode read
              simp only [Allowed, token, Option.some.injEq, Prod.mk.injEq]
              constructor
              · rintro ⟨same, -, held⟩ _ _ _ ⟨rfl, rfl, rfl⟩
                cases data with
                | true => exact absurd same.symm named
                | false => exact ⟨rfl, held⟩
              · intro plain
                obtain ⟨rfl, held⟩ := plain mode true data ⟨rfl, rfl, rfl⟩
                exact ⟨rfl, trivial, held⟩

theorem learns_modeA_iff (reply : List UInt8 → Except BackendError (List UInt8)) (h : StateHandle) :
    Allowed (modeOf .a h.snapshot)
        (outcomes reply readMode (heardMode reply) (heardSplitMode reply) .a)
        (modeOf .a (afterDetails reply h).snapshot) ↔
      (¬ ReadAgain reply → ∀ m ∈ heardMode reply,
        (isRprtError m = true → h.snapshot.a.mode = .unknown ∧ h.snapshot.a.modeKnown = true) ∧
        (isRprtError m = false → ∀ mode known data, readMode m = some (mode, known, data) →
          data = false ∧ h.snapshot.a.data = false)) := by
  rw [← learns_currentMode_iff, outcomes, if_pos rfl]
  by_cases again : ReadAgain reply
  · refine iff_of_true ?_ (fun once => absurd again once)
    obtain ⟨on, m, heard, succeeded⟩ := again
    have last := @learns_detailMode reply h .a on
    rw [Option.mem_def.mp heard] at last
    rw [if_pos on, Option.mem_def.mp heard]
    refine last.cons_of_ne (fun failed => ?_) _ _
    rw [outcome_failed_iff.mp failed] at succeeded
    cases succeeded
  · -- the details, if there are any, failed and left the mode alone
    have failed : ∀ outcome ∈ (if splitOn reply = some .a then
        ((heardSplitMode reply).map (Outcome.of readMode)).toList else []), outcome = .failed := by
      intro outcome mem
      split at mem
      · obtain ⟨m, heard, rfl⟩ := Option.map_eq_some_iff.mp (Option.mem_toList.mp mem)
        refine outcome_failed_iff.mpr ?_
        by_contra succeeded
        exact again ⟨‹_›, m, heard, Bool.eq_false_iff.mpr succeeded⟩
      · cases mem
    have same : modeOf .a (afterDetails reply h).snapshot = modeOf .a (afterSplit reply h).snapshot := by
      by_cases on : splitOn reply = some .a
      · have last := @learns_detailMode reply h .a on
        rw [if_pos on] at failed
        rw [← List.append_nil ((heardSplitMode reply).map (Outcome.of readMode)).toList] at last
        exact (allowed_failed_iff failed).mp last
      · exact modeOf_details_other on
    rw [allowed_failed_iff failed, same]
    exact ⟨fun learned _ => learned, fun learned => learned again⟩

/-- The split is taught right exactly where an error line is read as what the snapshot holds. -/
theorem learns_split_iff (reply : List UInt8 → Except BackendError (List UInt8)) (h : StateHandle) :
    Allowed (splitOf h.snapshot)
        ((heardSplit reply).map (Outcome.of fun s => some (splitReply s))).toList
        (splitOf (afterDetails reply h).snapshot) ↔
      ∀ s ∈ heardSplit reply, isRprtError s = true →
        h.snapshot.split = false ∧ h.snapshot.txVfo = (splitReply s).2 := by
  have details : splitOf (afterDetails reply h).snapshot = splitOf (afterSplit reply h).snapshot := by
    refine view_recordAll (fun change mem => ?_) _
    obtain ⟨txVfo, -, ⟨hz, rfl⟩ | ⟨m, rfl⟩ | ⟨flag, rfl⟩⟩ := mem_details mem <;>
      exact splitOf_applyChange (fun _ _ same => nomatch same)
  have earlier : splitOf (afterMode reply h).snapshot = splitOf h.snapshot := by
    have freq : splitOf (afterFreq reply h).snapshot = splitOf h.snapshot := by
      refine view_recordAll (fun change mem => ?_) h
      cases heard : heardFreq reply with
      | none =>
          rw [heard] at mem
          cases mem
      | some f =>
          rw [heard] at mem
          obtain ⟨hz, rfl⟩ := mem_freqChanges mem
          exact splitOf_applyChange (fun _ _ same => nomatch same)
    rw [← freq]
    unfold afterMode
    cases heardMode reply <;> rfl
  have after : splitOf (afterSplit reply h).snapshot =
      (heardSplit reply).elim (splitOf h.snapshot) splitReply := by
    unfold afterSplit
    cases heardSplit reply with
    | none => exact earlier
    | some s => rfl
  rw [details, after]
  cases heardSplit reply with
  | none => simp [Allowed]
  | some s =>
      simp only [Option.elim_some, Option.map_some, Option.toList_some, Option.mem_def,
        Option.some.injEq, forall_eq']
      cases error : isRprtError s with
      | true =>
          have off := splitReply_of_isRprtError error
          rw [outcome_failed_iff.mpr error]
          simp only [Allowed, splitOf, Prod.ext_iff, off, forall_const]
          exact and_congr eq_comm eq_comm
      | false => simp [Allowed, Outcome.of, error]

end

/-- **A failed probe teaches nothing**, and the others what they read, exactly where it does no harm that
the mode and the split reader take an error line for a reply. -/
theorem poll_learns_iff (reply : List UInt8 → Except BackendError (List UInt8)) (h : StateHandle) :
    Learns reply h.snapshot (Rigctld.poll.run.exec (answering reply) h).2.snapshot ↔
      Forgiving reply h.snapshot := by
  have freqs := fun vfo => @poll_leaves reply h _ (freqOf vfo) (fun _ _ => by cases vfo <;> rfl)
  have modes := fun vfo => @poll_leaves reply h _ (modeOf vfo) (fun _ _ => by cases vfo <;> rfl)
  have splits := @poll_leaves reply h _ splitOf (fun _ _ => rfl)
  constructor
  · rintro ⟨-, mode, split⟩
    have ofA := mode .a
    rw [modes, learns_modeA_iff] at ofA
    rw [splits, learns_split_iff] at split
    exact ⟨fun m heard error once => (ofA once m heard).1 error,
      fun m heard plain once => (ofA once m heard).2 plain, split⟩
  · rintro ⟨failedMode, plainMode, failedSplit⟩
    refine ⟨fun vfo => ?_, fun vfo => ?_, ?_⟩
    · rw [freqs]
      exact learns_freq reply h vfo
    · rw [modes]
      cases vfo with
      | a =>
          rw [learns_modeA_iff]
          exact fun once m heard => ⟨fun error => failedMode m heard error once,
            fun plain => plainMode m heard plain once⟩
      | b => exact learns_modeB reply h
    · rw [splits, learns_split_iff]
      exact failedSplit

/-- A rig that answers every command with the given lines, the power queries with an error. -/
def rigSaying (freq mode split : List UInt8) (bytes : List UInt8) : Except BackendError (List UInt8) :=
  if bytes = Rigctld.pollGetFreq then .ok freq
  else if bytes = Rigctld.pollGetMode then .ok mode
  else if bytes = Rigctld.pollGetSplit then .ok split
  else .ok (Downstream.line (Ts590.ascii (rprt ++ ['-', '1', '1'])))

/-- A rig that cannot tell its frequency, in CW and without split. -/
def noFrequency : List UInt8 → Except BackendError (List UInt8) :=
  rigSaying (Downstream.line (Ts590.ascii (rprt ++ ['-', '1', '1'])))
    (Downstream.line (Ts590.ascii ['C', 'W']) ++ Downstream.line (Ts590.ascii ['5', '0', '0']))
    (Downstream.line (Ts590.ascii ['0']) ++ Downstream.line (Ts590.ascii ['V', 'F', 'O', 'A']))

theorem poll_learns_noFrequency :
    Learns noFrequency {} (Rigctld.poll.run.exec (answering noFrequency) {}).2.snapshot := by
  refine (poll_learns_iff noFrequency {}).mpr ⟨?_, ?_, ?_⟩
  · rintro m ⟨⟩ error
    exact absurd error (by decide)
  · rintro m ⟨⟩ - - mode known data read
    have plain : readMode (Downstream.line (Ts590.ascii ['C', 'W']) ++
        Downstream.line (Ts590.ascii ['5', '0', '0'])) = some (.cw, true, false) := by decide
    rw [plain] at read
    obtain ⟨rfl, rfl, rfl⟩ := read
    exact ⟨rfl, rfl⟩
  · rintro s ⟨⟩ error
    exact absurd error (by decide)

/-- A rig that cannot tell its mode. -/
def noMode : List UInt8 → Except BackendError (List UInt8) :=
  rigSaying (Downstream.line (Ts590.ascii ['7', '0', '0', '0', '0', '0', '0']))
    (Downstream.line (Ts590.ascii (rprt ++ ['-', '1', '1'])))
    (Downstream.line (Ts590.ascii ['0']) ++ Downstream.line (Ts590.ascii ['V', 'F', 'O', 'A']))

/-- VFO A, in USB before, is recorded in an unknown mode that counts as known. -/
theorem failed_mode_teaches :
    (∃ m ∈ heardMode noMode, isRprtError m = true) ∧
      ¬ Learns noMode {} (Rigctld.poll.run.exec (answering noMode) {}).2.snapshot := by
  have heard : heardMode noMode = some (Downstream.line (Ts590.ascii (rprt ++ ['-', '1', '1']))) := by
    decide
  have error : isRprtError (Downstream.line (Ts590.ascii (rprt ++ ['-', '1', '1']))) = true := by
    decide
  refine ⟨⟨_, heard, error⟩, fun learns => ?_⟩
  have mode := learns.mode .a
  have outcome : outcomes noMode readMode (heardMode noMode) (heardSplitMode noMode) .a = [.failed] := by
    decide
  rw [outcome] at mode
  have after : modeOf .a (Rigctld.poll.run.exec (answering noMode) {}).2.snapshot =
      (.unknown, true, false) := by
    have single : splitOn noMode ≠ some .a := by decide
    have leaves := @poll_leaves noMode {} _ (modeOf .a) (fun _ _ => rfl)
    rw [leaves, modeOf_details_other single, modeOf_afterSplit, heard, Option.elim_some,
      fromHamlibToken_of_isRprtError error]
  rw [after] at mode
  exact absurd (congrArg Prod.fst mode) (by decide)

end CatHub.Bridge
