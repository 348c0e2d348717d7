/-
# CatHub.Radio.Rigctld — the out-of-process `rigctld` bridge backend.

The hub is the only client of a private `rigctld` and speaks its net protocol.  A poll reads the
frequency, the mode and the split of whatever the rig calls current, and files the first two under
VFO A; a modeled write turns into one command, and is recorded once its reply is no error.
-/
import CatHub.Radio.Backend
import CatHub.Radio.Hamlib
import Mathlib.Data.List.TakeWhile

namespace CatHub.Radio

open Systems

namespace Rigctld

open Ts590 (ascii decimal fromUtf8 trim parseU64)

/-! ## Lines -/

/-- The line feed that ends a line. -/
def newline : UInt8 := 0x0A

/-- The text of some bytes, empty where they are not UTF-8. -/
def text (bytes : List UInt8) : List Char := (fromUtf8 bytes).getD []

def firstLine (bytes : List UInt8) : List UInt8 := bytes.takeWhile (· != newline)

def nthLine (bytes : List UInt8) (n : Nat) : List UInt8 :=
  (bytes.splitOnP (· == newline))[n]?.getD []

/-- What a status reply begins with. -/
def rprt : List Char := ['R', 'P', 'R', 'T', ' ']

/-- Check a status reply: a code other than zero is an error, and what is no status is success. -/
def checkRprt (bytes : List UInt8) : BackendCall Unit :=
  let line := trim (text (firstLine bytes))
  match line.dropPrefix? rprt with
  | some code =>
      if trim code = ['0'] then return ()
      else throw (.rejected ("rigctld " ++ String.ofList line))
  | none => return ()

def isRprtError (bytes : List UInt8) : Bool :=
  ((trim (text (firstLine bytes))).dropPrefix? rprt).isSome

theorem firstLine_append (line rest : List UInt8) :
    firstLine (line ++ newline :: rest) = firstLine line := by
  induction line with
  | nil => rfl
  | cons byte line ih =>
      rw [List.cons_append, firstLine, firstLine, List.takeWhile_cons, List.takeWhile_cons]
      split
      · rw [firstLine, firstLine] at ih
        rw [ih]
      · rfl

theorem firstLine_solid {line : List UInt8} (solid : newline ∉ line) : firstLine line = line := by
  apply List.takeWhile_eq_self_iff.mpr
  intro byte mem
  have ne : byte ≠ newline := fun same => solid (same ▸ mem)
  simpa using ne

/-! ## Commands -/

def pollGetFreq : List UInt8 := ascii ['f', '\n']
def pollGetMode : List UInt8 := ascii ['m', '\n']
def pollGetSplit : List UInt8 := ascii ['s', '\n']
def pollGetSplitFreq : List UInt8 := ascii ['i', '\n']
def pollGetSplitMode : List UInt8 := ascii ['x', '\n']
def pollGetRfpower : List UInt8 := ascii ['l', ' ', 'R', 'F', 'P', 'O', 'W', 'E', 'R', '\n']

/-- `F {hz}`. -/
def setFreqCommand (hz : Nat) : List UInt8 := ascii ['F', ' '] ++ decimal 1 hz ++ [newline]

/-- `M {token} 0`. -/
def setModeCommand (token : List Char) : List UInt8 :=
  ascii (['M', ' '] ++ token ++ [' ', '0', '\n'])

/-- `S {on} {vfo}`. -/
def setSplitCommand (enabled : Bool) (vfo : Vfo) : List UInt8 :=
  ascii (['S', ' ', if enabled then '1' else '0', ' '] ++ vfoName vfo ++ ['\n'])

/-- `T {on}`. -/
def setPttCommand (keyed : Bool) (source : PttSource) : List UInt8 :=
  let on := if keyed then
      match source with
      | .generic => '1'
      | .mic => '2'
      | .data => '3'
    else '0'
  ascii ['T', ' ', on, '\n']

/-- `2 {relative} {hz} {token}`: convert a relative power to milliwatts. -/
def power2mWCommand (relative : List Char) (hz : Nat) (token : List Char) : List UInt8 :=
  ascii (['2', ' '] ++ relative ++ [' ']) ++ decimal 1 hz ++ ascii ([' '] ++ token ++ ['\n'])

/-! ## The poll -/

/-- Record a value that a reply carried, if it could be read. -/
def recordRead {α : Type} (read : Option α) (change : α → StateChange) : BackendCall Unit :=
  match read with
  | some value => BackendCall.record (change value) .pollDiff
  | none => return ()

/-- The changes that a split mode reply reports; an unknown token reports none. -/
def splitModeChanges (txVfo : Vfo) (reply : List UInt8) : List StateChange :=
  let (mode, data) := Mode.decomposeHamlibToken (text (firstLine reply))
  if mode = .unknown then [] else [.mode txVfo mode, .dataMode txVfo data]

def pollSplitDetails (txVfo : Vfo) : BackendCall Unit := do
  let splitFrequency ← BackendCall.submit pollGetSplitFreq (.lines 1)
  recordRead (if isRprtError splitFrequency then none else parseU64 (firstLine splitFrequency))
    (.freq txVfo)
  let splitMode ← BackendCall.submit pollGetSplitMode (.lines 2)
  BackendCall.recordAll (if isRprtError splitMode then [] else splitModeChanges txVfo splitMode)
    .pollDiff

/-- The power that the reply to a conversion carries. -/
def convertedPower (relativeMillionths : Nat) (reply : List UInt8) : Option TxPower :=
  if isRprtError reply then none
  else do
    let milliwatts ← parseUnsigned (2 ^ 32) (trim (text (firstLine reply)))
    TxPower.fromRelativeMillionths relativeMillionths milliwatts

def pollTxPower : BackendCall Unit := do
  let relativeReply ← BackendCall.submit pollGetRfpower (.lines 1)
  let relativeText := trim (text (firstLine relativeReply))
  match TxPower.parseRelativeMillionths relativeText with
  | none => BackendCall.record (.txPower none) .pollDiff
  | some relativeMillionths =>
      let snapshot ← BackendCall.snapshot
      let tx := snapshot.vfo (if snapshot.split then snapshot.txVfo else snapshot.rxVfo)
      let milliwattsReply ← BackendCall.submit
        (power2mWCommand relativeText tx.freqHz (tx.mode.hamlibTokenWithData tx.data)) (.lines 1)
      BackendCall.record (.txPower (convertedPower relativeMillionths milliwattsReply)) .pollDiff

/-- The split flag and the transmit VFO of a split reply. -/
def splitReply (reply : List UInt8) : Bool × Vfo :=
  (trim (text (firstLine reply)) == ['1'],
    if eqIgnoreAsciiCase (trim (text (nthLine reply 1))) (vfoName .b) then .b else .a)

def poll : BackendCall Unit := do
  let f ← BackendCall.submit pollGetFreq (.lines 1)
  recordRead (parseU64 (firstLine f)) (.freq .a)
  let m ← BackendCall.submit pollGetMode (.lines 2)
  BackendCall.record (.mode .a (Mode.fromHamlibToken (text (firstLine m)))) .pollDiff
  let s ← BackendCall.submit pollGetSplit (.lines 2)
  let split := splitReply s
  BackendCall.record (.split split.1 (some split.2)) .pollDiff
  if split.1 then pollSplitDetails split.2
  pollTxPower

/-! ## Writes -/

/-- Send one command, check its reply, and record the write. -/
def applyCommand (command : List UInt8) (mutation : StateMutation) : BackendCall Unit := do
  let reply ← BackendCall.submit command (.lines 1)
  checkRprt reply
  BackendCall.record mutation.intoChange .optimisticWrite

/-- A modeled write.  A frequency or a mode names no VFO; the DATA flag is composed onto the base mode
of the snapshot. -/
def apply (mutation : StateMutation) : BackendCall Unit :=
  match mutation with
  | .setVfoFreq _ hz => applyCommand (setFreqCommand hz) mutation
  | .setMode _ mode => applyCommand (setModeCommand mode.hamlibToken) mutation
  | .setDataMode vfo on => do
      let snapshot ← BackendCall.snapshot
      applyCommand (setModeCommand ((snapshot.vfo vfo).mode.hamlibTokenWithData on)) mutation
  | .setSplit enabled txVfo => applyCommand (setSplitCommand enabled (txVfo.getD .b)) mutation
  | .setPtt keyed source => applyCommand (setPttCommand keyed source) mutation
  | .setRxVfo _ | .setRit .. | .setXit .. => throw .unsupported

end Rigctld

/-- The bridge: no native push, and no passthrough. -/
def rigctldBackend : RadioBackend where
  poll := Rigctld.poll
  apply := Rigctld.apply
  passthrough := fun _ => throw .unsupported
  recordEvent := fun h _ _ => (h, false)
  nativePushEnable := none
  hasRit := false
  hasXit := false

end CatHub.Radio
