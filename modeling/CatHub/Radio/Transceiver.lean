/-
# CatHub.Radio.Transceiver — a TS-590 as its CAT port shows it.

Two VFOs with a frequency, a mode digit and a DATA flag each, the receive VFO (`FR`), the transmit
VFO (`FT`) and the transmit state.  `MD` and `DA` act on the receive VFO.  A frequency set may
recall a stored mode for its VFO; `stored` says what the radio finds in its memory, `none` that it
keeps the mode it has.
-/
import CatHub.Radio.Ts590

namespace CatHub.Radio

open Ts590

/-! ## The radio -/

/-- One VFO of the radio. -/
structure VfoSettings where
  freqHz : Nat := 0
  modeDigit : UInt8 := 0x32
  data : Bool := false
  deriving DecidableEq, Repr

/-- The radio. -/
structure Transceiver where
  a : VfoSettings := {}
  b : VfoSettings := {}
  rx : Vfo := .a
  tx : Vfo := .a
  keyed : Bool := false
  deriving DecidableEq, Repr

/-- A stored mode: the mode digit and the DATA flag. -/
abbrev StoredMode := UInt8 × Bool

namespace Transceiver

def vfo (r : Transceiver) : Vfo → VfoSettings
  | .a => r.a
  | .b => r.b

def setVfo (r : Transceiver) (target : VfoSettings) : Vfo → Transceiver
  | .a => { r with a := target }
  | .b => { r with b := target }

/-- Split is on exactly when the radio transmits on the other VFO. -/
def split (r : Transceiver) : Bool := r.rx != r.tx

/-- Set a frequency, and the mode that the radio has stored for it. -/
def tune (r : Transceiver) (stored : Option StoredMode) (vfo : Vfo) (hz : Nat) : Transceiver :=
  let target := match stored with
    | none => { r.vfo vfo with freqHz := hz }
    | some (modeDigit, data) => { freqHz := hz, modeDigit, data }
  r.setVfo target vfo

/-- One command with its payload.  A command that the model has no state for changes nothing. -/
def command (r : Transceiver) (stored : Option StoredMode) (verb payload : List UInt8) :
    Transceiver :=
  if verb = ascii ['F', 'A'] then r.tune stored .a (decimalValue (payload.map (·.toNat - 48)))
  else if verb = ascii ['F', 'B'] then r.tune stored .b (decimalValue (payload.map (·.toNat - 48)))
  else if verb = ascii ['F', 'R'] then { r with rx := (parseRxVfoDigit payload).getD r.rx }
  else if verb = ascii ['F', 'T'] then { r with tx := (parseRxVfoDigit payload).getD r.tx }
  else if verb = ascii ['M', 'D'] then
    match payload.head? with
    | some digit => r.setVfo { r.vfo r.rx with modeDigit := digit } r.rx
    | none => r
  else if verb = ascii ['D', 'A'] then
    match payload.head? with
    | some digit => r.setVfo { r.vfo r.rx with data := digit == 0x31 } r.rx
    | none => r
  else if verb = ascii ['T', 'X'] then { r with keyed := true }
  else if verb = ascii ['R', 'X'] then { r with keyed := false }
  else r

/-- Obey the frame whose bytes have arrived up to its terminator. -/
def obey (r : Transceiver) (stored : Option StoredMode) (body : List UInt8) : Transceiver :=
  match splitFrame body with
  | some (verb, payload) => r.command stored verb payload
  | none => r

/-- Take bytes off the line, the first of which continue the frame in `buffer`. -/
def receive (r : Transceiver) (stored : Option StoredMode) (buffer : List UInt8) :
    List UInt8 → Transceiver
  | [] => r
  | byte :: rest =>
      if byte = terminator then (r.obey stored buffer).receive stored [] rest
      else r.receive stored (buffer ++ [byte]) rest

/-- Execute the frames of one write. -/
def execute (r : Transceiver) (stored : Option StoredMode) (bytes : List UInt8) : Transceiver :=
  r.receive stored [] bytes

theorem vfo_setVfo (r : Transceiver) (target : VfoSettings) (v w : Vfo) :
    (r.setVfo target v).vfo w = if w = v then target else r.vfo w := by
  cases v <;> cases w <;> rfl

/-- Setting one VFO leaves the rest of the radio alone. -/
theorem setVfo_rest (r : Transceiver) (target : VfoSettings) (v : Vfo) :
    (r.setVfo target v).rx = r.rx ∧ (r.setVfo target v).tx = r.tx ∧
      (r.setVfo target v).keyed = r.keyed := by
  cases v <;> exact ⟨rfl, rfl, rfl⟩

/-! ## What the frames of a write do -/

/-- Bytes that do not end a frame only fill the buffer. -/
theorem receive_body (r : Transceiver) (stored : Option StoredMode) (buffer body rest : List UInt8)
    (open_ : ∀ byte ∈ body, byte ≠ terminator) :
    r.receive stored buffer (body ++ rest) = r.receive stored (buffer ++ body) rest := by
  induction body generalizing buffer with
  | nil => simp
  | cons byte body ih =>
      obtain ⟨first, others⟩ := List.forall_mem_cons.mp open_
      rw [List.cons_append, receive, if_neg first, ih _ others]
      simp

/-- A complete frame is obeyed. -/
theorem execute_frame (r : Transceiver) (stored : Option StoredMode) (body : List UInt8)
    (open_ : ∀ byte ∈ body, byte ≠ terminator) :
    r.execute stored (body ++ [terminator]) = r.obey stored body := by
  rw [execute, receive_body r stored [] body [terminator] open_]
  rfl

/-- The digits that the radio reads off decimal text are those that were printed. -/
theorem digits_decimal (width n : Nat) :
    (decimal width n).map (·.toNat - 48) = paddedDigits width n := by
  rw [decimal, List.map_map]
  conv_rhs => rw [← List.map_id (paddedDigits width n)]
  apply List.map_congr_left
  intro d mem
  have figures : ∀ d < 10, (d + 48).toUInt8.toNat - 48 = d := by decide
  exact figures d (lt_ten_of_mem_paddedDigits mem)

/-- A frequency frame of any number tunes the VFO to it. -/
theorem execute_freqSet (r : Transceiver) (stored : Option StoredMode) (vfo : Vfo) (hz : Nat) :
    r.execute stored (freqSet vfo hz) = r.tune stored vfo hz := by
  have open_ : ∀ byte ∈ freqVerb vfo ++ decimal 11 hz, byte ≠ terminator := by
    intro byte mem
    rcases List.mem_append.mp mem with inVerb | inDigits
    · exact ne_terminator_of_alphabetic (freqVerb_letters vfo byte inVerb)
    · exact (decimal_figures inDigits).1
  have split : splitFrame (freqVerb vfo ++ decimal 11 hz) = some (freqVerb vfo, decimal 11 hz) := by
    simpa using @splitFrame_freq vfo hz [] (.inl rfl)
  have value : decimalValue ((decimal 11 hz).map (·.toNat - 48)) = hz := by
    rw [digits_decimal, decimalValue_paddedDigits]
  rw [freqSet, execute_frame r stored _ open_, obey, split]
  cases vfo with
  | a => exact congrArg (r.tune stored .a) value
  | b => exact congrArg (r.tune stored .b) value

theorem execute_modeSet (r : Transceiver) (stored : Option StoredMode) (mode : Mode) :
    r.execute stored (ascii ['M', 'D'] ++ [mode.toKenwoodDigit, terminator]) =
      r.setVfo { r.vfo r.rx with modeDigit := mode.toKenwoodDigit } r.rx := by
  cases mode <;> rfl

theorem execute_dataSet (r : Transceiver) (stored : Option StoredMode) (on : Bool) :
    r.execute stored (ascii (if on then ['D', 'A', '1', ';'] else ['D', 'A', '0', ';'])) =
      r.setVfo { r.vfo r.rx with data := on } r.rx := by
  cases on <;> rfl

theorem execute_vfoSelect (r : Transceiver) (stored : Option StoredMode) (rx tx : Vfo) :
    r.execute stored (rxVfoSet rx ++ txVfoSet tx) = { r with rx, tx } := by
  cases rx <;> cases tx <;> rfl

end Transceiver

end CatHub.Radio
