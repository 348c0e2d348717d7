/-
# CatHub.Radio.Ts590 — the native TS-590 backend.

Kenwood `;`-terminated ASCII CAT: how a frame is taken apart, which changes a frame from the radio
records, and which bytes and which records a modeled write consists of.  A write is fire and
forget: `applyBytes` is built from the snapshot that the write found, goes out, and `applyRecords`
is recorded after the link has taken the bytes.
-/
import CatHub.Radio.State
import Mathlib.Data.Nat.Digits.Lemmas

namespace CatHub.Radio.Ts590

/-! ## Text -/

/-- The bytes of an ASCII text. -/
def ascii (text : List Char) : List UInt8 := text.map (·.toNat.toUInt8)

/-- The frame terminator `;`. -/
def terminator : UInt8 := 0x3B

/-- The scalar value that the bytes of one UTF-8 sequence carry, if the sequence is well formed:
not overlong, no surrogate, within Unicode. -/
def scalar (least lead : Nat) (continuation : List UInt8) : Option Char :=
  let value := continuation.foldl (fun value byte => value * 64 + byte.toNat % 64) lead
  if continuation.all (fun byte => byte.toNat / 64 == 2) && least ≤ value && value.isValidChar then
    some (Char.ofNat value)
  else none

/-- Decode UTF-8. -/
def fromUtf8 : List UInt8 → Option (List Char)
  | [] => some []
  | lead :: rest =>
      if lead < 0x80 then do return Char.ofNat lead.toNat :: (← fromUtf8 rest)
      else match rest with
        | [] => none
        | b₁ :: rest =>
            if 0xC0 ≤ lead && lead < 0xE0 then do
              return (← scalar 0x80 (lead.toNat % 32) [b₁]) :: (← fromUtf8 rest)
            else match rest with
              | [] => none
              | b₂ :: rest =>
                  if 0xE0 ≤ lead && lead < 0xF0 then do
                    return (← scalar 0x800 (lead.toNat % 16) [b₁, b₂]) :: (← fromUtf8 rest)
                  else match rest with
                    | [] => none
                    | b₃ :: rest =>
                        if 0xF0 ≤ lead && lead < 0xF8 then do
                          return (← scalar 0x10000 (lead.toNat % 8) [b₁, b₂, b₃]) ::
                            (← fromUtf8 rest)
                        else none

/-- Unicode white space. -/
def isWhitespace (c : Char) : Bool :=
  let value := c.toNat
  (0x9 ≤ value && value ≤ 0xD) || value == 0x20 || value == 0x85 || value == 0xA0 ||
    value == 0x1680 || (0x2000 ≤ value && value ≤ 0x200A) || value == 0x2028 || value == 0x2029 ||
    value == 0x202F || value == 0x205F || value == 0x3000

/-- The text without its leading and trailing white space. -/
def trim (text : List Char) : List Char :=
  ((text.dropWhile isWhitespace).reverse.dropWhile isWhitespace).reverse

/-- The number that decimal digits, most significant first, stand for. -/
def decimalValue (digits : List Nat) : Nat := Nat.ofDigits 10 digits.reverse

/-- Parse an unsigned 64-bit number: an optional `+`, then digits, in surrounding white space. -/
def parseU64 (bytes : List UInt8) : Option Nat := do
  let text := trim (← fromUtf8 bytes)
  let digits := match text with
    | '+' :: digits => digits
    | _ => text
  if digits.isEmpty || !digits.all (·.isDigit) then none
  else
    let value := decimalValue (digits.map (·.toNat - 48))
    if value < 2 ^ 64 then some value else none

/-- The digits of a number, most significant first, padded with zeros to `width`. -/
def paddedDigits (width n : Nat) : List Nat :=
  let digits := (Nat.digits 10 n).reverse
  List.replicate (width - digits.length) 0 ++ digits

/-- A number as zero-padded decimal text. -/
def decimal (width n : Nat) : List UInt8 := (paddedDigits width n).map (fun d => (d + 48).toUInt8)

/-! ### Decimal text round trip -/

theorem decimalValue_paddedDigits (width n : Nat) : decimalValue (paddedDigits width n) = n := by
  rw [decimalValue, paddedDigits, List.reverse_append, List.reverse_reverse,
    List.reverse_replicate, Nat.ofDigits_append_replicate_zero, Nat.ofDigits_digits]

theorem lt_ten_of_mem_paddedDigits {width n d : Nat} (h : d ∈ paddedDigits width n) : d < 10 := by
  rcases List.mem_append.mp h with zero | digit
  · rw [List.eq_of_mem_replicate zero]
    omega
  · exact Nat.digits_lt_base (by omega) (List.mem_reverse.mp digit)

theorem paddedDigits_ne_nil {width : Nat} (n : Nat) (wide : 0 < width) :
    paddedDigits width n ≠ [] := by
  intro none
  have len := congrArg List.length none
  simp only [paddedDigits, List.length_append, List.length_replicate, List.length_nil] at len
  omega

theorem length_paddedDigits (width n : Nat) :
    (paddedDigits width n).length = max width (Nat.digits 10 n).length := by
  simp only [paddedDigits, List.length_append, List.length_replicate, List.length_reverse]
  omega

/-- Decimal text is as wide as asked for exactly where the number fits. -/
theorem length_decimal_iff {width n : Nat} : (decimal width n).length = width ↔ n < 10 ^ width := by
  rw [decimal, List.length_map, length_paddedDigits, max_eq_left_iff]
  exact Nat.digits_length_le_iff (by omega) n

/-- The bytes of decimal text are digits. -/
theorem mem_decimal {width n : Nat} {byte : UInt8} (h : byte ∈ decimal width n) :
    ∃ d < 10, byte = (d + 48).toUInt8 := by
  obtain ⟨d, mem, rfl⟩ := List.mem_map.mp h
  exact ⟨d, lt_ten_of_mem_paddedDigits mem, rfl⟩

/-- Digits are ASCII characters that are neither white space nor a sign. -/
theorem digit_char : ∀ d < 10,
    (d + 48).toUInt8 < 0x80 ∧ (Char.ofNat (d + 48).toUInt8.toNat).isDigit = true ∧
      isWhitespace (Char.ofNat (d + 48).toUInt8.toNat) = false ∧
      (Char.ofNat (d + 48).toUInt8.toNat).toNat - 48 = d ∧
      Char.ofNat (d + 48).toUInt8.toNat ≠ '+' := by
  decide

theorem fromUtf8_ascii (bytes : List UInt8) (h : ∀ byte ∈ bytes, byte < 0x80) :
    fromUtf8 bytes = some (bytes.map fun byte => Char.ofNat byte.toNat) := by
  induction bytes with
  | nil => rfl
  | cons byte bytes ih =>
      obtain ⟨first, others⟩ := List.forall_mem_cons.mp h
      rw [fromUtf8.eq_def]
      simp only [first, if_true, ih others]
      rfl

theorem trim_solid (text : List Char) (h : ∀ c ∈ text, isWhitespace c = false) :
    trim text = text := by
  have keeps : ∀ l : List Char, (∀ c ∈ l, isWhitespace c = false) →
      l.dropWhile isWhitespace = l := by
    intro l solid
    cases l with
    | nil => rfl
    | cons c l => rw [List.dropWhile_cons_of_neg (by simp [solid c])]
  rw [trim, keeps text h, keeps _ (fun c mem => h c (List.mem_reverse.mp mem)),
    List.reverse_reverse]

/-- A 64-bit number survives its own zero-padded text. -/
theorem parseU64_decimal {width n : Nat} (wide : 0 < width) (fits : n < 2 ^ 64) :
    parseU64 (decimal width n) = some n := by
  set text := (decimal width n).map fun byte => Char.ofNat byte.toNat with isText
  have chars : ∀ c ∈ text, ∃ d < 10, c = Char.ofNat (d + 48).toUInt8.toNat := by
    intro c mem
    obtain ⟨byte, digit, rfl⟩ := List.mem_map.mp mem
    obtain ⟨d, small, rfl⟩ := mem_decimal digit
    exact ⟨d, small, rfl⟩
  have ascii : fromUtf8 (decimal width n) = some text := by
    apply fromUtf8_ascii
    intro byte mem
    obtain ⟨d, small, rfl⟩ := mem_decimal mem
    exact (digit_char d small).1
  have solid : trim text = text := by
    apply trim_solid
    intro c mem
    obtain ⟨d, small, rfl⟩ := chars c mem
    exact (digit_char d small).2.2.1
  have digits : text.all (·.isDigit) = true := by
    rw [List.all_eq_true]
    intro c mem
    obtain ⟨d, small, rfl⟩ := chars c mem
    exact (digit_char d small).2.1
  have value : text.map (·.toNat - 48) = paddedDigits width n := by
    rw [isText, decimal, List.map_map, List.map_map]
    conv_rhs => rw [← List.map_id (paddedDigits width n)]
    apply List.map_congr_left
    intro d mem
    exact (digit_char d (lt_ten_of_mem_paddedDigits mem)).2.2.2.1
  have some_ : text ≠ [] := by
    intro none
    rw [none] at value
    exact paddedDigits_ne_nil n wide value.symm
  obtain ⟨c, rest, form⟩ := List.exists_cons_of_ne_nil some_
  have unsigned : c ≠ '+' := by
    obtain ⟨d, small, rfl⟩ := chars c (by rw [form]; exact List.mem_cons_self)
    exact (digit_char d small).2.2.2.2
  rw [form] at digits value solid ascii
  have plain : (match c :: rest with | '+' :: digits => digits | _ => c :: rest) = c :: rest := by
    split
    · rename_i same
      exact absurd (List.cons.inj same).1 unsigned
    · rfl
  rw [parseU64, ascii, Option.bind_eq_bind, Option.bind_some, solid]
  simp only [plain, digits, List.isEmpty_cons, value, decimalValue_paddedDigits, fits]
  rfl

/-! ### How large a number a text can hold -/

/-- One more character, from at least one more byte. -/
theorem length_le_of_sequence {first : Option Char} {rest : List UInt8} {text : List Char} (k : Nat)
    (ih : ∀ after, fromUtf8 rest = some after → after.length ≤ rest.length)
    (decoded : (first.bind fun c => (fromUtf8 rest).bind fun after => some (c :: after)) = some text) :
    text.length ≤ rest.length + 1 + k := by
  obtain ⟨c, -, later⟩ := Option.bind_eq_some_iff.mp decoded
  obtain ⟨after, read, same⟩ := Option.bind_eq_some_iff.mp later
  cases same
  exact (Nat.succ_le_succ (ih after read)).trans (Nat.le_add_right _ k)

/-- No character takes less than a byte. -/
theorem length_le_of_fromUtf8 {bytes : List UInt8} {text : List Char}
    (decoded : fromUtf8 bytes = some text) : text.length ≤ bytes.length := by
  induction bytes using fromUtf8.induct generalizing text with
  | case1 =>
      cases decoded
      exact le_rfl
  | case2 lead rest ascii ih =>
      rw [fromUtf8.eq_def] at decoded
      simp only [ascii, if_true] at decoded
      obtain ⟨after, read, same⟩ := Option.bind_eq_some_iff.mp decoded
      cases same
      exact Nat.succ_le_succ (ih read)
  | case4 lead high b₁ rest two ih =>
      rw [fromUtf8.eq_def] at decoded
      simp only [high, two, if_true, if_false] at decoded
      exact length_le_of_sequence 1 (fun _ => ih) decoded
  | case6 lead high b₁ notTwo b₂ rest three ih =>
      rw [fromUtf8.eq_def] at decoded
      simp only [high, notTwo, three, if_true, if_false] at decoded
      exact length_le_of_sequence 2 (fun _ => ih) decoded
  | case8 lead high b₁ notTwo b₂ notThree b₃ rest four ih =>
      rw [fromUtf8.eq_def] at decoded
      simp only [high, notTwo, notThree, four, if_true, if_false] at decoded
      exact length_le_of_sequence 3 (fun _ => ih) decoded
  -- the other sequences are cut short or begin with no lead byte
  | case3 lead high =>
      rw [fromUtf8.eq_def] at decoded
      simp only [high, if_false] at decoded
      cases decoded
  | case5 lead high b₁ notTwo =>
      rw [fromUtf8.eq_def] at decoded
      simp only [high, notTwo, if_false] at decoded
      cases decoded
  | case7 lead high b₁ notTwo b₂ notThree =>
      rw [fromUtf8.eq_def] at decoded
      simp only [high, notTwo, notThree, if_false] at decoded
      cases decoded
  | case9 lead high b₁ notTwo b₂ notThree b₃ rest notFour =>
      rw [fromUtf8.eq_def] at decoded
      simp only [high, notTwo, notThree, notFour, if_false] at decoded
      cases decoded

theorem length_trim_le (text : List Char) : (trim text).length ≤ text.length := by
  have shorter : ∀ l : List Char, (l.dropWhile isWhitespace).length ≤ l.length :=
    fun l => (List.dropWhile_suffix _).length_le
  calc (trim text).length
      = ((text.dropWhile isWhitespace).reverse.dropWhile isWhitespace).length := List.length_reverse
    _ ≤ (text.dropWhile isWhitespace).reverse.length := shorter _
    _ = (text.dropWhile isWhitespace).length := List.length_reverse
    _ ≤ text.length := shorter text

theorem decimalValue_lt {digits : List Nat} (small : ∀ d ∈ digits, d < 10) :
    decimalValue digits < 10 ^ digits.length := by
  rw [← List.length_reverse]
  exact Nat.ofDigits_lt_base_pow_length (by decide) (fun d mem => small d (List.mem_reverse.mp mem))

/-- A number has no more digits than its text has characters. -/
theorem decimalValue_text_lt {text : List Char} (figures : ∀ c ∈ text, c.isDigit = true) :
    decimalValue (text.map (·.toNat - 48)) < 10 ^ text.length := by
  have small : ∀ d ∈ text.map (·.toNat - 48), d < 10 := by
    intro d mem
    obtain ⟨c, inText, rfl⟩ := List.mem_map.mp mem
    have digit := figures c inText
    simp only [Char.isDigit, ge_iff_le, Bool.and_eq_true, decide_eq_true_eq, UInt32.le_iff_toNat_le]
      at digit
    exact Nat.sub_lt_left_of_lt_add digit.1 (Nat.lt_succ_of_le digit.2)
  have value := decimalValue_lt small
  rwa [List.length_map] at value

/-- A parsed number has no more digits than there are bytes. -/
theorem parseU64_lt {bytes : List UInt8} {n : Nat} (parsed : parseU64 bytes = some n) :
    n < 10 ^ bytes.length := by
  obtain ⟨text, decoded, value⟩ := Option.bind_eq_some_iff.mp parsed
  have trimmed := (length_trim_le text).trans (length_le_of_fromUtf8 decoded)
  have read : ∃ digits : List Char, digits.length ≤ bytes.length ∧
      (if digits.isEmpty || !digits.all (·.isDigit) then none
      else if decimalValue (digits.map (·.toNat - 48)) < 2 ^ 64 then
        some (decimalValue (digits.map (·.toNat - 48)))
      else none) = some n := by
    cases form : trim text with
    | nil =>
        rw [form] at value
        exact ⟨[], Nat.zero_le _, value⟩
    | cons c rest =>
        rw [form] at value trimmed
        by_cases sign : c = '+'
        · subst sign
          exact ⟨rest, (Nat.le_succ _).trans trimmed, value⟩
        · refine ⟨c :: rest, trimmed, ?_⟩
          rw [← value]
          simp [sign]
  obtain ⟨digits, short, value⟩ := read
  by_cases wellFormed : (digits.isEmpty || !digits.all (·.isDigit)) = true
  · rw [if_pos wellFormed] at value
    cases value
  rw [if_neg wellFormed] at value
  have figures : ∀ c ∈ digits, c.isDigit = true := by
    have both : digits ≠ [] ∧ ∀ c ∈ digits, c.isDigit = true := by simpa using wellFormed
    exact both.2
  split at value
  · cases value
    exact (decimalValue_text_lt figures).trans_le (Nat.pow_le_pow_right (by decide) short)
  · cases value

/-! ## Frames -/

def isAsciiAlphabetic (byte : UInt8) : Bool :=
  (0x41 ≤ byte && byte ≤ 0x5A) || (0x61 ≤ byte && byte ≤ 0x7A)

/-- Split a frame into its leading alphabetic verb and the remaining payload. -/
def splitFrame (frame : List UInt8) : Option (List UInt8 × List UInt8) :=
  let body := frame.takeWhile (· != terminator)
  let verb := body.takeWhile isAsciiAlphabetic
  if verb.isEmpty then none else some (verb, body.dropWhile isAsciiAlphabetic)

theorem ne_terminator_of_alphabetic {byte : UInt8} (h : isAsciiAlphabetic byte = true) :
    byte ≠ terminator := by
  rintro rfl
  exact absurd h (by decide)

/-- A frame of a verb and a payload without letters is split where the payload begins. -/
theorem splitFrame_append {verb payload rest : List UInt8} (named : verb ≠ [])
    (letters : ∀ byte ∈ verb, isAsciiAlphabetic byte = true)
    (figures : ∀ byte ∈ payload, byte ≠ terminator ∧ isAsciiAlphabetic byte = false)
    (ended : rest = [] ∨ rest = [terminator]) :
    splitFrame (verb ++ payload ++ rest) = some (verb, payload) := by
  have body : (verb ++ payload ++ rest).takeWhile (· != terminator) = verb ++ payload := by
    rw [List.takeWhile_append_of_pos]
    · rcases ended with rfl | rfl <;> simp
    · intro byte mem
      rcases List.mem_append.mp mem with inVerb | inPayload
      · simpa using ne_terminator_of_alphabetic (letters byte inVerb)
      · simpa using (figures byte inPayload).1
  have stops : payload.takeWhile isAsciiAlphabetic = [] ∧
      payload.dropWhile isAsciiAlphabetic = payload := by
    cases payload with
    | nil => exact ⟨rfl, rfl⟩
    | cons byte payload =>
        have figure := (figures byte List.mem_cons_self).2
        exact ⟨List.takeWhile_cons_of_neg (by simp [figure]),
          List.dropWhile_cons_of_neg (by simp [figure])⟩
  rw [splitFrame, body, List.takeWhile_append_of_pos letters, List.dropWhile_append_of_pos letters,
    stops.1, stops.2, List.append_nil]
  simp [named]

/-- Decimal text has neither letters nor a terminator. -/
theorem decimal_figures {width n : Nat} {byte : UInt8} (h : byte ∈ decimal width n) :
    byte ≠ terminator ∧ isAsciiAlphabetic byte = false := by
  obtain ⟨d, small, rfl⟩ := mem_decimal h
  have figures : ∀ d < 10, (d + 48).toUInt8 ≠ terminator ∧
      isAsciiAlphabetic (d + 48).toUInt8 = false := by decide
  exact figures d small

/-- The VFO of an ASCII digit. -/
def vfoOfDigit (digit : UInt8) : Option Vfo :=
  if digit = 0x30 then some .a else if digit = 0x31 then some .b else none

/-- The ASCII digit of a VFO. -/
def vfoDigit : Vfo → UInt8
  | .a => 0x30
  | .b => 0x31

def parseRxVfoDigit (bytes : List UInt8) : Option Vfo := bytes.head?.bind vfoOfDigit

/-- The configured carrier power limit: 25 W in AM, 100 W in every other mode. -/
def maxPowerWatts (mode : Mode) : Nat := if mode = .am then 25 else 100

/-- The facts of an `IF` status frame. -/
structure IfStatus where
  freqHz : Nat
  ptt : Bool
  mode : Mode
  rxVfo : Vfo
  split : Bool
  deriving DecidableEq, Repr

/-- Parse an `IF` frame.  A frame that names no VFO (memory mode) is ignored. -/
def parseIfStatus (frame : List UInt8) : Option IfStatus := do
  let (verb, payload) ← splitFrame frame
  if verb ≠ ascii ['I', 'F'] then none
  else
    let rxVfo ← payload[28]?.bind vfoOfDigit
    let freqField ← if 11 ≤ payload.length then some (payload.take 11) else none
    let freqHz ← parseU64 freqField
    let tx : UInt8 ← payload[26]?
    let digit : UInt8 ← payload[27]?
    let split : UInt8 ← payload[30]?
    return { freqHz, ptt := tx == 0x31, mode := Mode.fromKenwoodDigit digit, rxVfo,
             split := split == 0x31 }

/-! ## Recording what the radio reports -/

/-- Record changes in order. -/
def recordAll (h : StateHandle) (changes : List StateChange) (source : RadioEventSource) :
    StateHandle :=
  changes.foldl (fun h change => h.record change source) h

/-- What every change keeps, a list of them keeps. -/
theorem recordAll_keeps {I : StateHandle → Prop} {C : StateChange → Prop} {source : RadioEventSource}
    (keeps : ∀ {h change}, I h → C change → I (h.record change source)) {h : StateHandle}
    {changes : List StateChange} (holds : I h) (all : ∀ change ∈ changes, C change) :
    I (recordAll h changes source) := by
  induction changes generalizing h with
  | nil => exact holds
  | cons change changes ih =>
      obtain ⟨here, later⟩ := List.forall_mem_cons.mp all
      exact ih (keeps holds here) later

/-- The changes of an `IF` frame.  It carries no transmit VFO: during split that is the VFO that
does not receive. -/
def ifChanges (status : IfStatus) : List StateChange :=
  [.freq status.rxVfo status.freqHz,
   .mode status.rxVfo status.mode,
   .ptt status.ptt,
   .split status.split (some (if status.split then status.rxVfo.other else status.rxVfo)),
   .rxVfo status.rxVfo]

/-- The configured power that a `PC` frame reports, against the limit in the mode of the VFO that
transmits. -/
def reportedPower (snapshot : Snapshot) (payload : List UInt8) : Option TxPower := do
  let watts ← parseU64 payload
  if watts < 2 ^ 32 then
    let txVfo := if snapshot.split then snapshot.txVfo else snapshot.rxVfo
    some (TxPower.fromWatts watts (maxPowerWatts (snapshot.vfo txVfo).mode))
  else none

/-- The change that a frame of any other modeled verb reports; `MD` and `DA` speak of the VFO that
the snapshot holds to be receiving, and `FT` is compared with it. -/
def reportedChange (snapshot : Snapshot) (verb payload : List UInt8) : Option StateChange :=
  if verb = ascii ['F', 'A'] then (parseU64 payload).map (.freq .a)
  else if verb = ascii ['F', 'B'] then (parseU64 payload).map (.freq .b)
  else if verb = ascii ['F', 'R'] then (parseRxVfoDigit payload).map .rxVfo
  else if verb = ascii ['F', 'T'] then
    (parseRxVfoDigit payload).map fun txVfo => .split (snapshot.rxVfo != txVfo) (some txVfo)
  else if verb = ascii ['M', 'D'] then
    payload.head?.map fun digit => .mode snapshot.rxVfo (Mode.fromKenwoodDigit digit)
  else if verb = ascii ['D', 'A'] then
    payload.head?.map fun digit => .dataMode snapshot.rxVfo (digit == 0x31)
  else if verb = ascii ['P', 'C'] then
    (reportedPower snapshot payload).map fun power => .txPower (some power)
  else none

/-- Record a frame of the radio; the flag says whether the frame was modeled. -/
def recordEvent (h : StateHandle) (frame : List UInt8) (source : RadioEventSource) :
    StateHandle × Bool :=
  match parseIfStatus frame with
  | some status => (recordAll h (ifChanges status) source, true)
  | none =>
      match splitFrame frame with
      | none => (h, false)
      | some (verb, payload) =>
          match reportedChange h.snapshot verb payload with
          | none => (h, false)
          | some change => (h.record change source, true)

/-! ## Writing -/

/-- The verb of a frequency frame. -/
def freqVerb : Vfo → List UInt8
  | .a => ascii ['F', 'A']
  | .b => ascii ['F', 'B']

/-- An `FA`/`FB` frequency set frame. -/
def freqSet (vfo : Vfo) (hz : Nat) : List UInt8 :=
  freqVerb vfo ++ decimal 11 hz ++ [terminator]

theorem freqVerb_letters (vfo : Vfo) : ∀ byte ∈ freqVerb vfo, isAsciiAlphabetic byte = true := by
  have letters : (freqVerb vfo).all isAsciiAlphabetic = true := by cases vfo <;> decide
  exact List.all_eq_true.mp letters

theorem freqVerb_closed (vfo : Vfo) (hz : Nat) : terminator ∉ freqVerb vfo ++ decimal 11 hz := by
  rw [List.mem_append, not_or]
  refine ⟨?_, fun mem => (decimal_figures mem).1 rfl⟩
  cases vfo <;> decide

/-- A frequency frame, with or without its terminator, is the frequency under the VFO's verb. -/
theorem splitFrame_freq (vfo : Vfo) (hz : Nat) {rest : List UInt8}
    (ended : rest = [] ∨ rest = [terminator]) :
    splitFrame (freqVerb vfo ++ decimal 11 hz ++ rest) = some (freqVerb vfo, decimal 11 hz) := by
  apply splitFrame_append _ (freqVerb_letters vfo) (fun _ mem => decimal_figures mem) ended
  cases vfo <;> decide

/-- A frequency frame records the number that can be parsed from it, if any. -/
theorem recordEvent_freqFrame (h : StateHandle) (vfo : Vfo) (hz : Nat) (source : RadioEventSource) :
    recordEvent h (freqSet vfo hz) source =
      match parseU64 (decimal 11 hz) with
      | some n => (h.record (.freq vfo n) source, true)
      | none => (h, false) := by
  have split : splitFrame (freqSet vfo hz) = some (freqVerb vfo, decimal 11 hz) :=
    splitFrame_freq vfo hz (.inr rfl)
  have status : parseIfStatus (freqSet vfo hz) = none := by
    rw [parseIfStatus, split]
    cases vfo <;> rfl
  have change : reportedChange h.snapshot (freqVerb vfo) (decimal 11 hz) =
      (parseU64 (decimal 11 hz)).map (.freq vfo) := by
    cases vfo <;> rfl
  rw [recordEvent, status, split]
  simp only [change]
  cases parseU64 (decimal 11 hz) <;> rfl

/-- The frequency frame that the radio sends back is recorded as that frequency. -/
theorem recordEvent_freqSet (h : StateHandle) (vfo : Vfo) {hz : Nat} (fits : hz < 2 ^ 64)
    (source : RadioEventSource) :
    recordEvent h (freqSet vfo hz) source = (h.record (.freq vfo hz) source, true) := by
  rw [recordEvent_freqFrame, parseU64_decimal (by omega) fits]

/-- A mode frame records the mode of its digit for the VFO that the cache holds to be receiving,
unless its digit is none. -/
theorem recordEvent_modeFrame (h : StateHandle) (digit : UInt8) (source : RadioEventSource) :
    (recordEvent h (ascii ['M', 'D'] ++ [digit, terminator]) source).1 =
        h.record (.mode h.snapshot.rxVfo (Mode.fromKenwoodDigit digit)) source ∨
      (recordEvent h (ascii ['M', 'D'] ++ [digit, terminator]) source).1 = h := by
  have verb : ∀ byte ∈ ascii ['M', 'D'], isAsciiAlphabetic byte = true :=
    List.all_eq_true.mp (by decide)
  by_cases ended : digit = terminator
  · subst ended
    exact .inr rfl
  cases letter : isAsciiAlphabetic digit with
  | true =>
      -- the letter becomes part of the verb
      right
      have letters : ∀ byte ∈ ascii ['M', 'D'] ++ [digit], isAsciiAlphabetic byte = true := by
        rw [List.forall_mem_append, List.forall_mem_singleton]
        exact ⟨verb, letter⟩
      have split : splitFrame (ascii ['M', 'D'] ++ [digit, terminator]) =
          some (ascii ['M', 'D'] ++ [digit], []) :=
        @splitFrame_append (ascii ['M', 'D'] ++ [digit]) [] [terminator] (by simp) letters (by simp)
          (.inr rfl)
      have status : parseIfStatus (ascii ['M', 'D'] ++ [digit, terminator]) = none := by
        rw [parseIfStatus, split]
        simp [ascii]
      have unknown : reportedChange h.snapshot (ascii ['M', 'D'] ++ [digit]) [] = none := by
        simp [reportedChange, ascii]
      rw [recordEvent, status, split]
      simp only [unknown]
  | false =>
      left
      have figures : ∀ byte ∈ [digit], byte ≠ terminator ∧ isAsciiAlphabetic byte = false := by
        simpa using ⟨ended, letter⟩
      have split : splitFrame (ascii ['M', 'D'] ++ [digit, terminator]) =
          some (ascii ['M', 'D'], [digit]) :=
        splitFrame_append (by decide) verb figures (.inr rfl)
      rw [recordEvent, parseIfStatus, split]
      rfl

/-- An `FR` receive-VFO select frame. -/
def rxVfoSet (vfo : Vfo) : List UInt8 := ascii ['F', 'R'] ++ [vfoDigit vfo, terminator]

/-- An `FT` transmit-VFO select frame. -/
def txVfoSet (vfo : Vfo) : List UInt8 := ascii ['F', 'T'] ++ [vfoDigit vfo, terminator]

/-- The bytes of a modeled write, built from the snapshot it found.  A switch of the operating VFO
moves receive and transmit together unless split is on; a split enable receives on A. -/
def applyBytes (snap : Snapshot) : StateMutation → List UInt8
  | .setRxVfo vfo => rxVfoSet vfo ++ txVfoSet (if snap.split then snap.txVfo else vfo)
  | .setVfoFreq vfo hz => freqSet vfo hz
  | .setMode _ mode => ascii ['M', 'D'] ++ [mode.toKenwoodDigit, terminator]
  | .setDataMode _ on => ascii (if on then ['D', 'A', '1', ';'] else ['D', 'A', '0', ';'])
  | .setPtt keyed source =>
      ascii (if keyed then
          match source with
          | .generic => ['T', 'X', ';']
          | .mic => ['T', 'X', '0', ';']
          | .data => ['T', 'X', '1', ';']
        else ['R', 'X', ';'])
  | .setSplit enabled txVfo =>
      if enabled then rxVfoSet .a ++ txVfoSet (txVfo.getD .b) else rxVfoSet .a ++ txVfoSet .a
  | .setRit _ enabled => ascii (if enabled then ['R', 'T', '1', ';'] else ['R', 'T', '0', ';'])
  | .setXit _ enabled => ascii (if enabled then ['X', 'T', '1', ';'] else ['X', 'T', '0', ';'])

/-- What a write records once its bytes are out: its own change and, for a switch of the operating
VFO without split, the transmit VFO that moved along. -/
def applyRecords (snap : Snapshot) (mutation : StateMutation) : List StateChange :=
  mutation.intoChange :: match mutation with
    | .setRxVfo vfo => if snap.split then [] else [.split false (some vfo)]
    | _ => []

/-- A write that succeeds: the bytes sent and the state afterwards. -/
def apply (h : StateHandle) (mutation : StateMutation) : List UInt8 × StateHandle :=
  (applyBytes h.snapshot mutation,
   recordAll h (applyRecords h.snapshot mutation) .optimisticWrite)

end CatHub.Radio.Ts590
