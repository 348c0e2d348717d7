/-
# CatHub.WinKeyer.TypedText — typed text on the wire of the keyer.

The typed interface checks a text by classes of characters and hands its bytes over as the payload of
a job.  The keyer reads the same bytes by its tables of opcodes.  A text is `Inert` when the keyer reads
its payload as data alone; `typed_text_inert_iff` says that an accepted text is, unless it holds a tab.
-/
import CatHub.WinKeyer.Broker
import CatHub.WinKeyer.HostGrammar

namespace CatHub.WinKeyer

/-! ## The check -/

/-- Why a text is refused. -/
inductive TextFault where
  | empty
  | tooLong
  | unsupported (character : Char)
  deriving DecidableEq, Repr

/-- The text of the status; `debug` is how a character is shown. -/
def TextFault.message (debug : Char → String) : TextFault → String
  | .empty => "text must not be empty"
  | .tooLong => s!"text must not exceed {maxJobBytes} ASCII bytes"
  | .unsupported character => "text contains unsupported character " ++ debug character

def isAscii (character : Char) : Bool := character.toNat < 128

def isAsciiControl (character : Char) : Bool := character.toNat < 32 || character.toNat == 127

/-- A text as UTF-8. -/
def textBytes (text : List Char) : List UInt8 := text.flatMap String.utf8EncodeChar

/-- Check a text and return what is to be sent. -/
def validateText (text : List Char) : Except TextFault (List UInt8) :=
  if text.isEmpty then .error .empty
  else if maxJobBytes < (textBytes text).length then .error .tooLong
  else
    match text.find? (fun c => !isAscii c || (isAsciiControl c && c != '\t')) with
    | some character => .error (.unsupported character)
    | none => .ok (textBytes (text.map Char.toUpper))

/-! ## What the keyer reads -/

/-- The keyer reads the payload as data, and goes on behind it as if it had not been there. -/
structure Inert (payload : TransmitPayload) : Prop where
  alone : ClientParser.feed {} payload.wireBytes = ({}, payload.wireBytes.map .data)
  later : ∀ bytes, ClientParser.feed {} (payload.wireBytes ++ bytes) =
    ((ClientParser.feed {} bytes).1, payload.wireBytes.map .data ++ (ClientParser.feed {} bytes).2)

/-- A payload is inert if its bytes lie above the opcodes, and only then. -/
theorem inert_iff (payload : TransmitPayload) :
    Inert payload ↔ ∀ byte ∈ payload.wireBytes, 0x1f < byte := by
  constructor
  · intro inert byte mem
    have wellFormed := wellFormed_feed payload.wireBytes
    rw [inert.alone] at wellFormed
    exact wellFormed _ (List.mem_map_of_mem mem)
  · intro data
    have items : ∀ item ∈ payload.wireBytes.map ClientItem.data, item.WellFormed := by
      intro item mem
      obtain ⟨byte, inPayload, rfl⟩ := List.mem_map.mp mem
      exact data byte inPayload
    have spelled : (payload.wireBytes.map ClientItem.data).flatMap ClientItem.bytes =
        payload.wireBytes := by
      rw [List.flatMap_map]
      exact List.flatMap_singleton' _
    have alone := feed_wellFormed items
    rw [spelled] at alone
    refine ⟨alone, fun bytes => ?_⟩
    rw [ClientParser.feed_append, alone]

/-! ## What an accepted text is -/

/-- In upper case an ASCII character is one byte, and a control byte only if it was one before. -/
theorem toUpper_ascii {c : Char} (ascii : isAscii c = true) :
    ∃ byte, String.utf8EncodeChar c.toUpper = [byte] ∧ (0x1f < byte ↔ 32 ≤ c.toNat) := by
  have table : ∀ n < 128, String.utf8EncodeChar (Char.ofNat n).toUpper =
      [(Char.ofNat n).toUpper.toNat.toUInt8] ∧
        (0x1f < (Char.ofNat n).toUpper.toNat.toUInt8 ↔ 32 ≤ n) := by
    decide +kernel
  have entry := table c.toNat (of_decide_eq_true ascii)
  rw [Char.ofNat_toNat] at entry
  exact ⟨_, entry⟩

/-- The bytes of an ASCII text lie above the opcodes if its characters are no controls. -/
theorem above_opcodes_iff {text : List Char} (ascii : ∀ c ∈ text, isAscii c = true) :
    (∀ byte ∈ textBytes (text.map Char.toUpper), 0x1f < byte) ↔ ∀ c ∈ text, 32 ≤ c.toNat := by
  induction text with
  | nil => simp [textBytes]
  | cons c text ih =>
      obtain ⟨here, later⟩ := List.forall_mem_cons.mp ascii
      obtain ⟨byte, encoded, above⟩ := toUpper_ascii here
      have bytes : textBytes ((c :: text).map Char.toUpper) =
          byte :: textBytes (text.map Char.toUpper) := by
        rw [textBytes, List.map_cons, List.flatMap_cons, encoded]
        rfl
      rw [bytes, List.forall_mem_cons, List.forall_mem_cons, above, ih later]

/-- An accepted text is ASCII, and a tab is the only control character in it. -/
theorem accepted_text {text : List Char} {bytes : List UInt8} (accepted : validateText text = .ok bytes) :
    bytes = textBytes (text.map Char.toUpper) ∧
      ∀ c ∈ text, isAscii c = true ∧ (c = '\t' ∨ isAsciiControl c = false) := by
  unfold validateText at accepted
  split at accepted
  · cases accepted
  split at accepted
  · cases accepted
  split at accepted
  · cases accepted
  · rename_i none_
    cases accepted
    refine ⟨rfl, fun c mem => ?_⟩
    have fine := List.find?_eq_none.mp none_ c mem
    simp only [Bool.or_eq_true, Bool.and_eq_true, Bool.not_eq_true', bne_iff_ne, not_or, not_and,
      Bool.not_eq_false, ne_eq, not_not] at fine
    refine ⟨fine.1, ?_⟩
    cases control : isAsciiControl c with
    | false => exact .inr rfl
    | true => exact .inl (fine.2 control)

/-- **Typed text is data, but for the tab.** -/
theorem typed_text_inert_iff {text : List Char} {bytes : List UInt8}
    (accepted : validateText text = .ok bytes) :
    Inert (TransmitPayload.plainText bytes) ↔ '\t' ∉ text := by
  obtain ⟨rfl, each⟩ := accepted_text accepted
  show Inert ⟨_, _⟩ ↔ _
  rw [inert_iff, above_opcodes_iff (fun c mem => (each c mem).1)]
  constructor
  · intro above tab
    exact absurd (above '\t' tab) (by decide)
  · intro noTab c mem
    rcases (each c mem).2 with rfl | printable
    · exact absurd mem noTab
    · have least : ¬ c.toNat < 32 := by simpa using (Bool.or_eq_false_iff.mp printable).1
      exact Nat.not_lt.mp least

/-- A text of two characters that the keyer takes for one command. -/
theorem typed_tab_swallows :
    validateText ['\t', 'A'] = .ok [0x09, 0x41] ∧
      ClientParser.feed {} (TransmitPayload.plainText [0x09, 0x41]).wireBytes =
        ({}, [.command [0x09, 0x41]]) ∧
      ¬ Inert (TransmitPayload.plainText [0x09, 0x41]) := by
  refine ⟨by decide, by decide, fun inert => ?_⟩
  exact absurd inert.alone (by decide)

theorem typed_text_inert_cq :
    validateText ['c', 'q'] = .ok [0x43, 0x51] ∧ Inert (TransmitPayload.plainText [0x43, 0x51]) :=
  have accepted : validateText ['c', 'q'] = .ok [0x43, 0x51] := by decide
  ⟨accepted, (typed_text_inert_iff accepted).mpr (by decide)⟩

end CatHub.WinKeyer
