/-
# CatHub.Radio.Hamlib — the words of the Hamlib net protocol.

Mode tokens with and without the DATA flag, numbers, and the relative transmit power, as both the
`rigctld` bridge and the Hamlib NET endpoint read and write them.  A text is a list of characters;
`HamlibToken` collects what the composed tokens have in common: they are solid upper-case words.
-/
import CatHub.Radio.Ts590
import CatHub.Systems.Words
import Mathlib.Data.List.Infix

namespace CatHub.Radio

open Ts590

/-! ## Mode tokens -/

/-- The mode as a Hamlib token; an unknown mode falls back to USB. -/
def Mode.hamlibToken : Mode → List Char
  | .lsb => ['L', 'S', 'B']
  | .usb | .unknown => ['U', 'S', 'B']
  | .cw => ['C', 'W']
  | .cwR => ['C', 'W', 'R']
  | .fsk => ['R', 'T', 'T', 'Y']
  | .fskR => ['R', 'T', 'T', 'Y', 'R']
  | .am => ['A', 'M']
  | .fm => ['F', 'M']

/-- The mode of a Hamlib token. -/
def Mode.fromHamlibToken (token : List Char) : Mode :=
  let token := trim token
  if token = ['L', 'S', 'B'] then .lsb
  else if token = ['U', 'S', 'B'] then .usb
  else if token = ['C', 'W'] then .cw
  else if token = ['C', 'W', 'R'] then .cwR
  else if token = ['R', 'T', 'T', 'Y'] then .fsk
  else if token = ['R', 'T', 'T', 'Y', 'R'] then .fskR
  else if token = ['A', 'M'] then .am
  else if token = ['F', 'M'] then .fm
  else .unknown

/-- What a data token begins with. -/
def pkt : List Char := ['P', 'K', 'T']

/-- The modes that have a data token of their own. -/
def Mode.packable : Mode → Bool
  | .usb | .lsb | .fm | .am => true
  | _ => false

/-- The mode as a Hamlib token with the DATA flag folded in; a mode without a data token reports its
plain one. -/
def Mode.hamlibTokenWithData (mode : Mode) (data : Bool) : List Char :=
  if data && mode.packable then pkt ++ mode.hamlibToken else mode.hamlibToken

/-- Split a Hamlib token into its base mode and the DATA flag. -/
def Mode.decomposeHamlibToken (token : List Char) : Mode × Bool :=
  match (trim token).dropPrefix? pkt with
  | some base => (Mode.fromHamlibToken base, true)
  | none => (Mode.fromHamlibToken (trim token), false)

/-- The mode that the tokens of a mode are read as. -/
def Mode.spoken : Mode → Mode
  | .unknown => .usb
  | mode => mode

/-- Splitting a composed token loses the flag of a mode that has no data token. -/
theorem Mode.decompose_spoken (mode : Mode) (data : Bool) :
    Mode.decomposeHamlibToken (mode.hamlibTokenWithData data) = (mode.spoken, data && mode.packable) := by
  cases mode <;> cases data <;> decide

/-- A composed token gives back a known mode. -/
theorem Mode.decompose_hamlibTokenWithData (mode : Mode) (data : Bool) (h : mode ≠ .unknown) :
    Mode.decomposeHamlibToken (mode.hamlibTokenWithData data) = (mode, data && mode.packable) := by
  rw [Mode.decompose_spoken]
  cases mode <;> first | exact absurd rfl h | rfl

/-- Composing what a composed token was split into gives the token again. -/
theorem Mode.hamlibTokenWithData_decompose (mode : Mode) (data : Bool) :
    (Mode.decomposeHamlibToken (mode.hamlibTokenWithData data)).1.hamlibTokenWithData
        (Mode.decomposeHamlibToken (mode.hamlibTokenWithData data)).2 =
      mode.hamlibTokenWithData data := by
  cases mode <;> cases data <;> decide

/-- The plain reader knows a composed token exactly when it carries no flag. -/
theorem Mode.fromHamlibToken_hamlibTokenWithData (mode : Mode) (data : Bool) :
    Mode.fromHamlibToken (mode.hamlibTokenWithData data) =
      if data && mode.packable then .unknown else mode.spoken := by
  cases mode <;> cases data <;> decide

/-- Different known modes are written with different digits. -/
theorem Mode.toKenwoodDigit_inj {m n : Mode} (known : m ≠ .unknown) (known' : n ≠ .unknown)
    (same : m.toKenwoodDigit = n.toKenwoodDigit) : m = n := by
  rw [← Mode.fromKenwoodDigit_toKenwoodDigit m known, same,
    Mode.fromKenwoodDigit_toKenwoodDigit n known']

/-- A token that the hub itself can compose. -/
def HamlibToken (token : List Char) : Prop :=
  ∃ (mode : Mode) (data : Bool), token = mode.hamlibTokenWithData data

/-- A composed token is a word of upper-case letters. -/
theorem HamlibToken.letters {token : List Char} (h : HamlibToken token) :
    token ≠ [] ∧ ∀ c ∈ token, c.isUpper = true := by
  obtain ⟨mode, data, rfl⟩ := h
  have letters : (mode.hamlibTokenWithData data) ≠ [] ∧
      (mode.hamlibTokenWithData data).all (·.isUpper) = true := by
    cases mode <;> cases data <;> decide
  exact ⟨letters.1, List.all_eq_true.mp letters.2⟩

/-! ## Numbers -/

/-- Parse an unsigned number below a limit: an optional `+`, then digits. -/
def parseUnsigned (limit : Nat) (text : List Char) : Option Nat :=
  let digits := match text with
    | '+' :: digits => digits
    | _ => text
  if digits.isEmpty || !digits.all (·.isDigit) then none
  else
    let value := decimalValue (digits.map (·.toNat - 48))
    if value < limit then some value else none

/-- The 64-bit numbers of the radio's frames are read the same way. -/
theorem parseU64_eq (bytes : List UInt8) :
    parseU64 bytes = (fromUtf8 bytes).bind (fun text => parseUnsigned (2 ^ 64) (trim text)) := rfl

/-- Parse a signed 32-bit number. -/
def parseI32 : List Char → Option Int
  | '-' :: digits =>
      if digits.isEmpty || !digits.all (·.isDigit) then none
      else
        let value := decimalValue (digits.map (·.toNat - 48))
        if value ≤ 2 ^ 31 then some (-value) else none
  | text => (parseUnsigned (2 ^ 31) text).map Int.ofNat

/-- Cut a text at the first occurrence of a character. -/
def splitOnce (c : Char) (text : List Char) : Option (List Char × List Char) :=
  if c ∈ text then some (text.takeWhile (· != c), (text.dropWhile (· != c)).drop 1) else none

/-- Equality of texts up to ASCII case. -/
def eqIgnoreAsciiCase (x y : List Char) : Bool := x.map Char.toLower == y.map Char.toLower

/-- The name of a VFO. -/
def vfoName : Vfo → List Char
  | .a => ['V', 'F', 'O', 'A']
  | .b => ['V', 'F', 'O', 'B']

/-! ## Relative power -/

namespace TxPower

/-- Parse Hamlib's relative 0 through 1 decimal into millionths. -/
def parseRelativeMillionths (value : List Char) : Option Nat :=
  let trimmed := trim value
  let (whole, fraction) := (splitOnce '.' trimmed).getD (trimmed, [])
  if whole = ['0'] then
    if 6 < fraction.length || !fraction.all (·.isDigit) then none
    else some (decimalValue ((fraction ++ List.replicate (6 - fraction.length) '0').map (·.toNat - 48)))
  else if whole = ['1'] ∧ fraction.all (· == '0') then some relativeScale
  else none

/-- An observation returned by a downstream `rigctld`, with the maximum inferred. -/
def fromRelativeMillionths (relativeMillionths milliwatts : Nat) : Option TxPower :=
  if relativeScale < relativeMillionths then none
  else
    let inferred :=
      (milliwatts * relativeScale + relativeMillionths / 2) / relativeMillionths
    some {
      relativeMillionths
      milliwatts
      maxMilliwatts :=
        if relativeMillionths = 0 then none
        else if inferred < 2 ^ 32 then some inferred else none }

/-- The relative value as a compact decimal. -/
def relativeDecimal (power : TxPower) : List Char :=
  if power.relativeMillionths = relativeScale then ['1']
  else if power.relativeMillionths = 0 then ['0']
  else
    let fraction := (decimal 6 power.relativeMillionths).map (fun byte => Char.ofNat byte.toNat)
    ['0', '.'] ++ (fraction.reverse.dropWhile (· == '0')).reverse

/-- The milliwatts of a relative level. -/
def milliwattsForRelative (power : TxPower) (relativeMillionths : Nat) : Option Nat :=
  if relativeScale < relativeMillionths then none
  else if relativeMillionths = power.relativeMillionths then some power.milliwatts
  else if relativeMillionths = 0 then some 0
  else do
    let maxMilliwatts ← power.maxMilliwatts
    let milliwatts := (maxMilliwatts * relativeMillionths + relativeScale / 2) / relativeScale
    if milliwatts < 2 ^ 32 then some milliwatts else none

end TxPower

end CatHub.Radio
