/-
# CatHub.Radio.Vocabulary — the neutral vocabulary of the hub and the endpoint permissions.

`StateMutation` is a write intent, `StateChange` an observed change.  A dialect assigns every
inbound command a `CommandClass`, and `EndpointPermissions` says which classes and which modeled
mutations an endpoint may use.
-/
import Mathlib.Algebra.Group.Nat.Defs

namespace CatHub.Radio

/-! ## Modes and mutations -/

/-- One of the radio's two VFOs. -/
inductive Vfo where
  | a
  | b
  deriving DecidableEq, Repr

/-- The other VFO. -/
def Vfo.other : Vfo → Vfo
  | .a => .b
  | .b => .a

/-- There are only two VFOs. -/
theorem Vfo.ne_iff_eq {rx tx : Vfo} (apart : rx ≠ tx) (v : Vfo) : v ≠ tx ↔ v = rx := by
  cases rx <;> cases tx <;> cases v <;> revert apart <;> decide

/-- Operating mode, normalized across radio families. -/
inductive Mode where
  | lsb
  | usb
  | cw
  | cwR
  | fsk
  | fskR
  | am
  | fm
  | unknown
  deriving DecidableEq, Repr

/-- The mode as its Kenwood `MD` digit (ASCII); an unknown mode falls back to USB. -/
def Mode.toKenwoodDigit : Mode → UInt8
  | .lsb => 0x31
  | .usb | .unknown => 0x32
  | .cw => 0x33
  | .fm => 0x34
  | .am => 0x35
  | .fsk => 0x36
  | .cwR => 0x37
  | .fskR => 0x39

/-- The mode of a Kenwood `MD` digit (ASCII). -/
def Mode.fromKenwoodDigit (digit : UInt8) : Mode :=
  if digit = 0x31 then .lsb
  else if digit = 0x32 then .usb
  else if digit = 0x33 then .cw
  else if digit = 0x34 then .fm
  else if digit = 0x35 then .am
  else if digit = 0x36 then .fsk
  else if digit = 0x37 then .cwR
  else if digit = 0x39 then .fskR
  else .unknown

/-- Every mode but the unknown one survives its own digit. -/
theorem Mode.fromKenwoodDigit_toKenwoodDigit (mode : Mode) (h : mode ≠ .unknown) :
    Mode.fromKenwoodDigit mode.toKenwoodDigit = mode := by
  cases mode <;> first | exact absurd rfl h | decide

/-- The mode that the digit of a mode stands for: an unknown mode is read as USB. -/
def Mode.rendered : Mode → Mode
  | .unknown => .usb
  | mode => mode

@[simp] theorem Mode.fromKenwoodDigit_digit (mode : Mode) :
    Mode.fromKenwoodDigit mode.toKenwoodDigit = mode.rendered := by
  cases mode <;> decide

/-- The transmit audio path of a key request. -/
inductive PttSource where
  | generic
  | mic
  | data
  deriving DecidableEq, Repr

/-- Configured transmitter output power, in fixed point. -/
structure TxPower where
  relativeMillionths : Nat
  milliwatts : Nat
  maxMilliwatts : Option Nat
  deriving DecidableEq, Repr

namespace TxPower

/-- Full scale of a relative power level. -/
def relativeScale : Nat := 1000000

/-- Saturating multiplication of `u32` values. -/
def saturatingMul (x y : Nat) : Nat := min (x * y) (2 ^ 32 - 1)

/-- A power observation from a known current and maximum milliwatt value. -/
def fromMilliwatts (milliwatts maxMilliwatts : Nat) : TxPower where
  relativeMillionths :=
    if maxMilliwatts = 0 then 0 else min (milliwatts * relativeScale / maxMilliwatts) relativeScale
  milliwatts
  maxMilliwatts := some maxMilliwatts

/-- A power observation from a known current and maximum wattage. -/
def fromWatts (watts maxWatts : Nat) : TxPower :=
  fromMilliwatts (saturatingMul watts 1000) (saturatingMul maxWatts 1000)

end TxPower

/-- A single normalized change to apply to the radio. -/
inductive StateMutation where
  | setRxVfo (vfo : Vfo)
  | setVfoFreq (vfo : Vfo) (hz : Nat)
  | setMode (vfo : Vfo) (mode : Mode)
  | setDataMode (vfo : Vfo) (on : Bool)
  | setSplit (enabled : Bool) (txVfo : Option Vfo)
  | setPtt (keyed : Bool) (source : PttSource)
  | setRit (offsetHz : Int) (enabled : Bool)
  | setXit (offsetHz : Int) (enabled : Bool)
  deriving DecidableEq, Repr

/-- A single observed change to the universal state. -/
inductive StateChange where
  | rxVfo (vfo : Vfo)
  | freq (vfo : Vfo) (hz : Nat)
  | mode (vfo : Vfo) (mode : Mode)
  | dataMode (vfo : Vfo) (on : Bool)
  | split (enabled : Bool) (txVfo : Option Vfo)
  | ptt (keyed : Bool)
  | rit (enabled : Bool) (offsetHz : Int)
  | xit (enabled : Bool) (offsetHz : Int)
  | txPower (power : Option TxPower)
  deriving DecidableEq, Repr

/-- The observable change that a mutation produces once applied. -/
def StateMutation.intoChange : StateMutation → StateChange
  | .setRxVfo vfo => .rxVfo vfo
  | .setVfoFreq vfo hz => .freq vfo hz
  | .setMode vfo mode => .mode vfo mode
  | .setDataMode vfo on => .dataMode vfo on
  | .setSplit enabled txVfo => .split enabled txVfo
  | .setPtt keyed _ => .ptt keyed
  | .setRit offsetHz enabled => .rit enabled offsetHz
  | .setXit offsetHz enabled => .xit enabled offsetHz

/-- Where a state change originated. -/
inductive RadioEventSource where
  | nativePush
  | pollDiff
  | optimisticWrite
  | verifyRead
  deriving DecidableEq, Repr

/-! ## Permissions -/

/-- How a dialect classifies a single inbound command. -/
inductive CommandClass where
  | modeledRead
  | modeledWrite
  | passthroughRead
  | pttWrite
  | configWrite
  | autoInfoToggle
  | denied
  deriving DecidableEq, Repr

/-- The capability set of one endpoint or Hamlib listener. -/
structure EndpointPermissions where
  read : Bool
  write : Bool
  frequencyWrite : Bool
  ptt : Bool
  configWrite : Bool
  deriving DecidableEq, Repr

namespace EndpointPermissions

/-- Whether the endpoint may run a command of the given class. -/
def allows (perms : EndpointPermissions) : CommandClass → Bool
  | .modeledRead | .passthroughRead => perms.read
  | .modeledWrite => perms.write
  | .pttWrite => perms.ptt
  | .configWrite => perms.configWrite
  | .autoInfoToggle => true
  | .denied => false

/-- Whether the endpoint may apply a specific modeled mutation. -/
def allowsMutation (perms : EndpointPermissions) (cls : CommandClass) (mutation : StateMutation) :
    Bool :=
  if cls ≠ .modeledWrite then perms.allows cls
  else perms.write || (perms.frequencyWrite && mutation matches .setVfoFreq ..)

end EndpointPermissions

end CatHub.Radio
