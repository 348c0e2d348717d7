/-
# CatHub.WinKeyer.Protocol — WinKeyer 3 host framing and device-byte classification.

The host sends commands (opcodes `0x00` through `0x1f`) and printable Morse bytes on one stream.
`ClientParser` cuts that stream into items; it keeps a partial command between reads.  `commands`
reads a whole byte string with it and is how this development says which commands some written
bytes contain.  In the other direction `DeviceEvent.fromByte` sorts a device byte by its tag bits.
-/
namespace CatHub.WinKeyer

/-! ## The host grammar -/

/-- One complete item received from a WinKeyer host client. -/
inductive ClientItem where
  | data (byte : UInt8)
  | command (bytes : List UInt8)
  deriving DecidableEq, Repr

/-- The incremental parser: the command read so far and, once known, its full length. -/
structure ClientParser where
  command : List UInt8 := []
  expectedLen : Option Nat := none
  deriving DecidableEq, Repr

/-- `lo..=hi` of the source's patterns. -/
def inRange (lo hi byte : UInt8) : Bool := lo ≤ byte && byte ≤ hi

/-- The length of a command by its opcode.  Admin and Pointer are refined after their subcommand
arrives. -/
def initialCommandLen (opcode : UInt8) : Option Nat :=
  if inRange 0x00 0x03 opcode || opcode == 0x06 || opcode == 0x09 || inRange 0x0b 0x0e opcode ||
      inRange 0x10 0x12 opcode || opcode == 0x14 || inRange 0x16 0x1a opcode ||
      inRange 0x1c 0x1d opcode then some 2
  else if opcode == 0x04 || opcode == 0x1b then some 3
  else if opcode == 0x05 then some 4
  else if inRange 0x07 0x08 opcode || opcode == 0x0a || opcode == 0x13 || opcode == 0x15 ||
      inRange 0x1e 0x1f opcode then some 1
  else if opcode == 0x0f then some 16
  else none

/-- The length of an Admin command by its subcommand. -/
def adminCommandLen (subcommand : UInt8) : Nat :=
  if subcommand == 0x00 || subcommand == 0x04 || inRange 0x0e 0x0f subcommand ||
      subcommand == 0x16 || subcommand == 0x19 then 3
  else if subcommand == 0x0d then 258
  else if subcommand == 0x13 then 4
  else 2

namespace ClientParser

/-- The second byte settles the length of an Admin or Pointer command. -/
def refineVariableLength (p : ClientParser) : ClientParser :=
  match p.command with
  | [0x00, admin] =>
      -- `0x1c` is N1MM's extra Admin prefix in front of a buffered-speed command and its WPM.
      { p with expectedLen := some (if admin == 0x1c then 3 else adminCommandLen admin) }
  | [0x16, sub] => if inRange 0x01 0x03 sub then { p with expectedLen := some 3 } else p
  | _ => p

/-- Hand the command out once it has its full length. -/
def complete (p : ClientParser) : ClientParser × Option ClientItem :=
  if p.expectedLen = some p.command.length then ({}, some (.command p.command)) else (p, none)

/-- Feed one byte; an item comes out when it becomes complete. -/
def push (p : ClientParser) (byte : UInt8) : ClientParser × Option ClientItem :=
  if p.command.isEmpty then
    if byte > 0x1f then (p, some (.data byte))
    else complete { command := [byte], expectedLen := initialCommandLen byte }
  else complete (refineVariableLength { p with command := p.command ++ [byte] })

/-- Feed a byte string; the items come out in order. -/
def feed : ClientParser → List UInt8 → ClientParser × List ClientItem
  | p, [] => (p, [])
  | p, byte :: rest =>
      let (p, item) := p.push byte
      let (p, items) := p.feed rest
      (p, item.toList ++ items)

end ClientParser

/-- The items of a byte string that starts at a command boundary. -/
def items (bytes : List UInt8) : List ClientItem := (ClientParser.feed {} bytes).2

example : items [0x16, 0x02, 0x00, 0x1c, 22, 81] =
    [.command [0x16, 0x02, 0x00], .command [0x1c, 22], .data 81] := by decide

/-! ## What a session may send -/

/-- How the broker treats a complete command of an ordinary session. -/
inductive CommandPolicy where
  | virtualized
  | transient
  | activeOwner
  | maintenance
  deriving DecidableEq, Repr

/-- Classify a complete command for permission and ownership. -/
def commandPolicy : List UInt8 → CommandPolicy
  | [] => .maintenance
  | opcode :: arguments =>
      if opcode == 0x00 then
        if arguments.head?.any (fun sub => inRange 0x02 0x07 sub || inRange 0x09 0x0b sub ||
            inRange 0x14 0x15 sub || inRange 0x17 0x18 sub) then .virtualized
        else .maintenance
      -- The buffer-pointer commands are edits of the current stream, so no profile keeps them.
      else if inRange 0x0a 0x0b opcode || opcode == 0x14 || opcode == 0x16 ||
          inRange 0x18 0x1a opcode then .activeOwner
      else .transient

/-! ## Device bytes -/

/-- The common bits of a WinKeyer status byte. -/
structure DeviceStatus where
  raw : UInt8
  waiting : Bool
  keyDown : Bool
  busy : Bool
  breakIn : Bool
  xoff : Bool
  deriving DecidableEq, Repr

def DeviceStatus.fromByte (raw : UInt8) : DeviceStatus where
  raw := raw
  waiting := raw &&& 0x10 != 0
  keyDown := raw &&& 0x08 != 0
  busy := raw &&& 0x04 != 0
  breakIn := raw &&& 0x02 != 0
  xoff := raw &&& 0x01 != 0

/-- A byte received from the physical keyer, classified by its tag bits. -/
inductive DeviceEvent where
  | speedPot (raw value : UInt8)
  | status (status : DeviceStatus)
  | echo (byte : UInt8)
  deriving DecidableEq, Repr

def DeviceEvent.fromByte (byte : UInt8) : DeviceEvent :=
  if byte &&& 0xc0 = 0x80 then .speedPot byte (byte &&& 0x3f)
  else if byte &&& 0xc0 = 0xc0 then .status (DeviceStatus.fromByte byte)
  else .echo byte

end CatHub.WinKeyer
