/-
# CatHub.WinKeyer.Endpoint — what a virtual endpoint passes on to its client.

Every endpoint receives every event of the actor.  `eventByte` is the byte it writes to its own
client, if any; `snapshot` is the one the actor has published last.
-/
import CatHub.WinKeyer.Actor

namespace CatHub.WinKeyer

/-- The protocol generation a virtual session was opened in. -/
inductive SessionMode where
  | wk1
  | wk2
  | wk3
  deriving DecidableEq, Repr

/-- `u8::from` of the source. -/
def byteOf (flag : Bool) : UInt8 := if flag then 1 else 0

/-- A status byte made up from the published snapshot; only WK1 reports the key. -/
def synthesizeStatus (snapshot : BrokerSnapshot) (sessionMode : SessionMode) : UInt8 :=
  let keyDown : UInt8 := match sessionMode with
    | .wk1 => byteOf snapshot.keyDown <<< 3
    | .wk2 | .wk3 => 0
  (0xc0 : UInt8) ||| keyDown ||| byteOf snapshot.busy <<< 2 ||| byteOf snapshot.breakIn <<< 1

def statusForMode (raw : UInt8) : SessionMode → UInt8
  | .wk1 => raw
  | .wk2 | .wk3 => raw &&& 0xf7

/-- The byte that the endpoint of `clientId` writes to its client for an event. -/
def eventByte (event : BrokerEvent) (snapshot : BrokerSnapshot) (clientId : ClientId)
    (primary : Bool) (sessionMode : SessionMode) : Option UInt8 :=
  match event with
  | .speedPot raw _ _ => some raw
  | .status raw => some (statusForMode raw sessionMode)
  | .completed _ _ => some 0xc0
  | .canceled _ _ => some (synthesizeStatus snapshot sessionMode)
  | .echo byte =>
      if snapshot.activeClientId == some clientId || (primary && snapshot.breakIn) then some byte
      else none
  | .maintenanceByte owner byte => if owner == clientId then some byte else none
  | _ => none

/-- A maintenance byte reaches its owner and nobody else. -/
theorem eventByte_maintenance {owner clientId : ClientId} (byte : UInt8) (snapshot : BrokerSnapshot)
    (primary : Bool) (sessionMode : SessionMode) :
    eventByte (.maintenanceByte owner byte) snapshot clientId primary sessionMode =
      if owner = clientId then some byte else none := by
  show (if owner == clientId then some byte else none) = _
  by_cases same : owner = clientId <;> simp [same]

end CatHub.WinKeyer
