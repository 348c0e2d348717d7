/-
# CatHub.VirtualSerial.Protocol — the frames of the private device interface.

A frame is a 40-byte header and a payload of type-length-value fields, all integers little-endian.
`Fields` carries what the source keeps by a private map: the tags ascend and none of them is zero.

Reading at fixed offsets is described from both sides: a reader finds what stands at its offset
(`readU16_of_drop`), and what it found stands there (`drop_of_readU16`).
-/
import CatHub.Systems.Bytes
import CatHub.Systems.Results
import CatHub.Systems.Table

namespace CatHub.VirtualSerial

open CatHub.Systems

/-! ## Errors and message kinds -/

inductive ProtocolError where
  | incomplete (needed available : Nat)
  | badMagic
  | unsupportedHeader (len : Nat)
  | unknownMessageKind (kind : UInt16)
  | frameTooLarge (size : Nat)
  | trailingBytes (count : Nat)
  | reservedFieldTag
  | fieldTooLarge (tag : UInt16) (size : Nat)
  | duplicateField (tag : UInt16)
  | malformedFields
  deriving DecidableEq, Repr

inductive MessageKind where
  | hello | helloAck | discover | endpoint | discoverComplete | attach | attachAck | detach | data
  | windowUpdate | serialConfig | modemControl | modemStatus | applicationOpen | applicationClose
  | cancel | purge | health | healthAck | error
  deriving DecidableEq, Repr

namespace MessageKind

def toU16 : MessageKind → UInt16
  | hello => 1
  | helloAck => 2
  | discover => 3
  | endpoint => 4
  | discoverComplete => 5
  | attach => 6
  | attachAck => 7
  | detach => 8
  | data => 9
  | windowUpdate => 10
  | serialConfig => 11
  | modemControl => 12
  | modemStatus => 13
  | applicationOpen => 14
  | applicationClose => 15
  | cancel => 16
  | purge => 17
  | health => 18
  | healthAck => 19
  | error => 20

def tryFrom (value : UInt16) : Except ProtocolError MessageKind :=
  match value with
  | 1 => .ok hello
  | 2 => .ok helloAck
  | 3 => .ok discover
  | 4 => .ok endpoint
  | 5 => .ok discoverComplete
  | 6 => .ok attach
  | 7 => .ok attachAck
  | 8 => .ok detach
  | 9 => .ok data
  | 10 => .ok windowUpdate
  | 11 => .ok serialConfig
  | 12 => .ok modemControl
  | 13 => .ok modemStatus
  | 14 => .ok applicationOpen
  | 15 => .ok applicationClose
  | 16 => .ok cancel
  | 17 => .ok purge
  | 18 => .ok health
  | 19 => .ok healthAck
  | 20 => .ok error
  | other => .error (.unknownMessageKind other)

@[simp] theorem tryFrom_toU16 (kind : MessageKind) : tryFrom kind.toU16 = .ok kind := by
  cases kind <;> rfl

theorem toU16_of_tryFrom {value : UInt16} {kind : MessageKind} (h : tryFrom value = .ok kind) :
    value = kind.toU16 := by
  unfold tryFrom at h
  split at h <;> cases h <;> rfl

theorem tryFrom_error {value : UInt16} {e : ProtocolError} (h : tryFrom value = .error e) :
    e = .unknownMessageKind value := by
  unfold tryFrom at h
  split at h <;> cases h
  rfl

end MessageKind

/-! ## Reading integers -/

def readLe (width : Nat) (input : List UInt8) (offset : Nat) : Except ProtocolError Nat :=
  match slice input offset (offset + width) with
  | some bytes => .ok (ofLe bytes)
  | none => .error .malformedFields

def readU16 (input : List UInt8) (offset : Nat) : Except ProtocolError UInt16 :=
  UInt16.ofNat <$> readLe 2 input offset

def readU32 (input : List UInt8) (offset : Nat) : Except ProtocolError UInt32 :=
  UInt32.ofNat <$> readLe 4 input offset

def readU64 (input : List UInt8) (offset : Nat) : Except ProtocolError UInt64 :=
  UInt64.ofNat <$> readLe 8 input offset

theorem readLe_of_drop {input rest : List UInt8} {width offset n : Nat} (some_ : 0 < width)
    (fits : n < 256 ^ width) (here : input.drop offset = toLe width n ++ rest) :
    readLe width input offset = .ok n := by
  simp only [readLe, slice_of_drop here some_ (length_toLe width n), ofLe_toLe fits]

theorem readU16_of_drop {input rest : List UInt8} {offset : Nat} {x : UInt16}
    (here : input.drop offset = toLe 2 x.toNat ++ rest) : readU16 input offset = .ok x := by
  rw [readU16, readLe_of_drop (by decide) x.toNat_lt here]
  exact congrArg Except.ok UInt16.ofNat_toNat

theorem readU32_of_drop {input rest : List UInt8} {offset : Nat} {x : UInt32}
    (here : input.drop offset = toLe 4 x.toNat ++ rest) : readU32 input offset = .ok x := by
  rw [readU32, readLe_of_drop (by decide) x.toNat_lt here]
  exact congrArg Except.ok UInt32.ofNat_toNat

theorem readU64_of_drop {input rest : List UInt8} {offset : Nat} {x : UInt64}
    (here : input.drop offset = toLe 8 x.toNat ++ rest) : readU64 input offset = .ok x := by
  rw [readU64, readLe_of_drop (by decide) x.toNat_lt here]
  exact congrArg Except.ok UInt64.ofNat_toNat

theorem drop_of_readLe {width offset n : Nat} {input : List UInt8}
    (read : readLe width input offset = .ok n) :
    input.drop offset = toLe width n ++ input.drop (offset + width) ∧ n < 256 ^ width := by
  unfold readLe at read
  split at read
  · rename_i bytes found
    cases read
    have len : bytes.length = width := by
      rw [length_of_slice found, Nat.add_sub_cancel_left]
    have word := toLe_ofLe bytes
    rw [len] at word
    refine ⟨?_, len ▸ ofLe_lt bytes⟩
    rw [word]
    exact drop_of_slice found
  · cases read

theorem drop_of_readU16 {offset : Nat} {input : List UInt8} {x : UInt16}
    (read : readU16 input offset = .ok x) :
    input.drop offset = toLe 2 x.toNat ++ input.drop (offset + 2) := by
  obtain ⟨n, here, rfl⟩ := map_eq_ok.mp read
  obtain ⟨found, fits⟩ := drop_of_readLe here
  rwa [UInt16.toNat_ofNat_of_lt' fits]

theorem drop_of_readU32 {offset : Nat} {input : List UInt8} {x : UInt32}
    (read : readU32 input offset = .ok x) :
    input.drop offset = toLe 4 x.toNat ++ input.drop (offset + 4) := by
  obtain ⟨n, here, rfl⟩ := map_eq_ok.mp read
  obtain ⟨found, fits⟩ := drop_of_readLe here
  rwa [UInt32.toNat_ofNat_of_lt' fits]

theorem drop_of_readU64 {offset : Nat} {input : List UInt8} {x : UInt64}
    (read : readU64 input offset = .ok x) :
    input.drop offset = toLe 8 x.toNat ++ input.drop (offset + 8) := by
  obtain ⟨n, here, rfl⟩ := map_eq_ok.mp read
  obtain ⟨found, fits⟩ := drop_of_readLe here
  rwa [UInt64.toNat_ofNat_of_lt' fits]

/-! ## Payload fields -/

/-- The order of the tags, as the source's map has it. -/
instance tagOrder : LinearOrder UInt16 where
  le_refl := UInt16.le_refl
  le_trans _ _ _ := UInt16.le_trans
  le_antisymm _ _ := UInt16.le_antisymm
  le_total := UInt16.le_total
  lt_iff_le_not_ge a b := by
    rw [UInt16.lt_iff_toNat_lt, UInt16.le_iff_toNat_le, UInt16.le_iff_toNat_le]
    exact Nat.lt_iff_le_and_not_ge
  toDecidableLE := inferInstance
  toDecidableEq := inferInstance
  toDecidableLT := inferInstance

/-- Ordered type-length-value payload fields.  The map of the source is private: `insert` and `decode`
are the only ways to put a field into it, and both refuse tag zero. -/
@[ext] structure Fields where
  map : Table UInt16 (List UInt8)
  tagged : ∀ e ∈ map.entries, e.1 ≠ 0
  deriving DecidableEq

namespace Fields

def empty : Fields := ⟨.empty, by simp [Table.empty]⟩

/-- The value that was there, and the fields with the new one. -/
def set (fields : Fields) (tag : UInt16) (value : List UInt8) (nonzero : tag ≠ 0) :
    Option (List UInt8) × Fields :=
  let inserted := fields.map.insert tag value
  (inserted.1, ⟨inserted.2, fun e mem => by
    rcases Table.mem_place mem with rfl | earlier
    · exact nonzero
    · exact fields.tagged e earlier⟩)

/-- Insert a raw field. -/
def insert (fields : Fields) (tag : UInt16) (value : List UInt8) : Except ProtocolError Fields :=
  if zero : tag = 0 then .error .reservedFieldTag else .ok (fields.set tag value zero).2

/-- The wire form of one field. -/
def record (tag : UInt16) (value : List UInt8) : List UInt8 :=
  toLe 2 tag.toNat ++ toLe 4 value.length ++ value

def encodeEntries : List (UInt16 × List UInt8) → Except ProtocolError (List UInt8)
  | [] => .ok []
  | (tag, value) :: rest =>
      if value.length < 2 ^ 32 then do
        let more ← encodeEntries rest
        .ok (record tag value ++ more)
      else .error (.fieldTooLarge tag value.length)

def encode (fields : Fields) : Except ProtocolError (List UInt8) := encodeEntries fields.map.entries

/-- The loop of `decode`.  A length is at most 32 bits, so the end of a value is a proper `usize`. -/
def decodeFrom (fields : Fields) (input : List UInt8) : Except ProtocolError Fields :=
  if input = [] then .ok fields
  else if input.length < 6 then .error .malformedFields
  else
    match readU16 input 0 with
    | .error e => .error e
    | .ok tag =>
        if zero : tag = 0 then .error .reservedFieldTag
        else
          match readU32 input 2 with
          | .error e => .error e
          | .ok len =>
              match slice input 6 (6 + len.toNat) with
              | none => .error .malformedFields
              | some value =>
                  let inserted := fields.set tag value zero
                  if inserted.1.isSome then .error (.duplicateField tag)
                  else decodeFrom inserted.2 (input.drop (6 + len.toNat))
termination_by input.length
decreasing_by
  rw [List.length_drop]
  omega

def decode (input : List UInt8) : Except ProtocolError Fields := decodeFrom .empty input

end Fields

/-! ## Frames -/

def magic : List UInt8 := [0x43, 0x48, 0x56, 0x53]

def headerLen : Nat := 40

def absoluteMaxFrameLen : Nat := 1024 * 1024

structure ProtocolVersion where
  major : UInt16
  minor : UInt16
  deriving DecidableEq, Repr

def currentVersion : ProtocolVersion := ⟨1, 0⟩

structure FrameFlags where
  bits : UInt32
  deriving DecidableEq, Repr

@[ext] structure Frame where
  version : ProtocolVersion
  kind : MessageKind
  flags : FrameFlags
  endpointId : UInt64
  requestId : UInt64
  fields : Fields
  deriving DecidableEq

namespace Frame

/-- A frame with the current protocol version. -/
def new (kind : MessageKind) (endpointId requestId : UInt64) : Frame :=
  ⟨currentVersion, kind, ⟨0⟩, endpointId, requestId, .empty⟩

def encode (frame : Frame) : Except ProtocolError (List UInt8) := do
  let payload ← frame.fields.encode
  let total := headerLen + payload.length
  if absoluteMaxFrameLen < total then .error (.frameTooLarge total)
  else if 2 ^ 32 ≤ payload.length then .error (.frameTooLarge payload.length)
  else
    .ok (magic ++ toLe 2 headerLen ++ toLe 2 frame.kind.toU16.toNat
      ++ toLe 2 frame.version.major.toNat ++ toLe 2 frame.version.minor.toNat
      ++ toLe 4 frame.flags.bits.toNat ++ toLe 4 payload.length
      ++ toLe 8 frame.endpointId.toNat ++ toLe 8 frame.requestId.toNat ++ toLe 4 0 ++ payload)

/-- Decode one complete frame. -/
def decode (input : List UInt8) : Except ProtocolError Frame :=
  if input.length < headerLen then .error (.incomplete headerLen input.length)
  else if slice input 0 4 ≠ some magic then .error .badMagic
  else do
    let len ← readU16 input 4
    if len.toNat ≠ headerLen then .error (.unsupportedHeader len.toNat)
    else
      let kind ← MessageKind.tryFrom (← readU16 input 6)
      let version : ProtocolVersion := ⟨← readU16 input 8, ← readU16 input 10⟩
      let flags : FrameFlags := ⟨← readU32 input 12⟩
      let payloadLen ← readU32 input 16
      let total := len.toNat + payloadLen.toNat
      if absoluteMaxFrameLen < total then .error (.frameTooLarge total)
      else if input.length < total then .error (.incomplete total input.length)
      else if input.length ≠ total then .error (.trailingBytes (input.length - total))
      else
        let endpointId ← readU64 input 20
        let requestId ← readU64 input 28
        let fields ← Fields.decode ((slice input len.toNat total).getD [])
        .ok { version, kind, flags, endpointId, requestId, fields }

end Frame

end CatHub.VirtualSerial
