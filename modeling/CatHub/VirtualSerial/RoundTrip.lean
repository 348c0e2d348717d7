/-
# CatHub.VirtualSerial.RoundTrip — the codec of the private device interface is its own inverse.

`Frame.wire` writes a frame with any reserved bytes and any payload.  `Frame.encode_ok` and
`Frame.decode_ok` say, each as an equivalence, that the encoder produces and the decoder accepts
exactly such byte strings: the encoder with reserved bytes zero and the payload in the order of the
tags, the decoder with any reserved bytes and any payload that the field decoder accepts.

A payload is *ordered* by its tags alone (`tagsOf`), whatever its fields hold.  On an ordered payload
the map of the decoder is filled from left to right, so encoding it again gives the payload.
-/
import CatHub.VirtualSerial.Protocol

namespace CatHub.VirtualSerial

open CatHub.Systems

/-! ## One field -/

namespace Fields

variable {fields result : Fields} {tag : UInt16} {value more input : List UInt8}
  {entries : List (UInt16 × List UInt8)}

theorem length_record (tag : UInt16) (value : List UInt8) :
    (record tag value).length = 6 + value.length := by
  rw [record, List.length_append, List.length_append, length_toLe, length_toLe]

theorem reads_record (fits : value.length < 2 ^ 32) (more : List UInt8) :
    readU16 (record tag value ++ more) 0 = .ok tag ∧
      readU32 (record tag value ++ more) 2 = .ok (UInt32.ofNat value.length) ∧
      slice (record tag value ++ more) 6 (6 + (UInt32.ofNat value.length).toNat) = some value ∧
      (record tag value ++ more).drop (6 + (UInt32.ofNat value.length).toNat) = more := by
  have len : (UInt32.ofNat value.length).toNat = value.length := UInt32.toNat_ofNat_of_lt' fits
  have first : (record tag value ++ more).drop 0 =
      toLe 2 tag.toNat ++ (toLe 4 (UInt32.ofNat value.length).toNat ++ (value ++ more)) := by
    simp only [record, len, List.drop_zero, List.append_assoc]
  have second := drop_behind first (length_toLe 2 _)
  have third := drop_behind second (length_toLe 4 _)
  refine ⟨readU16_of_drop first, readU32_of_drop second, ?_, ?_⟩
  · refine slice_eq_some.mpr ⟨⟨Nat.le_add_right _ _, ?_⟩, ?_⟩
    · rw [len, List.length_append, length_record]
      exact Nat.le_add_right _ _
    · rw [third, len, Nat.add_sub_cancel_left, List.take_left]
  · rw [len, ← length_record tag value, List.drop_left]

/-- What is read at the start of a payload is the record of one field. -/
theorem record_of_reads {len : UInt32} (hasTag : readU16 input 0 = .ok tag)
    (hasLen : readU32 input 2 = .ok len) (hasValue : slice input 6 (6 + len.toNat) = some value) :
    input = record tag value ++ input.drop (6 + len.toNat) ∧ value.length = len.toNat := by
  have size : value.length = len.toNat := by
    rw [length_of_slice hasValue, Nat.add_sub_cancel_left]
  have first := drop_of_readU16 hasTag
  have second := drop_of_readU32 hasLen
  refine ⟨?_, size⟩
  rw [record, size, List.append_assoc, List.append_assoc, ← drop_of_slice hasValue, ← second,
    ← first, List.drop_zero]

theorem decodeFrom_record (fields : Fields) (nonzero : tag ≠ 0) (fits : value.length < 2 ^ 32)
    (more : List UInt8) :
    decodeFrom fields (record tag value ++ more) =
      if (fields.set tag value nonzero).1.isSome then .error (.duplicateField tag)
      else decodeFrom (fields.set tag value nonzero).2 more := by
  obtain ⟨hasTag, hasLen, hasValue, rest⟩ := @reads_record tag value fits more
  have long : 6 ≤ (record tag value ++ more).length := by
    rw [List.length_append, length_record, Nat.add_assoc]
    exact Nat.le_add_right _ _
  have filled : record tag value ++ more ≠ [] :=
    List.ne_nil_of_length_pos (Nat.lt_of_lt_of_le (by decide) long)
  rw [decodeFrom, if_neg filled, if_neg (Nat.not_lt.mpr long)]
  simp only [hasTag, hasLen, hasValue, rest, dif_neg nonzero]

/-- A field above all others is new, and goes to the end. -/
theorem set_above (nonzero : tag ≠ 0) (value : List UInt8)
    (above : ∀ e ∈ fields.map.entries, e.1 < tag) :
    (fields.set tag value nonzero).1 = none ∧
      (fields.set tag value nonzero).2.map.entries = fields.map.entries ++ [(tag, value)] :=
  ⟨Table.find?_above above, Table.place_above value above⟩

/-! ## Encoding a list of fields -/

theorem encodeEntries_cons {bytes : List UInt8} :
    encodeEntries ((tag, value) :: entries) = .ok bytes ↔
      value.length < 2 ^ 32 ∧ ∃ more, encodeEntries entries = .ok more ∧
        bytes = record tag value ++ more := by
  rw [encodeEntries]
  split
  · rename_i fits
    rw [and_iff_right fits, bind_eq_ok]
    constructor
    · rintro ⟨more, rest, done⟩
      cases done
      exact ⟨more, rest, rfl⟩
    · rintro ⟨more, rest, rfl⟩
      exact ⟨more, rest, rfl⟩
  · rename_i large
    constructor
    · intro done
      cases done
    · rintro ⟨fits, -⟩
      exact absurd fits large

theorem decodeFrom_encode {bytes : List UInt8} (encoded : encodeEntries entries = .ok bytes)
    (order : (fields.map.entries ++ entries).Pairwise (fun a b => a.1 < b.1))
    (tagged : ∀ e ∈ entries, e.1 ≠ 0) :
    ∃ result, decodeFrom fields bytes = .ok result ∧
      result.map.entries = fields.map.entries ++ entries := by
  induction entries generalizing fields bytes with
  | nil =>
      cases encoded
      exact ⟨fields, by rw [decodeFrom, if_pos rfl], (List.append_nil _).symm⟩
  | cons e entries ih =>
      obtain ⟨tag, value⟩ := e
      obtain ⟨fits, more, rest, rfl⟩ := encodeEntries_cons.mp encoded
      have nonzero : tag ≠ 0 := tagged _ List.mem_cons_self
      have above : ∀ e ∈ fields.map.entries, e.1 < tag := fun e mem =>
        (List.pairwise_append.mp order).2.2 e mem _ List.mem_cons_self
      obtain ⟨new, placed⟩ := set_above nonzero value above
      have later : ((fields.set tag value nonzero).2.map.entries ++ entries).Pairwise
          (fun a b => a.1 < b.1) := by
        rwa [placed, List.append_assoc, List.singleton_append]
      obtain ⟨result, decoded, whole⟩ :=
        ih rest later (fun e mem => tagged e (List.mem_cons_of_mem _ mem))
      refine ⟨result, ?_, ?_⟩
      · rw [decodeFrom_record fields nonzero fits more, new]
        exact decoded
      · rw [whole, placed, List.append_assoc, List.singleton_append]

/-- The decoder reads back what the encoder wrote. -/
theorem decode_encode {bytes : List UInt8} (encoded : fields.encode = .ok bytes) :
    decode bytes = .ok fields := by
  obtain ⟨result, decoded, whole⟩ :=
    @decodeFrom_encode .empty fields.map.entries bytes encoded fields.map.ascending fields.tagged
  have same : result = fields := Fields.ext (Table.ext whole)
  rw [decode, decoded, same]

/-! ## The order of a payload -/

/-- The tags of a payload in the order in which they stand, by the lengths of its fields alone. -/
def tagsOf (payload : List UInt8) : List UInt16 :=
  if payload.length < 6 then []
  else
    match readU16 payload 0, readU32 payload 2 with
    | .ok tag, .ok len => tag :: tagsOf (payload.drop (6 + len.toNat))
    | _, _ => []
termination_by payload.length
decreasing_by
  rw [List.length_drop]
  omega

theorem tagsOf_record (fits : value.length < 2 ^ 32) (more : List UInt8) :
    tagsOf (record tag value ++ more) = tag :: tagsOf more := by
  obtain ⟨hasTag, hasLen, -, rest⟩ := @reads_record tag value fits more
  have long : 6 ≤ (record tag value ++ more).length := by
    rw [List.length_append, length_record, Nat.add_assoc]
    exact Nat.le_add_right _ _
  rw [tagsOf, if_neg (Nat.not_lt.mpr long)]
  simp only [hasTag, hasLen, rest]

theorem tagsOf_encodeEntries {bytes : List UInt8} (encoded : encodeEntries entries = .ok bytes) :
    tagsOf bytes = entries.map Prod.fst := by
  induction entries generalizing bytes with
  | nil =>
      cases encoded
      rw [tagsOf, if_pos (by decide)]
      rfl
  | cons e entries ih =>
      obtain ⟨tag, value⟩ := e
      obtain ⟨fits, more, rest, rfl⟩ := encodeEntries_cons.mp encoded
      rw [tagsOf_record fits, ih rest, List.map_cons]

/-- On an ordered payload the decoder fills its map from left to right. -/
theorem decodeFrom_ordered (decoded : decodeFrom fields input = .ok result)
    (order : (fields.map.entries.map Prod.fst ++ tagsOf input).Pairwise (· < ·)) :
    ∃ entries, result.map.entries = fields.map.entries ++ entries ∧
      encodeEntries entries = .ok input := by
  fun_induction decodeFrom fields input with
  | case1 fields =>
      cases decoded
      exact ⟨[], (List.append_nil _).symm, rfl⟩
  | case8 fields input some_ long tag hasTag nonzero len hasLen value hasValue inserted new ih =>
      obtain ⟨shape, size⟩ := record_of_reads hasTag hasLen hasValue
      have fits : value.length < 2 ^ 32 := size ▸ len.toNat_lt
      generalize input.drop (6 + len.toNat) = more at shape decoded ih
      subst shape
      rw [tagsOf_record fits] at order
      have above : ∀ e ∈ fields.map.entries, e.1 < tag := fun e mem =>
        (List.pairwise_append.mp order).2.2 _ (List.mem_map_of_mem mem) _ List.mem_cons_self
      obtain ⟨-, placed⟩ := set_above nonzero value above
      have later : (inserted.2.map.entries.map Prod.fst ++ tagsOf more).Pairwise (· < ·) := by
        rw [placed, List.map_append, List.append_assoc]
        exact order
      obtain ⟨entries, whole, encoded⟩ := ih decoded later
      refine ⟨(tag, value) :: entries, ?_, encodeEntries_cons.mpr ⟨fits, more, encoded, rfl⟩⟩
      rw [whole, placed, List.append_assoc, List.singleton_append]
  | _ => cases decoded

theorem encode_decode (decoded : decode input = .ok fields)
    (order : (tagsOf input).Pairwise (· < ·)) : fields.encode = .ok input := by
  obtain ⟨entries, whole, encoded⟩ := decodeFrom_ordered decoded order
  rw [encode, whole]
  exact encoded

end Fields

/-! ## Frames -/

namespace Frame

variable {frame : Frame} {bytes : List UInt8}

/-- A frame with the given reserved bytes and payload. -/
def wire (frame : Frame) (reserved payload : List UInt8) : List UInt8 :=
  magic ++ (toLe 2 headerLen ++ (toLe 2 frame.kind.toU16.toNat
    ++ (toLe 2 frame.version.major.toNat ++ (toLe 2 frame.version.minor.toNat
    ++ (toLe 4 frame.flags.bits.toNat ++ (toLe 4 payload.length
    ++ (toLe 8 frame.endpointId.toNat ++ (toLe 8 frame.requestId.toNat
    ++ (reserved ++ payload)))))))))

theorem drop_wire (frame : Frame) (reserved payload : List UInt8) :
    (frame.wire reserved payload).drop 36 = reserved ++ payload := by
  have whole : frame.wire reserved payload = (magic ++ toLe 2 headerLen
      ++ toLe 2 frame.kind.toU16.toNat ++ toLe 2 frame.version.major.toNat
      ++ toLe 2 frame.version.minor.toNat ++ toLe 4 frame.flags.bits.toNat
      ++ toLe 4 payload.length ++ toLe 8 frame.endpointId.toNat
      ++ toLe 8 frame.requestId.toNat) ++ (reserved ++ payload) := by
    simp only [wire, List.append_assoc]
  rw [whole]
  exact List.drop_left' (by simp [magic])

theorem length_wire (frame : Frame) {reserved payload : List UInt8} (width : reserved.length = 4) :
    (frame.wire reserved payload).length = headerLen + payload.length := by
  have size := congrArg List.length (drop_wire frame reserved payload)
  have long : 36 ≤ (frame.wire reserved payload).length := by
    simp [wire, magic]
    omega
  rw [List.length_drop, List.length_append, width] at size
  unfold headerLen
  omega

theorem small_payload {size : Nat} (fits : headerLen + size ≤ absoluteMaxFrameLen) :
    size < 2 ^ 32 := by
  have limit : 40 + size ≤ 1048576 := fits
  omega

theorem encode_ok : frame.encode = .ok bytes ↔
    ∃ payload, frame.fields.encode = .ok payload ∧
      headerLen + payload.length ≤ absoluteMaxFrameLen ∧ bytes = frame.wire (toLe 4 0) payload := by
  rw [encode, bind_eq_ok]
  refine exists_congr (fun payload => and_congr_right (fun _ => ?_))
  by_cases large : absoluteMaxFrameLen < headerLen + payload.length
  · simp [large]
  · have small := Nat.not_le.mpr (small_payload (Nat.not_lt.mp large))
    simp only [if_neg large, if_neg small, and_iff_right (Nat.not_lt.mp large), wire,
      List.append_assoc, Except.ok.injEq]
    exact eq_comm

/-- What the decoder accepts is a frame on the wire. -/
theorem wire_of_decode (decoded : decode bytes = .ok frame) :
    ∃ reserved payload, reserved.length = 4 ∧ Fields.decode payload = .ok frame.fields ∧
      headerLen + payload.length ≤ absoluteMaxFrameLen ∧ bytes = frame.wire reserved payload := by
  unfold decode at decoded
  split at decoded
  · cases decoded
  rename_i long
  split at decoded
  · cases decoded
  rename_i marked
  rw [not_not] at marked
  obtain ⟨len, r4, decoded⟩ := bind_eq_ok.mp decoded
  split at decoded
  · cases decoded
  rename_i standard
  rw [not_not] at standard
  obtain ⟨code, r6, decoded⟩ := bind_eq_ok.mp decoded
  obtain ⟨kind, known, decoded⟩ := bind_eq_ok.mp decoded
  obtain ⟨major, r8, decoded⟩ := bind_eq_ok.mp decoded
  obtain ⟨minor, r10, decoded⟩ := bind_eq_ok.mp decoded
  obtain ⟨bits, r12, decoded⟩ := bind_eq_ok.mp decoded
  obtain ⟨payloadLen, r16, decoded⟩ := bind_eq_ok.mp decoded
  rw [standard] at decoded
  dsimp only at decoded
  split at decoded
  · cases decoded
  rename_i fits
  split at decoded
  · cases decoded
  split at decoded
  · cases decoded
  rename_i whole
  rw [not_not] at whole
  obtain ⟨endpointId, r20, decoded⟩ := bind_eq_ok.mp decoded
  obtain ⟨requestId, r28, decoded⟩ := bind_eq_ok.mp decoded
  obtain ⟨fields, accepted, decoded⟩ := bind_eq_ok.mp decoded
  cases decoded
  have size : (bytes.drop headerLen).length = payloadLen.toNat := by
    rw [List.length_drop, whole, Nat.add_sub_cancel_left]
  have payload : slice bytes headerLen (headerLen + payloadLen.toNat) =
      some (bytes.drop headerLen) := by
    refine slice_eq_some.mpr ⟨⟨Nat.le_add_right _ _, whole.ge⟩, ?_⟩
    rw [Nat.add_sub_cancel_left, ← size, List.take_length]
  have tail : (bytes.drop 36).take 4 ++ bytes.drop headerLen = bytes.drop 36 := by
    have cut := List.take_append_drop 4 (bytes.drop 36)
    rwa [List.drop_drop] at cut
  have reserved : ((bytes.drop 36).take 4).length = 4 := by
    rw [List.length_take, List.length_drop]
    exact Nat.min_eq_left (Nat.le_sub_of_add_le (Nat.not_lt.mp long))
  refine ⟨(bytes.drop 36).take 4, bytes.drop headerLen, reserved, ?_, ?_, ?_⟩
  · rwa [payload, Option.getD_some] at accepted
  · rw [size]
    exact Nat.not_lt.mp fits
  · have e0 : bytes = magic ++ bytes.drop 4 := drop_of_slice marked
    rw [wire, size, tail, ← drop_of_readU64 r28, ← drop_of_readU64 r20, ← drop_of_readU32 r16,
      ← drop_of_readU32 r12, ← drop_of_readU16 r10, ← drop_of_readU16 r8,
      ← MessageKind.toU16_of_tryFrom known, ← drop_of_readU16 r6, ← standard,
      ← drop_of_readU16 r4]
    exact e0

/-- Every frame on the wire is accepted when its payload is. -/
theorem decode_wire {reserved payload : List UInt8} (width : reserved.length = 4)
    (accepted : Fields.decode payload = .ok frame.fields)
    (fits : headerLen + payload.length ≤ absoluteMaxFrameLen) :
    decode (frame.wire reserved payload) = .ok frame := by
  have len : (UInt32.ofNat payload.length).toNat = payload.length :=
    UInt32.toNat_ofNat_of_lt' (small_payload fits)
  have d0 : (frame.wire reserved payload).drop 0 = magic ++ _ := rfl
  have d4 : (frame.wire reserved payload).drop 4 = toLe 2 headerLen ++ _ := drop_behind d0 rfl
  have d6 := drop_behind d4 (length_toLe 2 _)
  have d8 := drop_behind d6 (length_toLe 2 _)
  have d10 := drop_behind d8 (length_toLe 2 _)
  have d12 := drop_behind d10 (length_toLe 2 _)
  have d16 := drop_behind d12 (length_toLe 4 _)
  have d20 := drop_behind d16 (length_toLe 4 _)
  have d28 := drop_behind d20 (length_toLe 8 _)
  have d40 := drop_behind (drop_wire frame reserved payload) width
  have size : (frame.wire reserved payload).length = headerLen + payload.length :=
    length_wire frame width
  have marked : slice (frame.wire reserved payload) 0 4 = some magic :=
    slice_of_drop d0 (by decide) rfl
  have standard : (40 : UInt16).toNat = headerLen := rfl
  rw [← len] at d16
  have r4 : readU16 (frame.wire reserved payload) 4 = .ok 40 := readU16_of_drop d4
  have body : slice (frame.wire reserved payload) headerLen (headerLen + payload.length) =
      some payload := by
    refine slice_eq_some.mpr ⟨⟨Nat.le_add_right _ _, size.ge⟩, ?_⟩
    rw [Nat.add_sub_cancel_left]
    exact (congrArg (List.take payload.length) d40).trans List.take_length
  have enough : ¬ (frame.wire reserved payload).length < headerLen := by
    rw [size]
    exact Nat.not_lt.mpr (Nat.le_add_right _ _)
  rw [decode, if_neg enough, if_neg (not_not.mpr marked)]
  simp only [r4, readU16_of_drop d6, readU16_of_drop d8, readU16_of_drop d10, readU32_of_drop d12,
    readU32_of_drop d16, readU64_of_drop d20, readU64_of_drop d28, MessageKind.tryFrom_toU16,
    standard, len, body, accepted, size, Option.getD_some, bind, Except.bind, ne_eq,
    not_true_eq_false, if_false, Nat.not_lt.mpr fits, Nat.lt_irrefl]

/-! ## Both directions -/

/-- The reserved bytes of a frame are zero and the fields of its payload stand in ascending order. -/
structure Canonical (bytes : List UInt8) : Prop where
  reserved : slice bytes 36 40 = some [0, 0, 0, 0]
  ordered : (Fields.tagsOf (bytes.drop headerLen)).Pairwise (· < ·)

theorem canonical_wire {reserved payload : List UInt8} (width : reserved.length = 4) :
    Canonical (frame.wire reserved payload) ↔
      reserved = toLe 4 0 ∧ (Fields.tagsOf payload).Pairwise (· < ·) := by
  have tail := drop_wire frame reserved payload
  have body : (frame.wire reserved payload).drop headerLen = payload := drop_behind tail width
  have here : slice (frame.wire reserved payload) 36 40 = some reserved :=
    slice_of_drop tail (by decide) width
  constructor
  · rintro ⟨zero, ordered⟩
    rw [here, Option.some_inj] at zero
    exact ⟨zero, body ▸ ordered⟩
  · rintro ⟨zero, ordered⟩
    refine ⟨?_, body.symm ▸ ordered⟩
    rw [here, zero]
    rfl

/-- The encoder writes canonical strings. -/
theorem canonical_encode (encoded : frame.encode = .ok bytes) : Canonical bytes := by
  obtain ⟨payload, fields, -, rfl⟩ := encode_ok.mp encoded
  refine (canonical_wire (length_toLe 4 0)).mpr ⟨rfl, ?_⟩
  rw [Fields.tagsOf_encodeEntries fields]
  exact List.pairwise_map.mpr frame.fields.map.ascending

theorem decode_encode (encoded : frame.encode = .ok bytes) : decode bytes = .ok frame := by
  obtain ⟨payload, fields, fits, rfl⟩ := encode_ok.mp encoded
  exact decode_wire (length_toLe 4 0) (Fields.decode_encode fields) fits

theorem encode_decode (decoded : decode bytes = .ok frame) (canonical : Canonical bytes) :
    frame.encode = .ok bytes := by
  obtain ⟨reserved, payload, width, fields, fits, rfl⟩ := wire_of_decode decoded
  obtain ⟨rfl, ordered⟩ := (canonical_wire width).mp canonical
  exact encode_ok.mpr ⟨payload, Fields.encode_decode fields ordered, fits, rfl⟩

/-- Decoding undoes encoding; and encoding undoes decoding on exactly the strings that are
canonical. -/
theorem codec_round_trip :
    (∀ (frame : Frame) (bytes : List UInt8), frame.encode = .ok bytes → decode bytes = .ok frame) ∧
    ∀ (bytes : List UInt8) (frame : Frame), decode bytes = .ok frame →
      (frame.encode = .ok bytes ↔ Canonical bytes) :=
  ⟨fun _ _ encoded => decode_encode encoded,
    fun _ _ decoded => ⟨canonical_encode, encode_decode decoded⟩⟩

/-- The frame of the source's round-trip test. -/
def helloFrame : Frame :=
  { new .hello 42 9 with
    flags := ⟨4⟩
    fields := ⟨⟨[(1, [1, 0]), (2, [0, 0]),
      (3, [0x63, 0x61, 0x74, 0x68, 0x75, 0x62, 0x2e, 0x65, 0x78, 0x65])], by decide⟩, by decide⟩ }

theorem codec_round_trip_hello :
    ∃ bytes, helloFrame.encode = .ok bytes ∧ bytes.length = 72 ∧ decode bytes = .ok helloFrame ∧
      Canonical bytes := by
  have encoded : helloFrame.encode = .ok (helloFrame.wire (toLe 4 0)
      (Fields.record 1 [1, 0] ++ (Fields.record 2 [0, 0] ++
        (Fields.record 3 [0x63, 0x61, 0x74, 0x68, 0x75, 0x62, 0x2e, 0x65, 0x78, 0x65] ++ [])))) :=
    rfl
  have decoded := codec_round_trip.1 _ _ encoded
  exact ⟨_, encoded, rfl, decoded, (codec_round_trip.2 _ _ decoded).mp encoded⟩

end Frame

end CatHub.VirtualSerial
