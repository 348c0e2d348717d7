/-
# CatHub.VirtualSerial.Decoder — the incremental decoder of the private device interface.

`FrameDecoder` gathers bytes and takes one frame at a time out of its buffer.  Its specification reads
three places of a stream by position alone: the marker, the header length and the payload length
(`headerFault`, `totalLen`).  They make a `Framing`, whose pieces are decoded by `Frame.decode`; the
decoder is the incremental reader of that framing (`run_framing`), so the cutting of the stream into
chunks does not show in its results.
-/
import CatHub.Systems.Framing
import CatHub.VirtualSerial.RoundTrip

namespace CatHub.VirtualSerial

open CatHub.Systems

/-! ## The decoder -/

structure FrameDecoder where
  buffer : List UInt8
  deriving DecidableEq

namespace FrameDecoder

def new : FrameDecoder := ⟨[]⟩

def push (decoder : FrameDecoder) (bytes : List UInt8) : FrameDecoder :=
  ⟨decoder.buffer ++ bytes⟩

/-- Decode the next complete frame when it is available. -/
def nextFrame (decoder : FrameDecoder) : Except ProtocolError (Option Frame) × FrameDecoder :=
  if decoder.buffer.length < headerLen then (.ok none, decoder)
  else if slice decoder.buffer 0 4 ≠ some magic then (.error .badMagic, decoder)
  else
    match readU16 decoder.buffer 4 with
    | .error e => (.error e, decoder)
    | .ok len =>
        if len.toNat ≠ headerLen then (.error (.unsupportedHeader len.toNat), decoder)
        else
          match readU32 decoder.buffer 16 with
          | .error e => (.error e, decoder)
          | .ok payloadLen =>
              let total := len.toNat + payloadLen.toNat
              if absoluteMaxFrameLen < total then (.error (.frameTooLarge total), decoder)
              else if decoder.buffer.length < total then (.ok none, decoder)
              else
                (some <$> Frame.decode (decoder.buffer.take total), ⟨decoder.buffer.drop total⟩)

/-- What a call gives, as far as it is a frame or an error. -/
def outcome : Except ProtocolError (Option Frame) → List (Except ProtocolError Frame)
  | .ok none => []
  | .ok (some frame) => [.ok frame]
  | .error e => [.error e]

/-- What the calls of a reader give, in any order, and the decoder after them. -/
def run (decoder : FrameDecoder) :
    List (FramingCall UInt8) → List (Except ProtocolError Frame) × FrameDecoder
  | [] => ([], decoder)
  | .push bytes :: calls => run (decoder.push bytes) calls
  | .next :: calls =>
      let later := run decoder.nextFrame.2 calls
      (outcome decoder.nextFrame.1 ++ later.1, later.2)

end FrameDecoder

/-! ## The stream by position -/

/-- The errors of a header from which the decoder does not move on. -/
def ProtocolError.headerLevel : ProtocolError → Bool
  | .badMagic | .unsupportedHeader _ | .frameTooLarge _ => true
  | _ => false

/-- The header length that stands at the front of a stream. -/
def headerLength (stream : List UInt8) : Nat := ofLe ((stream.drop 4).take 2)

/-- The length that the header at the front of a stream gives for its frame. -/
def totalLen (stream : List UInt8) : Nat := headerLen + ofLe ((stream.drop 16).take 4)

/-- What is wrong with a header of the given marker, header length and frame length. -/
def checkHeader (marker : List UInt8) (len total : Nat) : Option ProtocolError :=
  if marker ≠ magic then some .badMagic
  else if len ≠ headerLen then some (.unsupportedHeader len)
  else if absoluteMaxFrameLen < total then some (.frameTooLarge total)
  else none

def headerFault (stream : List UInt8) : Option ProtocolError :=
  checkHeader (stream.take 4) (headerLength stream) (totalLen stream)

def frameVerdict (stream : List UInt8) : Verdict (Except ProtocolError Frame) :=
  if stream.length < headerLen then .more
  else
    match headerFault stream with
    | some e => .fault (.error e)
    | none => if stream.length < totalLen stream then .more else .piece (totalLen stream)

def headerLevel : Except ProtocolError Frame → Bool
  | .error e => e.headerLevel
  | .ok _ => false

/-! ## Reading by position -/

section Positions

variable {stream later : List UInt8} {e : ProtocolError}

theorem readLe_position {width offset : Nat} (inside : offset + width ≤ stream.length) :
    readLe width stream offset = .ok (ofLe ((stream.drop offset).take width)) := by
  have here : slice stream offset (offset + width) = some ((stream.drop offset).take width) :=
    slice_eq_some.mpr ⟨⟨Nat.le_add_right _ _, inside⟩, by rw [Nat.add_sub_cancel_left]⟩
  rw [readLe, here]

theorem readU16_position {offset : Nat} (inside : offset + 2 ≤ stream.length) :
    ∃ x, readU16 stream offset = .ok x ∧ x.toNat = ofLe ((stream.drop offset).take 2) := by
  refine ⟨_, map_eq_ok.mpr ⟨_, readLe_position inside, rfl⟩, UInt16.toNat_ofNat_of_lt' ?_⟩
  have bound := ofLe_lt ((stream.drop offset).take 2)
  rwa [List.length_take, List.length_drop, Nat.min_eq_left (Nat.le_sub_of_add_le' inside)] at bound

theorem readU32_position {offset : Nat} (inside : offset + 4 ≤ stream.length) :
    ∃ x, readU32 stream offset = .ok x ∧ x.toNat = ofLe ((stream.drop offset).take 4) := by
  refine ⟨_, map_eq_ok.mpr ⟨_, readLe_position inside, rfl⟩, UInt32.toNat_ofNat_of_lt' ?_⟩
  have bound := ofLe_lt ((stream.drop offset).take 4)
  rwa [List.length_take, List.length_drop, Nat.min_eq_left (Nat.le_sub_of_add_le' inside)] at bound

theorem slice_magic (long : headerLen ≤ stream.length) :
    slice stream 0 4 = some (stream.take 4) :=
  slice_eq_some.mpr ⟨⟨Nat.zero_le _, Nat.le_trans (by decide) long⟩, rfl⟩

/-- A header stands in the first 40 bytes. -/
theorem header_append (long : headerLen ≤ stream.length) (later : List UInt8) :
    headerFault (stream ++ later) = headerFault stream ∧
      totalLen (stream ++ later) = totalLen stream := by
  have at_ : ∀ offset width, offset + width ≤ headerLen →
      ((stream ++ later).drop offset).take width = (stream.drop offset).take width := by
    intro offset width inside
    have here := Nat.le_trans inside long
    rw [List.drop_append_of_le_length (Nat.le_trans (Nat.le_add_right _ _) here),
      List.take_append_of_le_length (by rw [List.length_drop]; exact Nat.le_sub_of_add_le' here)]
  have total : totalLen (stream ++ later) = totalLen stream := by
    rw [totalLen, totalLen, at_ 16 4 (by decide)]
  have marker : (stream ++ later).take 4 = stream.take 4 := at_ 0 4 (by decide)
  refine ⟨?_, total⟩
  simp only [headerFault, headerLength, total, marker, at_ 4 2 (by decide)]

theorem header_take (long : headerLen ≤ stream.length) {n : Nat} (enough : headerLen ≤ n) :
    headerFault (stream.take n) = headerFault stream ∧
      totalLen (stream.take n) = totalLen stream := by
  have size : headerLen ≤ (stream.take n).length := by
    rw [List.length_take]
    exact Nat.le_min.mpr ⟨enough, long⟩
  have whole := header_append size (stream.drop n)
  rw [List.take_append_drop] at whole
  exact ⟨whole.1.symm, whole.2.symm⟩

theorem checkHeader_headerLevel {marker : List UInt8} {len total : Nat}
    (h : checkHeader marker len total = some e) : e.headerLevel = true := by
  unfold checkHeader at h
  split at h
  · cases h
    rfl
  split at h
  · cases h
    rfl
  split at h
  · cases h
    rfl
  · cases h

theorem headerLen_le_totalLen (stream : List UInt8) : headerLen ≤ totalLen stream :=
  Nat.le_add_right _ _

end Positions

/-- What the decoder reads of a header. -/
theorem reads_header {stream : List UInt8} (long : headerLen ≤ stream.length) :
    ∃ len payloadLen, readU16 stream 4 = .ok len ∧ len.toNat = headerLength stream ∧
      readU32 stream 16 = .ok payloadLen ∧ headerLen + payloadLen.toNat = totalLen stream := by
  obtain ⟨len, r4, hasLen⟩ := readU16_position (Nat.le_trans (by decide : 4 + 2 ≤ headerLen) long)
  obtain ⟨payloadLen, r16, hasPayload⟩ :=
    readU32_position (Nat.le_trans (by decide : 16 + 4 ≤ headerLen) long)
  exact ⟨len, payloadLen, r4, hasLen, r16, congrArg (headerLen + ·) hasPayload⟩

/-! ## The frame decoder on a piece -/

theorem readLe_error {width offset : Nat} {input : List UInt8} {e : ProtocolError}
    (h : readLe width input offset = .error e) : e.headerLevel = false := by
  unfold readLe at h
  split at h
  · cases h
  · cases h
    rfl

/-- The field decoder finds no fault with a header. -/
theorem Fields.decodeFrom_error {fields : Fields} {input : List UInt8} {e : ProtocolError}
    (h : decodeFrom fields input = .error e) : e.headerLevel = false := by
  fun_induction decodeFrom fields input with
  | case3 _ _ _ _ _ noTag =>
      cases h
      exact readLe_error (map_eq_error.mp noTag)
  | case5 _ _ _ _ _ _ _ _ noLen =>
      cases h
      exact readLe_error (map_eq_error.mp noLen)
  | case8 _ _ _ _ _ _ _ _ _ _ _ _ _ ih => exact ih h
  | case1 => cases h
  | _ =>
      cases h
      rfl

/-- Where the frame decoder finds fault with a header, the header is at fault. -/
theorem headerFault_of_decode {input : List UInt8} {e : ProtocolError}
    (long : headerLen ≤ input.length) (h : Frame.decode input = .error e)
    (level : e.headerLevel = true) : headerFault input = some e := by
  have notRead {other : ProtocolError} (low : other.headerLevel = false) : other ≠ e := by
    rintro rfl
    rw [level] at low
    cases low
  obtain ⟨len, payloadLen, r4, hasLen, r16, hasTotal⟩ := reads_header long
  rw [headerFault, checkHeader, ← hasLen, ← hasTotal]
  unfold Frame.decode at h
  split at h
  · exact absurd long (Nat.not_le.mpr ‹_›)
  split at h
  · rename_i unmarked
    cases h
    rw [slice_magic long] at unmarked
    exact if_pos (fun marked => unmarked (congrArg some marked))
  rename_i marked
  rw [slice_magic long, not_not, Option.some_inj] at marked
  rw [if_neg (not_not.mpr marked)]
  obtain ⟨_, same, h⟩ := (bind_eq_error.mp h).resolve_left (by rw [r4]; exact nofun)
  rw [r4] at same
  cases same
  split at h
  · rename_i foreign
    cases h
    exact if_pos foreign
  rename_i standard
  rw [if_neg standard]
  rcases bind_eq_error.mp h with bad | ⟨code, -, h⟩
  · exact absurd rfl (notRead (readLe_error (map_eq_error.mp bad)))
  rcases bind_eq_error.mp h with bad | ⟨kind, -, h⟩
  · exact absurd (MessageKind.tryFrom_error bad).symm (notRead rfl)
  rcases bind_eq_error.mp h with bad | ⟨major, -, h⟩
  · exact absurd rfl (notRead (readLe_error (map_eq_error.mp bad)))
  rcases bind_eq_error.mp h with bad | ⟨minor, -, h⟩
  · exact absurd rfl (notRead (readLe_error (map_eq_error.mp bad)))
  rcases bind_eq_error.mp h with bad | ⟨flags, -, h⟩
  · exact absurd rfl (notRead (readLe_error (map_eq_error.mp bad)))
  obtain ⟨_, same, h⟩ := (bind_eq_error.mp h).resolve_left (by rw [r16]; exact nofun)
  rw [r16] at same
  cases same
  rw [not_not.mp standard] at h
  dsimp only at h
  split at h
  · rename_i large
    cases h
    exact if_pos large
  split at h
  · cases h
    cases level
  split at h
  · cases h
    cases level
  rcases bind_eq_error.mp h with bad | ⟨endpointId, -, h⟩
  · exact absurd rfl (notRead (readLe_error (map_eq_error.mp bad)))
  rcases bind_eq_error.mp h with bad | ⟨requestId, -, h⟩
  · exact absurd rfl (notRead (readLe_error (map_eq_error.mp bad)))
  rcases bind_eq_error.mp h with bad | ⟨fields, -, h⟩
  · exact absurd rfl (notRead (Fields.decodeFrom_error bad))
  · cases h

/-- The decoder, by the verdict on its buffer. -/
theorem FrameDecoder.nextFrame_eq (decoder : FrameDecoder) :
    decoder.nextFrame =
      match frameVerdict decoder.buffer with
      | .more => (.ok none, decoder)
      | .fault result => (some <$> result, decoder)
      | .piece n =>
          (some <$> Frame.decode (decoder.buffer.take n), ⟨decoder.buffer.drop n⟩) := by
  unfold nextFrame frameVerdict
  by_cases long : headerLen ≤ decoder.buffer.length
  · obtain ⟨len, payloadLen, r4, hasLen, r16, hasTotal⟩ := reads_header long
    rw [if_neg (Nat.not_lt.mpr long), if_neg (Nat.not_lt.mpr long), slice_magic long, r4, r16,
      headerFault, checkHeader, ← hasLen, ← hasTotal]
    by_cases marked : decoder.buffer.take 4 = magic
    · by_cases standard : len.toNat = headerLen
      · by_cases small : absoluteMaxFrameLen < headerLen + payloadLen.toNat
        · simp [marked, standard, small]
        · by_cases short : decoder.buffer.length < headerLen + payloadLen.toNat
          · simp [marked, standard, small, short]
          · simp [marked, standard, small, short]
      · simp [marked, standard]
    · simp [marked]
  · rw [if_pos (Nat.not_le.mp long), if_pos (Nat.not_le.mp long)]

/-! ## The framing -/

/-- A verdict other than that more is needed rests on a whole header. -/
theorem frameVerdict_cases (stream : List UInt8) :
    frameVerdict stream = .more ∨ headerLen ≤ stream.length ∧
      ((∃ e, headerFault stream = some e ∧ frameVerdict stream = .fault (.error e)) ∨
        headerFault stream = none ∧ totalLen stream ≤ stream.length ∧
          frameVerdict stream = .piece (totalLen stream)) := by
  unfold frameVerdict
  split
  · exact .inl rfl
  rename_i long
  cases fault : headerFault stream with
  | some e => exact .inr ⟨Nat.not_lt.mp long, .inl ⟨e, rfl, rfl⟩⟩
  | none =>
      dsimp only
      split
      · exact .inl rfl
      · rename_i enough
        exact .inr ⟨Nat.not_lt.mp long, .inr ⟨rfl, Nat.not_lt.mp enough, rfl⟩⟩

theorem frameVerdict_of_fault {stream : List UInt8} {e : ProtocolError}
    (long : headerLen ≤ stream.length) (fault : headerFault stream = some e) :
    frameVerdict stream = .fault (.error e) := by
  rw [frameVerdict, if_neg (Nat.not_lt.mpr long), fault]

theorem frameVerdict_of_sound {stream : List UInt8} (enough : totalLen stream ≤ stream.length)
    (sound : headerFault stream = none) : frameVerdict stream = .piece (totalLen stream) := by
  rw [frameVerdict, if_neg (Nat.not_lt.mpr (Nat.le_trans (headerLen_le_totalLen stream) enough)),
    sound]
  exact if_neg (Nat.not_lt.mpr enough)

/-- The frames of the private interface. -/
def framing : Framing UInt8 (Except ProtocolError Frame) where
  verdict := frameVerdict
  decode := Frame.decode
  stops := headerLevel
  idle := rfl
  filled {s n} h := by
    rcases frameVerdict_cases s with more | ⟨long, ⟨e, -, fault⟩ | ⟨-, enough, piece⟩⟩
    · rw [more] at h
      cases h
    · rw [fault] at h
      cases h
    · rw [piece] at h
      cases h
      exact ⟨Nat.lt_of_lt_of_le (by decide) (headerLen_le_totalLen s), enough⟩
  settled {s} later h := by
    rcases frameVerdict_cases s with more | ⟨long, ⟨e, found, fault⟩ | ⟨sound, enough, piece⟩⟩
    · exact absurd more h
    · obtain ⟨same, -⟩ := header_append long later
      rw [fault]
      refine frameVerdict_of_fault ?_ (same.trans found)
      rw [List.length_append]
      exact Nat.le_trans long (Nat.le_add_right _ _)
    · obtain ⟨same, total⟩ := header_append long later
      rw [piece, ← total]
      refine frameVerdict_of_sound ?_ (same.trans sound)
      rw [List.length_append, total]
      exact Nat.le_trans enough (Nat.le_add_right _ _)
  stops_fault {s b} h := by
    rcases frameVerdict_cases s with more | ⟨long, ⟨e, found, fault⟩ | ⟨-, -, piece⟩⟩
    · rw [more] at h
      cases h
    · rw [fault] at h
      cases h
      exact checkHeader_headerLevel found
    · rw [piece] at h
      cases h
  goes_on {s n} h := by
    rcases frameVerdict_cases s with more | ⟨long, ⟨e, -, fault⟩ | ⟨sound, enough, piece⟩⟩
    · rw [more] at h
      cases h
    · rw [fault] at h
      cases h
    · rw [piece] at h
      cases h
      have size : headerLen ≤ (s.take (totalLen s)).length := by
        rw [List.length_take, Nat.min_eq_left enough]
        exact headerLen_le_totalLen s
      cases decoded : Frame.decode (s.take (totalLen s)) with
      | ok frame => rfl
      | error e =>
          by_contra level
          have fault := headerFault_of_decode size decoded (by simpa [headerLevel] using level)
          rw [(header_take long (headerLen_le_totalLen s)).1, sound] at fault
          cases fault

/-! ## Chunks -/

namespace FrameDecoder

theorem outcome_map (result : Except ProtocolError Frame) : outcome (some <$> result) = [result] := by
  cases result <;> rfl

theorem nextFrame_framing (decoder : FrameDecoder) :
    (outcome decoder.nextFrame.1, decoder.nextFrame.2.buffer) =
      ((framing.next decoder.buffer).1.toList, (framing.next decoder.buffer).2) := by
  rw [nextFrame_eq]
  cases h : frameVerdict decoder.buffer with
  | more => rw [@Framing.next_more _ _ framing _ h]; rfl
  | fault result => rw [@Framing.next_fault _ _ framing _ _ h, outcome_map]; rfl
  | piece n => rw [@Framing.next_piece _ _ framing _ _ h, outcome_map]; rfl

/-- The decoder is the incremental reader of the framing. -/
theorem run_framing (decoder : FrameDecoder) (calls : List (FramingCall UInt8)) :
    ((decoder.run calls).1, (decoder.run calls).2.buffer) = framing.run decoder.buffer calls := by
  induction calls generalizing decoder with
  | nil => rfl
  | cons call calls ih =>
      cases call with
      | push bytes => exact ih (decoder.push bytes)
      | next =>
          obtain ⟨given, left⟩ := Prod.mk.inj (nextFrame_framing decoder)
          have later := ih decoder.nextFrame.2
          rw [left] at later
          rw [run, Framing.run, ← later, given]

/-- Nothing more is to be had: no frame is complete, or an error of a header came back. -/
def Drained (run : List (Except ProtocolError Frame) × FrameDecoder) : Prop :=
  run.2.nextFrame.1 = .ok none ∨ run.1.any headerLevel = true

theorem some_map_ne_none (result : Except ProtocolError Frame) :
    (some <$> result : Except ProtocolError (Option Frame)) ≠ .ok none := by
  cases result <;> exact nofun

theorem nextFrame_none_iff (decoder : FrameDecoder) :
    decoder.nextFrame.1 = .ok none ↔ frameVerdict decoder.buffer = .more := by
  rw [nextFrame_eq]
  cases h : frameVerdict decoder.buffer with
  | more => simp
  | fault result => simp [some_map_ne_none]
  | piece n => simp [some_map_ne_none]

theorem drained_framing (calls : List (FramingCall UInt8)) :
    Drained (new.run calls) ↔ framing.Drained (framing.run [] calls) := by
  have same : _ = framing.run [] calls := run_framing new calls
  rw [Drained, nextFrame_none_iff, Framing.Drained, ← same]
  rfl

/-- An error consumes exactly the piece it was found in, and nothing when it is one of a header. -/
theorem nextFrame_error {decoder after : FrameDecoder} {e : ProtocolError}
    (h : decoder.nextFrame = (.error e, after)) :
    if e.headerLevel then after = decoder
    else ∃ piece, decoder.buffer = piece ++ after.buffer ∧
      piece.length = totalLen decoder.buffer ∧ Frame.decode piece = .error e := by
  rw [nextFrame_eq] at h
  rcases frameVerdict_cases decoder.buffer with
    more | ⟨-, ⟨e', found, fault⟩ | ⟨-, enough, piece⟩⟩
  · rw [more] at h
    cases h
  · rw [fault] at h
    cases h
    rw [if_pos (checkHeader_headerLevel found)]
  · rw [piece] at h
    obtain ⟨failed, rfl⟩ := Prod.mk.inj h
    have decoded := map_eq_error.mp failed
    have low : ¬ e.headerLevel = true := by
      have goes : headerLevel (Frame.decode _) = false := framing.goes_on piece
      rw [decoded] at goes
      exact Bool.eq_false_iff.mp goes
    rw [if_neg low]
    refine ⟨decoder.buffer.take (totalLen decoder.buffer), ?_, ?_, decoded⟩
    · exact (List.take_append_drop _ _).symm
    · rw [List.length_take, Nat.min_eq_left enough]

end FrameDecoder

/-! ## Incremental and one-shot decoding -/

/-- A stream split at the lengths that its headers give, each piece decoded on its own, up to the
first error of a header. -/
def oneShot (stream : List UInt8) : List (Except ProtocolError Frame) := (framing.split stream).1

/-- An encoded frame is one piece. -/
theorem frameVerdict_encode {frame : Frame} {bytes : List UInt8}
    (encoded : frame.encode = .ok bytes) : frameVerdict bytes = .piece bytes.length := by
  obtain ⟨payload, -, fits, rfl⟩ := Frame.encode_ok.mp encoded
  have standard : headerLength (frame.wire (toLe 4 0) payload) = headerLen := by
    have d4 : (frame.wire (toLe 4 0) payload).drop 4 = toLe 2 headerLen ++ _ := rfl
    rw [headerLength, d4, List.take_left' (length_toLe 2 _)]
    rfl
  have total : totalLen (frame.wire (toLe 4 0) payload) = headerLen + payload.length := by
    have d16 : (frame.wire (toLe 4 0) payload).drop 16 = toLe 4 payload.length ++ _ := rfl
    rw [totalLen, d16, List.take_left' (length_toLe 4 _), ofLe_toLe (Frame.small_payload fits)]
  have size : (frame.wire (toLe 4 0) payload).length = headerLen + payload.length :=
    Frame.length_wire frame (length_toLe 4 0)
  rw [size, ← total]
  refine frameVerdict_of_sound (size.trans total.symm).ge ?_
  have marked : (frame.wire (toLe 4 0) payload).take 4 = magic := rfl
  rw [headerFault, checkHeader, marked, standard, total, if_neg (not_not.mpr rfl),
    if_neg (not_not.mpr rfl), if_neg (Nat.not_lt.mpr fits)]

theorem split_encoded {entries : List (Frame × List UInt8)}
    (encoded : ∀ e ∈ entries, e.1.encode = .ok e.2) :
    framing.split (entries.map Prod.snd).flatten = (entries.map (fun e => .ok e.1), []) := by
  have pieces : ∀ bytes ∈ entries.map Prod.snd, framing.verdict bytes = .piece bytes.length := by
    intro bytes mem
    obtain ⟨e, here, rfl⟩ := List.mem_map.mp mem
    exact frameVerdict_encode (encoded e here)
  rw [Framing.split_flatten pieces, List.map_map]
  refine congrArg (·, []) (List.map_congr_left (fun e here => ?_))
  exact Frame.decode_encode (encoded e here)

/-- However a stream is cut into chunks, and whenever a frame is asked for, the decoder gives the
results of the stream as a whole; an error within a frame consumes that frame alone; and a stream of
encoded frames gives these frames and leaves nothing. -/
theorem incremental_eq_oneShot :
    (∀ calls, let run := FrameDecoder.new.run calls
      through headerLevel (run.1 ++ oneShot run.2.buffer) = oneShot (Framing.pushed calls)) ∧
    (∀ calls, let run := FrameDecoder.new.run calls
      FrameDecoder.Drained run → through headerLevel run.1 = oneShot (Framing.pushed calls)) ∧
    (∀ calls, ∃ n, FrameDecoder.Drained
      (FrameDecoder.new.run (calls ++ List.replicate n .next))) ∧
    (∀ decoder after e, FrameDecoder.nextFrame decoder = (.error e, after) →
      if e.headerLevel then after = decoder
      else ∃ piece, decoder.buffer = piece ++ after.buffer ∧
        piece.length = totalLen decoder.buffer ∧ Frame.decode piece = .error e) ∧
    (∀ entries : List (Frame × List UInt8), (∀ e ∈ entries, e.1.encode = .ok e.2) →
      ∀ calls, Framing.pushed calls = (entries.map Prod.snd).flatten →
        FrameDecoder.Drained (FrameDecoder.new.run calls) →
        FrameDecoder.new.run calls = (entries.map (fun e => .ok e.1), FrameDecoder.new)) := by
  refine ⟨fun calls => ?_, fun calls drained => ?_, fun calls => ?_,
    fun decoder after e h => FrameDecoder.nextFrame_error h,
    fun entries encoded calls whole drained => ?_⟩
  · have same : _ = framing.run [] calls := FrameDecoder.run_framing .new calls
    have split := @Framing.run_split _ _ framing [] calls
    rw [← same] at split
    exact split
  · have same : _ = framing.run [] calls := FrameDecoder.run_framing .new calls
    have given := Framing.run_drained ((FrameDecoder.drained_framing calls).mp drained)
    rw [← same] at given
    exact given
  · obtain ⟨n, drained⟩ := @Framing.exists_drained _ _ framing (framing.run [] calls).2
    refine ⟨n, (FrameDecoder.drained_framing _).mpr ?_⟩
    rw [Framing.run_append]
    exact drained.imp_right (fun met => by rw [List.any_append, met, Bool.or_true])
  · have same : _ = framing.run [] calls := FrameDecoder.run_framing .new calls
    have stream := split_encoded encoded
    rw [← whole] at stream
    have sound : (framing.split ([] ++ Framing.pushed calls)).1.any framing.stops = false := by
      rw [List.nil_append, stream, List.any_map]
      exact List.any_eq_false.mpr (fun e _ => Bool.false_ne_true)
    have given := Framing.run_sound ((FrameDecoder.drained_framing calls).mp drained) sound
    rw [← same, List.nil_append, stream] at given
    obtain ⟨results, rest⟩ := Prod.mk.inj given
    exact Prod.ext results (congrArg FrameDecoder.mk rest)

/-- The frames of the source's decoder test, the first of them cut in two. -/
theorem incremental_eq_oneShot_halves :
    let health := Frame.new .health 0 1
    let discover := Frame.new .discover 0 2
    ∃ n, FrameDecoder.new.run ([.push ((health.wire (toLe 4 0) []).take 20), .next,
        .push ((health.wire (toLe 4 0) []).drop 20), .push (discover.wire (toLe 4 0) [])]
        ++ List.replicate n .next) =
      ([.ok health, .ok discover], FrameDecoder.new) := by
  intro health discover
  obtain ⟨n, drained⟩ := incremental_eq_oneShot.2.2.1 [.push ((health.wire (toLe 4 0) []).take 20),
    .next, .push ((health.wire (toLe 4 0) []).drop 20), .push (discover.wire (toLe 4 0) [])]
  refine ⟨n, incremental_eq_oneShot.2.2.2.2
    [(health, health.wire (toLe 4 0) []), (discover, discover.wire (toLe 4 0) [])] ?_ _ ?_ drained⟩
  · rw [List.forall_mem_cons, List.forall_mem_singleton]
    exact ⟨rfl, rfl⟩
  · rw [Framing.pushed_append, Framing.pushed_asking]
    rfl

end CatHub.VirtualSerial
