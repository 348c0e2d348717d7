/-
# CatHub.Dialect.SerialEndpoint — the requests that a serial session hands to its dialect.

The session reads when bytes are there and writes when its dialect has replied or the hub has something
to announce; it ends with the transport.  A request is what has been gathered when the delimiter comes,
and what has grown to the longest request without one is thrown away, as for the frames of the radio.

`framing_whole_iff` is exact for both: every frame is a whole segment of the stream, and none is lost
that fits, if and only if no segment is too long.
-/
import CatHub.Dialect.Kenwood
import CatHub.Radio.Framer

namespace CatHub.Dialect

open Systems Radio

/-! ## The session -/

/-- The unfinished request, the requests handed to the dialect, oldest first, and whether the session
still serves its client. -/
structure SerialSession where
  frame : Framer UInt8 := { limit := maxFrameLen }
  handed : List (List UInt8) := []
  serving : Bool := true

/-- What the session wakes up for. -/
inductive SerialEvent where
  | read (chunk : List UInt8)
  /-- The transport is at its end, or fails. -/
  | closed
  /-- An announcement or a resync, and whether it could be written. -/
  | notified (written : Bool)
  | busClosed
  deriving DecidableEq, Repr

namespace SerialSession

/-- Take one byte.  `replied k` says whether the reply to request `k` could be written. -/
def take (delim : UInt8) (replied : Nat → Bool) (s : SerialSession) (byte : UInt8) : SerialSession :=
  if s.serving then
    match s.frame.push delim byte with
    | (frame, none) => { s with frame }
    | (frame, some request) =>
        { frame, handed := s.handed ++ [request], serving := replied s.handed.length }
  else s

def step (delim : UInt8) (replied : Nat → Bool) (s : SerialSession) : SerialEvent → SerialSession
  | .read chunk => chunk.foldl (take delim replied) s
  | .closed | .busClosed => { s with serving := false }
  | .notified written => { s with serving := s.serving && written }

/-- A session from its start. -/
def run (delim : UInt8) (replied : Nat → Bool) (events : List SerialEvent) : SerialSession :=
  events.foldl (step delim replied) {}

end SerialSession

/-- The bytes that come in with an event. -/
def SerialEvent.bytes : SerialEvent → List UInt8
  | .read chunk => chunk
  | _ => []

/-- However the stream is cut, whatever else happens in between and whichever replies can be written,
the requests handed over are the segments that the buffer holds whole, as far as the session came. -/
def SessionFramed (delim : UInt8) (stream : List UInt8) : Prop :=
  ∀ (replied : Nat → Bool) (events : List SerialEvent), events.flatMap SerialEvent.bytes = stream →
    let s := SerialSession.run delim replied events
    s.handed <+: wholeSegments maxFrameLen delim stream ∧
      (s.serving = true → s.handed = wholeSegments maxFrameLen delim stream)

/-! ## What it hands over -/

namespace SerialSession

variable {delim : UInt8} {replied : Nat → Bool}

theorem frames_append (framer : Framer UInt8) (front back : List UInt8) :
    Framer.frames delim framer (front ++ back) =
      Framer.frames delim framer front ++ Framer.frames delim (framer.feed delim front).1 back :=
  congrArg Prod.snd (Framer.feed_append delim framer front back)

/-- From `s` the session has come to `t` along these bytes. -/
structure Along (delim : UInt8) (s t : SerialSession) (bytes : List UInt8) : Prop where
  handed : ∃ front, t.handed = s.handed ++ front ∧ front <+: Framer.frames delim s.frame bytes
  whole : t.serving = true → t.handed = s.handed ++ Framer.frames delim s.frame bytes ∧
    t.frame = (s.frame.feed delim bytes).1
  ended : s.serving = false → t = s

theorem Along.stays {s t : SerialSession} (frame : t.frame = s.frame) (handed : t.handed = s.handed)
    (ended : s.serving = false → t = s) : Along delim s t [] where
  handed := ⟨[], by rw [handed, List.append_nil], List.prefix_rfl⟩
  whole _ := ⟨by rw [handed]; exact (List.append_nil _).symm, frame⟩
  ended := ended

theorem Along.append {s t u : SerialSession} {front back : List UInt8} (first : Along delim s t front)
    (second : Along delim t u back) : Along delim s u (front ++ back) := by
  cases serving : t.serving with
  | true =>
      obtain ⟨taken, frame⟩ := first.whole serving
      constructor
      · obtain ⟨later, handed, part⟩ := second.handed
        refine ⟨Framer.frames delim s.frame front ++ later, by rw [handed, taken, List.append_assoc], ?_⟩
        rw [frames_append, ← frame]
        exact (List.prefix_append_right_inj _).mpr part
      · intro serves
        obtain ⟨handed, after⟩ := second.whole serves
        rw [handed, taken, after, frame, frames_append, Framer.feed_append, List.append_assoc]
        exact ⟨rfl, rfl⟩
      · intro gone
        rw [first.ended gone] at serving
        rw [gone] at serving
        cases serving
  | false =>
      obtain rfl := second.ended serving
      constructor
      · obtain ⟨handed, same, part⟩ := first.handed
        rw [frames_append]
        exact ⟨handed, same, part.trans (List.prefix_append _ _)⟩
      · intro serves
        rw [serving] at serves
        cases serves
      · exact first.ended

theorem along_take (s : SerialSession) (byte : UInt8) : Along delim s (take delim replied s byte) [byte] := by
  cases serving : s.serving with
  | false =>
      have stays : take delim replied s byte = s := if_neg (by simp [serving])
      rw [stays]
      refine ⟨⟨[], by simp, List.nil_prefix⟩, fun serves => ?_, fun _ => rfl⟩
      rw [serving] at serves
      cases serves
  | true =>
      have taken : take delim replied s byte = match s.frame.push delim byte with
          | (frame, none) => { s with frame }
          | (frame, some request) =>
              { frame, handed := s.handed ++ [request], serving := replied s.handed.length } :=
        if_pos serving
      have one : Framer.frames delim s.frame [byte] = (s.frame.push delim byte).2.toList :=
        List.append_nil _
      have gone : s.serving = false → take delim replied s byte = s := by
        rw [serving]
        exact nofun
      have after : (s.frame.feed delim [byte]).1 = (s.frame.push delim byte).1 := rfl
      rw [taken] at gone ⊢
      constructor
      · rw [one]
        rcases s.frame.push delim byte with ⟨frame, request⟩
        cases request with
        | none => exact ⟨[], by simp, List.nil_prefix⟩
        | some request => exact ⟨[request], rfl, List.prefix_rfl⟩
      · intro _
        rw [one, after]
        rcases s.frame.push delim byte with ⟨frame, request⟩
        cases request with
        | none => exact ⟨by simp, rfl⟩
        | some request => exact ⟨rfl, rfl⟩
      · exact gone

theorem along_read (s : SerialSession) (chunk : List UInt8) :
    Along delim s (chunk.foldl (take delim replied) s) chunk := by
  induction chunk generalizing s with
  | nil => exact .stays rfl rfl (fun _ => rfl)
  | cons byte chunk ih => exact (along_take s byte).append (ih _)

/-- A session whose replies are all written serves on. -/
theorem serves_read (delim : UInt8) (s : SerialSession) (chunk : List UInt8)
    (serving : s.serving = true) : (chunk.foldl (take delim (fun _ => true)) s).serving = true := by
  induction chunk generalizing s with
  | nil => exact serving
  | cons byte chunk ih =>
      apply ih
      rw [take, if_pos serving]
      rcases s.frame.push delim byte with ⟨frame, request⟩
      cases request with
      | none => exact serving
      | some request => rfl

/-- What one event does. -/
theorem along_step (s : SerialSession) (event : SerialEvent) :
    Along delim s (step delim replied s event) event.bytes := by
  cases event with
  | read chunk => exact along_read s chunk
  | closed => exact .stays rfl rfl (fun gone => by rw [step, ← gone])
  | busClosed => exact .stays rfl rfl (fun gone => by rw [step, ← gone])
  | notified written => exact .stays rfl rfl (fun gone => by rw [step, gone, Bool.false_and, ← gone])

/-- What a run does. -/
theorem along_run (s : SerialSession) (events : List SerialEvent) :
    Along delim s (events.foldl (step delim replied) s) (events.flatMap SerialEvent.bytes) := by
  induction events generalizing s with
  | nil => exact .stays rfl rfl (fun _ => rfl)
  | cons event events ih => exact (along_step s event).append (ih _)

end SerialSession

/-- A session hands over whole segments as long as none outgrows the buffer. -/
theorem sessionFramed_iff (delim : UInt8) (stream : List UInt8) :
    SessionFramed delim stream ↔
      ∀ segment ∈ Framer.segments delim stream, segment.length ≤ maxFrameLen := by
  rw [← Framer.frames_eq_iff]
  constructor
  · intro framed
    have run := @SerialSession.along_read delim (fun _ => true) {} stream
    have serves := SerialSession.serves_read delim {} stream rfl
    have once := (framed (fun _ => true) [.read stream] (by simp [SerialEvent.bytes])).2 serves
    exact (run.whole serves).1.symm.trans once
  · rintro same replied events rfl
    have run := @SerialSession.along_run delim replied {} events
    obtain ⟨front, handed, part⟩ := run.handed
    have whole : Framer.frames delim { limit := maxFrameLen } (events.flatMap SerialEvent.bytes) =
      wholeSegments maxFrameLen delim _ := same
    refine ⟨?_, fun serves => ?_⟩
    · rw [← whole, SerialSession.run, handed]
      exact part
    · rw [← whole]
      exact (run.whole serves).1

/-- **Framing invents no frame, and loses none, as long as no segment outgrows the buffer**, for the
frames of the radio and the requests of a session alike. -/
theorem framing_whole_iff (framing : Framing) (delim : UInt8) (stream : List UInt8) :
    (RadioFramed framing stream ↔
      ∀ segment ∈ Framer.segments framing.delimiter stream, segment.length ≤ maxRadioFrameLen) ∧
    (SessionFramed delim stream ↔
      ∀ segment ∈ Framer.segments delim stream, segment.length ≤ maxFrameLen) :=
  ⟨radioFramed_iff framing stream, sessionFramed_iff delim stream⟩

/-- Noise, and then a key request. -/
def noisyKey (noise : List UInt8) : List UInt8 := noise ++ [0x54, 0x58, 0x3B]

section
variable {noise : List UInt8} (fills : noise.length = 4096) (open_ : 0x3B ∉ noise)
include fills open_

theorem frames_noisyKey : Framer.frames 0x3B { limit := 4096 } (noisyKey noise) = [[0x54, 0x58, 0x3B]] := by
  rw [noisyKey, Framer.frames_fits open_ (by rw [List.length_nil, fills]), List.nil_append]
  simp [Framer.frames, Framer.push, fills]

theorem long_noisyKey : ¬ ∀ segment ∈ Framer.segments 0x3B (noisyKey noise), segment.length ≤ 4096 := by
  have begins : (0x3B : UInt8) ∉ noise ++ [0x54, 0x58] := by
    rw [List.mem_append, not_or]
    exact ⟨open_, by decide⟩
  have cut : noisyKey noise = (noise ++ [0x54, 0x58]) ++ 0x3B :: [] := by
    simp [noisyKey]
  rw [cut, Framer.segments_cons begins, Framer.segments_open List.not_mem_nil,
    List.forall_mem_singleton]
  simp [fills]

theorem noisyKey_taken :
    RadioFramer.pushAll { framing := .semicolonTerminated } [noisyKey noise] =
        [[0x54, 0x58, 0x3B]] ∧
      ¬ RadioFramed .semicolonTerminated (noisyKey noise) ∧
      (SerialSession.run 0x3B (fun _ => true) [.read (noisyKey noise)]).handed =
        [[0x54, 0x58, 0x3B]] ∧
      ¬ SessionFramed 0x3B (noisyKey noise) := by
  have frames := frames_noisyKey fills open_
  have long := long_noisyKey fills open_
  refine ⟨?_, fun framed => long ((radioFramed_iff _ _).mp framed), ?_,
    fun framed => long ((sessionFramed_iff _ _).mp framed)⟩
  · rw [RadioFramer.pushAll_eq, List.flatten_singleton]
    exact frames
  · have serves := SerialSession.serves_read 0x3B {} (noisyKey noise) rfl
    exact ((SerialSession.along_read {} (noisyKey noise)).whole serves).1.trans frames

end

/-- What follows the noise comes out as a request of its own, which keys the radio. -/
theorem noise_becomes_command :
    RadioFramer.pushAll { framing := .semicolonTerminated }
        [noisyKey (List.replicate 4096 0x58)] = [[0x54, 0x58, 0x3B]] ∧
      ¬ RadioFramed .semicolonTerminated (noisyKey (List.replicate 4096 0x58)) ∧
      (SerialSession.run 0x3B (fun _ => true)
        [.read (noisyKey (List.replicate 4096 0x58))]).handed = [[0x54, 0x58, 0x3B]] ∧
      ¬ SessionFramed 0x3B (noisyKey (List.replicate 4096 0x58)) :=
  noisyKey_taken List.length_replicate
    (fun mem => absurd (List.eq_of_mem_replicate mem) (by decide))

end CatHub.Dialect
