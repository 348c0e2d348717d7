/-
# CatHub.Radio.Framer — the frames that the transport takes out of what the radio sends.

The bytes come in reads of any size; a frame ends with the delimiter of the radio's framing.  What has
grown to the longest frame without one is thrown away, and gathering begins anew in the middle of the
line: the end of a line that is too long comes out as a frame of its own.
-/
import CatHub.Systems.Words

namespace CatHub.Radio

open Systems

/-- How a radio delimits its frames. -/
inductive Framing where
  | semicolonTerminated
  | lineTerminated
  | ciV
  deriving DecidableEq, Repr

def Framing.delimiter : Framing → UInt8
  | .semicolonTerminated => 0x3B
  | .lineTerminated => 0x0A
  | .ciV => 0xFD

/-- The longest partial frame that is kept. -/
def maxRadioFrameLen : Nat := 4096

/-- Split a byte stream into frames. -/
structure RadioFramer where
  framing : Framing
  framer : Framer UInt8 := { limit := maxRadioFrameLen }

namespace RadioFramer

/-- Feed the bytes of one read and return the frames that became complete. -/
def push (f : RadioFramer) (bytes : List UInt8) : RadioFramer × List (List UInt8) :=
  let (framer, frames) := f.framer.feed f.framing.delimiter bytes
  ({ f with framer }, frames)

/-- The frames of several reads. -/
def pushAll (f : RadioFramer) : List (List UInt8) → List (List UInt8)
  | [] => []
  | read :: reads =>
      let (f, frames) := f.push read
      frames ++ f.pushAll reads

/-- How the stream is cut into reads does not show. -/
theorem pushAll_eq (f : RadioFramer) (reads : List (List UInt8)) :
    f.pushAll reads = Framer.frames f.framing.delimiter f.framer reads.flatten := by
  have cut : f.pushAll reads = (f.framer.feedAll f.framing.delimiter reads).2 := by
    induction reads generalizing f with
    | nil => rfl
    | cons read reads ih => exact congrArg (_ ++ ·) (ih (f.push read).1)
  rw [cut, Framer.feedAll_eq]
  rfl

end RadioFramer

/-- The segments of a stream that a buffer of this size holds whole. -/
def wholeSegments (limit : Nat) (delim : UInt8) (stream : List UInt8) : List (List UInt8) :=
  (Framer.segments delim stream).filter (·.length ≤ limit)

/-- However the stream is cut, the frames are the segments that the buffer holds whole. -/
def RadioFramed (framing : Framing) (stream : List UInt8) : Prop :=
  ∀ reads : List (List UInt8), reads.flatten = stream →
    RadioFramer.pushAll { framing } reads =
      wholeSegments maxRadioFrameLen framing.delimiter stream

/-- Frames are not invented as long as no segment outgrows the buffer. -/
theorem radioFramed_iff (framing : Framing) (stream : List UInt8) :
    RadioFramed framing stream ↔
      ∀ segment ∈ Framer.segments framing.delimiter stream, segment.length ≤ maxRadioFrameLen := by
  rw [← Framer.frames_eq_iff]
  constructor
  · intro framed
    have once := framed [stream] (by simp)
    rw [RadioFramer.pushAll_eq, List.flatten_singleton] at once
    exact once
  · rintro same reads rfl
    rw [RadioFramer.pushAll_eq]
    exact same

end CatHub.Radio
