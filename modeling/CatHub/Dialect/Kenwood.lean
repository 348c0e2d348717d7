/-
# CatHub.Dialect.Kenwood — the three Kenwood client dialects.

`Ts590Dialect` serves native TS-590 clients, `Ts2000Dialect` translates for TS-2000 clients, and
`TransparentTs590Dialect` mirrors the radio.  A request is split at its leading letters; reads are
answered from the snapshot, modeled writes go through `applyModeled`, and the two native dialects
forward the rest.  A notification is a function of the change, the snapshot at that moment and the
session's auto-information flag.
-/
import CatHub.Dialect.Session
import CatHub.Systems.Words

namespace CatHub.Dialect

open Systems Radio Ptt

open Radio.Ts590 (ascii terminator decimal parseU64 splitFrame vfoDigit)

/-! ## Frames -/

/-- An auto-information status frame. -/
def aiFrame (on : Bool) : List UInt8 := ascii ['A', 'I', if on then '2' else '0', ';']

/-- A frequency frame: verb, eleven digits, terminator. -/
def freqFrame (verb : List UInt8) (hz : Nat) : List UInt8 := verb ++ decimal 11 hz ++ [terminator]

def modeFrame (mode : Mode) : List UInt8 := ascii ['M', 'D'] ++ [mode.toKenwoodDigit, terminator]

/-- A receive- or transmit-VFO frame. -/
def vfoFrame (verb : List UInt8) (vfo : Vfo) : List UInt8 := verb ++ [vfoDigit vfo, terminator]

/-- What follows the frequency in an `IF` answer. -/
def ifTail (ptt : Bool) (mode : Mode) (rxVfo : Vfo) (split : Bool) : List UInt8 :=
  ascii ['0', '0', '0', '0', '+', '0', '0', '0', '0', '0', '0', '0', '0', '0', '0'] ++
    [if ptt then 0x31 else 0x30, mode.toKenwoodDigit, vfoDigit rxVfo, 0x30,
      if split then 0x31 else 0x30] ++ ascii ['0', '0', '0', '0', ';']

/-- Synthesize an `IF` answer; a single-VFO endpoint is shown VFO A and no split. -/
def synthIf (snapshot : Snapshot) (singleVfo : Bool) : List UInt8 :=
  let operating := snapshot.vfo snapshot.rxVfo
  ascii ['I', 'F'] ++ decimal 11 operating.freqHz ++
    ifTail snapshot.ptt operating.mode (if singleVfo then .a else snapshot.rxVfo)
      (!singleVfo && snapshot.split)

/-! ## Shared requests -/

def reply : ApplyOutcome → List UInt8
  | .ok => []
  | _ => errReply

def setFreq (ctx : Context) (vfo : Vfo) (payload : List UInt8) : Session (List UInt8) :=
  match parseU64 payload with
  | none => return errReply
  | some hz => do
      let outcome ← applyModeled ctx (.setVfoFreq vfo hz) .modeledWrite
      return reply outcome

/-- `MD`: the mode of the active VFO. -/
def modeRequest (ctx : Context) (payload : List UInt8) : Session (List UInt8) :=
  match payload with
  | [] => do
      let snap ← Session.snapshot
      return modeFrame (snap.vfo snap.rxVfo).mode
  | digit :: _ => do
      let snap ← Session.snapshot
      let outcome ←
        applyModeled ctx (.setMode snap.rxVfo (Mode.fromKenwoodDigit digit)) .modeledWrite
      return reply outcome

/-- `TX` and `RX`. -/
def pttRequest (ctx : Context) (keyed : Bool) : Session (List UInt8) := do
  let outcome ← applyModeled ctx (.setPtt keyed .generic) .pttWrite
  return reply outcome

/-- `AI`: a read reports the session's flag, a write sets it. -/
def aiRequest (payload : List UInt8) : Session (List UInt8) :=
  match payload with
  | [] => do
      let on ← Session.aiOn
      return aiFrame on
  | digit :: _ => do
      Session.setAi (digit != 0x30)
      return []

/-- Forward a native command: a query to those who may read, a set to those who may configure. -/
def forward (ctx : Context) (request payload : List UInt8) : Session (List UInt8) :=
  passthrough ctx request (if payload.isEmpty then .passthroughRead else .configWrite)

/-! ## The dialects -/

/-- A client dialect: requests, notifications of modeled changes, relays of the radio's own frames, and
what a session that lagged is sent. -/
structure ClientDialect where
  handle : List UInt8 → Context → Session (List UInt8)
  formatNotification : Context → Bool → Snapshot → StateChange → Option (List UInt8)
  formatPassthrough : Context → Bool → List UInt8 → Option (List UInt8)
  formatNativePassthrough : Context → Bool → List UInt8 → Option (List UInt8)

namespace Ts590Dialect

def handle (request : List UInt8) (ctx : Context) : Session (List UInt8) :=
  match splitFrame request with
  | none => return errReply
  | some (verb, payload) => do
      let opVfo := (← Session.snapshot).rxVfo
      if verb = ascii ['F', 'A'] then
        let target := if ctx.singleVfo then opVfo else .a
        if payload.isEmpty then
          let snap ← Session.snapshot
          return freqFrame (ascii ['F', 'A']) (snap.vfo target).freqHz
        else setFreq ctx target payload
      else if verb = ascii ['F', 'B'] then
        let target := if ctx.singleVfo then opVfo else .b
        if payload.isEmpty then
          let snap ← Session.snapshot
          return freqFrame (ascii ['F', 'B']) (snap.vfo target).freqHz
        else setFreq ctx target payload
      -- A single-VFO endpoint is shown VFO A, and its selections are swallowed.
      else if verb = ascii ['F', 'R'] ∧ ctx.singleVfo then
        return if payload.isEmpty then ascii ['F', 'R', '0', ';'] else []
      else if verb = ascii ['F', 'T'] ∧ ctx.singleVfo then
        return if payload.isEmpty then ascii ['F', 'T', '0', ';'] else []
      else if verb = ascii ['M', 'D'] then modeRequest ctx payload
      else if verb = ascii ['T', 'X'] then pttRequest ctx true
      else if verb = ascii ['R', 'X'] then pttRequest ctx false
      else if verb = ascii ['A', 'I'] then aiRequest payload
      else if verb = ascii ['I', 'D'] ∧ payload.isEmpty then
        return ascii ['I', 'D', '0', '2', '1', ';']
      else if verb = ascii ['P', 'S'] ∧ payload.isEmpty then return ascii ['P', 'S', '1', ';']
      else if verb = ascii ['I', 'F'] ∧ payload.isEmpty then
        let snap ← Session.snapshot
        return synthIf snap ctx.singleVfo
      else forward ctx request payload

/-- The operating VFO, presented as VFO A: what changes on the other one is invisible, and a switch
re-presents everything. -/
def singleVfoNotification (change : StateChange) (snap : Snapshot) : Option (List UInt8) :=
  match change with
  | .freq vfo hz =>
      if vfo = snap.rxVfo then some (freqFrame (ascii ['F', 'A']) hz ++ synthIf snap true) else none
  | .mode vfo mode => if vfo = snap.rxVfo then some (modeFrame mode ++ synthIf snap true) else none
  | .rxVfo _ =>
      let operating := snap.vfo snap.rxVfo
      some (freqFrame (ascii ['F', 'A']) operating.freqHz ++ modeFrame operating.mode ++
        synthIf snap true)
  | _ => none

def formatNotification (ctx : Context) (ai : Bool) (snap : Snapshot) (change : StateChange) :
    Option (List UInt8) :=
  if !ai then none
  else if ctx.singleVfo then singleVfoNotification change snap
  else
    match change with
    | .freq vfo hz =>
        let frame := freqFrame (match vfo with
          | .a => ascii ['F', 'A']
          | .b => ascii ['F', 'B']) hz
        some (if vfo = snap.rxVfo then frame ++ synthIf snap false else frame)
    | .mode vfo mode =>
        if vfo = snap.rxVfo then some (modeFrame mode ++ synthIf snap false) else none
    | .rxVfo _ => some (synthIf snap false)
    | _ => none

def formatPassthrough (ctx : Context) (ai : Bool) (raw : List UInt8) : Option (List UInt8) :=
  if ctx.singleVfo then none else if ai then some raw else none

end Ts590Dialect

def ts590Dialect : ClientDialect where
  handle := Ts590Dialect.handle
  formatNotification := Ts590Dialect.formatNotification
  formatPassthrough := Ts590Dialect.formatPassthrough
  formatNativePassthrough := fun _ _ _ => none

namespace Ts2000Dialect

def synthIf (snapshot : Snapshot) : List UInt8 := Dialect.synthIf snapshot false

/-- A frequency request, under either verb: the operating VFO is the only one addressed. -/
def freqRequest (verb : List UInt8) (ctx : Context) (payload : List UInt8) :
    Session (List UInt8) := do
  let snap ← Session.snapshot
  if payload.isEmpty then return freqFrame verb (snap.vfo snap.rxVfo).freqHz
  else setFreq ctx snap.rxVfo payload

def handle (request : List UInt8) (ctx : Context) : Session (List UInt8) :=
  match splitFrame request with
  | none => return errReply
  | some (verb, payload) =>
      if verb = ascii ['I', 'F'] ∧ payload.isEmpty then do
        let snap ← Session.snapshot
        return synthIf snap
      else if verb = ascii ['F', 'A'] then freqRequest (ascii ['F', 'A']) ctx payload
      else if verb = ascii ['F', 'B'] then freqRequest (ascii ['F', 'B']) ctx payload
      else if verb = ascii ['M', 'D'] then modeRequest ctx payload
      -- A VFO may be asked for, but never selected.
      else if verb = ascii ['F', 'R'] ∧ payload.isEmpty then do
        let snap ← Session.snapshot
        return vfoFrame (ascii ['F', 'R']) snap.rxVfo
      else if verb = ascii ['F', 'T'] ∧ payload.isEmpty then do
        let snap ← Session.snapshot
        return vfoFrame (ascii ['F', 'T']) (if snap.split then snap.txVfo else snap.rxVfo)
      else if verb = ascii ['A', 'I'] then aiRequest payload
      else if verb = ascii ['I', 'D'] ∧ payload.isEmpty then
        return ascii ['I', 'D', '0', '1', '9', ';']
      else if verb = ascii ['P', 'S'] ∧ payload.isEmpty then return ascii ['P', 'S', '1', ';']
      else return errReply

def formatNotification (_ctx : Context) (ai : Bool) (snap : Snapshot) (change : StateChange) :
    Option (List UInt8) :=
  if !ai then none
  else
    match change with
    | .freq vfo hz => if vfo = snap.rxVfo then some (freqFrame (ascii ['F', 'A']) hz) else none
    | .mode vfo mode => if vfo = snap.rxVfo then some (modeFrame mode) else none
    | .rxVfo _ =>
        let active := snap.vfo snap.rxVfo
        some (freqFrame (ascii ['F', 'A']) active.freqHz ++ modeFrame active.mode ++ synthIf snap)
    | _ => none

end Ts2000Dialect

def ts2000Dialect : ClientDialect where
  handle := Ts2000Dialect.handle
  formatNotification := Ts2000Dialect.formatNotification
  formatPassthrough := fun _ _ _ => none
  formatNativePassthrough := fun _ _ _ => none

namespace TransparentTs590Dialect

def handle (request : List UInt8) (ctx : Context) : Session (List UInt8) :=
  match splitFrame request with
  | none => return errReply
  | some (verb, payload) =>
      if verb = ascii ['T', 'X'] then pttRequest ctx true
      else if verb = ascii ['R', 'X'] then pttRequest ctx false
      else if verb = ascii ['A', 'I'] then aiRequest payload
      else if verb = ascii ['I', 'D'] ∧ payload.isEmpty then
        return ascii ['I', 'D', '0', '2', '1', ';']
      else if verb = ascii ['P', 'S'] ∧ payload.isEmpty then return ascii ['P', 'S', '1', ';']
      else forward ctx request payload

end TransparentTs590Dialect

def transparentTs590Dialect : ClientDialect where
  handle := TransparentTs590Dialect.handle
  formatNotification := fun _ _ _ _ => none
  formatPassthrough := fun _ ai raw => if ai then some raw else none
  formatNativePassthrough := fun _ ai raw => if ai then some raw else none

/-! ## What requests are made of -/

/-- What a Kenwood request may write. -/
def Writable : StateMutation → Prop
  | .setVfoFreq .. | .setMode .. | .setPtt .. => True
  | _ => False

/-- A property of sessions that passes through harmless questions and holds of the writes of Kenwood
requests.  What is left of a request is to forward it. -/
structure Covers (ctx : Context) (P : Session (List UInt8) → Prop) : Prop where
  done : ∀ reply, P (.done reply)
  ask : ∀ {q : Question} {next : q.Answer → Session (List UInt8)}, q.Harmless →
    (∀ answer, P (next answer)) → P (.ask q next)
  written : ∀ {mutation : StateMutation}, Writable mutation →
    P (applyModeled ctx mutation (classOf mutation) >>= fun outcome => .done (reply outcome))

namespace Covers

variable {ctx : Context} {P : Session (List UInt8) → Prop} {request : List UInt8}

theorem ite (_ : Covers ctx P) {c : Prop} [Decidable c] {a b : Session (List UInt8)}
    (yes : c → P a) (no : ¬ c → P b) : P (if c then a else b) := by
  split
  · exact yes ‹_›
  · exact no ‹_›

theorem setFreq (c : Covers ctx P) (vfo : Vfo) (payload : List UInt8) :
    P (setFreq ctx vfo payload) := by
  unfold Dialect.setFreq
  cases parseU64 payload with
  | none => exact c.done errReply
  | some hz => exact @Covers.written _ _ c (.setVfoFreq vfo hz) trivial

theorem modeRequest (c : Covers ctx P) (payload : List UInt8) : P (modeRequest ctx payload) := by
  cases payload with
  | nil => exact c.ask trivial (fun _ => c.done _)
  | cons digit payload =>
      exact c.ask trivial (fun snap =>
        @Covers.written _ _ c (.setMode snap.rxVfo (Mode.fromKenwoodDigit digit)) trivial)

theorem pttRequest (c : Covers ctx P) (keyed : Bool) : P (pttRequest ctx keyed) :=
  @Covers.written _ _ c (.setPtt keyed .generic) trivial

theorem aiRequest (c : Covers ctx P) (payload : List UInt8) : P (aiRequest payload) := by
  cases payload with
  | nil => exact c.ask trivial (fun _ => c.done _)
  | cons digit payload => exact c.ask trivial (fun _ => c.done _)

/-- Look at the snapshot and answer. -/
theorem look (c : Covers ctx P) (f : Snapshot → List UInt8) :
    P (Session.snapshot >>= fun snap => .done (f snap)) := c.ask trivial (fun _ => c.done _)

theorem ts590 (c : Covers ctx P)
    (forwarded : ∀ verb payload, splitFrame request = some (verb, payload) → verb ≠ ascii ['T', 'X'] →
      verb ≠ ascii ['R', 'X'] → P (forward ctx request payload)) :
    P (Ts590Dialect.handle request ctx) := by
  unfold Ts590Dialect.handle
  cases split : splitFrame request with
  | none => exact c.done errReply
  | some parts =>
      obtain ⟨verb, payload⟩ := parts
      refine c.ask trivial (fun snap => ?_)
      -- FA and FB
      refine c.ite (fun _ => c.ite (fun _ => c.look _) (fun _ => c.setFreq _ payload)) (fun _ => ?_)
      refine c.ite (fun _ => c.ite (fun _ => c.look _) (fun _ => c.setFreq _ payload)) (fun _ => ?_)
      -- FR and FT of a single-VFO endpoint
      refine c.ite (fun _ => c.done _) (fun _ => c.ite (fun _ => c.done _) (fun _ => ?_))
      refine c.ite (fun _ => c.modeRequest payload) (fun _ => ?_)
      refine c.ite (fun _ => c.pttRequest true) (fun noTx => ?_)
      refine c.ite (fun _ => c.pttRequest false) (fun noRx => ?_)
      refine c.ite (fun _ => c.aiRequest payload) (fun _ => ?_)
      -- ID, PS and IF, and everything else
      refine c.ite (fun _ => c.done _) (fun _ => c.ite (fun _ => c.done _) (fun _ => ?_))
      exact c.ite (fun _ => c.look _) (fun _ => forwarded verb payload split noTx noRx)

theorem ts2000 (c : Covers ctx P) : P (Ts2000Dialect.handle request ctx) := by
  unfold Ts2000Dialect.handle
  cases splitFrame request with
  | none => exact c.done errReply
  | some parts =>
      obtain ⟨verb, payload⟩ := parts
      have freqRequest : ∀ verb, P (Ts2000Dialect.freqRequest verb ctx payload) := fun verb =>
        c.ask trivial (fun _ => c.ite (fun _ => c.done _) (fun _ => c.setFreq _ payload))
      refine c.ite (fun _ => c.look _) (fun _ => ?_)
      refine c.ite (fun _ => freqRequest _) (fun _ => c.ite (fun _ => freqRequest _) (fun _ => ?_))
      refine c.ite (fun _ => c.modeRequest payload) (fun _ => ?_)
      -- FR and FT, which may only be asked for
      refine c.ite (fun _ => c.look _) (fun _ => c.ite (fun _ => c.look _) (fun _ => ?_))
      refine c.ite (fun _ => c.aiRequest payload) (fun _ => c.ite (fun _ => c.done _) (fun _ => ?_))
      exact c.ite (fun _ => c.done _) (fun _ => c.done errReply)

theorem transparent (c : Covers ctx P)
    (forwarded : ∀ verb payload, splitFrame request = some (verb, payload) → verb ≠ ascii ['T', 'X'] →
      verb ≠ ascii ['R', 'X'] → P (forward ctx request payload)) :
    P (TransparentTs590Dialect.handle request ctx) := by
  unfold TransparentTs590Dialect.handle
  cases split : splitFrame request with
  | none => exact c.done errReply
  | some parts =>
      obtain ⟨verb, payload⟩ := parts
      refine c.ite (fun _ => c.pttRequest true) (fun noTx => ?_)
      refine c.ite (fun _ => c.pttRequest false) (fun noRx => ?_)
      refine c.ite (fun _ => c.aiRequest payload) (fun _ => ?_)
      refine c.ite (fun _ => c.done _) (fun _ => c.ite (fun _ => c.done _) (fun _ => ?_))
      exact forwarded verb payload split noTx noRx

end Covers

/-! ## Delivery -/

/-- The longest partial frame a serial endpoint keeps. -/
def maxFrameLen : Nat := 4096

/-- The request frames that a serial endpoint takes out of what its client sends. -/
def requestFrames (stream : List UInt8) : List (List UInt8) :=
  Framer.frames terminator { limit := maxFrameLen } stream

/-- A request frame ends with its only terminator. -/
theorem requestFrames_closed {stream request : List UInt8} (mem : request ∈ requestFrames stream) :
    ∃ body, terminator ∉ body ∧ request = body ++ [terminator] :=
  @Framer.frames_closed _ _ terminator stream request { limit := maxFrameLen }
    (by simp [Framer.Open]) mem

end CatHub.Dialect
