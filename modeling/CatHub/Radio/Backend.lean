/-
# CatHub.Radio.Backend — what a backend asks of the link and of the state.

A backend operation is a program: it submits raw bytes to the transport and awaits the answer, looks
at the snapshot, and records changes.  `RadioBackend` is the interface the scheduler runs, and
`ts590Backend` the native one; its modeled writes are the bytes and the records of
`Radio.Ts590`.
-/
import CatHub.Radio.Scheduler
import CatHub.Radio.Ts590
import CatHub.Systems.Program

namespace CatHub.Radio

open Systems

/-! ## The link -/

/-- A failure from the radio transport or a backend operation. -/
inductive BackendError where
  | transport (text : String)
  | timeout
  | rejected (text : String)
  | unsupported
  deriving DecidableEq, Repr

/-- What the transport should expect after writing a command. -/
inductive Expect where
  /-- A frame that begins with one of these verbs. -/
  | reply (verbs : List (List UInt8))
  /-- The next `n` frames, concatenated. -/
  | lines (n : Nat)
  /-- A set that nobody answers. -/
  | noReply
  deriving DecidableEq, Repr

/-- What a backend asks of its surroundings. -/
inductive LinkQuestion where
  | submit (bytes : List UInt8) (expect : Expect)
  | snapshot
  | record (change : StateChange) (source : RadioEventSource)
  deriving DecidableEq, Repr

abbrev LinkQuestion.Answer : LinkQuestion → Type
  | .submit .. => Except BackendError (List UInt8)
  | .snapshot => Snapshot
  | .record .. => Unit

/-- An operation of a backend; it ends early with the first error. -/
abbrev BackendCall (α : Type) : Type :=
  ExceptT BackendError (Program LinkQuestion LinkQuestion.Answer) α

namespace BackendCall

/-- Submit raw bytes and await the matching reply. -/
def submit (bytes : List UInt8) (expect : Expect) : BackendCall (List UInt8) :=
  ExceptT.mk (.ask (LinkQuestion.submit bytes expect) .done)

def snapshot : BackendCall Snapshot :=
  ExceptT.mk (.ask LinkQuestion.snapshot (fun snap => .done (.ok snap)))

def record (change : StateChange) (source : RadioEventSource) : BackendCall Unit :=
  ExceptT.mk (.ask (LinkQuestion.record change source) (fun _ => .done (.ok ())))

/-- Record changes in order. -/
def recordAll (changes : List StateChange) (source : RadioEventSource) : BackendCall Unit :=
  changes.forM (fun change => record change source)

end BackendCall

/-- Whether a question submits only bytes that `P` allows. -/
def LinkQuestion.Submits (P : List UInt8 → Prop) : LinkQuestion → Prop
  | .submit bytes _ => P bytes
  | _ => True

section
variable {P : List UInt8 → Prop}

theorem asks_submit {bytes : List UInt8} {expect : Expect} (h : P bytes) :
    (BackendCall.submit bytes expect).run.Asks (LinkQuestion.Submits P) := And.intro h (fun _ => trivial)

theorem asks_snapshot : (BackendCall.snapshot).run.Asks (LinkQuestion.Submits P) :=
  ⟨trivial, fun _ => trivial⟩

theorem asks_record {change : StateChange} {source : RadioEventSource} :
    (BackendCall.record change source).run.Asks (LinkQuestion.Submits P) :=
  And.intro trivial (fun _ => trivial)

theorem asks_recordAll_of {K : LinkQuestion → Prop} {changes : List StateChange}
    {source : RadioEventSource} (each : ∀ change ∈ changes, K (.record change source)) :
    (BackendCall.recordAll changes source).run.Asks K :=
  Program.Asks.forMExcept (fun change mem => And.intro (each change mem) (fun _ => trivial))

theorem asks_recordAll {changes : List StateChange} {source : RadioEventSource} :
    (BackendCall.recordAll changes source).run.Asks (LinkQuestion.Submits P) :=
  asks_recordAll_of (fun _ _ => trivial)

end

/-! ## Backends -/

/-- A concrete radio, as the scheduler and the transport use it. -/
structure RadioBackend where
  poll : BackendCall Unit
  apply : StateMutation → BackendCall Unit
  passthrough : List UInt8 → BackendCall (List UInt8)
  recordEvent : StateHandle → List UInt8 → RadioEventSource → StateHandle × Bool
  nativePushEnable : Option (List UInt8)
  hasRit : Bool
  hasXit : Bool

/-- Run one operation; a poll and a modeled write answer with nothing. -/
def execute (backend : RadioBackend) : OpKind → BackendCall (List UInt8)
  | .poll => do
      backend.poll
      return []
  | .apply mutation => do
      backend.apply mutation
      return []
  | .passthrough raw => backend.passthrough raw

/-! ## The native TS-590 -/

namespace Ts590

/-- The baseline poll command set: read-only queries. -/
def pollCommands : List (List UInt8) :=
  [ascii ['F', 'A', ';'], ascii ['F', 'B', ';'], ascii ['I', 'F', ';'], ascii ['M', 'D', ';'],
   ascii ['D', 'A', ';'], ascii ['P', 'C', ';']]

/-- Record what a frame of the radio reports. -/
def recordReply (frame : List UInt8) (source : RadioEventSource) : BackendCall Unit :=
  match parseIfStatus frame with
  | some status => BackendCall.recordAll (ifChanges status) source
  | none =>
      match splitFrame frame with
      | none => return ()
      | some (verb, payload) => do
          let snap ← BackendCall.snapshot
          match reportedChange snap verb payload with
          | none => return ()
          | some change => BackendCall.record change source

def poll : BackendCall Unit :=
  pollCommands.forM fun cmd => do
    let reply ← BackendCall.submit cmd (.reply [cmd.take 2])
    recordReply reply .pollDiff

/-- Kenwood sets are not acknowledged: the bytes go out and the write is recorded. -/
def applyWrite (mutation : StateMutation) : BackendCall Unit := do
  let snap ← BackendCall.snapshot
  let _ ← BackendCall.submit (applyBytes snap mutation) .noReply
  BackendCall.recordAll (applyRecords snap mutation) .optimisticWrite

/-- Whether a passthrough frame is a query. -/
def isQuery (frame : List UInt8) : Bool := (splitFrame frame).any (fun (_, payload) => payload.isEmpty)

def passthrough (raw : List UInt8) : BackendCall (List UInt8) :=
  BackendCall.submit raw <|
    if isQuery raw then .reply [((splitFrame raw).map Prod.fst).getD []] else .noReply

end Ts590

def ts590Backend : RadioBackend where
  poll := Ts590.poll
  apply := Ts590.applyWrite
  passthrough := Ts590.passthrough
  recordEvent := Ts590.recordEvent
  nativePushEnable := some (Ts590.ascii ['A', 'I', '2', ';'])
  hasRit := true
  hasXit := true

/-! ### What it submits -/

namespace Ts590

variable {P : List UInt8 → Prop}

theorem asks_recordReply (frame : List UInt8) (source : RadioEventSource) :
    (recordReply frame source).run.Asks (LinkQuestion.Submits P) := by
  unfold recordReply
  split
  · exact asks_recordAll
  · split
    · exact trivial
    · refine Program.Asks.bindExcept asks_snapshot (fun snap => ?_)
      split
      · exact trivial
      · exact asks_record

theorem asks_poll (h : ∀ cmd ∈ pollCommands, P cmd) :
    poll.run.Asks (LinkQuestion.Submits P) := by
  apply Program.Asks.forMExcept
  intro cmd mem
  exact Program.Asks.bindExcept (asks_submit (h cmd mem)) (fun _ => asks_recordReply _ _)

theorem asks_applyWrite {mutation : StateMutation} (h : ∀ snap, P (applyBytes snap mutation)) :
    (applyWrite mutation).run.Asks (LinkQuestion.Submits P) := by
  refine Program.Asks.bindExcept asks_snapshot (fun snap => ?_)
  exact Program.Asks.bindExcept (asks_submit (h snap)) (fun _ => asks_recordAll)

end Ts590

/-- The native backend submits the poll commands, the bytes of the write, or the raw command. -/
theorem asks_execute {P : List UInt8 → Prop} {kind : OpKind}
    (h : match kind with
      | .poll => ∀ cmd ∈ Ts590.pollCommands, P cmd
      | .apply mutation => ∀ snap, P (Ts590.applyBytes snap mutation)
      | .passthrough raw => P raw) :
    (execute ts590Backend kind).run.Asks (LinkQuestion.Submits P) := by
  cases kind with
  | poll => exact Program.Asks.bindExcept (Ts590.asks_poll h) (fun _ => trivial)
  | apply mutation => exact Program.Asks.bindExcept (Ts590.asks_applyWrite h) (fun _ => trivial)
  | passthrough raw => exact asks_submit h

/-! ### Alone with the state -/

/-- A device that answers what is submitted to it, behind a state that nobody else changes. -/
def behind {ρ : Type} (device : List UInt8 → ρ → Except BackendError (List UInt8) × ρ) :
    (q : LinkQuestion) → StateHandle × ρ → q.Answer × (StateHandle × ρ)
  | .submit bytes _, (h, r) =>
      let (reply, r) := device bytes r
      (reply, (h, r))
  | .snapshot, (h, r) => (h.snapshot, (h, r))
  | .record change source, (h, r) => ((), (h.record change source, r))

section
variable {ρ : Type} (device : List UInt8 → ρ → Except BackendError (List UInt8) × ρ)

theorem exec_recordAll_behind (changes : List StateChange) (source : RadioEventSource)
    (h : StateHandle) (r : ρ) :
    (BackendCall.recordAll changes source).run.exec (behind device) (h, r) =
      (.ok (), (Ts590.recordAll h changes source, r)) := by
  induction changes generalizing h with
  | nil => rfl
  | cons change changes ih => exact ih (h.record change source)

/-- The program of a modeled write: the bytes go out, and what the device takes is recorded. -/
theorem exec_applyWrite_behind (mutation : StateMutation) (h : StateHandle) (r : ρ) :
    (Ts590.applyWrite mutation).run.exec (behind device) (h, r) =
      match device (Ts590.applyBytes h.snapshot mutation) r with
      | (.ok _, r) => (.ok (), ((Ts590.apply h mutation).2, r))
      | (.error e, r) => (.error e, (h, r)) := by
  have looked : BackendCall.snapshot.run.exec (behind device) (h, r) = (.ok h.snapshot, (h, r)) := rfl
  have submitted : (BackendCall.submit (Ts590.applyBytes h.snapshot mutation) .noReply).run.exec
      (behind device) (h, r) = ((device (Ts590.applyBytes h.snapshot mutation) r).1,
        (h, (device (Ts590.applyBytes h.snapshot mutation) r).2)) := rfl
  unfold Ts590.applyWrite
  rw [ExceptT.run_bind, Program.exec_bind, looked]
  show ((BackendCall.submit _ .noReply >>= _).run).exec (behind device) (h, r) = _
  rw [ExceptT.run_bind, Program.exec_bind, submitted]
  rcases device (Ts590.applyBytes h.snapshot mutation) r with ⟨error | reply, r⟩
  · rfl
  · exact exec_recordAll_behind device _ .optimisticWrite h r

/-- A modeled write answers with nothing. -/
theorem exec_apply_behind (mutation : StateMutation) (h : StateHandle) (r : ρ) :
    (execute ts590Backend (.apply mutation)).run.exec (behind device) (h, r) =
      match device (Ts590.applyBytes h.snapshot mutation) r with
      | (.ok _, r) => (.ok [], ((Ts590.apply h mutation).2, r))
      | (.error e, r) => (.error e, (h, r)) := by
  have ends := exec_applyWrite_behind device mutation h r
  unfold execute
  rw [ExceptT.run_bind, Program.exec_bind, show ts590Backend.apply = Ts590.applyWrite from rfl, ends]
  rcases device (Ts590.applyBytes h.snapshot mutation) r with ⟨error | reply, r⟩ <;> rfl

end

end CatHub.Radio
