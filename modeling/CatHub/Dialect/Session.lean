/-
# CatHub.Dialect.Session — what a client session asks of the hub.

A dialect is a program over the questions of a session: it looks at the snapshot, at its own
auto-information flag and at the lease, and submits operations to the scheduler.  `applyModeled` and
`passthrough` are the two ways to the radio.

`World` is what the answers come from and `Answers` the relation between a question, its answer and
the world before and after it: everything but a submission is answered at once, and while a submission
waits for its reply the world may become any other.
-/
import CatHub.Ptt.Sessions
import CatHub.Radio.Backend

namespace CatHub.Dialect

open Systems Radio Ptt

/-! ## The context -/

/-- What a session inherits from its endpoint and its backend. -/
structure Context where
  sessionId : Nat
  perms : EndpointPermissions
  hasRit : Bool := true
  hasXit : Bool := true
  /-- Present the operating VFO as VFO A. -/
  singleVfo : Bool := false
  /-- The capability dump that the Hamlib listener serves. -/
  dumpState : List UInt8 := []
  deriving DecidableEq, Repr

/-- What a session asks of its surroundings. -/
inductive Question where
  | snapshot
  | isRedundant (mutation : StateMutation)
  | aiOn
  | setAi (on : Bool)
  | tryKey (sessionId : Nat) (hasPtt : Bool)
  | unkey (sessionId : Nat)
  | owner
  | submit (sessionId : Nat) (priority : Priority) (kind : OpKind)
  deriving DecidableEq, Repr

abbrev Question.Answer : Question → Type
  | .snapshot => Snapshot
  | .isRedundant _ => Bool
  | .aiOn => Bool
  | .setAi _ => Unit
  | .tryKey .. => Except PttDenied Unit
  | .unkey _ => Unit
  | .owner => Option Nat
  | .submit .. => Except BackendError (List UInt8)

/-- A part of a session. -/
abbrev Session (α : Type) : Type := Program Question Question.Answer α

namespace Session

def snapshot : Session Snapshot := .ask .snapshot .done
def isRedundant (mutation : StateMutation) : Session Bool := .ask (.isRedundant mutation) .done
def aiOn : Session Bool := .ask .aiOn .done
def setAi (on : Bool) : Session Unit := .ask (.setAi on) .done
def tryKey (sessionId : Nat) (hasPtt : Bool) : Session (Except PttDenied Unit) :=
  .ask (.tryKey sessionId hasPtt) .done
def unkey (sessionId : Nat) : Session Unit := .ask (.unkey sessionId) .done
def owner : Session (Option Nat) := .ask .owner .done
def submit (sessionId : Nat) (priority : Priority) (kind : OpKind) :
    Session (Except BackendError (List UInt8)) := .ask (.submit sessionId priority kind) .done

section
variable {α : Type}

@[simp] theorem snapshot_bind (f : Snapshot → Session α) : snapshot >>= f = .ask .snapshot f := rfl
@[simp] theorem isRedundant_bind (mutation : StateMutation) (f : Bool → Session α) :
    isRedundant mutation >>= f = .ask (.isRedundant mutation) f := rfl
@[simp] theorem aiOn_bind (f : Bool → Session α) : aiOn >>= f = .ask .aiOn f := rfl
@[simp] theorem setAi_bind (on : Bool) (f : Unit → Session α) :
    setAi on >>= f = .ask (.setAi on) f := rfl
@[simp] theorem tryKey_bind (sessionId : Nat) (hasPtt : Bool)
    (f : Except PttDenied Unit → Session α) :
    tryKey sessionId hasPtt >>= f = .ask (.tryKey sessionId hasPtt) f := rfl
@[simp] theorem unkey_bind (sessionId : Nat) (f : Unit → Session α) :
    unkey sessionId >>= f = .ask (.unkey sessionId) f := rfl
@[simp] theorem owner_bind (f : Option Nat → Session α) : owner >>= f = .ask .owner f := rfl
@[simp] theorem submit_bind (sessionId : Nat) (priority : Priority) (kind : OpKind)
    (f : Except BackendError (List UInt8) → Session α) :
    submit sessionId priority kind >>= f = .ask (.submit sessionId priority kind) f := rfl

end

end Session

/-! ## Ways to the radio -/

/-- What a failed submission means to the outcome. -/
def faultOf : Except BackendError (List UInt8) → Option BackendFault
  | .ok _ => none
  | .error .unsupported => some .unsupported
  | .error _ => some .other

/-- Apply a modeled write, enforcing permissions, the lease, and serialization. -/
def applyModeled (ctx : Context) (mutation : StateMutation) (cls : CommandClass) :
    Session ApplyOutcome :=
  if !ctx.perms.allowsMutation cls mutation then return .denied
  else do
    if ← Session.isRedundant mutation then return .ok
    else
      match cls, mutation with
      | .pttWrite, .setPtt true _ => do
          match ← Session.tryKey ctx.sessionId ctx.perms.ptt with
          | .error .busy => return .busy
          | .error .notPermitted => return .denied
          | .ok () =>
              match ← Session.submit ctx.sessionId .ptt (.apply mutation) with
              | .ok _ => return .ok
              | .error _ => do
                  Session.unkey ctx.sessionId
                  return .error
      | .pttWrite, .setPtt false _ => do
          let result ← Session.submit ctx.sessionId .ptt (.apply mutation)
          Session.unkey ctx.sessionId
          return mapOutcome (faultOf result)
      | cls, _ => do
          let priority := if cls = .pttWrite then .ptt else .write
          let result ← Session.submit ctx.sessionId priority (.apply mutation)
          return mapOutcome (faultOf result)

/-- The Kenwood error reply. -/
def errReply : List UInt8 := Ts590.ascii ['?', ';']

/-- Forward a raw native command. -/
def passthrough (ctx : Context) (raw : List UInt8) (cls : CommandClass) : Session (List UInt8) :=
  if !ctx.perms.allows cls then return errReply
  else do
    match ← Session.submit ctx.sessionId .read (.passthrough raw) with
    | .ok bytes => return bytes
    | .error _ => return errReply

/-- A session that vanishes while it holds the lease unkeys the radio first. -/
def releasePttOnDisconnect (ctx : Context) : Session Unit := do
  if (← Session.owner) ≠ some ctx.sessionId then return ()
  else
    let _ ← Session.submit ctx.sessionId .ptt forceReceive
    Session.unkey ctx.sessionId

/-! ## The world of a session -/

/-- The shared state and lease, the session's own flag, and the clock. -/
structure World where
  state : StateHandle
  ptt : PttManager
  ai : Bool
  clock : Nat
  deriving DecidableEq, Repr

/-- The answers that need no waiting. -/
def Answers (before : World) : (q : Question) → q.Answer → World → Prop
  | .snapshot, answer, after => answer = before.state.snapshot ∧ after = before
  | .isRedundant mutation, answer, after =>
      answer = before.state.isRedundant mutation ∧ after = before
  | .aiOn, answer, after => answer = before.ai ∧ after = before
  | .setAi on, _, after => after = { before with ai := on }
  | .tryKey sessionId hasPtt, answer, after =>
      (after.ptt, answer) = before.ptt.tryKey sessionId hasPtt before.clock ∧
        after = { before with ptt := after.ptt }
  | .unkey sessionId, _, after => after = { before with ptt := before.ptt.unkey sessionId }
  | .owner, answer, after => answer = before.ptt.owner ∧ after = before
  | .submit .., _, _ => True

/-- A request on its way. -/
abbrev Trace := List (Program.Exchange Question Question.Answer World)

/-- The session goes through the exchanges of `trace`, and others may move in between. -/
abbrev Runs {α : Type} (session : Session α) (trace : Trace) (a : α) : Prop :=
  Program.Run Answers session trace a

/-- The same answers, by a session that is alone with a radio. -/
def answerAlone (radio : OpKind → World → Except BackendError (List UInt8) × World) :
    (q : Question) → World → q.Answer × World
  | .snapshot, w => (w.state.snapshot, w)
  | .isRedundant mutation, w => (w.state.isRedundant mutation, w)
  | .aiOn, w => (w.ai, w)
  | .setAi on, w => ((), { w with ai := on })
  | .tryKey sessionId hasPtt, w =>
      let (ptt, result) := w.ptt.tryKey sessionId hasPtt w.clock
      (result, { w with ptt })
  | .unkey sessionId, w => ((), { w with ptt := w.ptt.unkey sessionId })
  | .owner, w => (w.ptt.owner, w)
  | .submit _ _ kind, w => radio kind w

theorem answers_alone (radio : OpKind → World → Except BackendError (List UInt8) × World)
    (q : Question) (w : World) : Answers w q (answerAlone radio q w).1 (answerAlone radio q w).2 := by
  cases q <;> simp [Answers, answerAlone]

/-- Whether a mutation keys or unkeys. -/
def isSetPtt : StateMutation → Bool
  | .setPtt .. => true
  | _ => false

/-- The permission class of a modeled mutation. -/
def classOf (mutation : StateMutation) : CommandClass :=
  if isSetPtt mutation then .pttWrite else .modeledWrite

/-- A question that submits nothing and leaves the lease alone. -/
def Question.Harmless : Question → Prop
  | .snapshot | .isRedundant _ | .aiOn | .setAi _ | .owner => True
  | _ => False

/-- Whether a question submits only operations that `K` allows. -/
def Question.Submits (K : OpKind → Prop) : Question → Prop
  | .submit _ _ kind => K kind
  | _ => True

theorem submits_of_not_submit {K : OpKind → Prop} {q : Question}
    (other : ∀ sessionId priority kind, q ≠ .submit sessionId priority kind) : q.Submits K := by
  cases q with
  | submit sessionId priority kind => exact absurd rfl (other sessionId priority kind)
  | _ => trivial

/-- A modeled write submits nothing but its mutation, and that only where it is allowed. -/
theorem asks_applyModeled_of {P : Question → Prop} {ctx : Context} {mutation : StateMutation}
    {cls : CommandClass}
    (other : ∀ q, (∀ sessionId priority kind, q ≠ .submit sessionId priority kind) → P q)
    (submits : ctx.perms.allowsMutation cls mutation = true →
      ∀ sessionId priority, P (.submit sessionId priority (.apply mutation))) :
    (applyModeled ctx mutation cls).Asks P := by
  have look := other (.isRedundant mutation) (fun _ _ _ h => nomatch h)
  have key := other (.tryKey ctx.sessionId ctx.perms.ptt) (fun _ _ _ h => nomatch h)
  have unkey := other (.unkey ctx.sessionId) (fun _ _ _ h => nomatch h)
  unfold applyModeled
  cases allowed : ctx.perms.allowsMutation cls mutation with
  | false => trivial
  | true =>
      have submit := submits allowed
      refine ⟨look, fun redundant => ?_⟩
      cases redundant with
      | true => trivial
      | false =>
          have plain : ∀ priority, (Session.submit ctx.sessionId priority (.apply mutation) >>=
              fun result => .done (mapOutcome (faultOf result))).Asks P :=
            fun priority => ⟨submit _ priority, fun _ => trivial⟩
          cases cls with
          | pttWrite =>
              cases mutation with
              | setPtt keyed source =>
                  cases keyed with
                  | false => exact ⟨submit _ _, fun _ => ⟨unkey, fun _ => trivial⟩⟩
                  | true =>
                      refine ⟨key, fun granted => ?_⟩
                      rcases granted with denied | _
                      · cases denied <;> trivial
                      · refine ⟨submit _ _, fun result => ?_⟩
                        cases result with
                        | error => exact ⟨unkey, fun _ => trivial⟩
                        | ok => trivial
              | _ => exact plain _
          | _ => exact plain _

end CatHub.Dialect
