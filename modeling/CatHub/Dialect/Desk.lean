/-
# CatHub.Dialect.Desk — all sessions at one radio.

Sessions, the poller and the watchdog are programs that go on one question at a time, in any
interleaving.  A submission goes into the scheduler's queues; the scheduler runs one operation of the
backend at a time, and what that submits to the link is the `wire`.  The radio answers and pushes what it
likes.

A `Contract` says what each party may rely on and has to see to.  `Upheld.step` is the step lemma and
`upheld_run` the rule for runs: where every input is as the contract has it, everything else is.
`confined_run` is the part of it for what can come out on the wire.
-/
import CatHub.Dialect.Authorization
import CatHub.Systems.Execution

namespace CatHub.Dialect

open Systems Radio Ptt

/-! ## The machine -/

/-- A program between two questions. -/
inductive Activity where
  | idle
  | running (rest : Session (List UInt8))
  /-- Its submission is on its way. -/
  | waiting (next : Except BackendError (List UInt8) → Session (List UInt8))

/-- An operation of the backend, between two questions. -/
abbrev BackendRest := Program LinkQuestion LinkQuestion.Answer (Except BackendError (List UInt8))

structure Desk where
  state : StateHandle := {}
  ptt : PttManager
  clock : Nat := 0
  ai : Requester → Bool := fun _ => false
  activity : Requester → Activity := fun _ => .idle
  /-- The sessions whose transport has closed. -/
  closed : Nat → Bool := fun _ => false
  queues : Queues Requester := []
  executing : Option (Requester × BackendRest) := none
  /-- What was submitted to the link, oldest first. -/
  wire : List (List UInt8) := []

/-- The session id of the poller. -/
def pollerSession : Nat := 0

/-- One round of the poller. -/
def pollOnce : Session (List UInt8) := do
  let _ ← Session.submit pollerSession .poll .poll
  return []

/-- What the watchdog does about a session that keys for too long. -/
def cutOff (owner : Nat) : Session (List UInt8) := do
  let _ ← Session.submit owner .ptt forceReceive
  Session.unkey owner
  return []

/-- What is left of a session when its transport closes. -/
def farewell (ctx : Context) : Session (List UInt8) := do
  releasePttOnDisconnect ctx
  return []

inductive DeskInput where
  | pass (elapsed : Nat)
  | request (sessionId : Nat) (bytes : List UInt8)
  | disconnect (sessionId : Nat)
  | poll
  | checkCeiling
  /-- A program takes its next step. -/
  | go (who : Requester)
  /-- The scheduler turns to the next operation. -/
  | select
  /-- The backend looks at the state or changes it. -/
  | work
  /-- The link answers the backend. -/
  | link (answer : Except BackendError (List UInt8))
  | finish
  /-- The radio sends a frame of its own accord. -/
  | push (frame : List UInt8)
  /-- The hub opens the link and turns the radio's own reports on. -/
  | connect

namespace Desk

def world (d : Desk) (who : Requester) : World := ⟨d.state, d.ptt, d.ai who, d.clock⟩

def put (d : Desk) (who : Requester) (activity : Activity) : Desk :=
  { d with activity := Function.update d.activity who activity }

/-- The world after an answer that needs no waiting. -/
def settle (d : Desk) (who : Requester) (w : World) : Desk :=
  { d with state := w.state, ptt := w.ptt, ai := Function.update d.ai who w.ai }

/-- One step of a program; what it ends with goes to the client. -/
def goOn (d : Desk) (who : Requester) : Session (List UInt8) → Desk × Option (List UInt8)
  | .done reply => (d.put who .idle, some reply)
  | .ask (.submit sessionId priority kind) next =>
      ({ d with queues := enqueue d.queues ⟨sessionId, priority, kind, who⟩ }.put who (.waiting next),
        none)
  | .ask q next =>
      let (answer, w) := answerAlone (fun _ w => (.error .unsupported, w)) q (d.world who)
      ((d.settle who w).put who (.running (next answer)), none)

/-- One step of an operation that is not up to the link. -/
def workOn (d : Desk) (who : Requester) : BackendRest → Option Desk
  | .ask .snapshot next => some { d with executing := some (who, next d.state.snapshot) }
  | .ask (.record change source) next =>
      some { d with state := d.state.record change source, executing := some (who, next ()) }
  | _ => none

end Desk

open Desk in
/-- The desk, with the endpoint of each session. -/
def desk (backend : RadioBackend) (endpoint : Nat → FrontEnd × Context) :
    Machine Desk DeskInput (Option (List UInt8)) where
  step d
  | .pass elapsed => some ({ d with clock := d.clock + elapsed }, none)
  | .request sessionId bytes =>
      match d.activity (.session sessionId), d.closed sessionId with
      | .idle, false =>
          let (front, ctx) := endpoint sessionId
          some (d.put (.session sessionId) (.running (front.handle bytes ctx)), none)
      | _, _ => none
  | .disconnect sessionId =>
      match d.activity (.session sessionId), d.closed sessionId with
      | .idle, false =>
          some ({ d with closed := Function.update d.closed sessionId true }.put (.session sessionId)
            (.running (farewell (endpoint sessionId).2)), none)
      | _, _ => none
  | .poll =>
      match d.activity (.session pollerSession) with
      | .idle => some (d.put (.session pollerSession) (.running pollOnce), none)
      | _ => none
  | .checkCeiling =>
      match d.activity .watchdog, d.ptt.expiredOwner d.clock with
      | .idle, some owner => some (d.put .watchdog (.running (cutOff owner)), none)
      | _, _ => none
  | .go who =>
      match d.activity who with
      | .running rest => some (d.goOn who rest)
      | _ => none
  | .select =>
      match d.executing, selectNext d.queues with
      | none, some (op, queues) =>
          some ({ d with queues, executing := some (op.reply, (execute backend op.kind).run) }, none)
      | _, _ => none
  | .work =>
      match d.executing with
      | some (who, rest) => (d.workOn who rest).map (·, none)
      | none => none
  | .link answer =>
      match d.executing with
      | some (who, .ask (.submit bytes _) next) =>
          some ({ d with wire := d.wire ++ [bytes], executing := some (who, next answer) }, none)
      | _ => none
  | .finish =>
      match d.executing with
      | some (who, .done result) =>
          match d.activity who with
          | .waiting next => some ({ d with executing := none }.put who (.running (next result)), none)
          | _ => some ({ d with executing := none }, none)
      | _ => none
  | .push frame => some ({ d with state := (backend.recordEvent d.state frame .nativePush).1 }, none)
  | .connect => some ({ d with wire := d.wire ++ backend.nativePushEnable.toList }, none)

/-! ## What everyone relies on -/

/-- What the parties at a desk rely on, and have to see to. -/
structure Contract where
  /-- The snapshot. -/
  snapshot : Snapshot → Prop := fun _ => True
  /-- What is recorded. -/
  change : StateChange → Prop := fun _ => True
  /-- What is submitted to the scheduler. -/
  operation : OpKind → Prop
  /-- What is submitted to the link. -/
  wire : List UInt8 → Prop
  /-- What the link answers to which bytes. -/
  answer : List UInt8 → Except BackendError (List UInt8) → Prop := fun _ _ => True
  /-- What the radio sends of its own accord. -/
  push : List UInt8 → Prop := fun _ => True
  /-- What an operation ends with. -/
  result : Except BackendError (List UInt8) → Prop := fun _ => True
  /-- What a program ends with. -/
  reply : Requester → List UInt8 → Prop := fun _ _ => True

namespace Contract

variable (c : Contract)

def told : (q : Question) → q.Answer → Prop
  | .snapshot, snap => c.snapshot snap
  | .submit .., result => c.result result
  | _, _ => True

def linkAsks : LinkQuestion → Prop
  | .submit bytes _ => c.wire bytes
  | .record change _ => c.change change
  | .snapshot => True

def linkTold : (q : LinkQuestion) → q.Answer → Prop
  | .submit bytes _, answer => c.answer bytes answer
  | .snapshot, snap => c.snapshot snap
  | .record .., _ => True

/-- The program sees to its part. -/
def Serves (who : Requester) (program : Session (List UInt8)) : Prop :=
  program.Meets (Question.Submits c.operation) c.told (c.reply who)

def Operates (rest : BackendRest) : Prop := rest.Meets c.linkAsks c.linkTold c.result

def Engages (who : Requester) : Activity → Prop
  | .idle => True
  | .running rest => c.Serves who rest
  | .waiting next => ∀ result, c.result result → c.Serves who (next result)

/-- The backend and the programs of the hub itself see to their parts. -/
structure Supported (backend : RadioBackend) : Prop where
  record : ∀ {snap change}, c.snapshot snap → c.change change → c.snapshot (snap.applyChange change).1
  event : ∀ {h : StateHandle} {frame}, c.snapshot h.snapshot → c.push frame →
    c.snapshot (backend.recordEvent h frame .nativePush).1.snapshot
  operation : ∀ kind, c.operation kind → c.Operates (execute backend kind).run
  poll : c.operation .poll
  receive : c.operation forceReceive
  enable : ∀ bytes, backend.nativePushEnable = some bytes → c.wire bytes
  silent : ∀ who, c.reply who []

/-- An input is as the contract has it. -/
def Takes (endpoint : Nat → FrontEnd × Context) (d : Desk) : DeskInput → Prop
  | .request sessionId bytes =>
      c.Serves (.session sessionId) ((endpoint sessionId).1.handle bytes (endpoint sessionId).2)
  | .link answer => ∀ who bytes expect next,
      d.executing = some (who, .ask (.submit bytes expect) next) → c.answer bytes answer
  | .push frame => c.push frame
  | _ => True

end Contract

/-- Nothing at the desk is against the contract. -/
structure Upheld (c : Contract) (d : Desk) : Prop where
  snapshot : c.snapshot d.state.snapshot
  activity : ∀ who, c.Engages who (d.activity who)
  queued : ∀ op ∈ pending d.queues, c.operation op.kind
  executing : ∀ who rest, d.executing = some (who, rest) → c.Operates rest
  wire : ∀ bytes ∈ d.wire, c.wire bytes

section
variable {c : Contract} {backend : RadioBackend} {endpoint : Nat → FrontEnd × Context} {d d' : Desk}
  {who : Requester}

theorem Upheld.put {activity : Activity} (u : Upheld c d) (ok : c.Engages who activity) :
    Upheld c (d.put who activity) := by
  refine { u with activity := fun other => ?_ }
  by_cases same : other = who
  · subst same
    simpa [Desk.put] using ok
  · simpa [Desk.put, Function.update_of_ne same] using u.activity other

/-- A step of a program, and what it may end with. -/
theorem Upheld.goOn {rest : Session (List UInt8)} (u : Upheld c d) (ok : c.Serves who rest) :
    Upheld c (d.goOn who rest).1 ∧ ∀ reply, (d.goOn who rest).2 = some reply → c.reply who reply := by
  cases rest with
  | done reply =>
      refine ⟨@Upheld.put _ _ who _ u trivial, ?_⟩
      rintro _ ⟨⟩
      exact ok
  | ask q next =>
      cases q with
      | submit sessionId priority kind =>
          refine ⟨@Upheld.put _ _ who _ { u with queued := fun op mem => ?_ } ok.2, ?_⟩
          · rcases List.mem_cons.mp ((pending_enqueue d.queues _).mem_iff.mp mem) with rfl | mem
            · exact ok.1
            · exact u.queued op mem
          · rintro _ ⟨⟩
      | snapshot =>
          refine ⟨@Upheld.put _ _ who _ { u with } (ok.2 _ u.snapshot), ?_⟩
          rintro _ ⟨⟩
      | _ =>
          refine ⟨@Upheld.put _ _ who _ { u with } (ok.2 _ trivial), ?_⟩
          rintro _ ⟨⟩

/-- A step of an operation that does not submit. -/
theorem Upheld.workOn {rest : BackendRest} (supported : c.Supported backend) (u : Upheld c d)
    (ok : c.Operates rest) (worked : d.workOn who rest = some d') : Upheld c d' := by
  cases rest with
  | done result => cases worked
  | ask q next =>
      cases q with
      | submit => cases worked
      | snapshot =>
          cases worked
          refine { u with executing := ?_ }
          rintro _ _ ⟨⟩
          exact ok.2 _ u.snapshot
      | record change source =>
          cases worked
          refine { u with snapshot := supported.record u.snapshot ok.1, executing := ?_ }
          rintro _ _ ⟨⟩
          exact ok.2 _ trivial

theorem serves_farewell (supported : c.Supported backend) (ctx : Context) :
    c.Serves who (farewell ctx) := by
  unfold farewell releasePttOnDisconnect
  refine Program.Meets.bind (Q := fun _ => True) ?_ (fun _ _ => supported.silent who)
  rw [Session.owner_bind]
  refine ⟨trivial, fun owner _ => ?_⟩
  dsimp only
  split
  · trivial
  · exact ⟨supported.receive, fun _ _ => ⟨trivial, fun _ _ => trivial⟩⟩

/-- A step of anything but a program. -/
theorem Upheld.move (supported : c.Supported backend) {input : DeskInput} {o : Option (List UInt8)}
    (u : Upheld c d) (step : (desk backend endpoint).step d input = some (d', o))
    (other : ∀ who, input ≠ .go who) (taken : c.Takes endpoint d input) : Upheld c d' := by
  cases input with
  | go who => exact absurd rfl (other who)
  | pass elapsed =>
      cases step
      exact { u with }
  | request sessionId bytes =>
      simp only [desk] at step
      split at step
      · cases step
        exact u.put taken
      · cases step
  | disconnect sessionId =>
      simp only [desk] at step
      split at step
      · cases step
        exact @Upheld.put _ _ _ _ { u with } (serves_farewell supported _)
      · cases step
  | poll =>
      simp only [desk] at step
      split at step
      · cases step
        refine u.put ?_
        exact ⟨supported.poll, fun _ _ => supported.silent _⟩
      · cases step
  | checkCeiling =>
      simp only [desk] at step
      split at step
      · cases step
        refine u.put ?_
        exact ⟨supported.receive, fun _ _ => ⟨trivial, fun _ _ => supported.silent _⟩⟩
      · cases step
  | select =>
      simp only [desk] at step
      split at step
      · rename_i op queues _ selected
        cases step
        have taken := pending_selectNext selected
        refine { u with queued := fun other mem => ?_, executing := ?_ }
        · exact u.queued other (taken.mem_iff.mpr (List.mem_cons_of_mem _ mem))
        · rintro _ _ ⟨⟩
          exact supported.operation _ (u.queued op (taken.mem_iff.mpr List.mem_cons_self))
      · cases step
  | work =>
      simp only [desk] at step
      split at step
      · rename_i who rest executing
        obtain ⟨after, worked, same⟩ := Option.map_eq_some_iff.mp step
        cases same
        exact u.workOn supported (u.executing who rest executing) worked
      · cases step
  | link answer =>
      simp only [desk] at step
      split at step
      · rename_i who bytes expect next executing
        cases step
        have ok := u.executing who _ executing
        refine { u with executing := ?_, wire := ?_ }
        · rintro _ _ ⟨⟩
          exact ok.2 answer (taken who bytes expect next executing)
        · rw [List.forall_mem_append, List.forall_mem_singleton]
          exact ⟨u.wire, ok.1⟩
      · cases step
  | finish =>
      simp only [desk] at step
      split at step
      · rename_i who result executing
        split at step
        · rename_i next waiting
          cases step
          have ok := u.activity who
          rw [waiting] at ok
          exact @Upheld.put _ _ _ _ { u with executing := fun _ _ absurd => nomatch absurd }
            (ok result (u.executing who _ executing))
        · cases step
          exact { u with executing := fun _ _ absurd => nomatch absurd }
      · cases step
  | push frame =>
      cases step
      exact { u with snapshot := supported.event u.snapshot taken }
  | connect =>
      cases step
      refine { u with wire := ?_ }
      rw [List.forall_mem_append]
      exact ⟨u.wire, fun bytes mem => supported.enable bytes (Option.mem_toList.mp mem)⟩

/-- A step of a program, which may end with a reply. -/
theorem Upheld.go {o : Option (List UInt8)} (u : Upheld c d)
    (step : (desk backend endpoint).step d (.go who) = some (d', o)) :
    Upheld c d' ∧ ∀ reply, o = some reply → c.reply who reply := by
  simp only [desk] at step
  split at step
  · rename_i rest running
    have ok := u.activity who
    rw [running] at ok
    have goesOn := u.goOn ok
    rw [Option.some.inj step] at goesOn
    exact goesOn
  · cases step

/-- A desk at which nothing has happened yet. -/
structure Desk.Fresh (d : Desk) : Prop where
  idle : ∀ who, d.activity who = .idle
  queues : d.queues = []
  executing : d.executing = none
  wire : d.wire = []

theorem Desk.Fresh.upheld (fresh : d.Fresh) (snapshot : c.snapshot d.state.snapshot) : Upheld c d where
  snapshot := snapshot
  activity who := by
    rw [fresh.idle]
    trivial
  queued op mem := by
    rw [fresh.queues] at mem
    cases mem
  executing who rest executing := by
    rw [fresh.executing] at executing
    cases executing
  wire bytes mem := by
    rw [fresh.wire] at mem
    cases mem

/-- What holds of a transition under a contract. -/
structure Contract.Kept (c : Contract) (e : Transition Desk DeskInput (Option (List UInt8))) : Prop where
  before : Upheld c e.before
  after : Upheld c e.after
  reply : ∀ who reply, e.input = .go who → e.output = some reply → c.reply who reply

/-- **The contract is upheld.**  In every run whose inputs are as the contract has them, everything else
is as the contract has it. -/
theorem upheld_run (supported : c.Supported backend) {start stop : Desk}
    {history : List (Transition Desk DeskInput (Option (List UInt8)))} (fresh : start.Fresh)
    (snapshot : c.snapshot start.state.snapshot)
    (run : (desk backend endpoint).Execution start history stop)
    (taken : ∀ e ∈ history, c.Takes endpoint e.before e.input) :
    Upheld c stop ∧ ∀ e ∈ history, c.Kept e := by
  refine run.always (I := Upheld c) (G := fun e => c.Takes endpoint e.before e.input)
    (P := c.Kept) (fresh.upheld snapshot) ?_ taken
  intro d input o d' upheld step ok
  by_cases going : ∃ who, input = .go who
  · obtain ⟨who, rfl⟩ := going
    obtain ⟨after, replied⟩ := upheld.go step
    refine ⟨after, upheld, after, ?_⟩
    rintro _ reply ⟨⟩ same
    exact replied reply same
  · have other : ∀ who, input ≠ .go who := fun who same => going ⟨who, same⟩
    have after := upheld.move supported step other ok
    exact ⟨after, upheld, after, fun who _ same => absurd same (other who)⟩

end

/-! ## What comes out on the wire -/

/-- What a backend needs for operations that `K` allows to write only bytes that `P` allows. -/
structure Carries (backend : RadioBackend) (K : OpKind → Prop) (P : List UInt8 → Prop) : Prop where
  operation : ∀ kind, K kind → (execute backend kind).run.Asks (LinkQuestion.Submits P)
  poll : K .poll
  receive : K forceReceive
  enable : ∀ bytes, backend.nativePushEnable = some bytes → P bytes

section
variable {K : OpKind → Prop} {P : List UInt8 → Prop}

theorem Carries.supported {backend : RadioBackend} (carries : Carries backend K P) :
    Contract.Supported { operation := K, wire := P } backend where
  record _ _ := trivial
  event _ _ := trivial
  operation kind ok := by
    refine Program.Asks.meets ((carries.operation kind ok).mono (fun q submits => ?_))
      (fun _ => trivial)
    cases q with
    | submit => exact submits
    | _ => trivial
  poll := carries.poll
  receive := carries.receive
  enable := carries.enable
  silent _ := trivial

/-- **What the wire carries.**  In every run whose requests submit only operations that `K` allows, only
bytes that `P` allows are submitted to the link. -/
theorem confined_run {backend : RadioBackend} {endpoint : Nat → FrontEnd × Context}
    (carries : Carries backend K P) {start stop : Desk}
    {history : List (Transition Desk DeskInput (Option (List UInt8)))} (fresh : start.Fresh)
    (run : (desk backend endpoint).Execution start history stop)
    (taken : ∀ e ∈ history, ∀ sessionId bytes, e.input = .request sessionId bytes →
      ((endpoint sessionId).1.handle bytes (endpoint sessionId).2).Asks (Question.Submits K)) :
    ∀ bytes ∈ stop.wire, P bytes := by
  refine (upheld_run carries.supported fresh trivial run (fun e mem => ?_)).1.wire
  cases input : e.input with
  | request sessionId bytes => exact (taken e mem sessionId bytes input).meets (fun _ => trivial)
  | link => exact fun _ _ _ _ _ => trivial
  | _ => trivial

end

end CatHub.Dialect
