/-
# CatHub.Radio.Transport — the task that owns the link to the radio.

`transport` is the machine of `run_transport` under its supervisor: a bounded queue of raw commands, the
frames that the reader has split off the stream, at most one command that awaits its reply, and the
reopening of a link that broke.  Whoever submits, the radio and the clock move by inputs of their own,
so a run is any interleaving of them; whether the task takes a command or a frame next, and whether a
write fails, is an input as well.

`accounted_run` is what every run keeps: what was written and what is queued are the commands in the
order of their submission, and what was answered and what is pending are the commands that were
written.  `pending_answered` adds that no pending command stays so for ever.  Frames are of any type
that has bytes.
-/
import CatHub.Radio.Backend
import CatHub.Systems.Endless

namespace CatHub.Radio.Transport

open Systems

variable {φ : Type}

/-! ## The task -/

/-- A raw command queued to the task; `id` stands for its reply channel. -/
structure RawCommand where
  id : Nat
  bytes : List UInt8
  expect : Expect
  deriving DecidableEq, Repr

/-- How a pending command recognizes its reply. -/
inductive Matcher (φ : Type) where
  | verb (verbs : List (List UInt8))
  | lines (remaining : Nat) (acc : List φ)
  deriving DecidableEq, Repr

/-- A command that awaits its reply. -/
structure Pending (φ : Type) where
  matcher : Matcher φ
  id : Nat
  deadline : Nat
  deriving DecidableEq, Repr

inductive Phase where
  | running
  /-- The link broke; it is reopened at `wake`. -/
  | disconnected (wake : Nat)
  | shutdown
  deriving DecidableEq, Repr

/-- The command queue, the reader's frames, and the task.  Times are in milliseconds. -/
structure Link (φ : Type) where
  queue : List RawCommand := []
  /-- How many commands the queue has accepted. -/
  accepted : Nat := 0
  /-- Whether anyone is left who could submit. -/
  submitters : Bool := true
  inbox : List φ := []
  /-- The stream ended behind the frames of the inbox. -/
  hungUp : Bool := false
  pending : Option (Pending φ) := none
  phase : Phase := .running
  clock : Nat := 0
  backoff : Nat
  deriving DecidableEq, Repr

/-- What the world and the task may do next. -/
inductive Input (φ : Type) where
  | submit (bytes : List UInt8) (expect : Expect)
  | dropSubmitters
  | tick (duration : Nat)
  | arrive (frame : φ)
  | hangUp
  /-- Take a command; the write fails with a text, or succeeds. -/
  | take (fault : Option String)
  /-- Take a frame, or notice that the stream ended. -/
  | receive
  | timeout
  | reopen (success : Bool)
  deriving DecidableEq, Repr

/-- What is observed on the way. -/
inductive Event (φ : Type) where
  | accepted (id : Nat)
  | wrote (command : RawCommand)
  | answered (id : Nat) (result : Except BackendError (List φ))
  | routed (frame : φ)
  deriving DecidableEq

/-- How frames show their bytes, and the bounds of the backoff. -/
structure Config (φ : Type) where
  bytes : φ → List UInt8
  backoffInitial : Nat := 500
  backoffMax : Nat := 5000

def queueCapacity : Nat := 64

def inboxCapacity : Nat := 256

/-- The default per-command reply timeout. -/
def replyTimeout : Nat := 1000

def frameMatches (frame : List UInt8) (verbs : List (List UInt8)) : Bool :=
  verbs.any (·.isPrefixOf frame)

/-- What a complete one-line answer of a `rigctld` begins with. -/
def rprt : List UInt8 := Ts590.ascii ['R', 'P', 'R', 'T', ' ']

namespace Link

/-- The link is gone: the pending command fails, and what the reader had is lost. -/
def disconnect (s : Link φ) : Link φ × List (Event φ) :=
  ({ s with
      inbox := [], hungUp := false, pending := none, phase := .disconnected (s.clock + s.backoff) },
    s.pending.toList.map (fun p => .answered p.id (.error (.transport "transport closed"))))

/-- A command was written. -/
def await (s : Link φ) (command : RawCommand) : Link φ × List (Event φ) :=
  match command.expect with
  | .noReply => (s, [.answered command.id (.ok [])])
  | .reply verbs => ({ s with pending := some ⟨.verb verbs, command.id, s.clock + replyTimeout⟩ }, [])
  | .lines n =>
      if n = 0 then (s, [.answered command.id (.ok [])])
      else ({ s with pending := some ⟨.lines n [], command.id, s.clock + replyTimeout⟩ }, [])

/-- A frame came while a command is pending. -/
def offer (config : Config φ) (s : Link φ) (p : Pending φ) (frame : φ) : Link φ × List (Event φ) :=
  match p.matcher with
  | .verb verbs =>
      if frameMatches (config.bytes frame) verbs then
        ({ s with pending := none }, [.answered p.id (.ok [frame])])
      else (s, [.routed frame])
  | .lines remaining acc =>
      let left := remaining - 1
      -- an error is a complete answer, whatever the shape of a successful one
      if left = 0 ∨ rprt.isPrefixOf (config.bytes frame) then
        ({ s with pending := none }, [.answered p.id (.ok (acc ++ [frame]))])
      else ({ s with pending := some { p with matcher := .lines left (acc ++ [frame]) } }, [])

end Link

/-- One step of the world or of the task. -/
def step (config : Config φ) (s : Link φ) : Input φ → Option (Link φ × List (Event φ))
  | .submit bytes expect =>
      if s.submitters = true ∧ s.phase ≠ .shutdown ∧ s.queue.length < queueCapacity then
        some ({ s with
          queue := s.queue ++ [⟨s.accepted, bytes, expect⟩], accepted := s.accepted + 1 },
          [.accepted s.accepted])
      else none
  | .dropSubmitters => some ({ s with submitters := false }, [])
  | .tick duration => some ({ s with clock := s.clock + duration }, [])
  | .arrive frame =>
      if s.phase = .running ∧ s.hungUp = false ∧ s.inbox.length < inboxCapacity then
        some ({ s with inbox := s.inbox ++ [frame] }, [])
      else none
  | .hangUp => if s.phase = .running then some ({ s with hungUp := true }, []) else none
  | .take fault =>
      if s.phase = .running ∧ s.pending = none then
        match s.queue with
        | [] =>
            if s.submitters then none
            else some ({ s with phase := .shutdown, inbox := [] }, [])
        | command :: queue =>
            match fault with
            | some text =>
                let (t, _) := Link.disconnect { s with queue }
                some (t, [.wrote command, .answered command.id (.error (.transport text))])
            | none =>
                let (t, events) := Link.await { s with queue } command
                some (t, .wrote command :: events)
      else none
  | .receive =>
      if s.phase = .running then
        match s.inbox with
        | [] => if s.hungUp then some s.disconnect else none
        | frame :: inbox =>
            match s.pending with
            | none => some ({ s with inbox }, [.routed frame])
            | some p => some (Link.offer config { s with inbox } p frame)
      else none
  | .timeout =>
      match s.pending with
      | some p =>
          if s.phase = .running ∧ p.deadline ≤ s.clock then
            some ({ s with pending := none }, [.answered p.id (.error .timeout)])
          else none
      | none => none
  | .reopen success =>
      match s.phase with
      | .disconnected wake =>
          if s.clock < wake then none
          else if success then some ({ s with phase := .running, backoff := config.backoffInitial }, [])
          else some ({ s with
            phase := .disconnected (s.clock + s.backoff),
            backoff := min (s.backoff * 2) config.backoffMax }, [])
      | _ => none

/-- The transport task under its supervisor. -/
def transport (config : Config φ) : Machine (Link φ) (Input φ) (List (Event φ)) where
  step := step config

/-- A link that has just been opened. -/
def opened (config : Config φ) : Link φ := { backoff := config.backoffInitial }

/-! ## Accounts -/

def acceptedId : Event φ → Option Nat
  | .accepted id => some id
  | _ => none

def writtenId : Event φ → Option Nat
  | .wrote command => some command.id
  | _ => none

def answeredId : Event φ → Option Nat
  | .answered id _ => some id
  | _ => none

/-- The commands that the queue accepted, that were handed to a write, and that were answered. -/
def accepted (log : List (Event φ)) : List Nat := log.filterMap acceptedId
def written (log : List (Event φ)) : List Nat := log.filterMap writtenId
def answered (log : List (Event φ)) : List Nat := log.filterMap answeredId

section
variable (e : Event φ) (log more : List (Event φ))

@[simp] theorem accepted_append : accepted (log ++ more) = accepted log ++ accepted more :=
  List.filterMap_append

@[simp] theorem written_append : written (log ++ more) = written log ++ written more :=
  List.filterMap_append

@[simp] theorem answered_append : answered (log ++ more) = answered log ++ answered more :=
  List.filterMap_append

@[simp] theorem accepted_cons : accepted (e :: log) = (acceptedId e).toList ++ accepted log := by
  cases h : acceptedId e <;> simp [accepted, h]

@[simp] theorem written_cons : written (e :: log) = (writtenId e).toList ++ written log := by
  cases h : writtenId e <;> simp [written, h]

@[simp] theorem answered_cons : answered (e :: log) = (answeredId e).toList ++ answered log := by
  cases h : answeredId e <;> simp [answered, h]

@[simp] theorem accounts_nil :
    accepted ([] : List (Event φ)) = [] ∧ written ([] : List (Event φ)) = [] ∧
      answered ([] : List (Event φ)) = [] := ⟨rfl, rfl, rfl⟩

end

namespace Link

def queued (s : Link φ) : List Nat := s.queue.map (·.id)

def awaiting (s : Link φ) : List Nat := s.pending.toList.map (·.id)

/-- Only a running task has a command pending. -/
def Idle (s : Link φ) : Prop := s.phase ≠ .running → s.pending = none

end Link

/-- What a step does to the accounts. -/
structure Effect (s t : Link φ) (log : List (Event φ)) : Prop where
  accepts : accepted log = List.range' s.accepted (t.accepted - s.accepted) ∧ s.accepted ≤ t.accepted
  queue : written log ++ t.queued = s.queued ++ accepted log
  answers : answered log ++ t.awaiting = s.awaiting ++ written log
  idle : t.Idle

section
variable {config : Config φ} {s t : Link φ} {input : Input φ} {log : List (Event φ)}

/-- A step that leaves the accounts alone. -/
theorem Effect.quiet (same : t.accepted = s.accepted) (queue : t.queue = s.queue)
    (pending : t.awaiting = s.awaiting) (idle : t.Idle)
    (silent : ∀ e ∈ log, ∃ frame, e = .routed frame) : Effect s t log := by
  have none : accepted log = [] ∧ written log = [] ∧ answered log = [] := by
    refine ⟨?_, ?_, ?_⟩ <;>
    · refine List.filterMap_eq_nil_iff.mpr (fun e mem => ?_)
      obtain ⟨frame, rfl⟩ := silent e mem
      rfl
  obtain ⟨accepts, writes, answers⟩ := none
  refine ⟨?_, ?_, ?_, idle⟩
  · simp [accepts, same]
  · simp [writes, accepts, Link.queued, queue]
  · simp [writes, answers, pending]

/-- A step that answers the pending command. -/
theorem Effect.answer {p : Pending φ} {result : Except BackendError (List φ)}
    (same : t.accepted = s.accepted) (queue : t.queue = s.queue) (before : s.pending = some p)
    (after : t.pending = none) : Effect s t [.answered p.id result] := by
  refine ⟨?_, ?_, ?_, fun _ => after⟩
  · simp [acceptedId, same]
  · simp [writtenId, acceptedId, Link.queued, queue]
  · simp [answeredId, writtenId, Link.awaiting, before, after]

/-- A step that takes a command and writes it; it is answered, or pending from then on. -/
theorem Effect.take {command : RawCommand} {queue : List RawCommand}
    (same : t.accepted = s.accepted) (before : s.queue = command :: queue) (after : t.queue = queue)
    (idle : s.pending = none) (quiet : accepted log = [] ∧ written log = [])
    (answers : answered log ++ t.awaiting = [command.id]) (next : t.Idle) :
    Effect s t (.wrote command :: log) := by
  refine ⟨?_, ?_, ?_, next⟩
  · simp [acceptedId, quiet.1, same]
  · simp [writtenId, acceptedId, quiet.1, quiet.2, Link.queued, before, after]
  · rw [Link.awaiting] at answers
    simp [answeredId, writtenId, quiet.2, answers, Link.awaiting, idle]

theorem effect_disconnect (s : Link φ) : Effect s s.disconnect.1 s.disconnect.2 := by
  cases pending : s.pending with
  | none =>
      refine Effect.quiet rfl rfl ?_ (fun _ => rfl) ?_
      · simp [Link.awaiting, Link.disconnect, pending]
      · simp [Link.disconnect, pending]
  | some p =>
      have events : s.disconnect.2 = [.answered p.id (.error (.transport "transport closed"))] := by
        simp [Link.disconnect, pending]
      rw [events]
      exact Effect.answer rfl rfl pending rfl

/-- A command that was written is answered at once, or awaits its reply. -/
theorem await_effect (s : Link φ) (command : RawCommand) (idle : s.pending = none)
    (running : s.phase = .running) :
    let (t, log) := s.await command
    t.accepted = s.accepted ∧ t.queue = s.queue ∧ (accepted log = [] ∧ written log = []) ∧
      answered log ++ t.awaiting = [command.id] ∧ t.Idle := by
  have atOnce : answered [(.answered command.id (.ok []) : Event φ)] ++ s.awaiting = [command.id] := by
    simp [answeredId, Link.awaiting, idle]
  unfold Link.await
  cases command.expect with
  | noReply => exact ⟨rfl, rfl, ⟨rfl, rfl⟩, atOnce, fun _ => idle⟩
  | reply verbs => exact ⟨rfl, rfl, ⟨rfl, rfl⟩, rfl, fun stopped => absurd running stopped⟩
  | lines n =>
      dsimp only
      split
      · exact ⟨rfl, rfl, ⟨rfl, rfl⟩, atOnce, fun _ => idle⟩
      · exact ⟨rfl, rfl, ⟨rfl, rfl⟩, rfl, fun stopped => absurd running stopped⟩

/-- A frame answers the pending command, or leaves it pending. -/
theorem effect_offer (config : Config φ) {s : Link φ} {p : Pending φ} (frame : φ)
    (before : s.pending = some p) (running : s.phase = .running) :
    Effect s (s.offer config p frame).1 (s.offer config p frame).2 := by
  have goesOn : ∀ t : Link φ, t.phase = s.phase → t.Idle :=
    fun t same stopped => absurd (same.trans running) stopped
  obtain ⟨matcher, id, deadline⟩ := p
  cases matcher with
  | verb verbs =>
      rw [Link.offer.eq_def]
      by_cases matched : frameMatches (config.bytes frame) verbs = true
      · simp only [matched, if_true]
        exact @Effect.answer _ s _ ⟨.verb verbs, id, deadline⟩ _ rfl rfl before rfl
      · simp only [matched]
        exact Effect.quiet rfl rfl rfl (goesOn s rfl) (by simp)
  | lines remaining acc =>
      rw [Link.offer.eq_def]
      by_cases complete : remaining - 1 = 0 ∨ rprt.isPrefixOf (config.bytes frame)
      · simp only [complete, if_true]
        exact @Effect.answer _ s _ ⟨.lines remaining acc, id, deadline⟩ _ rfl rfl before rfl
      · simp only [complete, if_false]
        refine Effect.quiet rfl rfl ?_ (goesOn _ rfl) (by simp)
        simp [Link.awaiting, before]

theorem step_effect (idle : s.Idle) (took : (transport config).step s input = some (t, log)) :
    Effect s t log := by
  have took : step config s input = some (t, log) := took
  cases input with
  | submit bytes expect =>
      simp only [step, Option.ite_none_right_eq_some, Option.some.injEq, Prod.mk.injEq] at took
      obtain ⟨-, rfl, rfl⟩ := took
      refine ⟨?_, ?_, ?_, idle⟩
      · simp [acceptedId]
      · simp [acceptedId, writtenId, Link.queued]
      · simp [answeredId, writtenId, Link.awaiting]
  | dropSubmitters =>
      cases took
      exact Effect.quiet rfl rfl rfl idle (by simp)
  | tick duration =>
      cases took
      exact Effect.quiet rfl rfl rfl idle (by simp)
  | arrive frame =>
      simp only [step, Option.ite_none_right_eq_some, Option.some.injEq, Prod.mk.injEq] at took
      obtain ⟨-, rfl, rfl⟩ := took
      exact Effect.quiet rfl rfl rfl idle (by simp)
  | hangUp =>
      simp only [step, Option.ite_none_right_eq_some, Option.some.injEq, Prod.mk.injEq] at took
      obtain ⟨-, rfl, rfl⟩ := took
      exact Effect.quiet rfl rfl rfl idle (by simp)
  | take fault =>
      simp only [step, Option.ite_none_right_eq_some] at took
      obtain ⟨⟨running, free⟩, took⟩ := took
      split at took
      · simp only [Option.ite_none_left_eq_some, Option.some.injEq, Prod.mk.injEq] at took
        obtain ⟨-, rfl, rfl⟩ := took
        exact Effect.quiet rfl rfl rfl (fun _ => free) (by simp)
      · rename_i command queue form
        cases fault with
        | some text =>
            simp only [Option.some.injEq, Prod.mk.injEq] at took
            obtain ⟨rfl, rfl⟩ := took
            refine Effect.take rfl form rfl free ⟨rfl, rfl⟩ ?_ (fun _ => rfl)
            simp [answeredId, Link.awaiting, Link.disconnect]
        | none =>
            have effect := await_effect { s with queue } command free running
            simp only [Option.some.injEq, Prod.mk.injEq] at took
            obtain ⟨rfl, rfl⟩ := took
            obtain ⟨same, after, quiet, answers, next⟩ := effect
            exact Effect.take same form after free quiet answers next
  | receive =>
      simp only [step, Option.ite_none_right_eq_some] at took
      obtain ⟨running, took⟩ := took
      split at took
      · simp only [Option.ite_none_right_eq_some, Option.some.injEq] at took
        have same : s.disconnect = (t, log) := took.2
        have effect := effect_disconnect s
        rwa [same] at effect
      · rename_i frame inbox form
        split at took
        · rename_i pending
          cases took
          exact Effect.quiet rfl rfl rfl (fun _ => pending) (by simp)
        · rename_i p pending
          have effect := @effect_offer _ config { s with inbox } p frame pending running
          have taken : Link.offer config { s with inbox } p frame = (t, log) := Option.some.inj took
          rw [taken] at effect
          exact ⟨effect.accepts, effect.queue, effect.answers, effect.idle⟩
  | timeout =>
      cases pending : s.pending with
      | none => simp [step, pending] at took
      | some p =>
          simp only [step, pending, Option.ite_none_right_eq_some, Option.some.injEq,
            Prod.mk.injEq] at took
          obtain ⟨-, rfl, rfl⟩ := took
          exact Effect.answer rfl rfl pending rfl
  | reopen success =>
      cases phase : s.phase with
      | running => simp [step, phase] at took
      | shutdown => simp [step, phase] at took
      | disconnected wake =>
          have none : s.pending = none := idle (by simp [phase])
          simp only [step, phase, Option.ite_none_left_eq_some] at took
          obtain ⟨-, took⟩ := took
          split at took <;>
          · cases took
            exact Effect.quiet rfl rfl rfl (fun _ => none) (by simp)

/-! ## Progress -/

/-- A pending command is answered, or goes on pending with the same deadline. -/
theorem pending_step {p : Pending φ} (pending : s.pending = some p) (running : s.phase = .running)
    (took : (transport config).step s input = some (t, log)) :
    p.id ∈ answered log ∨
      ∃ q, t.pending = some q ∧ q.id = p.id ∧ q.deadline = p.deadline ∧ t.phase = .running := by
  have took : step config s input = some (t, log) := took
  cases input with
  | submit bytes expect =>
      simp only [step, Option.ite_none_right_eq_some, Option.some.injEq, Prod.mk.injEq] at took
      obtain ⟨-, rfl, -⟩ := took
      exact .inr ⟨p, pending, rfl, rfl, running⟩
  | dropSubmitters | tick =>
      cases took
      exact .inr ⟨p, pending, rfl, rfl, running⟩
  | arrive frame =>
      simp only [step, Option.ite_none_right_eq_some, Option.some.injEq, Prod.mk.injEq] at took
      obtain ⟨-, rfl, -⟩ := took
      exact .inr ⟨p, pending, rfl, rfl, running⟩
  | hangUp =>
      simp only [step, Option.ite_none_right_eq_some, Option.some.injEq, Prod.mk.injEq] at took
      obtain ⟨-, rfl, -⟩ := took
      exact .inr ⟨p, pending, rfl, rfl, running⟩
  | take fault => simp [step, pending] at took
  | receive =>
      simp only [step, running, if_true, pending] at took
      split at took
      · simp only [Option.ite_none_right_eq_some, Option.some.injEq] at took
        have answers : s.disconnect.2 = log := congrArg Prod.snd took.2
        rw [← answers]
        exact .inl (by simp [Link.disconnect, pending, answeredId])
      · rename_i frame inbox _
        obtain ⟨matcher, id, deadline⟩ := p
        simp only [Option.some.injEq] at took
        cases matcher with
        | verb verbs =>
            rw [Link.offer.eq_def] at took
            by_cases matched : frameMatches (config.bytes frame) verbs = true
            · simp only [matched, if_true] at took
              cases took
              exact .inl (by simp [answeredId])
            · simp only [matched] at took
              cases took
              exact .inr ⟨_, rfl, rfl, rfl, rfl⟩
        | lines remaining acc =>
            rw [Link.offer.eq_def] at took
            by_cases complete : remaining - 1 = 0 ∨ rprt.isPrefixOf (config.bytes frame)
            · simp only [complete, if_true] at took
              cases took
              exact .inl (by simp [answeredId])
            · simp only [complete, if_false] at took
              cases took
              exact .inr ⟨_, rfl, rfl, rfl, rfl⟩
  | timeout =>
      simp only [step, pending, Option.ite_none_right_eq_some, Option.some.injEq,
        Prod.mk.injEq] at took
      obtain ⟨-, -, rfl⟩ := took
      exact .inl (by simp [answeredId])
  | reopen success => simp [step, running] at took

theorem Link.clock_await (s : Link φ) (command : RawCommand) :
    (s.await command).1.clock = s.clock := by
  unfold Link.await
  split
  · rfl
  · rfl
  · split <;> rfl

theorem Link.clock_offer (config : Config φ) (s : Link φ) (p : Pending φ) (frame : φ) :
    (s.offer config p frame).1.clock = s.clock := by
  unfold Link.offer
  split
  · split <;> rfl
  · dsimp only
    split <;> rfl

theorem clock_step (took : (transport config).step s input = some (t, log)) : s.clock ≤ t.clock := by
  have took : step config s input = some (t, log) := took
  cases input with
  | dropSubmitters =>
      cases took
      exact le_rfl
  | tick duration =>
      cases took
      exact Nat.le_add_right _ _
  | submit | arrive | hangUp =>
      simp only [step, Option.ite_none_right_eq_some, Option.some.injEq, Prod.mk.injEq] at took
      obtain ⟨-, rfl, -⟩ := took
      exact le_rfl
  | take fault =>
      simp only [step, Option.ite_none_right_eq_some] at took
      obtain ⟨-, took⟩ := took
      split at took
      · simp only [Option.ite_none_left_eq_some, Option.some.injEq, Prod.mk.injEq] at took
        obtain ⟨-, rfl, -⟩ := took
        exact le_rfl
      · rename_i command queue _
        cases fault with
        | some text =>
            cases took
            exact le_rfl
        | none =>
            have kept := Link.clock_await { s with queue } command
            cases took
            exact kept.ge
  | receive =>
      simp only [step, Option.ite_none_right_eq_some] at took
      obtain ⟨-, took⟩ := took
      split at took
      · simp only [Option.ite_none_right_eq_some, Option.some.injEq] at took
        have kept : s.disconnect.1.clock = t.clock := congrArg (fun r => r.1.clock) took.2
        exact kept.le
      · rename_i frame inbox _
        split at took
        · cases took
          exact le_rfl
        · rename_i p _
          have kept := Link.clock_offer config { s with inbox } p frame
          rw [Option.some.inj took] at kept
          exact kept.ge
  | timeout =>
      simp only [step] at took
      split at took
      · simp only [Option.ite_none_right_eq_some, Option.some.injEq, Prod.mk.injEq] at took
        obtain ⟨-, rfl, -⟩ := took
        exact le_rfl
      · cases took
  | reopen success =>
      simp only [step] at took
      split at took
      · simp only [Option.ite_none_left_eq_some] at took
        obtain ⟨-, took⟩ := took
        split at took <;> cases took <;> exact le_rfl
      · cases took

end

/-- The deadline of the pending command has passed. -/
def Due (s : Link φ) : Prop := ∃ p, s.pending = some p ∧ p.deadline ≤ s.clock

/-- Time goes on, and a timeout that stays due is not put off for ever. -/
structure Fair {config : Config φ} (run : (transport config).Endless) : Prop where
  time : ∀ n, ∃ i, n ≤ (run.state i).clock
  due : ∀ i, ∃ j, i ≤ j ∧ (Due (run.state j) → run.input j = .timeout)

/-- As long as the task goes on, a pending command is answered. -/
theorem pending_answered {config : Config φ} {run : (transport config).Endless} (fair : Fair run)
    {i : Nat} {p : Pending φ} (pending : (run.state i).pending = some p)
    (running : (run.state i).phase = .running) : ∃ j, i ≤ j ∧ p.id ∈ answered (run.output j) := by
  have held := run.until_marked (Q := fun _ log => p.id ∈ answered log)
    (I := fun s => ∃ q, s.pending = some q ∧ q.id = p.id ∧ q.deadline = p.deadline ∧
      s.phase = .running)
    (fun s i o t ⟨q, pending, same, deadline, running⟩ took => by
      have next := pending_step pending running took
      rwa [same, deadline] at next) ⟨p, pending, rfl, rfl, running⟩
  rcases held with answer | forever
  · exact answer
  · -- from the deadline on the timeout stays due, and is taken in the end
    obtain ⟨late, passed⟩ := fair.time p.deadline
    obtain ⟨j, later, taken⟩ := fair.due (max i late)
    obtain ⟨q, pending', same, deadline, running'⟩ := forever j (by omega)
    have clock := run.grows (f := Link.clock)
      (fun _ _ _ _ took => clock_step took) (show late ≤ j by omega)
    have due : Due (run.state j) := ⟨q, pending', by omega⟩
    have took := run.steps j
    rw [taken due] at took
    have took : step config (run.state j) .timeout = some (run.state (j + 1), run.output j) := took
    simp only [step, pending', Option.ite_none_right_eq_some, Option.some.injEq,
      Prod.mk.injEq] at took
    refine ⟨j, by omega, ?_⟩
    rw [← took.2.2, ← same]
    simp [answeredId]

/-! ## Runs -/

/-- Every accepted command is written at most once and in the order of submission, with the rest still
queued; every written command is answered exactly once, but for one that may be pending while the task
runs; and that one is answered as long as the task goes on. -/
structure ExactlyOnce (config : Config φ) (log : List (Event φ)) (t : Link φ) : Prop where
  once : (accepted log).Nodup ∧ (written log).Nodup ∧ (answered log).Nodup
  order : written log ++ t.queued = accepted log
  answers : answered log ++ t.awaiting = written log
  one : t.awaiting.length ≤ 1
  idle : t.Idle
  responsive : ∀ run : (transport config).Endless, run.state 0 = t → Fair run →
    ∀ id ∈ t.awaiting, ∃ i, id ∈ answered (run.output i)

theorem accounted_run {config : Config φ} {t : Link φ}
    {history : List (Transition (Link φ) (Input φ) (List (Event φ)))}
    (run : (transport config).Execution (opened config) history t) :
    let log := history.flatMap (·.output)
    accepted log = List.range t.accepted ∧ written log ++ t.queued = accepted log ∧
      answered log ++ t.awaiting = written log ∧ t.Idle := by
  refine run.invariant (I := fun history t =>
    let log := history.flatMap (·.output)
    accepted log = List.range t.accepted ∧ written log ++ t.queued = accepted log ∧
      answered log ++ t.awaiting = written log ∧ t.Idle) ⟨rfl, rfl, rfl, fun _ => rfl⟩ ?_
  rintro history s input log t - ⟨accepts, order, answers, idle⟩ took
  have effect := step_effect idle took
  dsimp only
  rw [List.flatMap_append, List.flatMap_singleton]
  refine ⟨?_, ?_, ?_, effect.idle⟩
  · have ids := @List.range'_append_1 0 s.accepted (t.accepted - s.accepted)
    rw [Nat.zero_add, Nat.add_sub_cancel' effect.accepts.2] at ids
    rw [accepted_append, accepts, effect.accepts.1, List.range_eq_range', List.range_eq_range', ids]
  · rw [written_append, List.append_assoc, effect.queue, ← List.append_assoc, order, accepted_append]
  · rw [answered_append, List.append_assoc, effect.answers, ← List.append_assoc, answers,
      written_append]

/-- Every run of the task and its supervisor, whatever the link does, treats every command exactly
once. -/
theorem exactly_once {config : Config φ} {t : Link φ}
    {history : List (Transition (Link φ) (Input φ) (List (Event φ)))}
    (run : (transport config).Execution (opened config) history t) :
    ExactlyOnce config (history.flatMap (·.output)) t := by
  obtain ⟨accepts, order, answers, idle⟩ := accounted_run run
  have acceptedOnce : (accepted (history.flatMap (·.output))).Nodup := accepts ▸ List.nodup_range
  have writtenOnce := (List.nodup_append.mp (order ▸ acceptedOnce)).1
  refine ⟨⟨acceptedOnce, writtenOnce, (List.nodup_append.mp (answers ▸ writtenOnce)).1⟩, order,
    answers, ?_, idle, ?_⟩
  · cases h : t.pending <;> simp [Link.awaiting, h]
  · rintro onward rfl fair id awaiting
    obtain ⟨p, pending, rfl⟩ := List.mem_map.mp awaiting
    have pending : (onward.state 0).pending = some p := Option.mem_toList.mp pending
    have running : (onward.state 0).phase = .running := by
      by_contra stopped
      rw [idle stopped] at pending
      cases pending
    obtain ⟨j, -, answer⟩ := pending_answered fair pending running
    exact ⟨j, answer⟩

/-- A query is cut off by the end of the stream, and a key waits for the link to come back. -/
theorem exactly_once_reconnect :
    let config : Config (List UInt8) := { bytes := id }
    let inputs : List (Input (List UInt8)) :=
      [.submit (Ts590.ascii ['F', 'A', ';']) (.reply [Ts590.ascii ['F', 'A']]),
       .submit (Ts590.ascii ['T', 'X', ';']) .noReply, .take none, .hangUp, .receive, .tick 500,
       .reopen true, .take none]
    ∃ history t, (transport config).Execution (opened config) history t ∧
      history.map (·.input) = inputs ∧ ExactlyOnce config (history.flatMap (·.output)) t := by
  intro config inputs
  have enabled : ((transport config).exec (opened config) inputs).isSome := by decide
  have run := (transport config).execution_exec (opened config) inputs enabled
  exact ⟨_, _, run, (transport config).exec_inputs (opened config) inputs enabled, exactly_once run⟩

end CatHub.Radio.Transport
