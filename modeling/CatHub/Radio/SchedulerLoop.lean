/-
# CatHub.Radio.SchedulerLoop — the loop that executes what the sessions submit.

Sessions submit over a bounded channel, at any moment.  The loop waits while its queues are empty, takes
over all that the channel holds, selects one operation, executes it and answers it.  Each of these is one
step of `schedulerLoop`, and so is a submission.  What an execution comes to depends on the operation and
on the surroundings it meets; both are parameters.

`scheduler_correct` says that nothing is lost, doubled or reordered, and that every reply is the
operation's own.  It also says that the loop comes to rest when the submissions do: it takes a bounded
number of steps for each, and where it rests everything has been executed.  While submissions keep coming
an operation may wait for ever, since more urgent ones go first; `poll_starves` is such a run.
-/
import CatHub.Radio.Scheduler
import CatHub.Systems.Endless

namespace CatHub.Radio

open Systems

variable {ρ ε γ : Type}

/-! ## The loop -/

/-- How many submitted operations the channel holds at most. -/
def channelCapacity : Nat := 128

/-- Where the loop stands. -/
inductive Stage (ρ : Type) where
  | top
  /-- It takes over what the channel holds. -/
  | draining
  | executing (op : Operation ρ)
  /-- The channel is closed, and all is done. -/
  | stopped
  deriving DecidableEq, Repr

/-- The operation in execution. -/
def Stage.running : Stage ρ → Option (Operation ρ)
  | .executing op => some op
  | _ => none

structure SchedulerLoop (ρ : Type) where
  channel : List (Operation ρ) := []
  /-- Every handle is gone. -/
  closed : Bool := false
  queues : Queues ρ := []
  stage : Stage ρ := .top
  deriving DecidableEq, Repr

inductive LoopInput (ρ ε : Type) where
  | submit (op : Operation ρ)
  | close
  | turn
  /-- The execution ends, with what the surroundings make of it. -/
  | finish (surroundings : ε)
  deriving DecidableEq, Repr

inductive LoopOutput (ρ γ : Type) where
  | silent
  | started (op : Operation ρ)
  | answered (reply : ρ) (result : γ)
  deriving DecidableEq, Repr

namespace SchedulerLoop

/-- The loop goes on from where it stands. -/
def turn (s : SchedulerLoop ρ) : Option (SchedulerLoop ρ × Option (Operation ρ)) :=
  match s.stage with
  | .top =>
      if s.queues.all (fun entry => entry.2.isEmpty) then
        match s.channel with
        | op :: channel =>
            some ({ s with channel, queues := enqueue s.queues op, stage := .draining }, none)
        -- without a handle nothing will come any more
        | [] => if s.closed then some ({ s with stage := .stopped }, none) else none
      else some ({ s with stage := .draining }, none)
  | .draining =>
      match s.channel with
      | op :: channel => some ({ s with channel, queues := enqueue s.queues op }, none)
      | [] =>
          match selectNext s.queues with
          | some (op, queues) => some ({ s with queues, stage := .executing op }, some op)
          | none => some ({ s with stage := .top }, none)
  | .executing _ | .stopped => none

end SchedulerLoop

/-- The scheduler among its sessions. -/
def schedulerLoop (perform : OpKind → ε → γ) :
    Machine (SchedulerLoop ρ) (LoopInput ρ ε) (LoopOutput ρ γ) where
  step s
    | .submit op =>
        if s.closed = true ∨ channelCapacity ≤ s.channel.length then none
        else some ({ s with channel := s.channel ++ [op] }, .silent)
    | .close => some ({ s with closed := true }, .silent)
    | .turn => s.turn.map (fun r => (r.1, r.2.elim .silent .started))
    | .finish surroundings =>
        match s.stage with
        | .executing op =>
            some ({ s with stage := .top }, .answered op.reply (perform op.kind surroundings))
        | _ => none

/-! ### What a step can do -/

/-- The queues are empty. -/
theorem all_isEmpty {queues : Queues ρ} :
    queues.all (fun entry => entry.2.isEmpty) = true ↔ pending queues = [] := by
  simp [pending, List.flatMap_eq_nil_iff]

/-- What one turn of the loop can do. -/
inductive Turned (s : SchedulerLoop ρ) : SchedulerLoop ρ → Option (Operation ρ) → Prop
  /-- It takes over the first operation of the channel. -/
  | takes (op : Operation ρ) (channel : List (Operation ρ)) (held : s.channel = op :: channel)
      (stands : s.stage = .draining ∨ s.stage = .top ∧ pending s.queues = []) :
      Turned s { s with channel, queues := enqueue s.queues op, stage := .draining } none
  | stops (stands : s.stage = .top) (idle : pending s.queues = []) (drained : s.channel = [])
      (closed : s.closed = true) : Turned s { s with stage := .stopped } none
  | looks (stands : s.stage = .top) (busy : pending s.queues ≠ []) :
      Turned s { s with stage := .draining } none
  | selects (front : Queues ρ) (id : Nat) (op : Operation ρ) (q : List (Operation ρ))
      (back : Queues ρ) (stands : s.stage = .draining) (drained : s.channel = [])
      (best : Best s.queues front id op q back) :
      Turned s { s with queues := front ++ (id, q) :: back, stage := .executing op } (some op)
  | goesBack (stands : s.stage = .draining) (drained : s.channel = []) (idle : pending s.queues = []) :
      Turned s { s with stage := .top } none

theorem turn_cases {s t : SchedulerLoop ρ} {o : Option (Operation ρ)} (turned : s.turn = some (t, o)) :
    Turned s t o := by
  unfold SchedulerLoop.turn at turned
  split at turned
  · rename_i stands
    split at turned
    · rename_i idle
      split at turned
      · rename_i op channel held
        obtain ⟨rfl, rfl⟩ := Prod.mk.inj (Option.some.inj turned)
        exact .takes op channel held (.inr ⟨stands, all_isEmpty.mp idle⟩)
      · rename_i drained
        split at turned
        · rename_i closed
          obtain ⟨rfl, rfl⟩ := Prod.mk.inj (Option.some.inj turned)
          exact .stops stands (all_isEmpty.mp idle) drained closed
        · cases turned
    · rename_i busy
      obtain ⟨rfl, rfl⟩ := Prod.mk.inj (Option.some.inj turned)
      exact .looks stands (fun idle => busy (all_isEmpty.mpr idle))
  · rename_i stands
    split at turned
    · rename_i op channel held
      obtain ⟨rfl, rfl⟩ := Prod.mk.inj (Option.some.inj turned)
      have same : ({ s with channel, queues := enqueue s.queues op } : SchedulerLoop ρ) =
          { s with channel, queues := enqueue s.queues op, stage := .draining } := by rw [← stands]
      rw [same]
      exact .takes op channel held (.inl stands)
    · rename_i drained
      rcases selectNext_cases s.queues with ⟨nothing, idle⟩ | ⟨front, id, op, q, back, best, found⟩
      · rw [nothing] at turned
        obtain ⟨rfl, rfl⟩ := Prod.mk.inj (Option.some.inj turned)
        exact .goesBack stands drained idle
      · rw [found] at turned
        obtain ⟨rfl, rfl⟩ := Prod.mk.inj (Option.some.inj turned)
        exact .selects front id op q back stands drained best
  · cases turned
  · cases turned

/-- What one step of the scheduler can do. -/
inductive LoopStepped (perform : OpKind → ε → γ) (s : SchedulerLoop ρ) :
    LoopInput ρ ε → LoopOutput ρ γ → SchedulerLoop ρ → Prop
  | submit (op : Operation ρ) (open_ : s.closed = false) :
      LoopStepped perform s (.submit op) .silent { s with channel := s.channel ++ [op] }
  | close : LoopStepped perform s .close .silent { s with closed := true }
  | turn {t : SchedulerLoop ρ} {o : Option (Operation ρ)} (turned : Turned s t o) :
      LoopStepped perform s .turn (o.elim .silent .started) t
  | finish (op : Operation ρ) (surroundings : ε) (running : s.stage = .executing op) :
      LoopStepped perform s (.finish surroundings)
        (.answered op.reply (perform op.kind surroundings)) { s with stage := .top }

theorem loop_cases {perform : OpKind → ε → γ} {s t : SchedulerLoop ρ} {i : LoopInput ρ ε}
    {o : LoopOutput ρ γ} (step : (schedulerLoop perform).step s i = some (t, o)) :
    LoopStepped perform s i o t := by
  cases i with
  | submit op =>
      simp only [schedulerLoop, Option.ite_none_left_eq_some, Option.some.injEq, Prod.mk.injEq] at step
      obtain ⟨allowed, rfl, rfl⟩ := step
      exact .submit op (Bool.eq_false_iff.mpr fun closed => allowed (.inl closed))
  | close =>
      obtain ⟨rfl, rfl⟩ := Prod.mk.inj (Option.some.inj step)
      exact .close
  | turn =>
      simp only [schedulerLoop, Option.map_eq_some_iff] at step
      obtain ⟨⟨u, begun⟩, turned, same⟩ := step
      obtain ⟨rfl, rfl⟩ := Prod.mk.inj same
      exact .turn (turn_cases turned)
  | finish surroundings =>
      simp only [schedulerLoop] at step
      split at step
      · rename_i op running
        obtain ⟨rfl, rfl⟩ := Prod.mk.inj (Option.some.inj step)
        exact .finish op surroundings running
      · cases step

/-- An operation is started where the channel is drained, and it is the best head. -/
theorem started_cases {perform : OpKind → ε → γ} {s t : SchedulerLoop ρ} {i : LoopInput ρ ε}
    {op : Operation ρ} (step : (schedulerLoop perform).step s i = some (t, .started op)) :
    s.stage = .draining ∧ s.channel = [] ∧ ∃ front id q back, Best s.queues front id op q back ∧
      t = { s with queues := front ++ (id, q) :: back, stage := .executing op } := by
  have stepped := loop_cases step
  generalize shown : LoopOutput.started op = o at stepped
  cases stepped with
  | submit | close | finish => cases shown
  | turn turned =>
      cases turned with
      | selects front id op' q back stands drained best =>
          obtain rfl := LoopOutput.started.inj shown
          exact ⟨stands, drained, front, id, q, back, best, rfl⟩
      | _ => cases shown

/-! ## What a run shows -/

/-- A step of the scheduler as a history records it. -/
abbrev LoopStep (ρ ε γ : Type) : Type := Transition (SchedulerLoop ρ) (LoopInput ρ ε) (LoopOutput ρ γ)

/-- The operations that were submitted, in order. -/
def submitted (history : List (LoopStep ρ ε γ)) : List (Operation ρ) :=
  history.filterMap fun e => match e.input with
    | .submit op => some op
    | _ => none

/-- The operations whose execution has begun. -/
def started (history : List (LoopStep ρ ε γ)) : List (Operation ρ) :=
  history.filterMap fun e => match e.output with
    | .started op => some op
    | _ => none

/-- What the executions that have ended met. -/
def met (history : List (LoopStep ρ ε γ)) : List ε :=
  history.filterMap fun e => match e.input with
    | .finish surroundings => some surroundings
    | _ => none

/-- The replies, with the addresses they went to. -/
def answers (history : List (LoopStep ρ ε γ)) : List (ρ × γ) :=
  history.filterMap fun e => match e.output with
    | .answered reply result => some (reply, result)
    | _ => none

/-- The steps of the loop itself. -/
def loopSteps (history : List (LoopStep ρ ε γ)) : Nat :=
  history.countP fun e => match e.input with
    | .turn | .finish _ => true
    | _ => false

/-! ## Accounts -/

namespace SchedulerLoop

/-- How many steps the loop may still take for what it has: one to take an operation over, one to select
it, one to execute it, and one to go back to its queues. -/
def work (s : SchedulerLoop ρ) : Nat :=
  4 * s.channel.length + 3 * (pending s.queues).length +
    match s.stage with
    | .top => 1
    | .executing _ => 2
    | .draining | .stopped => 0

/-- Nothing is left to do: the loop waits for a submission, or has stopped. -/
def Rests (s : SchedulerLoop ρ) : Prop := s.turn = none ∧ s.stage.running = none

end SchedulerLoop

/-- The books of a run. -/
structure Accounted (perform : OpKind → ε → γ) (history : List (LoopStep ρ ε γ))
    (s : SchedulerLoop ρ) : Prop where
  sorted : Sorted s.queues
  /-- What a session has submitted was started, is queued or is on the channel, in this order. -/
  order : ∀ id, ofSession id (started history) ++ ofSession id (pending s.queues) ++
    ofSession id s.channel = ofSession id (submitted history)
  /-- What was started was answered with its own result, or is in execution. -/
  own : ∃ done, started history = done ++ s.stage.running.toList ∧
    done.length = (met history).length ∧
    answers history = List.zipWith (fun op e => (op.reply, perform op.kind e)) done (met history)
  /-- The loop drains the channel for the sake of something that waits. -/
  waits : s.stage = .draining → pending s.queues ≠ []
  stopped : s.stage = .stopped → pending s.queues = [] ∧ s.channel = [] ∧ s.closed = true
  bounded : loopSteps history + s.work ≤ 4 * (submitted history).length + 1

section
variable {perform : OpKind → ε → γ} {history : List (LoopStep ρ ε γ)} {s t : SchedulerLoop ρ}

theorem accounted_start : Accounted perform [] ({} : SchedulerLoop ρ) where
  sorted := sorted_nil
  order := fun _ => rfl
  own := ⟨[], rfl, rfl, rfl⟩
  waits := fun absurd => nomatch absurd
  stopped := fun absurd => nomatch absurd
  bounded := Nat.le_refl _

/-- What a step adds to the ledgers. -/
theorem ledgers_concat (history : List (LoopStep ρ ε γ)) (e : LoopStep ρ ε γ) :
    submitted (history ++ [e]) = submitted history ++ submitted [e] ∧
    started (history ++ [e]) = started history ++ started [e] ∧
    met (history ++ [e]) = met history ++ met [e] ∧
    answers (history ++ [e]) = answers history ++ answers [e] ∧
    loopSteps (history ++ [e]) = loopSteps history + loopSteps [e] :=
  ⟨List.filterMap_append, List.filterMap_append, List.filterMap_append, List.filterMap_append,
    List.countP_append⟩

/-- A silent turn is counted, and nothing else. -/
theorem ledgers_turn (history : List (LoopStep ρ ε γ)) (s t : SchedulerLoop ρ) :
    submitted (history ++ [⟨s, .turn, .silent, t⟩]) = submitted history ∧
    started (history ++ [⟨s, .turn, .silent, t⟩]) = started history ∧
    met (history ++ [⟨s, .turn, .silent, t⟩]) = met history ∧
    answers (history ++ [⟨s, .turn, .silent, t⟩]) = answers history ∧
    loopSteps (history ++ [⟨s, .turn, .silent, t⟩]) = loopSteps history + 1 := by
  obtain ⟨sub, begun, ends, replies, steps⟩ :=
    ledgers_concat history ⟨s, .turn, .silent, t⟩
  rw [sub, begun, ends, replies, steps]
  exact ⟨List.append_nil _, List.append_nil _, List.append_nil _, List.append_nil _, rfl⟩

/-- A turn keeps the books: what it takes over, it puts behind the rest of its session, and what it
selects is the first of its session. -/
theorem Accounted.turn {o : Option (Operation ρ)} (books : Accounted perform history s)
    (turned : Turned s t o) :
    Accounted perform (history ++ [⟨s, .turn, o.elim .silent .started, t⟩]) t := by
  obtain ⟨done, first, same, told⟩ := books.own
  have bounded := books.bounded
  cases turned with
  | takes op channel held stands =>
      obtain ⟨sub, begun, ends, replies, steps⟩ := ledgers_turn history s
        { s with channel, queues := enqueue s.queues op, stage := .draining }
      obtain ⟨sorted, queued⟩ := books.sorted.enqueue op
      have one := (pending_enqueue s.queues op).length_eq
      have idle : s.stage.running = none := by
        rcases stands with stands | ⟨stands, -⟩ <;> rw [stands] <;> rfl
      refine ⟨sorted, fun id => ?_, ⟨done, ?_, ?_, ?_⟩, fun _ none_ => ?_,
        fun absurd => (nomatch absurd), ?_⟩
      · have order := books.order id
        rw [held, ← List.singleton_append, ofSession_append] at order
        rw [Option.elim_none, begun, sub, queued, ← order]
        simp only [List.append_assoc]
      · rw [Option.elim_none, begun, first, idle]
        rfl
      · rw [Option.elim_none, ends, same]
      · rw [Option.elim_none, ends, replies, told]
      · rw [none_] at one
        cases one
      · rw [Option.elim_none, steps, sub]
        simp only [SchedulerLoop.work, held, List.length_cons] at bounded one ⊢
        omega
  | stops stands idle drained closed =>
      obtain ⟨sub, begun, ends, replies, steps⟩ := ledgers_turn history s { s with stage := .stopped }
      refine ⟨books.sorted, fun id => ?_, ⟨done, ?_, ?_, ?_⟩, fun absurd => (nomatch absurd),
        fun _ => ⟨idle, drained, closed⟩, ?_⟩
      · rw [Option.elim_none, begun, sub, books.order]
      · rw [Option.elim_none, begun, first, stands]
        rfl
      · rw [Option.elim_none, ends, same]
      · rw [Option.elim_none, ends, replies, told]
      · rw [Option.elim_none, steps, sub]
        simp only [SchedulerLoop.work, stands] at bounded ⊢
        omega
  | looks stands busy =>
      obtain ⟨sub, begun, ends, replies, steps⟩ := ledgers_turn history s { s with stage := .draining }
      refine ⟨books.sorted, fun id => ?_, ⟨done, ?_, ?_, ?_⟩, fun _ => busy,
        fun absurd => (nomatch absurd), ?_⟩
      · rw [Option.elim_none, begun, sub, books.order]
      · rw [Option.elim_none, begun, first, stands]
        rfl
      · rw [Option.elim_none, ends, same]
      · rw [Option.elim_none, ends, replies, told]
      · rw [Option.elim_none, steps, sub]
        simp only [SchedulerLoop.work, stands] at bounded ⊢
        omega
  | selects front id op q back stands drained best =>
      obtain ⟨sub, begun, ends, replies, steps⟩ := ledgers_concat history
        ⟨s, .turn, .started op, { s with queues := front ++ (id, q) :: back, stage := .executing op }⟩
      obtain ⟨sorted, taken⟩ := books.sorted.selected best
      have one : (pending s.queues).length = (pending (front ++ (id, q) :: back)).length + 1 := by
        rw [best.form, pending_append, pending_append, pending_cons, pending_cons, List.cons_append]
        simp only [List.length_append, List.length_cons]
        omega
      rw [stands] at first
      have all : started history = done := first.trans (List.append_nil done)
      refine ⟨sorted, fun session => ?_, ⟨done, ?_, ?_, ?_⟩, fun absurd => (nomatch absurd),
        fun absurd => (nomatch absurd), ?_⟩
      · rw [Option.elim_some, begun, sub]
        show ofSession session (started history ++ [op]) ++
          ofSession session (pending (front ++ (id, q) :: back)) ++ ofSession session s.channel =
          ofSession session (submitted history ++ [])
        rw [List.append_nil, ← books.order, taken, ofSession_append]
        simp only [List.append_assoc]
      · rw [Option.elim_some, begun, all]
        rfl
      · rw [Option.elim_some, ends, same]
        exact congrArg List.length (List.append_nil _).symm
      · rw [Option.elim_some, ends, replies]
        show answers history ++ [] = List.zipWith _ done (met history ++ [])
        rw [List.append_nil, List.append_nil, told]
      · rw [Option.elim_some, steps, sub]
        show loopSteps history + 1 + SchedulerLoop.work
          { s with queues := front ++ (id, q) :: back, stage := .executing op } ≤
          4 * (submitted history ++ []).length + 1
        simp only [SchedulerLoop.work, stands, List.append_nil] at bounded ⊢
        omega
  | goesBack stands drained idle => exact absurd idle (books.waits stands)

theorem Accounted.next {i : LoopInput ρ ε} {o : LoopOutput ρ γ} (books : Accounted perform history s)
    (stepped : LoopStepped perform s i o t) : Accounted perform (history ++ [⟨s, i, o, t⟩]) t := by
  obtain ⟨sub, begun, ends, replies, steps⟩ := ledgers_concat history ⟨s, i, o, t⟩
  cases stepped with
  | submit op open_ =>
      refine ⟨books.sorted, fun id => ?_, ?_, books.waits, fun stops => ?_, ?_⟩
      · rw [begun, sub]
        show ofSession id (started history ++ []) ++ ofSession id (pending s.queues) ++
          ofSession id (s.channel ++ [op]) = ofSession id (submitted history ++ [op])
        rw [List.append_nil, ofSession_append, ofSession_append, ← List.append_assoc, books.order]
      · rw [begun, ends, replies]
        simpa [started, met, answers] using books.own
      · have closed := (books.stopped stops).2.2
        rw [open_] at closed
        cases closed
      · rw [steps, sub]
        show loopSteps history + 0 + SchedulerLoop.work { s with channel := s.channel ++ [op] } ≤
          4 * (submitted history ++ [op]).length + 1
        have bounded := books.bounded
        simp only [SchedulerLoop.work, List.length_append, List.length_singleton] at bounded ⊢
        omega
  | close =>
      refine ⟨books.sorted, fun id => ?_, ?_, books.waits, fun stops => ?_, ?_⟩
      · rw [begun, sub]
        simpa [started, submitted] using books.order id
      · rw [begun, ends, replies]
        simpa [started, met, answers] using books.own
      · exact ⟨(books.stopped stops).1, (books.stopped stops).2.1, rfl⟩
      · rw [steps, sub]
        show loopSteps history + 0 + s.work ≤ 4 * (submitted history ++ []).length + 1
        rw [List.append_nil]
        exact books.bounded
  | turn turned => exact books.turn turned
  | finish op surroundings running =>
      refine ⟨books.sorted, fun id => ?_, ?_, fun absurd => (nomatch absurd),
        fun absurd => (nomatch absurd), ?_⟩
      · rw [begun, sub]
        simpa [started, submitted] using books.order id
      · rw [begun, ends, replies]
        obtain ⟨done, first, same, told⟩ := books.own
        refine ⟨done ++ [op], ?_, ?_, ?_⟩
        · rw [first, running]
          simp [started, Stage.running]
        · simp [met, same]
        · rw [told, List.zipWith_append same]
          rfl
      · rw [steps, sub]
        show loopSteps history + 1 + SchedulerLoop.work { s with stage := .top } ≤
          4 * (submitted history ++ []).length + 1
        have bounded := books.bounded
        simp only [SchedulerLoop.work, running, List.append_nil] at bounded ⊢
        omega

/-- Every run keeps the books. -/
theorem accounted (run : (schedulerLoop perform).Execution {} history s) :
    Accounted perform history s :=
  run.invariant accounted_start (fun _ _ _ _ _ _ books step => books.next (loop_cases step))

/-- A loop that rests has nothing left. -/
theorem Accounted.rests (books : Accounted perform history s) (rests : s.Rests) :
    pending s.queues = [] ∧ s.channel = [] := by
  obtain ⟨still, idle⟩ := rests
  unfold SchedulerLoop.turn at still
  cases stands : s.stage with
  | top =>
      rw [stands] at still
      dsimp only at still
      split at still
      · rename_i empty
        refine ⟨all_isEmpty.mp empty, ?_⟩
        cases held : s.channel with
        | nil => rfl
        | cons op channel =>
            rw [held] at still
            cases still
      · cases still
  | draining =>
      rw [stands] at still
      dsimp only at still
      split at still
      · cases still
      · split at still <;> cases still
  | executing op =>
      rw [stands] at idle
      cases idle
  | stopped => exact ⟨(books.stopped stands).1, (books.stopped stands).2.1⟩

end

/-! ## The scheduler -/

/-- **The scheduler.**  In every run: what a session has submitted is, in this order, what was started,
what is queued and what is on the channel; every reply is the operation's own; every operation that is
selected is a head, and no head is more urgent.  The loop takes at most four steps for a submission and
one more, and where it rests, everything that was submitted has been started and answered. -/
theorem scheduler_correct {perform : OpKind → ε → γ} {history : List (LoopStep ρ ε γ)}
    {s : SchedulerLoop ρ} (run : (schedulerLoop perform).Execution {} history s) :
    (∀ id, ofSession id (started history) ++ ofSession id (pending s.queues) ++
      ofSession id s.channel = ofSession id (submitted history)) ∧
    (∃ done, started history = done ++ s.stage.running.toList ∧
      done.length = (met history).length ∧
      answers history = List.zipWith (fun op e => (op.reply, perform op.kind e)) done (met history)) ∧
    (∀ e ∈ history, ∀ op, e.output = .started op → op ∈ heads e.before.queues ∧
      ∀ head ∈ heads e.before.queues, op.priority.rank ≤ head.priority.rank) ∧
    loopSteps history ≤ 4 * (submitted history).length + 1 ∧
    (s.Rests → ∀ id, ofSession id (started history) = ofSession id (submitted history)) := by
  have books := accounted run
  refine ⟨books.order, books.own, fun e mem op begun => ?_,
    Nat.le_trans (Nat.le_add_right _ _) books.bounded, fun rests id => ?_⟩
  · have step := run.step_of_mem e mem
    rw [begun] at step
    obtain ⟨-, -, front, id, q, back, best, -⟩ := started_cases step
    exact best.least
  · obtain ⟨queued, held⟩ := books.rests rests
    have order := books.order id
    rw [queued, held] at order
    simpa using order

/-! ### Runs on fixed inputs -/

/-- A poll of session 1, and a write of session 2. -/
def slowPoll : Operation Nat := ⟨1, .poll, .poll, 0⟩

def busyWrite : Operation Nat := ⟨2, .write, .apply (.setRxVfo .a), 1⟩

/-- Executions that come to nothing. -/
def nothing (_ : OpKind) (_ : Unit) : Unit := ()

/-- A poll that is alone is executed. -/
theorem scheduler_correct_poll : ∃ history s,
    (schedulerLoop nothing).Execution ({} : SchedulerLoop Nat) history s ∧ s.Rests ∧
      ∀ id, ofSession id (started history) = ofSession id [slowPoll] := by
  have run := (schedulerLoop nothing).execution_exec ({} : SchedulerLoop Nat)
    [.submit slowPoll, .turn, .turn, .finish ()] (by decide)
  exact ⟨_, _, run, ⟨by decide, by decide⟩, (scheduler_correct run).2.2.2.2 ⟨by decide, by decide⟩⟩

/-- Session 2 submits its next write as soon as it is answered. -/
def round : Nat → SchedulerLoop Nat × LoopInput Nat Unit × LoopOutput Nat Unit
  | 0 => (⟨[], false, [(1, [slowPoll]), (2, [])], .draining⟩, .submit busyWrite, .silent)
  | 1 => (⟨[busyWrite], false, [(1, [slowPoll]), (2, [])], .draining⟩, .turn, .silent)
  | 2 => (⟨[], false, [(1, [slowPoll]), (2, [busyWrite])], .draining⟩, .turn, .started busyWrite)
  | 3 => (⟨[], false, [(1, [slowPoll]), (2, [])], .executing busyWrite⟩, .finish (), .answered 1 ())
  | _ => (⟨[], false, [(1, [slowPoll]), (2, [])], .top⟩, .turn, .silent)

theorem round_steps : ∀ r < 5, (schedulerLoop nothing).step (round r).1 (round r).2.1 =
    some ((round ((r + 1) % 5)).1, (round r).2.2) := by decide

/-- A scheduler whose replies have numbers for addresses. -/
abbrev numbered : Machine (SchedulerLoop Nat) (LoopInput Nat Unit) (LoopOutput Nat Unit) :=
  schedulerLoop nothing

/-- The rounds follow each other for ever. -/
def rounds : numbered.Endless where
  state i := (round (i % 5)).1
  input i := (round (i % 5)).2.1
  output i := (round (i % 5)).2.2
  steps i := by
    have step := round_steps (i % 5) (Nat.mod_lt i (by decide))
    rwa [Nat.mod_add_mod] at step

/-- A poll waits for ever while writes keep coming, although the loop never stands still. -/
theorem poll_starves : ¬ ∀ (history : List (LoopStep Nat Unit Unit)) (s : SchedulerLoop Nat),
    numbered.Execution {} history s → ∀ run : numbered.Endless, run.state 0 = s →
    (∀ i, ∃ j, i ≤ j ∧ run.input j = .turn) →
    ∀ op ∈ pending s.queues, ∃ j, run.output j = .started op := by
  intro claim
  have run := (schedulerLoop nothing).execution_exec ({} : SchedulerLoop Nat)
    [.submit slowPoll, .turn, .submit busyWrite, .turn, .turn, .finish (), .turn] (by decide)
  obtain ⟨j, begun⟩ := claim _ _ run rounds rfl
    (fun i => ⟨i + (6 - i % 5), by omega, by
      have place : (i + (6 - i % 5)) % 5 = 1 := by omega
      show (round ((i + (6 - i % 5)) % 5)).2.1 = .turn
      rw [place]
      rfl⟩) slowPoll (by decide)
  have never : ∀ r < 5, (round r).2.2 ≠ .started slowPoll := by decide
  exact never (j % 5) (Nat.mod_lt j (by decide)) begun

end CatHub.Radio
