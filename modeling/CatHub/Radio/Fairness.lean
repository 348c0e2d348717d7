/-
# CatHub.Radio.Fairness — who is passed over, and how often.

Among equally urgent heads the loop takes the one whose session came first.  A head is passed over where
an operation of another session is started that is no more urgent; `Fair` says that this happens to it
once for each other session at most.  It fails as soon as the preferred session goes on submitting, and
`fair_iff` states when it does not: no session that was preferred to a head brings up another operation of
that priority as long as the head waits.
-/
import CatHub.Radio.SchedulerLoop
import Mathlib.Data.List.Basic

namespace CatHub.Radio

open Systems

variable {ρ ε γ : Type}

/-! ## Heads -/

/-- The operation at the front of a session's queue. -/
def headOf (queues : Queues ρ) (id : Nat) : Option (Operation ρ) :=
  (ofSession id (pending queues)).head?

/-- It belongs to the session. -/
theorem headOf_session {queues : Queues ρ} {id : Nat} {op : Operation ρ}
    (head : headOf queues id = some op) : op.sessionId = id := by
  have mem := List.mem_of_mem_head? (Option.mem_def.mpr head)
  exact beq_iff_eq.mp (List.mem_filter.mp mem).2

/-- It stands at the front of the entry that has the session's id. -/
theorem headOf_entry {queues : Queues ρ} (sorted : Sorted queues) {id : Nat} {op : Operation ρ}
    (head : headOf queues id = some op) :
    ∃ front q back, queues = front ++ (id, op :: q) :: back := by
  have among := List.mem_of_mem_head? (Option.mem_def.mpr head)
  obtain ⟨waits, -⟩ := List.mem_filter.mp among
  obtain ⟨⟨id', q⟩, mem, here⟩ := List.mem_flatMap.mp waits
  obtain rfl : op.sessionId = id' := sorted.own _ mem op here
  obtain rfl := headOf_session head
  obtain ⟨front, back, form⟩ := List.append_of_mem mem
  have queue : q.head? = some op := by
    rw [← head, headOf, sorted.pending_session form]
  obtain ⟨rest, rfl⟩ := List.head?_eq_some_iff.mp queue
  exact ⟨front, rest, back, form⟩

/-- The selected operation is the head of its session. -/
theorem Best.headOf {queues front back : Queues ρ} {id : Nat} {op : Operation ρ}
    {q : List (Operation ρ)} (sorted : Sorted queues) (best : Best queues front id op q back) :
    Radio.headOf queues id = some op := by
  rw [Radio.headOf, sorted.pending_session best.form]
  rfl

/-! ## Waiting -/

/-- The step starts an operation of this session and priority. -/
def starts (id : Nat) (p : Priority) (e : LoopStep ρ ε γ) : Bool :=
  match e.output with
  | .started op => op.sessionId == id && op.priority == p
  | _ => false

theorem starts_iff {id : Nat} {p : Priority} {e : LoopStep ρ ε γ} :
    starts id p e = true ↔ ∃ op, e.output = .started op ∧ op.sessionId = id ∧ op.priority = p := by
  unfold starts
  cases e.output with
  | started op => simp
  | silent | answered => simp

/-- The session whose operation the step starts. -/
def serves (e : LoopStep ρ ε γ) : Option Nat :=
  match e.output with
  | .started op => some op.sessionId
  | _ => none

theorem serves_ne {e : LoopStep ρ ε γ} {id : Nat}
    (others : ∀ op, e.output = .started op → op.sessionId ≠ id) : serves e ≠ some id := by
  unfold serves
  split
  · rename_i op begun
    exact fun same => others op begun (Option.some.inj same)
  · exact fun same => nomatch same

/-- All along the segment the operation is the head of its session, and is not started. -/
def Waiting (segment : List (LoopStep ρ ε γ)) (head : Operation ρ) : Prop :=
  ∀ e ∈ segment, headOf e.before.queues head.sessionId = some head ∧ serves e ≠ some head.sessionId

/-- As long as an operation waits at the head of its queue, every other session has at most one operation
of its priority started. -/
def Fair (history : List (LoopStep ρ ε γ)) : Prop :=
  ∀ earlier segment later head, history = earlier ++ segment ++ later → Waiting segment head →
    ∀ other, other ≠ head.sessionId → segment.countP (starts other head.priority) ≤ 1

/-- The session had an operation started while the head, which is no less urgent, waited; and the head
waits since. -/
def Preferred (past : List (LoopStep ρ ε γ)) (other : Nat) (head : Operation ρ) : Prop :=
  ∃ earlier e segment, past = earlier ++ e :: segment ∧ starts other head.priority e = true ∧
    Waiting (e :: segment) head

/-- The loop is about to select. -/
def Selecting (s : SchedulerLoop ρ) : Prop := s.stage = .draining ∧ s.channel = []

/-- The next operation of every session that was preferred to a head has another priority, as long as
the head waits. -/
def Yields (past : List (LoopStep ρ ε γ)) (s : SchedulerLoop ρ) : Prop :=
  ∀ other head, other ≠ head.sessionId → Preferred past other head →
    headOf s.queues head.sessionId = some head →
    ∀ next, headOf s.queues other = some next → next.priority ≠ head.priority

/-- Where more than one element counts there are two of them. -/
theorem two_of_countP {α : Type} {P : α → Bool} {items : List α} (many : 1 < items.countP P) :
    ∃ front x middle y back, items = front ++ x :: (middle ++ y :: back) ∧ P x = true ∧ P y = true := by
  induction items with
  | nil => simp at many
  | cons item items ih =>
      rw [List.countP_cons] at many
      by_cases here : P item = true
      · rw [if_pos here] at many
        have some_ : 0 < items.countP P := by omega
        obtain ⟨y, mem, counts⟩ := List.countP_pos_iff.mp some_
        obtain ⟨middle, back, rfl⟩ := List.append_of_mem mem
        exact ⟨[], item, middle, y, back, rfl, here, counts⟩
      · rw [if_neg here] at many
        obtain ⟨front, x, middle, y, back, rfl, hx, hy⟩ := ih many
        exact ⟨item :: front, x, middle, y, back, rfl, hx, hy⟩

section
variable {perform : OpKind → ε → γ} {history : List (LoopStep ρ ε γ)} {s : SchedulerLoop ρ}

/-- Where every preferred session yields, nobody is passed over twice. -/
theorem fair_of_yields (run : (schedulerLoop perform).Execution {} history s)
    (yields : ∀ past e later, history = past ++ e :: later → Selecting e.before →
      Yields past e.before) : Fair history := by
  rintro earlier segment later head rfl waits other apart
  by_contra many
  obtain ⟨front, e₁, middle, e₂, back, rfl, first, second⟩ := two_of_countP (Nat.not_le.mp many)
  have form : earlier ++ (front ++ e₁ :: (middle ++ e₂ :: back)) ++ later =
      (earlier ++ front ++ e₁ :: middle) ++ e₂ :: (back ++ later) := by simp
  obtain ⟨op, begun, own, same⟩ := starts_iff.mp second
  have step := run.step_of_mem e₂ (by simp)
  rw [begun] at step
  obtain ⟨stands, drained, front', id, q, back', best, -⟩ := started_cases step
  have sorted : Sorted e₂.before.queues := by
    rw [form] at run
    exact (accounted run.before).sorted
  have here : headOf e₂.before.queues other = some op := by
    have head := best.headOf sorted
    rwa [← headOf_session head, own] at head
  have preferred : Preferred (earlier ++ front ++ e₁ :: middle) other head := by
    refine ⟨earlier ++ front, e₁, middle, rfl, first, fun e mem => waits e ?_⟩
    rcases List.mem_cons.mp mem with rfl | mem <;> simp [*]
  exact yields _ _ _ form ⟨stands, drained⟩ other head apart preferred
    (waits e₂ (by simp)).1 op here same

/-! ## The order of the queues -/

/-- What one step does to the queues: they stay sorted, their order stays, and a head stays unless it is
started. -/
theorem queues_step {s t : SchedulerLoop ρ} {i : LoopInput ρ ε} {o : LoopOutput ρ γ}
    (stepped : LoopStepped perform s i o t) (sorted : Sorted s.queues) :
    Sorted t.queues ∧ s.queues.map Prod.fst <+: t.queues.map Prod.fst ∧
      ∀ id head, headOf s.queues id = some head → o = .started head ∨
        headOf t.queues id = some head ∧ ∀ op, o = .started op → op.sessionId ≠ id := by
  have same : ∀ o : LoopOutput ρ γ, (∀ op, o ≠ .started op) →
      Sorted s.queues ∧ s.queues.map Prod.fst <+: s.queues.map Prod.fst ∧
      ∀ id head, headOf s.queues id = some head → o = .started head ∨
        headOf s.queues id = some head ∧ ∀ op, o = .started op → op.sessionId ≠ id :=
    fun o quiet => ⟨sorted, List.prefix_refl _, fun id head here =>
      .inr ⟨here, fun op begun => absurd begun (quiet op)⟩⟩
  cases stepped with
  | submit | close | finish => exact same _ (fun op begun => nomatch begun)
  | turn turned =>
      cases turned with
      | stops | looks | goesBack => exact same _ (fun op begun => nomatch begun)
      | takes op channel held stands =>
          obtain ⟨sorted', queued⟩ := sorted.enqueue op
          refine ⟨sorted', ?_, fun id head here => .inr ⟨?_, fun op begun => nomatch begun⟩⟩
          · rcases enqueue_cases s.queues op with ⟨front, q, back, form, goes⟩ | ⟨-, goes⟩
            · show _ <+: (enqueue s.queues op).map Prod.fst
              rw [goes, form]
              simp
            · show _ <+: (enqueue s.queues op).map Prod.fst
              rw [goes, List.map_append]
              exact List.prefix_append _ _
          · rw [headOf, queued, List.head?_append, Option.or_eq_some_iff]
            exact .inl here
      | selects front id op q back stands drained best =>
          obtain ⟨sorted', taken⟩ := sorted.selected best
          refine ⟨sorted', ?_, fun session head here => ?_⟩
          · rw [best.form]
            simp
          · rw [headOf, taken] at here
            by_cases this : op.sessionId = session
            · rw [ofSession_all (fun o mem => by rw [List.mem_singleton.mp mem, this])] at here
              exact .inl (congrArg LoopOutput.started (Option.some.inj here))
            · rw [ofSession_none (fun o mem => by rw [List.mem_singleton.mp mem]; exact this)] at here
              refine .inr ⟨here, fun o begun => ?_⟩
              obtain rfl := LoopOutput.started.inj begun
              exact this

theorem queues_run {s t : SchedulerLoop ρ} (run : (schedulerLoop perform).Execution s history t)
    (sorted : Sorted s.queues) :
    Sorted t.queues ∧ s.queues.map Prod.fst <+: t.queues.map Prod.fst := by
  refine run.invariant (I := fun _ t => Sorted t.queues ∧
    s.queues.map Prod.fst <+: t.queues.map Prod.fst) ⟨sorted, List.prefix_refl _⟩ ?_
  rintro history u i o v - ⟨sorted, order⟩ step
  obtain ⟨sorted', order', -⟩ := queues_step (loop_cases step) sorted
  exact ⟨sorted', order.trans order'⟩

/-- A head waits on, unless the run starts it. -/
theorem head_run {s t : SchedulerLoop ρ} {id : Nat} {head : Operation ρ}
    (run : (schedulerLoop perform).Execution s history t) (sorted : Sorted s.queues)
    (here : headOf s.queues id = some head) :
    (∃ segment e later, history = segment ++ e :: later ∧ Waiting segment head ∧
      headOf e.before.queues id = some head ∧ e.output = .started head) ∨
    headOf t.queues id = some head := by
  obtain rfl := headOf_session here
  induction history generalizing s with
  | nil =>
      rw [run.stays]
      exact .inr here
  | cons e history ih =>
      obtain ⟨rfl, step, rest⟩ := run.uncons
      obtain ⟨sorted', -, heads_⟩ := queues_step (loop_cases step) sorted
      rcases heads_ head.sessionId head here with begun | ⟨stays, others⟩
      · exact .inl ⟨[], e, history, rfl, fun _ mem => (nomatch mem), here, begun⟩
      · rcases ih rest sorted' stays with ⟨segment, e', later, rfl, waits, last, begun⟩ | ends
        · exact .inl ⟨e :: segment, e', later, rfl,
            List.forall_mem_cons.mpr ⟨⟨here, serves_ne others⟩, waits⟩, last, begun⟩
        · exact .inr ends

/-- A head that is preferred to another one of its priority comes first in the order. -/
theorem Best.ahead {queues front back : Queues ρ} {id other : Nat} {op head : Operation ρ}
    {q : List (Operation ρ)} (sorted : Sorted queues) (best : Best queues front id op q back)
    (here : Radio.headOf queues other = some head) (apart : id ≠ other)
    (same : op.priority = head.priority) : other ∈ back.map Prod.fst := by
  obtain ⟨front', q', back', form⟩ := headOf_entry sorted here
  have mem : (other, head :: q') ∈ front ++ (id, op :: q) :: back := by
    rw [← best.form, form]
    simp
  rcases List.mem_append.mp mem with before | mem
  · have lower := best.before head (List.mem_filterMap.mpr ⟨_, before, rfl⟩)
    rw [same] at lower
    exact absurd lower (Nat.lt_irrefl _)
  · rcases List.mem_cons.mp mem with equal | after
    · exact absurd (Prod.mk.inj equal).1.symm apart
    · exact List.mem_map.mpr ⟨_, after, rfl⟩

/-- It is not passed over in favour of one that comes later in the order. -/
theorem Best.not_behind {queues front back : Queues ρ} {id other : Nat} {op next : Operation ρ}
    {q : List (Operation ρ)} (sorted : Sorted queues) (best : Best queues front id op q back)
    (here : Radio.headOf queues other = some next) {before after : List Nat}
    (order : queues.map Prod.fst = before ++ other :: after) (behind : id ∈ after) :
    next.priority ≠ op.priority := by
  intro same
  obtain ⟨between, rest, rfl⟩ := List.append_of_mem behind
  obtain ⟨front', q', back', form⟩ := headOf_entry sorted here
  have mem : (other, next :: q') ∈ front ++ (id, op :: q) :: back := by
    rw [← best.form, form]
    simp
  have distinct := sorted.distinct
  rw [order] at distinct
  have other_ : other ≠ id ∧ other ∉ rest ∧ id ∉ before ++ other :: between ∧ id ∉ rest := by
    have split : before ++ other :: (between ++ id :: rest) =
        (before ++ other :: between) ++ id :: rest := by simp
    rw [split] at distinct
    obtain ⟨-, back_, apart⟩ := List.nodup_append.mp distinct
    refine ⟨apart other (by simp) id List.mem_cons_self,
      fun mem => apart other (by simp) other (List.mem_cons_of_mem _ mem) rfl,
      fun mem => apart id mem id List.mem_cons_self rfl, (List.nodup_cons.mp back_).1⟩
  have places : back.map Prod.fst = rest := by
    have both : (before ++ other :: between) ++ id :: rest =
        front.map Prod.fst ++ id :: back.map Prod.fst := by
      have whole := order
      rw [best.form, List.map_append, List.map_cons] at whole
      rw [whole]
      simp
    exact ((List.append_cons_inj_of_notMem other_.2.2.1 other_.2.2.2).mp both).2.2.symm
  rcases List.mem_append.mp mem with ahead | mem
  · have lower := best.before next (List.mem_filterMap.mpr ⟨_, ahead, rfl⟩)
    rw [same] at lower
    exact Nat.lt_irrefl _ lower
  · rcases List.mem_cons.mp mem with equal | after
    · exact other_.1 (Prod.mk.inj equal).1
    · exact other_.2.1 (places ▸ List.mem_map.mpr ⟨_, after, rfl⟩)

/-- Where nothing is left waiting and nobody was passed over twice, every preferred session has yielded:
what it brought up would have been started first. -/
theorem yields_of_fair (run : (schedulerLoop perform).Execution {} history s)
    (served : pending s.queues = []) (fair : Fair history) {past later : List (LoopStep ρ ε γ)}
    {e : LoopStep ρ ε γ} (form : history = past ++ e :: later) : Yields past e.before := by
  rintro other head apart ⟨earlier, e₀, segment₀, rfl, first, waits₀⟩ here next nextHere same
  subst form
  obtain ⟨mid, begun, rest⟩ := run.split
  obtain rfl := rest.uncons.1
  have sorted := (accounted begun).sorted
  rcases head_run rest sorted here with ⟨segment, e₁, tail, cut, waits, last, taken⟩ | ends
  · rw [cut] at rest
    obtain ⟨m, through, goesOn⟩ := rest.split
    obtain ⟨rfl, step, -⟩ := goesOn.uncons
    obtain ⟨sorted₁, order₁⟩ := queues_run through sorted
    rcases head_run through sorted nextHere with ⟨front, e₂, back, rfl, -, -, passed⟩ | stays
    · -- both operations of the other session were started while the head waited
      have whole : earlier ++ e₀ :: segment₀ ++ e :: later =
          earlier ++ (e₀ :: segment₀ ++ (front ++ e₂ :: back)) ++ e₁ :: tail := by
        rw [cut]
        simp
      have all : Waiting (e₀ :: segment₀ ++ (front ++ e₂ :: back)) head := by
        intro e' mem
        rcases List.mem_append.mp mem with mem | mem
        · exact waits₀ e' mem
        · exact waits e' mem
      have twice := fair _ _ _ head whole all other apart
      have again : starts other head.priority e₂ = true :=
        starts_iff.mpr ⟨next, passed, headOf_session nextHere, same⟩
      rw [List.countP_append, List.countP_append, List.countP_cons, List.countP_cons, if_pos first,
        if_pos again] at twice
      omega
    · -- the other session comes first in the order, so that the head was not selected before it
      rw [taken] at step
      obtain ⟨-, -, front, id, q, back, best, -⟩ := started_cases step
      obtain rfl : head.sessionId = id := headOf_session (best.headOf sorted₁)
      obtain ⟨op₀, taken₀, own₀, same₀⟩ := starts_iff.mp first
      have run₀ : (schedulerLoop perform).Execution {} (earlier ++ e₀ :: (segment₀ ++ e :: later)) s := by
        simpa using run
      have sorted₀ := (accounted run₀.before).sorted
      have step₀ := run.step_of_mem e₀ (by simp)
      rw [taken₀] at step₀
      obtain ⟨-, -, front₀, id₀, q₀, back₀, best₀, -⟩ := started_cases step₀
      obtain rfl : op₀.sessionId = id₀ := headOf_session (best₀.headOf sorted₀)
      have behind := best₀.ahead sorted₀ (waits₀ e₀ List.mem_cons_self).1 (own₀ ▸ apart) same₀
      have order₀ : e₀.before.queues.map Prod.fst <+: e.before.queues.map Prod.fst := by
        obtain ⟨m₀, before₀, after₀⟩ := begun.split
        obtain rfl := after₀.uncons.1
        exact (queues_run after₀ sorted₀).2
      obtain ⟨more, grown⟩ := order₀.trans order₁
      rw [best₀.form, List.map_append, List.map_cons, List.append_assoc, List.cons_append, own₀] at grown
      exact best.not_behind sorted₁ stays grown.symm (List.mem_append_left _ behind) same
  · rw [headOf, served] at ends
    cases ends

end

/-- **Fairness.**  In a run that serves everybody, nobody is passed over twice by the same session exactly
if every session yields that was preferred to a head: at every selection, its next operation has another
priority as long as the head waits.  That this is enough holds of every run. -/
theorem fair_iff {perform : OpKind → ε → γ} {history : List (LoopStep ρ ε γ)} {s : SchedulerLoop ρ}
    (run : (schedulerLoop perform).Execution {} history s) :
    ((∀ past e later, history = past ++ e :: later → Selecting e.before → Yields past e.before) →
      Fair history) ∧
    (pending s.queues = [] → (Fair history ↔
      ∀ past e later, history = past ++ e :: later → Selecting e.before → Yields past e.before)) :=
  ⟨fair_of_yields run, fun served =>
    ⟨fun fair _ _ _ form _ => yields_of_fair run served fair form, fair_of_yields run⟩⟩

/-- Reads of two sessions, each of which submits again when it is answered. -/
def readOf (id reply : Nat) : Operation Nat := ⟨id, .read, .passthrough [], reply⟩

/-- Session 1 is served twice while the read of session 2 waits. -/
theorem session_passed_over : ¬ ∀ (history : List (LoopStep Nat Unit Unit)) (s : SchedulerLoop Nat),
    (schedulerLoop nothing).Execution {} history s → Fair history := by
  intro claim
  have run := (schedulerLoop nothing).execution_exec ({} : SchedulerLoop Nat)
    [.submit (readOf 1 0), .turn, .submit (readOf 2 0), .turn, .turn, .finish (),
      .submit (readOf 1 1), .turn, .turn, .turn] (by decide)
  have fair := claim _ _ run
  have twice := fair (List.take 4 _) (List.drop 4 _) [] (readOf 2 0)
    (by rw [List.take_append_drop, List.append_nil])
    (show ∀ e ∈ List.drop 4 _, _ by decide) 1 (by decide)
  exact absurd twice (by decide)

/-- One round for each of the two. -/
theorem fair_iff_rounds : ∃ history s,
    (schedulerLoop nothing).Execution ({} : SchedulerLoop Nat) history s ∧
      (started history).map (·.sessionId) = [1, 2] ∧ (Fair history ↔
        ∀ past e later, history = past ++ e :: later → Selecting e.before → Yields past e.before) := by
  have run := (schedulerLoop nothing).execution_exec ({} : SchedulerLoop Nat)
    [.submit (readOf 1 0), .turn, .submit (readOf 2 0), .turn, .turn, .finish (), .turn, .turn,
      .finish ()] (by decide)
  exact ⟨_, _, run, by decide, (fair_iff run).2 (by decide)⟩

end CatHub.Radio
