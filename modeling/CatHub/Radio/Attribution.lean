/-
# CatHub.Radio.Attribution — whose lines a line command is answered with.

A downstream `rigctld` answers every command in order with its own lines, as late as it likes.  In
`conversation` each line remembers the command it answers, though the task sees its bytes only: the task
takes the next lines that come for the reply of the command that is pending.  `Settled` is the condition
that a command is written when no line of an earlier one is still on its way, and `lines_attributed` says
that in runs which meet it no command is answered with a line of another one.
-/
import CatHub.Radio.Transport

namespace CatHub.Radio.Transport

open Systems

/-- A line, and the command that it answers. -/
structure Line where
  owner : Nat
  bytes : List UInt8
  deriving DecidableEq, Repr

def lineConfig : Config Line := { bytes := Line.bytes }

/-- The task's end of the link, and the lines that the rig has yet to send, in order. -/
structure Conversation where
  link : Link Line
  owed : List Line := []

/-- The lines that are on their way. -/
def Conversation.outstanding (c : Conversation) : List Line := c.link.inbox ++ c.owed

/-- How many lines a command asks for. -/
def lineCount : Expect → Nat
  | .lines n => n
  | _ => 0

/-- A complete answer: as many lines as were asked for, or one status line. -/
def Complete (count : Nat) (answer : List (List UInt8)) : Prop :=
  (answer.length = count ∧ ∀ line ∈ answer, rprt.isPrefixOf line = false) ∨
    (answer.length = 1 ∧ ∀ line ∈ answer, rprt.isPrefixOf line = true)

instance (count : Nat) (answer : List (List UInt8)) : Decidable (Complete count answer) :=
  inferInstanceAs (Decidable (_ ∨ _))

/-- What may happen next: only line commands are submitted, and only the rig sends lines. -/
inductive Act where
  | submit (bytes : List UInt8) (count : Nat)
  /-- Take a command, which the rig will answer with `answer` if the write succeeds. -/
  | take (fault : Option String) (answer : List (List UInt8))
  | deliver
  | receive
  | timeout
  | tick (duration : Nat)
  | hangUp
  | dropSubmitters
  | reopen (success : Bool)
  deriving DecidableEq, Repr

namespace Conversation

/-- A step of the link, with what the rig owes after it. -/
def move (c : Conversation) (input : Input Line) (owed : List Line) :
    Option (Conversation × List (Event Line)) :=
  (step lineConfig c.link input).map fun (link, log) => (⟨link, owed⟩, log)

theorem of_move {c d : Conversation} {input : Input Line} {owed : List Line} {log : List (Event Line)}
    (moved : c.move input owed = some (d, log)) :
    ∃ link, step lineConfig c.link input = some (link, log) ∧ d = ⟨link, owed⟩ := by
  obtain ⟨⟨link, log'⟩, took, same⟩ := Option.map_eq_some_iff.mp moved
  obtain ⟨rfl, rfl⟩ := Prod.mk.inj same
  exact ⟨link, took, rfl⟩

/-- What the rig owes once the head of the queue was written. -/
def answering (c : Conversation) (answer : List (List UInt8)) : List Line :=
  match c.link.queue with
  | [] => c.owed
  | command :: _ => c.owed ++ answer.map (fun bytes => ⟨command.id, bytes⟩)

def next (c : Conversation) : Act → Option (Conversation × List (Event Line))
  | .submit bytes count => c.move (.submit bytes (.lines count)) c.owed
  | .take none answer =>
      if ∀ command ∈ c.link.queue.head?, Complete (lineCount command.expect) answer then
        c.move (.take none) (c.answering answer)
      else none
  | .take (some text) _ => c.move (.take (some text)) c.owed
  | .deliver =>
      match c.owed with
      | [] => none
      | line :: owed => c.move (.arrive line) owed
  | .receive => c.move .receive c.owed
  | .timeout => c.move .timeout c.owed
  | .tick duration => c.move (.tick duration) c.owed
  | .hangUp => c.move .hangUp c.owed
  | .dropSubmitters => c.move .dropSubmitters c.owed
  -- what the rig owed over a link that broke is lost with it
  | .reopen success => c.move (.reopen success) []

end Conversation

/-- The task and a rig that answers as late as it likes. -/
def conversation : Machine Conversation Act (List (Event Line)) where
  step := Conversation.next

/-! ## Attribution -/

/-- Every command answered with lines is answered with its own. -/
def Attributed (log : List (Event Line)) : Prop :=
  ∀ id lines, .answered id (.ok lines) ∈ log → ∀ line ∈ lines, line.owner = id

/-- A command is written when no line is on its way. -/
def Settled (e : Transition Conversation Act (List (Event Line))) : Prop :=
  match e.input with
  | .take none _ => e.before.outstanding = []
  | _ => True

instance (e : Transition Conversation Act (List (Event Line))) : Decidable (Settled e) := by
  unfold Settled
  split <;> infer_instance

/-- The lines that are on their way to a pending command, and those that it has got, are its own. -/
structure Expecting (c : Conversation) : Prop where
  queue : ∀ command ∈ c.link.queue, ∃ n, command.expect = .lines n
  pending : ∀ p, c.link.pending = some p → ∃ remaining acc, p.matcher = .lines remaining acc ∧
    ∀ line ∈ acc ++ c.outstanding, line.owner = p.id

section
variable {c : Conversation} {link : Link Line} {log : List (Event Line)} {owed : List Line}

/-- A step that neither answers with lines nor touches what is expected. -/
theorem Expecting.keep (e : Expecting c)
    (queue : ∀ command ∈ link.queue, ∃ n, command.expect = .lines n)
    (pending : link.pending = none ∨
      (link.pending = c.link.pending ∧ ∀ line ∈ link.inbox ++ owed, line ∈ c.outstanding)) :
    Expecting ⟨link, owed⟩ := by
  refine ⟨queue, fun p is => ?_⟩
  rcases pending with none | ⟨same, fewer⟩
  · rw [none] at is
    cases is
  · obtain ⟨remaining, acc, form, own⟩ := e.pending p (same ▸ is)
    refine ⟨remaining, acc, form, ?_⟩
    rw [List.forall_mem_append] at own ⊢
    exact ⟨own.1, fun line mem => own.2 line (fewer line mem)⟩

theorem attributed_silent (silent : ∀ id lines, .answered id (.ok lines) ∉ log) : Attributed log :=
  fun id lines mem => absurd mem (silent id lines)

/-- The task takes a command: it fails, is answered with nothing, or is pending from then on. -/
theorem attributed_take {answer : List (List UInt8)} (e : Expecting c) (none_ : c.outstanding = [])
    (took : step lineConfig c.link (.take none) = some (link, log)) :
    Expecting ⟨link, c.answering answer⟩ ∧ Attributed log := by
  obtain ⟨inbox, owed⟩ := List.append_eq_nil_iff.mp none_
  simp only [step, Option.ite_none_right_eq_some] at took
  obtain ⟨⟨-, free⟩, took⟩ := took
  split at took
  · simp only [Option.ite_none_left_eq_some, Option.some.injEq, Prod.mk.injEq] at took
    obtain ⟨-, rfl, rfl⟩ := took
    refine ⟨⟨e.queue, fun p is => ?_⟩, attributed_silent (by simp)⟩
    rw [free] at is
    cases is
  · rename_i command queue form
    obtain ⟨here, later⟩ := List.forall_mem_cons.mp (form ▸ e.queue)
    obtain ⟨n, lines⟩ := here
    simp only [Link.await, lines] at took
    split at took
    · cases took
      refine ⟨⟨later, fun p is => ?_⟩, ?_⟩
      · rw [show c.link.pending = some p from is] at free
        cases free
      · intro id got mem
        simp at mem
        obtain ⟨-, rfl⟩ := mem
        exact List.forall_mem_nil _
    · cases took
      refine ⟨⟨later, ?_⟩, attributed_silent (by simp)⟩
      rintro p ⟨⟩
      refine ⟨n, [], rfl, ?_⟩
      intro line mem
      rw [Conversation.outstanding, Conversation.answering, form] at mem
      simp [inbox, owed] at mem
      obtain ⟨bytes, -, rfl⟩ := mem
      rfl

/-- The task takes a line: it is routed, kept, or completes the answer. -/
theorem attributed_receive (e : Expecting c)
    (took : step lineConfig c.link .receive = some (link, log)) :
    Expecting ⟨link, c.owed⟩ ∧ Attributed log := by
  simp only [step, Option.ite_none_right_eq_some] at took
  obtain ⟨-, took⟩ := took
  split at took
  · simp only [Option.ite_none_right_eq_some, Option.some.injEq] at took
    obtain ⟨rfl, rfl⟩ := Prod.mk.inj took.2
    exact ⟨e.keep e.queue (.inl rfl), attributed_silent (by simp)⟩
  · rename_i line inbox form
    have rest : ∀ l ∈ inbox ++ c.owed, l ∈ c.outstanding := by
      intro l mem
      rw [Conversation.outstanding, form]
      exact List.mem_cons_of_mem _ mem
    split at took
    · rename_i free
      cases took
      exact ⟨e.keep e.queue (.inl free), attributed_silent (by simp)⟩
    · rename_i p pending
      obtain ⟨remaining, acc, lines, own⟩ := e.pending p pending
      obtain ⟨got, coming⟩ := List.forall_mem_append.mp own
      have here : line.owner = p.id := coming line (by simp [Conversation.outstanding, form])
      have acc' : ∀ l ∈ acc ++ [line], l.owner = p.id :=
        List.forall_mem_append.mpr ⟨got, List.forall_mem_singleton.mpr here⟩
      simp only [Link.offer, lines] at took
      split at took
      · cases took
        refine ⟨e.keep e.queue (.inl rfl), ?_⟩
        intro id answer mem
        simp at mem
        obtain ⟨rfl, rfl⟩ := mem
        exact acc'
      · cases took
        refine ⟨⟨e.queue, ?_⟩, attributed_silent (by simp)⟩
        rintro q ⟨⟩
        refine ⟨remaining - 1, acc ++ [line], rfl, ?_⟩
        exact List.forall_mem_append.mpr ⟨acc', fun l mem => coming l (rest l mem)⟩

theorem attributed_step {d : Conversation} {act : Act} (e : Expecting c)
    (took : conversation.step c act = some (d, log)) (settled : Settled ⟨c, act, log, d⟩) :
    Expecting d ∧ Attributed log := by
  have took : c.next act = some (d, log) := took
  cases act with
  | submit bytes count =>
      obtain ⟨link, moved, rfl⟩ := Conversation.of_move took
      simp only [step, Option.ite_none_right_eq_some, Option.some.injEq, Prod.mk.injEq] at moved
      obtain ⟨-, rfl, rfl⟩ := moved
      refine ⟨e.keep ?_ (.inr ⟨rfl, fun _ mem => mem⟩), attributed_silent (by simp)⟩
      intro command mem
      rcases List.mem_append.mp mem with old | new
      · exact e.queue command old
      · rw [List.mem_singleton.mp new]
        exact ⟨count, rfl⟩
  | take fault answer =>
      cases fault with
      | none =>
          obtain ⟨-, took⟩ := Option.ite_none_right_eq_some.mp took
          obtain ⟨link, moved, rfl⟩ := Conversation.of_move took
          exact attributed_take e settled moved
      | some text =>
          obtain ⟨link, moved, rfl⟩ := Conversation.of_move took
          simp only [step, Option.ite_none_right_eq_some] at moved
          obtain ⟨⟨-, free⟩, moved⟩ := moved
          split at moved
          · simp only [Option.ite_none_left_eq_some, Option.some.injEq, Prod.mk.injEq] at moved
            obtain ⟨-, rfl, rfl⟩ := moved
            exact ⟨e.keep e.queue (.inl free), attributed_silent (by simp)⟩
          · rename_i command queue form
            cases moved
            have later := (List.forall_mem_cons.mp (form ▸ e.queue)).2
            exact ⟨e.keep later (.inl rfl), attributed_silent (by simp)⟩
  | deliver =>
      cases owed : c.owed with
      | nil => simp [Conversation.next, owed] at took
      | cons line rest =>
          simp only [Conversation.next, owed] at took
          obtain ⟨link, moved, rfl⟩ := Conversation.of_move took
          simp only [step, Option.ite_none_right_eq_some, Option.some.injEq, Prod.mk.injEq] at moved
          obtain ⟨-, rfl, rfl⟩ := moved
          refine ⟨e.keep e.queue (.inr ⟨rfl, fun l mem => ?_⟩), attributed_silent (by simp)⟩
          simpa [Conversation.outstanding, owed] using mem
  | receive =>
      obtain ⟨link, moved, rfl⟩ := Conversation.of_move took
      exact attributed_receive e moved
  | timeout =>
      obtain ⟨link, moved, rfl⟩ := Conversation.of_move took
      simp only [step] at moved
      split at moved
      · simp only [Option.ite_none_right_eq_some, Option.some.injEq, Prod.mk.injEq] at moved
        obtain ⟨-, rfl, rfl⟩ := moved
        exact ⟨e.keep e.queue (.inl rfl), attributed_silent (by simp)⟩
      · cases moved
  | tick | dropSubmitters =>
      obtain ⟨link, moved, rfl⟩ := Conversation.of_move took
      cases moved
      exact ⟨e.keep e.queue (.inr ⟨rfl, fun _ mem => mem⟩), attributed_silent (by simp)⟩
  | hangUp =>
      obtain ⟨link, moved, rfl⟩ := Conversation.of_move took
      simp only [step, Option.ite_none_right_eq_some, Option.some.injEq, Prod.mk.injEq] at moved
      obtain ⟨-, rfl, rfl⟩ := moved
      exact ⟨e.keep e.queue (.inr ⟨rfl, fun _ mem => mem⟩), attributed_silent (by simp)⟩
  | reopen success =>
      obtain ⟨link, moved, rfl⟩ := Conversation.of_move took
      have fewer : ∀ line ∈ c.link.inbox ++ [], line ∈ c.outstanding := by
        simp [Conversation.outstanding]
        exact fun line mem => .inl mem
      simp only [step] at moved
      split at moved
      · simp only [Option.ite_none_left_eq_some] at moved
        obtain ⟨-, moved⟩ := moved
        split at moved <;>
        · cases moved
          exact ⟨e.keep e.queue (.inr ⟨rfl, fewer⟩), attributed_silent (by simp)⟩
      · cases moved

end

/-- Where every command is written while no line is on its way, no command is answered with a line of
another one. -/
theorem lines_attributed {t : Conversation}
    {history : List (Transition Conversation Act (List (Event Line)))}
    (run : conversation.Execution ⟨opened lineConfig, []⟩ history t)
    (settled : ∀ e ∈ history, Settled e) : ∀ e ∈ history, Attributed e.output := by
  have start : Expecting ⟨opened lineConfig, []⟩ := by
    refine ⟨List.forall_mem_nil _, ?_⟩
    rintro p ⟨⟩
  exact (run.always (I := Expecting) (P := fun e => Attributed e.output) start
    (fun _ _ _ _ e took settled => attributed_step e took settled) settled).2

/-- A frequency is asked for and answered. -/
theorem lines_attributed_prompt :
    let acts : List Act :=
      [.submit (Ts590.ascii ['f', '\n']) 1, .take none [Ts590.ascii ['7', '\n']], .deliver, .receive]
    ∃ history t, conversation.Execution ⟨opened lineConfig, []⟩ history t ∧
      history.map (·.input) = acts ∧ ∀ e ∈ history, Attributed e.output := by
  intro acts
  have enabled : (conversation.exec ⟨opened lineConfig, []⟩ acts).isSome := by decide
  have settled : ∀ e ∈ ((conversation.exec ⟨opened lineConfig, []⟩ acts).get enabled).1,
      Settled e := by decide +revert
  have run := conversation.execution_exec _ acts enabled
  exact ⟨_, _, run, conversation.exec_inputs _ acts enabled, lines_attributed run settled⟩

/-- The late answer to a command that timed out is taken for the answer to the next one. -/
theorem late_line_misattributed :
    ¬ ∀ (t : Conversation) (history : List (Transition Conversation Act (List (Event Line)))),
      conversation.Execution ⟨opened lineConfig, []⟩ history t →
        ∀ e ∈ history, Attributed e.output := by
  intro claim
  let acts : List Act :=
    [.submit (Ts590.ascii ['f', '\n']) 1, .submit (Ts590.ascii ['f', '\n']) 1,
     .take none [Ts590.ascii ['7', '\n']], .tick 1000, .timeout,
     .take none [Ts590.ascii ['8', '\n']], .deliver, .receive]
  have enabled : (conversation.exec ⟨opened lineConfig, []⟩ acts).isSome := by decide
  have answer : ∃ e ∈ ((conversation.exec ⟨opened lineConfig, []⟩ acts).get enabled).1,
      .answered 1 (.ok [⟨0, Ts590.ascii ['7', '\n']⟩]) ∈ e.output := by decide +revert
  have run := conversation.execution_exec _ acts enabled
  obtain ⟨e, mem, answer⟩ := answer
  have own := claim _ _ run e mem 1 _ answer _ List.mem_cons_self
  exact absurd own (by decide)

end CatHub.Radio.Transport
