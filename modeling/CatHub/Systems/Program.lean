/-
# CatHub.Systems.Program — programs that ask their surroundings, one question at a time.

A `Program` ends with a result or asks a question and goes on with the answer.  It says nothing about
where the answers come from, so one text serves several readings:

* `Asks P`: whatever the answers are, every question of the program satisfies `P`;
* `Draws P carries Q items`: so it is, the result satisfies `Q`, and what the questions carry is taken from
  the items, one after another;
* `Meets P A Q`: as long as the answers are in `A`, the questions are in `P` and the result is in `Q`;
* `Run R`: the program goes through a list of exchanges, each of them a step of a world as `R` has it.
  Between two exchanges the world may be changed by others in any way;
* `Visits R`: the program may be stopped between two exchanges.  `Secures` states where it may then
  stand;
* `exec`: a world that nobody else changes answers every question.  `Triple` states what such a run
  of a program that may fail ends with.

`Matching` relates two programs that cannot be told apart as long as their answers are related.
-/
import Mathlib.Data.List.Basic

namespace CatHub.Systems

variable {ι : Type} {ω : ι → Type} {α β σ : Type}

/-! ## Programs -/

/-- A program that asks questions `ι`, where the question `q` has an answer in `ω q`. -/
inductive Program (ι : Type) (ω : ι → Type) (α : Type) where
  | done (result : α)
  | ask (question : ι) (next : ω question → Program ι ω α)

namespace Program

def bind : Program ι ω α → (α → Program ι ω β) → Program ι ω β
  | .done a, f => f a
  | .ask q next, f => .ask q (fun answer => (next answer).bind f)

instance : Monad (Program ι ω) where
  pure := .done
  bind := bind

/-- Ask a question and return the answer. -/
def perform (question : ι) : Program ι ω (ω question) := .ask question .done

@[simp] theorem pure_eq (a : α) : (pure a : Program ι ω α) = .done a := rfl

@[simp] theorem done_bind (a : α) (f : α → Program ι ω β) : Program.done a >>= f = f a := rfl

@[simp] theorem ask_bind (q : ι) (next : ω q → Program ι ω α) (f : α → Program ι ω β) :
    Program.ask q next >>= f = .ask q (fun answer => next answer >>= f) := rfl

@[simp] theorem perform_bind (q : ι) (f : ω q → Program ι ω β) : perform q >>= f = .ask q f := rfl

theorem bind_assoc {γ : Type} (program : Program ι ω α) (f : α → Program ι ω β)
    (g : β → Program ι ω γ) : program >>= f >>= g = program >>= fun a => f a >>= g := by
  induction program with
  | done a => rfl
  | ask q next ih => exact congrArg (Program.ask q) (funext ih)

@[simp] theorem bind_done (program : Program ι ω α) : program >>= .done = program := by
  induction program with
  | done a => rfl
  | ask q next ih => exact congrArg (Program.ask q) (funext ih)

/-! ## What a program asks -/

/-- Every question that the program may come to ask satisfies `P`. -/
def Asks (P : ι → Prop) : Program ι ω α → Prop
  | .done _ => True
  | .ask q next => P q ∧ ∀ answer, (next answer).Asks P

variable {P : ι → Prop}

@[simp] theorem asks_done (a : α) : (Program.done a : Program ι ω α).Asks P := trivial

@[simp] theorem asks_ask {q : ι} {next : ω q → Program ι ω α} :
    (Program.ask q next).Asks P ↔ P q ∧ ∀ answer, (next answer).Asks P := Iff.rfl

@[simp] theorem asks_perform {q : ι} : (perform q : Program ι ω (ω q)).Asks P ↔ P q :=
  ⟨And.left, fun ok => ⟨ok, fun _ => trivial⟩⟩

theorem Asks.bind {program : Program ι ω α} {f : α → Program ι ω β} (first : program.Asks P)
    (rest : ∀ a, (f a).Asks P) : (program >>= f).Asks P := by
  induction program with
  | done a => exact rest a
  | ask q next ih => exact ⟨first.1, fun answer => ih answer (first.2 answer)⟩

theorem Asks.mono {Q : ι → Prop} {program : Program ι ω α} (asks : program.Asks P)
    (weaker : ∀ q, P q → Q q) : program.Asks Q := by
  induction program with
  | done a => trivial
  | ask q next ih => exact ⟨weaker q asks.1, fun answer => ih answer (asks.2 answer)⟩

/-- A program that may fail ends with its error where a part of it does. -/
theorem Asks.bindExcept {ε : Type} {program : ExceptT ε (Program ι ω) α}
    {f : α → ExceptT ε (Program ι ω) β} (first : program.run.Asks P)
    (rest : ∀ a, (f a).run.Asks P) : (program >>= f).run.Asks P := by
  rw [ExceptT.run_bind]
  apply first.bind
  rintro (error | a)
  · exact trivial
  · exact rest a

theorem Asks.forMExcept {ε γ : Type} {f : γ → ExceptT ε (Program ι ω) PUnit} {items : List γ}
    (each : ∀ item ∈ items, (f item).run.Asks P) : (items.forM f).run.Asks P := by
  induction items with
  | nil => exact trivial
  | cons item items ih =>
      obtain ⟨here, later⟩ := List.forall_mem_cons.mp each
      exact Asks.bindExcept here (fun _ => ih later)

/-! ## What a program passes on -/

/-- Every question of the program satisfies `P` and its result `Q`, and what a question carries is one of
the items, behind all that were carried before it. -/
def Draws {γ : Type} (P : ι → Prop) (carries : ι → Option γ) (Q : α → Prop) :
    Program ι ω α → List γ → Prop
  | .done a, _ => Q a
  | .ask q next, items => P q ∧ ∃ rest, (carries q).toList ++ rest <:+ items ∧
      ∀ answer, (next answer).Draws P carries Q rest

section Draws
variable {γ : Type} {carries : ι → Option γ} {Q : α → Prop} {K : β → Prop} {items more : List γ}

theorem Draws.mono {program : Program ι ω α} (draws : program.Draws P carries Q items)
    (within : items <:+ more) : program.Draws P carries Q more := by
  cases program with
  | done a => exact draws
  | ask q next =>
      obtain ⟨ok, rest, taken, later⟩ := draws
      exact ⟨ok, rest, taken.trans within, later⟩

theorem Draws.bind {program : Program ι ω α} {f : α → Program ι ω β}
    (first : program.Draws P carries Q items) (rest : ∀ a, Q a → (f a).Draws P carries K more) :
    (program >>= f).Draws P carries K (items ++ more) := by
  induction program generalizing items with
  | done a => exact (rest a first).mono (List.suffix_append _ _)
  | ask q next ih =>
      obtain ⟨ok, left, ⟨skipped, taken⟩, later⟩ := first
      refine ⟨ok, left ++ more, ⟨skipped, ?_⟩, fun answer => ih answer (later answer)⟩
      rw [← taken, List.append_assoc, List.append_assoc]

end Draws

/-! ## What a program promises -/

/-- As long as every answer is as `A` has it, every question of the program satisfies `P`, and its
result `Q`. -/
def Meets (P : ι → Prop) (A : (q : ι) → ω q → Prop) (Q : α → Prop) : Program ι ω α → Prop
  | .done a => Q a
  | .ask q next => P q ∧ ∀ answer, A q answer → (next answer).Meets P A Q

section Meets
variable {A : (q : ι) → ω q → Prop} {Q : α → Prop} {K : β → Prop} {ε : Type}

theorem Asks.meets {program : Program ι ω α} (asks : program.Asks P) (ends : ∀ a, Q a) :
    program.Meets P A Q := by
  induction program with
  | done a => exact ends a
  | ask q next ih => exact ⟨asks.1, fun answer _ => ih answer (asks.2 answer)⟩

theorem Meets.bind {program : Program ι ω α} {f : α → Program ι ω β} (first : program.Meets P A Q)
    (rest : ∀ a, Q a → (f a).Meets P A K) : (program >>= f).Meets P A K := by
  induction program with
  | done a => exact rest a first
  | ask q next ih => exact ⟨first.1, fun answer told => ih answer (first.2 answer told)⟩

/-- A program that may fail promises nothing about its errors. -/
def MeetsOk (P : ι → Prop) (A : (q : ι) → ω q → Prop) (Q : α → Prop)
    (program : ExceptT ε (Program ι ω) α) : Prop :=
  program.run.Meets P A (fun result => ∀ a, result = .ok a → Q a)

theorem MeetsOk.pure {a : α} (ends : Q a) :
    MeetsOk P A Q (pure a : ExceptT ε (Program ι ω) α) := fun _ same => Except.ok.inj same ▸ ends

theorem MeetsOk.bind {program : ExceptT ε (Program ι ω) α} {f : α → ExceptT ε (Program ι ω) β}
    (first : MeetsOk P A Q program) (rest : ∀ a, Q a → MeetsOk P A K (f a)) :
    MeetsOk P A K (program >>= f) := by
  unfold MeetsOk
  rw [ExceptT.run_bind]
  apply Meets.bind first
  rintro (error | a) ends
  · intro b absurd
    cases absurd
  · exact rest a (ends a rfl)

theorem MeetsOk.forM {γ : Type} {f : γ → ExceptT ε (Program ι ω) PUnit} {items : List γ}
    (each : ∀ item ∈ items, MeetsOk P A (fun _ => True) (f item)) :
    MeetsOk P A (fun _ => True) (items.forM f) := by
  induction items with
  | nil => exact .pure trivial
  | cons item items ih =>
      obtain ⟨here, later⟩ := List.forall_mem_cons.mp each
      exact .bind here (fun _ _ => ih later)

end Meets

/-! ## Runs among others -/

/-- One question with its answer, and the world before and after it. -/
structure Exchange (ι : Type) (ω : ι → Type) (σ : Type) where
  before : σ
  question : ι
  answer : ω question
  after : σ

/-- The program goes through the exchanges of `trace` and ends with a result.  What others do to the
world between two exchanges is not restricted. -/
inductive Run (R : σ → (q : ι) → ω q → σ → Prop) :
    Program ι ω α → List (Exchange ι ω σ) → α → Prop
  | done (a : α) : Run R (.done a) [] a
  | ask {q : ι} {next : ω q → Program ι ω α} {before after : σ} {answer : ω q}
      {trace : List (Exchange ι ω σ)} {a : α} :
      R before q answer after → Run R (next answer) trace a →
      Run R (.ask q next) (⟨before, q, answer, after⟩ :: trace) a

variable {R : σ → (q : ι) → ω q → σ → Prop}

theorem run_done {a b : α} {trace : List (Exchange ι ω σ)} (run : Run R (.done a) trace b) :
    trace = [] ∧ b = a := by
  cases run
  exact ⟨rfl, rfl⟩

theorem run_ask {q : ι} {next : ω q → Program ι ω α} {trace : List (Exchange ι ω σ)} {a : α}
    (run : Run R (.ask q next) trace a) :
    ∃ before answer after rest, R before q answer after ∧ Run R (next answer) rest a ∧
      trace = ⟨before, q, answer, after⟩ :: rest := by
  cases run with
  | ask step rest => exact ⟨_, _, _, _, step, rest, rfl⟩

theorem run_bind {program : Program ι ω α} {f : α → Program ι ω β}
    {trace : List (Exchange ι ω σ)} {b : β} (run : Run R (program >>= f) trace b) :
    ∃ first a rest, Run R program first a ∧ Run R (f a) rest b ∧ trace = first ++ rest := by
  induction program generalizing trace with
  | done a => exact ⟨[], a, trace, .done a, run, rfl⟩
  | ask q next ih =>
      obtain ⟨before, answer, after, later, step, goesOn, rfl⟩ := run_ask run
      obtain ⟨first, a, rest, here, there, rfl⟩ := ih answer goesOn
      exact ⟨_, a, rest, .ask step here, there, rfl⟩

/-- What a program promises whatever it is told, every run of it ends with. -/
theorem Meets.ends {Q : α → Prop} {program : Program ι ω α} {trace : List (Exchange ι ω σ)} {a : α}
    (meets : program.Meets P (fun _ _ => True) Q) (run : Run R program trace a) : Q a := by
  induction run with
  | done a => exact meets
  | ask step _ ih => exact ih (meets.2 _ trivial)

/-- What a program asks, every run of it asks. -/
theorem Run.asked {program : Program ι ω α} {trace : List (Exchange ι ω σ)} {a : α}
    (run : Run R program trace a) (asks : program.Asks P) : ∀ e ∈ trace, P e.question := by
  induction run with
  | done a => simp
  | ask step _ ih =>
      rw [List.forall_mem_cons]
      exact ⟨asks.1, ih (asks.2 _)⟩

/-! ## Two programs -/

/-- The programs ask the same questions, all of them in `P`, and end with the same result as long as
the answers they get are related. -/
inductive Matching (P : ι → Prop) (T : (q : ι) → ω q → ω q → Prop) :
    Program ι ω α → Program ι ω α → Prop
  | done (a : α) : Matching P T (.done a) (.done a)
  | ask {q : ι} {next₁ next₂ : ω q → Program ι ω α} : P q →
      (∀ answer₁ answer₂, T q answer₁ answer₂ → Matching P T (next₁ answer₁) (next₂ answer₂)) →
      Matching P T (.ask q next₁) (.ask q next₂)

section
variable {T : (q : ι) → ω q → ω q → Prop} {program₁ program₂ : Program ι ω α}

theorem Matching.bind {f₁ f₂ : α → Program ι ω β} (first : Matching P T program₁ program₂)
    (rest : ∀ a, Matching P T (f₁ a) (f₂ a)) :
    Matching P T (program₁ >>= f₁) (program₂ >>= f₂) := by
  induction first with
  | done a => exact rest a
  | ask ok _ ih => exact .ask ok ih

theorem Matching.asks (programs : Matching P T program₁ program₂)
    (same : ∀ q answer, T q answer answer) : program₁.Asks P := by
  induction programs with
  | done a => trivial
  | ask ok _ ih => exact ⟨ok, fun answer => ih answer answer (same _ answer)⟩

/-- Where related worlds give related answers, runs through related worlds end alike. -/
theorem Matching.run (W : σ → σ → Prop) (programs : Matching P T program₁ program₂)
    (answers : ∀ {q before₁ before₂ answer₁ answer₂ after₁ after₂}, P q → W before₁ before₂ →
      R before₁ q answer₁ after₁ → R before₂ q answer₂ after₂ → T q answer₁ answer₂)
    {trace₁ trace₂ : List (Exchange ι ω σ)} {a₁ a₂ : α} (run₁ : Run R program₁ trace₁ a₁)
    (run₂ : Run R program₂ trace₂ a₂)
    (worlds : ∀ e₁ ∈ trace₁, ∀ e₂ ∈ trace₂, W e₁.before e₂.before) : a₁ = a₂ := by
  induction programs generalizing trace₁ trace₂ with
  | done a => rw [(run_done run₁).2, (run_done run₂).2]
  | ask ok _ ih =>
      obtain ⟨before₁, answer₁, after₁, rest₁, step₁, goesOn₁, rfl⟩ := run_ask run₁
      obtain ⟨before₂, answer₂, after₂, rest₂, step₂, goesOn₂, rfl⟩ := run_ask run₂
      have here := worlds _ List.mem_cons_self _ List.mem_cons_self
      refine ih answer₁ answer₂ (answers ok here step₁ step₂) goesOn₁ goesOn₂ ?_
      exact fun e₁ mem₁ e₂ mem₂ => worlds e₁ (.tail _ mem₁) e₂ (.tail _ mem₂)

end

/-! ## Runs that may stop -/

/-- From `s` the program can come to stand in the world `t`: after any number of its exchanges, and
with nobody else at work. -/
inductive Visits (R : σ → (q : ι) → ω q → σ → Prop) : Program ι ω α → σ → σ → Prop
  | now (program : Program ι ω α) (s : σ) : Visits R program s s
  | later {q : ι} {next : ω q → Program ι ω α} {s t u : σ} {answer : ω q} :
      R s q answer t → Visits R (next answer) t u → Visits R (.ask q next) s u

theorem Visits.bind {program : Program ι ω α} {s t : σ} (visits : Visits R program s t)
    (f : α → Program ι ω β) : Visits R (program >>= f) s t := by
  induction visits with
  | now program s => exact .now _ s
  | later step _ ih => exact .later step ih

/-- Wherever the program stops it is in `S`, and where it ends it is in `Q`. -/
def Secures (R : σ → (q : ι) → ω q → σ → Prop) (S : σ → Prop) (Q : α → σ → Prop) :
    Program ι ω α → σ → Prop
  | .done a, s => S s ∧ Q a s
  | .ask q next, s => S s ∧ ∀ answer t, R s q answer t → Secures R S Q (next answer) t

section Secures
variable {S : σ → Prop} {Q : α → σ → Prop} {s t : σ}

theorem Secures.here {program : Program ι ω α} (secures : program.Secures R S Q s) : S s := by
  cases program with
  | done a => exact secures.1
  | ask q next => exact secures.1

theorem Secures.visits {program : Program ι ω α} (secures : program.Secures R S Q s)
    (visits : Visits R program s t) : S t := by
  induction visits with
  | now program s => exact secures.here
  | later step _ ih => exact ih (secures.2 _ _ step)

variable {ε : Type} {P : α → σ → Prop}

/-- A program that may fail, and that has nothing more to do where it does: wherever it stops it is in
`S`, and its results are in `P`. -/
def SecuresOk (R : σ → (q : ι) → ω q → σ → Prop) (S : σ → Prop) (P : α → σ → Prop)
    (program : ExceptT ε (Program ι ω) α) (s : σ) : Prop :=
  program.run.Secures R S (fun result t => ∀ a, result = .ok a → P a t) s

theorem SecuresOk.pure {a : α} (here : S s) (ends : P a s) :
    SecuresOk R S P (pure a : ExceptT ε (Program ι ω) α) s :=
  ⟨here, fun _ same => Except.ok.inj same ▸ ends⟩

theorem SecuresOk.throw {e : ε} (here : S s) :
    SecuresOk R S P (throw e : ExceptT ε (Program ι ω) α) s :=
  ⟨here, fun _ same => by cases same⟩

theorem SecuresOk.perform {q : ι} {P : ω q → σ → Prop} (here : S s)
    (next : ∀ answer t, R s q answer t → S t ∧ P answer t) :
    SecuresOk R S P (ExceptT.lift (Program.perform q) : ExceptT ε (Program ι ω) (ω q)) s :=
  ⟨here, fun answer t step => ⟨(next answer t step).1, fun _ same =>
    Except.ok.inj same ▸ (next answer t step).2⟩⟩

theorem SecuresOk.bind {program : ExceptT ε (Program ι ω) α} {f : α → ExceptT ε (Program ι ω) β}
    {P : β → σ → Prop} (first : SecuresOk R S (fun a t => SecuresOk R S P (f a) t) program s) :
    SecuresOk R S P (program >>= f) s := by
  unfold SecuresOk at first ⊢
  rw [ExceptT.run_bind]
  generalize program.run = steps at first ⊢
  induction steps generalizing s with
  | done result =>
      cases result with
      | error e => exact ⟨first.1, fun _ same => by cases same⟩
      | ok a => exact first.2 a rfl
  | ask q next ih => exact ⟨first.1, fun answer t step => ih answer (first.2 answer t step)⟩

end Secures

/-! ## Runs alone -/

/-- Run the program in a world that nobody else changes. -/
def exec (answer : (q : ι) → σ → ω q × σ) : Program ι ω α → σ → α × σ
  | .done a, s => (a, s)
  | .ask q next, s => (next (answer q s).1).exec answer (answer q s).2

variable (answer : (q : ι) → σ → ω q × σ)

@[simp] theorem exec_done (a : α) (s : σ) : (Program.done a : Program ι ω α).exec answer s = (a, s) :=
  rfl

@[simp] theorem exec_ask (q : ι) (next : ω q → Program ι ω α) (s : σ) :
    (Program.ask q next).exec answer s = (next (answer q s).1).exec answer (answer q s).2 := rfl

@[simp] theorem exec_bind (program : Program ι ω α) (f : α → Program ι ω β) (s : σ) :
    (program >>= f).exec answer s =
      (f (program.exec answer s).1).exec answer (program.exec answer s).2 := by
  induction program generalizing s with
  | done a => rfl
  | ask q next ih => exact ih (answer q s).1 (answer q s).2

/-- Where only the questions matter that a program asks, it runs alike. -/
theorem Asks.exec_congr {P : ι → Prop} {answer' : (q : ι) → σ → ω q × σ} {program : Program ι ω α}
    (asks : program.Asks P) (alike : ∀ q, P q → ∀ s, answer q s = answer' q s) (s : σ) :
    program.exec answer s = program.exec answer' s := by
  induction program generalizing s with
  | done a => rfl
  | ask q next ih =>
      obtain ⟨here, later⟩ := asks
      rw [exec_ask, exec_ask, alike q here]
      exact ih _ (later _) _

/-- A run keeps what the answers to its questions keep. -/
theorem Asks.exec_keeps {P : ι → Prop} {I : σ → Prop} {program : Program ι ω α} (asks : program.Asks P)
    (keeps : ∀ q, P q → ∀ s, I s → I (answer q s).2) {s : σ} (start : I s) :
    I (program.exec answer s).2 := by
  induction program generalizing s with
  | done a => exact start
  | ask q next ih => exact ih _ (asks.2 _) (keeps q asks.1 s start)

/-- What a program promises holds of its run in a world that answers as it must. -/
theorem Meets.exec {A : (q : ι) → ω q → Prop} {Q : α → Prop} {program : Program ι ω α}
    (meets : program.Meets P A Q) (answers : ∀ q s, A q (answer q s).1) (s : σ) :
    Q (program.exec answer s).1 := by
  induction program generalizing s with
  | done a => exact meets
  | ask q next ih => exact ih _ (meets.2 _ (answers q s)) _

/-- The run alone is a run among others who do nothing. -/
theorem exists_run {R : σ → (q : ι) → ω q → σ → Prop}
    (answers : ∀ q s, R s q (answer q s).1 (answer q s).2) (program : Program ι ω α) (s : σ) :
    ∃ trace, Run R program trace (program.exec answer s).1 := by
  induction program generalizing s with
  | done a => exact ⟨[], .done a⟩
  | ask q next ih =>
      obtain ⟨trace, run⟩ := ih (answer q s).1 (answer q s).2
      exact ⟨_, .ask (answers q s) run⟩

/-! ## Triples -/

section Triples
variable {ε : Type} {answer} {I : σ → Prop} {J : α → σ → Prop} {K : β → σ → Prop} {E : σ → Prop}

/-- From every world in `I` the program, alone, ends with a result in `J` or with an error in `E`. -/
def Triple (answer : (q : ι) → σ → ω q × σ) (I : σ → Prop) (program : ExceptT ε (Program ι ω) α)
    (J : α → σ → Prop) (E : σ → Prop) : Prop :=
  ∀ s, I s → match program.run.exec answer s with
    | (.ok a, t) => J a t
    | (.error _, t) => E t

theorem Triple.pure {a : α} (h : ∀ s, I s → J a s) :
    Triple answer I (pure a : ExceptT ε (Program ι ω) α) J E := h

theorem Triple.bind {program : ExceptT ε (Program ι ω) α} {f : α → ExceptT ε (Program ι ω) β}
    (first : Triple answer I program J E) (rest : ∀ a, Triple answer (J a) (f a) K E) :
    Triple answer I (program >>= f) K E := by
  intro s start
  have here := first s start
  rw [ExceptT.run_bind, exec_bind]
  generalize program.run.exec answer s = stop at here ⊢
  obtain ⟨error | a, t⟩ := stop
  · exact here
  · exact rest a t here

/-- A stronger start and weaker ends. -/
theorem Triple.mono {program : ExceptT ε (Program ι ω) α} {I' : σ → Prop} {J' : α → σ → Prop}
    {E' : σ → Prop} (triple : Triple answer I program J E) (start : ∀ s, I' s → I s)
    (result : ∀ a s, J a s → J' a s) (error : ∀ s, E s → E' s) :
    Triple answer I' program J' E' := by
  intro s here
  have there := triple s (start s here)
  generalize program.run.exec answer s = stop at there ⊢
  obtain ⟨e | a, t⟩ := stop
  · exact error t there
  · exact result a t there

/-- A fact about nothing but the past is at hand from the start. -/
theorem Triple.given {program : ExceptT ε (Program ι ω) α} {fact : Prop}
    (triple : fact → Triple answer I program J E) :
    Triple answer (fun s => fact ∧ I s) program J E :=
  fun s start => triple start.1 s start.2

theorem Triple.ok {program : ExceptT ε (Program ι ω) α} {s t : σ} {a : α}
    (triple : Triple answer I program J E) (start : I s)
    (ends : program.run.exec answer s = (.ok a, t)) : J a t := by
  have there := triple s start
  rwa [ends] at there

end Triples

end Program

end CatHub.Systems
