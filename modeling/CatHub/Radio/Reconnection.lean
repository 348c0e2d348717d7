/-
# CatHub.Radio.Reconnection — how often a lost radio is tried.

When the link to the radio breaks, its supervisor waits, reopens it, and waits again after each attempt that
fails.  The first two waits last `backoffInitial`; from then on they double, up to `backoffMax`.  The results
are those of `Systems.Backoff` for the machine of `Transport`: an outage is never met with more attempts than
the delays leave room for, and once the radio answers again, it is back within the longest of them.
-/
import CatHub.Radio.Transport
import CatHub.Systems.Backoff

namespace CatHub.Radio.Transport

open Systems Retrier

variable {φ : Type}

/-! ## Outages -/

/-- The delays of the supervisor. -/
def Config.delays (config : Config φ) (ordered : config.backoffInitial ≤ config.backoffMax) : Backoff where
  initial := config.backoffInitial
  longest := config.backoffMax
  ordered := ordered

/-- A link that broke is reopened at its `wake`. -/
def outage : Retrier (Link φ) where
  clock := Link.clock
  wake s :=
    match s.phase with
    | .disconnected wake => some wake
    | .running | .shutdown => none

def reopenFailed (e : Transition (Link φ) (Input φ) (List (Event φ))) : Bool :=
  match e.input with
  | .reopen false => true
  | _ => false

/-- What a step does to the phase and to the backoff. -/
inductive Turn (config : Config φ) (s t : Link φ) : Input φ → Prop
  | stays {input : Input φ} : (∀ success, input ≠ .reopen success) → t.phase = s.phase →
      t.backoff = s.backoff → Turn config s t input
  | breaks {input : Input φ} : s.phase = .running → t.phase = .disconnected (s.clock + s.backoff) →
      t.clock = s.clock → t.backoff = s.backoff → Turn config s t input
  | ends {input : Input φ} : s.phase = .running → t.phase = .shutdown → t.backoff = s.backoff →
      Turn config s t input
  | returns {wake : Nat} : s.phase = .disconnected wake → wake ≤ s.clock → t.phase = .running →
      t.clock = s.clock → t.backoff = config.backoffInitial → Turn config s t (.reopen true)
  | fails {wake : Nat} : s.phase = .disconnected wake → wake ≤ s.clock →
      t.phase = .disconnected (s.clock + s.backoff) → t.clock = s.clock →
      t.backoff = min (s.backoff * 2) config.backoffMax → Turn config s t (.reopen false)

section Steps

variable {config : Config φ} {s t : Link φ} {input : Input φ} {o : List (Event φ)} {wake : Nat}

theorem outage_wake : outage.wake s = some wake ↔ s.phase = .disconnected wake := by
  cases phase : s.phase with
  | running | shutdown => simp [outage, phase]
  | disconnected => simp [outage, phase]

/-- A command that is written, and a frame that is looked at, leave phase and backoff alone. -/
theorem await_turn (s : Link φ) (command : RawCommand) :
    (s.await command).1.phase = s.phase ∧ (s.await command).1.backoff = s.backoff := by
  unfold Link.await
  cases command.expect with
  | noReply | reply => exact ⟨rfl, rfl⟩
  | lines n =>
      dsimp only
      split <;> exact ⟨rfl, rfl⟩

theorem offer_turn (config : Config φ) (s : Link φ) (p : Pending φ) (frame : φ) :
    (s.offer config p frame).1.phase = s.phase ∧ (s.offer config p frame).1.backoff = s.backoff := by
  unfold Link.offer
  cases p.matcher with
  | verb | lines =>
      dsimp only
      split <;> exact ⟨rfl, rfl⟩

theorem step_turn (took : (transport config).step s input = some (t, o)) : Turn config s t input := by
  have took : step config s input = some (t, o) := took
  cases input with
  | submit | arrive | hangUp =>
      simp only [step, Option.ite_none_right_eq_some, Option.some.injEq, Prod.mk.injEq] at took
      obtain ⟨-, rfl, -⟩ := took
      exact .stays (by simp) rfl rfl
  | dropSubmitters | tick =>
      cases took
      exact .stays (by simp) rfl rfl
  | take fault =>
      simp only [step, Option.ite_none_right_eq_some] at took
      obtain ⟨⟨running, -⟩, took⟩ := took
      split at took
      · simp only [Option.ite_none_left_eq_some, Option.some.injEq, Prod.mk.injEq] at took
        obtain ⟨-, rfl, -⟩ := took
        exact .ends running rfl rfl
      · rename_i command queue form
        cases fault with
        | some text =>
            cases took
            exact .breaks running rfl rfl rfl
        | none =>
            cases took
            exact .stays (by simp) (await_turn { s with queue } command).1 (await_turn { s with queue } command).2
  | receive =>
      simp only [step, Option.ite_none_right_eq_some] at took
      obtain ⟨running, took⟩ := took
      split at took
      · simp only [Option.ite_none_right_eq_some] at took
        cases took.2
        exact .breaks running rfl rfl rfl
      · rename_i frame inbox form
        split at took
        · cases took
          exact .stays (by simp) rfl rfl
        · rename_i p pending
          have offered := offer_turn config { s with inbox } p frame
          rw [Option.some.inj took] at offered
          exact .stays (by simp) offered.1 offered.2
  | timeout =>
      simp only [step] at took
      split at took
      · simp only [Option.ite_none_right_eq_some, Option.some.injEq, Prod.mk.injEq] at took
        obtain ⟨-, rfl, -⟩ := took
        exact .stays (by simp) rfl rfl
      · cases took
  | reopen success =>
      simp only [step] at took
      split at took
      · rename_i wake broken
        simp only [Option.ite_none_left_eq_some] at took
        obtain ⟨due, took⟩ := took
        cases success with
        | true =>
            cases took
            exact .returns broken (Nat.le_of_not_lt due) rfl rfl rfl
        | false =>
            cases took
            exact .fails broken (Nat.le_of_not_lt due) rfl rfl rfl
      · cases took

/-- What can happen to a broken link that stays so. -/
theorem broken_step (broken : outage.wake s = some wake) (turn : Turn config s t input)
    (later : s.clock ≤ t.clock) (still : (outage.wake t).isSome) :
    outage.Stays s.backoff s t (reopenFailed ⟨s, input, o, t⟩) ∧
      t.backoff = if reopenFailed ⟨s, input, o, t⟩ then min (s.backoff * 2) config.backoffMax
        else s.backoff := by
  have phase := outage_wake.mp broken
  cases turn with
  | stays other same backoff =>
      have waited : reopenFailed ⟨s, input, o, t⟩ = false := by
        cases input with
        | reopen success => exact absurd rfl (other success)
        | _ => rfl
      rw [waited]
      exact ⟨.waits broken (outage_wake.mpr (same.trans phase)) le_rfl later, backoff⟩
  | breaks running | ends running => cases phase.symm.trans running
  | returns _ _ running =>
      obtain ⟨wake', down⟩ := Option.isSome_iff_exists.mp still
      cases running.symm.trans (outage_wake.mp down)
  | fails before due after now backoff =>
      obtain rfl := Phase.disconnected.inj (before.symm.trans phase)
      rw [← now] at after
      exact ⟨.fails broken (due.trans now.ge) (outage_wake.mpr after) later, backoff⟩

/-! ## Runs -/

/-- No wait is longer than the last delay, and a link that is not down waits with the first one when it
breaks. -/
structure Link.Paced (config : Config φ) (s : Link φ) : Prop where
  bounded : s.backoff ≤ config.backoffMax
  fresh : s.phase = .running → s.backoff = config.backoffInitial
  near : ∀ wake, outage.wake s = some wake → wake ≤ s.clock + config.backoffMax

theorem paced_step (ordered : config.backoffInitial ≤ config.backoffMax) (paced : s.Paced config)
    (turn : Turn config s t input) (later : s.clock ≤ t.clock) : t.Paced config := by
  have inLast : s.clock + s.backoff ≤ s.clock + config.backoffMax := Nat.add_le_add_left paced.bounded _
  have whole : ∀ {phase : Phase}, t.phase = phase → (∀ wake, phase ≠ .disconnected wake) →
      ∀ wake, outage.wake t = some wake → wake ≤ t.clock + config.backoffMax := by
    intro phase here up wake down
    exact absurd (here.symm.trans (outage_wake.mp down)) (up wake)
  cases turn with
  | stays _ phase backoff =>
      refine ⟨backoff ▸ paced.bounded, fun up => backoff.trans (paced.fresh (phase.symm.trans up)), ?_⟩
      intro wake down
      have soon := paced.near wake (outage_wake.mpr (phase.symm.trans (outage_wake.mp down)))
      exact soon.trans (Nat.add_le_add_right later _)
  | breaks _ phase clock backoff =>
      refine ⟨backoff ▸ paced.bounded, fun up => absurd (phase.symm.trans up) (by simp), ?_⟩
      intro wake down
      obtain rfl := Phase.disconnected.inj (phase.symm.trans (outage_wake.mp down))
      exact clock ▸ inLast
  | ends _ phase backoff =>
      exact ⟨backoff ▸ paced.bounded, fun up => absurd (phase.symm.trans up) (by simp),
        whole phase (by simp)⟩
  | returns _ _ phase _ backoff =>
      exact ⟨backoff.le.trans ordered, fun _ => backoff, whole phase (by simp)⟩
  | fails _ _ phase clock backoff =>
      refine ⟨backoff.le.trans (min_le_right _ _), fun up => absurd (phase.symm.trans up) (by simp), ?_⟩
      intro wake down
      obtain rfl := Phase.disconnected.inj (phase.symm.trans (outage_wake.mp down))
      exact clock ▸ inLast

end Steps

section Runs

variable {config : Config φ} {s t : Link φ} {past front run : List (Transition (Link φ) (Input φ) (List (Event φ)))}
  {loss attempt : Transition (Link φ) (Input φ) (List (Event φ))} {success : Bool} {wake slack : Nat}

theorem paced_run (ordered : config.backoffInitial ≤ config.backoffMax)
    (run : (transport config).Execution (opened config) past s) : s.Paced config := by
  have start : (opened config).Paced config := ⟨ordered, fun _ => rfl, by simp [outage, opened]⟩
  exact run.invariant (I := fun _ => Link.Paced config) start
    (fun _ _ _ _ _ _ paced step => paced_step ordered paced (step_turn step) (clock_step step))

/-- Throughout an outage the backoff is the delay that the failures so far make due. -/
theorem backoff_due (ordered : config.backoffInitial ≤ config.backoffMax)
    (first : s.backoff = config.backoffInitial) (run : (transport config).Execution s front t)
    (start : (outage.wake s).isSome) (down : ∀ e ∈ front, (outage.wake e.after).isSome) :
    (outage.wake t).isSome ∧ t.backoff = (config.delays ordered).delay (failures reopenFailed front) := by
  refine run.guarded (G := fun e => (outage.wake e.after).isSome)
    (I := fun front t => (outage.wake t).isSome ∧
      t.backoff = (config.delays ordered).delay (failures reopenFailed front)) ⟨start, first⟩ ?_ down
  intro front s input o t _ ⟨broken, due⟩ step still
  obtain ⟨wake, broken⟩ := Option.isSome_iff_exists.mp broken
  have after := (broken_step (o := o) broken (step_turn step) (clock_step step) still).2
  refine ⟨still, after.trans ?_⟩
  cases failed : reopenFailed ⟨s, input, o, t⟩ with
  | false => simp [failed, due]
  | true => simp [failed, due, Backoff.delay, Config.delays]

/-- **A radio that is gone is not pestered.**  Whatever is submitted meanwhile, the attempt of an outage that
follows its `n`th failure comes no sooner than the first delay and the delays after each of these failures
together. -/
theorem reopen_paced (ordered : config.backoffInitial ≤ config.backoffMax)
    (past : (transport config).Execution (opened config) past s) (up : s.phase = .running)
    (run : (transport config).Execution s (loss :: front ++ [attempt]) t)
    (down : ∀ e ∈ loss :: front, (outage.wake e.after).isSome) (tried : attempt.input = .reopen success) :
    loss.after.clock + config.backoffInitial +
        ∑ i ∈ Finset.range (failures reopenFailed front), (config.delays ordered).delay i
      ≤ attempt.after.clock := by
  obtain ⟨-, broke, run⟩ := Machine.Execution.uncons run
  obtain ⟨run, last, -⟩ := run.last
  have broken : ∀ e ∈ front, (outage.wake e.after).isSome := fun e mem => down e (List.mem_cons_of_mem _ mem)
  have lost := down loss (by simp)
  obtain ⟨here, first⟩ : outage.wake loss.after = some (loss.after.clock + config.backoffInitial) ∧
      loss.after.backoff = config.backoffInitial := by
    have fresh := (paced_run ordered past).fresh up
    obtain ⟨wake, gone⟩ := Option.isSome_iff_exists.mp lost
    have turn := step_turn broke
    generalize loss.input = input at turn
    cases turn with
    | stays _ phase => cases (phase.trans up).symm.trans (outage_wake.mp gone)
    | breaks _ phase clock backoff =>
        rw [← clock, fresh] at phase
        exact ⟨outage_wake.mpr phase, backoff.trans fresh⟩
    | ends _ phase => cases phase.symm.trans (outage_wake.mp gone)
    | returns before | fails before => cases up.symm.trans before
  obtain ⟨wake, due, spaced⟩ := outage.failures_spaced reopenFailed (config.delays ordered).delay run here (by
    intro earlier e later whole
    rw [whole] at run
    have before := backoff_due ordered first run.before lost
      (fun e mem => broken e (whole ▸ List.mem_append_left _ mem))
    obtain ⟨wake, down⟩ := Option.isSome_iff_exists.mp before.1
    have step := run.step_of_mem e (by simp)
    have stays := (broken_step (o := e.output) down (step_turn step) (clock_step step)
      (broken e (by simp [whole]))).1
    rwa [before.2] at stays)
  have attempted := step_turn last
  rw [tried] at attempted
  refine spaced.trans ?_
  cases attempted with
  | stays other => exact absurd rfl (other success)
  | breaks running | ends running => cases running.symm.trans (outage_wake.mp due)
  | returns before passed _ clock | fails before passed _ clock =>
      obtain rfl := Phase.disconnected.inj (before.symm.trans (outage_wake.mp due))
      exact passed.trans clock.ge

private def serial : Config (List UInt8) := { bytes := id }

/-- The stream ends; the radio is tried at 500 and at 1000, and answers again at 2000. -/
private def powerCycle : List (Transition (Link (List UInt8)) (Input (List UInt8)) (List (Event (List UInt8)))) :=
  (((transport serial).exec { opened serial with hungUp := true }
    [.receive, .tick 500, .reopen false, .tick 500, .reopen false, .tick 1000, .reopen true]).get (by decide)).1

theorem reopen_paced_power_cycle :
    let loss := powerCycle.head (by decide)
    let front := powerCycle.tail.dropLast
    let attempt := powerCycle.getLast (by decide)
    failures reopenFailed front = 2 ∧ attempt.after.clock = 2000 ∧
      loss.after.clock + serial.backoffInitial +
          ∑ i ∈ Finset.range (failures reopenFailed front), (serial.delays (by decide)).delay i
        ≤ attempt.after.clock := by
  intro loss front attempt
  have past := (transport serial).execution_exec (opened serial) [.hangUp] (by decide)
  have run := (transport serial).execution_exec { opened serial with hungUp := true }
    [.receive, .tick 500, .reopen false, .tick 500, .reopen false, .tick 1000, .reopen true] (by decide)
  have run : (transport serial).Execution { opened serial with hungUp := true } (loss :: front ++ [attempt])
      attempt.after := run
  exact ⟨by decide, by decide, reopen_paced (by decide) past rfl run (by decide) rfl⟩

end Runs

end CatHub.Radio.Transport
