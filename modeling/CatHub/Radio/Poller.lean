/-
# CatHub.Radio.Poller — how often the hub polls.

The poller waits for the reply to a poll and then sleeps: for the heartbeat interval where the radio is known
to report the operating frequency by itself, else for the baseline one.  What the radio reports by itself is
kept as a set of fields that only grows.

`backs_off_iff` says when a sleep is a long one, in terms of what was recorded before it; `polls_spaced` that
polls are never closer than the shorter interval, whatever is recorded meanwhile; and `polls_recur` how old the
last reply can be.
-/
import CatHub.Radio.State
import CatHub.Systems.Backoff

namespace CatHub.Radio

open Systems

/-! ## Coverage -/

/-- A field that the radio may report by itself. -/
inductive Field where
  | rxVfo
  | freq (vfo : Vfo)
  | mode (vfo : Vfo)
  | split
  | ptt
  | rit
  | xit
  | sMeter
  | power
  deriving DecidableEq, Repr

/-- The DATA flag shares the key of the mode. -/
def StateChange.field : StateChange → Field
  | .rxVfo _ => .rxVfo
  | .freq vfo _ => .freq vfo
  | .mode vfo _ => .mode vfo
  | .dataMode vfo _ => .mode vfo
  | .split _ _ => .split
  | .ptt _ => .ptt
  | .rit _ _ => .rit
  | .xit _ _ => .xit
  | .txPower _ => .power

/-- The state with the fields that the radio has reported by itself. -/
structure CoveredState where
  handle : StateHandle := {}
  covered : List Field := []
  deriving DecidableEq, Repr

namespace CoveredState

def record (s : CoveredState) (change : StateChange) (source : RadioEventSource) : CoveredState where
  handle := s.handle.record change source
  covered := if source = .nativePush then s.covered.insert change.field else s.covered

def isNativePushCovered (s : CoveredState) (field : Field) : Bool := s.covered.contains field

/-- A field is covered once it was reported; nothing uncovers it. -/
theorem mem_record {s : CoveredState} {change : StateChange} {source : RadioEventSource} {field : Field} :
    field ∈ (s.record change source).covered ↔
      field ∈ s.covered ∨ (source = .nativePush ∧ change.field = field) := by
  unfold record
  split
  · next pushed => simp [pushed, or_comm, eq_comm]
  · next other => simp [other]

end CoveredState

/-! ## The poller -/

def nextInterval (state : CoveredState) (nativePushActive : Bool) (baseline heartbeat : Nat) : Nat :=
  let active := state.handle.snapshot.rxVfo
  if nativePushActive && state.isNativePushCovered (.freq active) then heartbeat else baseline

/-- The poller beside everybody who records. -/
structure Poller where
  state : CoveredState := {}
  clock : Nat := 0
  /-- Until when it sleeps; `none` while a poll is out. -/
  sleep : Option Nat := none
  deriving DecidableEq, Repr

inductive PollerInput where
  | pass (elapsed : Nat)
  | record (change : StateChange) (source : RadioEventSource)
  /-- The scheduler replies to the poll, or gives it up. -/
  | replied
  /-- The poller submits the next poll. -/
  | submit
  deriving DecidableEq, Repr

/-- A step shows the interval for which the poller goes to sleep. -/
def poller (nativePushActive : Bool) (baseline heartbeat : Nat) :
    Machine Poller PollerInput (Option Nat) where
  step p
  | .pass elapsed => some ({ p with clock := p.clock + elapsed }, none)
  | .record change source => some ({ p with state := p.state.record change source }, none)
  | .replied =>
      match p.sleep with
      | none =>
          let interval := nextInterval p.state nativePushActive baseline heartbeat
          some ({ p with sleep := some (p.clock + interval) }, some interval)
      | some _ => none
  | .submit =>
      match p.sleep with
      | none => none
      | some wake => if wake ≤ p.clock then some ({ p with sleep := none }, none) else none

abbrev PollerStep := Transition Poller PollerInput (Option Nat)

/-- What a step does. -/
inductive PollerEffect (nativePushActive : Bool) (baseline heartbeat : Nat) (p : Poller) :
    PollerInput → Option Nat → Poller → Prop
  | pass (elapsed : Nat) : PollerEffect nativePushActive baseline heartbeat p (.pass elapsed) none
      { p with clock := p.clock + elapsed }
  | record (change : StateChange) (source : RadioEventSource) :
      PollerEffect nativePushActive baseline heartbeat p (.record change source) none
        { p with state := p.state.record change source }
  | replied (interval : Nat) : p.sleep = none →
      interval = nextInterval p.state nativePushActive baseline heartbeat →
      PollerEffect nativePushActive baseline heartbeat p .replied (some interval)
        { p with sleep := some (p.clock + interval) }
  | submit (wake : Nat) : p.sleep = some wake → wake ≤ p.clock →
      PollerEffect nativePushActive baseline heartbeat p .submit none { p with sleep := none }

section Runs

variable {nativePushActive : Bool} {baseline heartbeat : Nat} {s t : Poller} {input : PollerInput}
  {o : Option Nat} {history : List PollerStep}

theorem poller_effect (step : (poller nativePushActive baseline heartbeat).step s input = some (t, o)) :
    PollerEffect nativePushActive baseline heartbeat s input o t := by
  cases input with
  | pass elapsed =>
      cases step
      exact .pass elapsed
  | record change source =>
      cases step
      exact .record change source
  | replied =>
      simp only [poller] at step
      split at step
      · next out =>
          cases step
          exact .replied _ out rfl
      · cases step
  | submit =>
      simp only [poller] at step
      split at step
      · cases step
      · next wake asleep =>
          split at step
          · next due =>
              cases step
              exact .submit wake asleep due
          · cases step

/-! ### When it backs off -/

/-- The radio has reported the field by itself. -/
def pushed (history : List PollerStep) (field : Field) : Bool :=
  history.any fun e =>
    match e.input with
    | .record change .nativePush => change.field = field
    | _ => false

theorem pushed_concat (history : List PollerStep) (e : PollerStep) (field : Field) :
    pushed (history ++ [e]) field = (pushed history field || pushed [e] field) := by
  simp [pushed]

/-- What is covered was covered before or is pushed now. -/
theorem covered_step (step : (poller nativePushActive baseline heartbeat).step s input = some (t, o))
    (field : Field) :
    field ∈ t.state.covered ↔ field ∈ s.state.covered ∨ pushed [⟨s, input, o, t⟩] field = true := by
  cases poller_effect step with
  | record change source =>
      rw [CoveredState.mem_record]
      cases source <;> simp [pushed]
  | pass | replied | submit => simp [pushed]

/-- After a run, the covered fields are those that the radio has reported by itself. -/
theorem covered_run (run : (poller nativePushActive baseline heartbeat).Execution s history t)
    (field : Field) :
    field ∈ t.state.covered ↔ field ∈ s.state.covered ∨ pushed history field = true := by
  refine run.invariant (I := fun history t =>
    field ∈ t.state.covered ↔ field ∈ s.state.covered ∨ pushed history field = true) ?_ ?_
  · simp [pushed]
  · intro history u input o v _ known step
    rw [covered_step step field, known, pushed_concat, Bool.or_eq_true, or_assoc]

/-- The step that puts the poller to sleep. -/
theorem interval_step {interval : Nat}
    (step : (poller nativePushActive baseline heartbeat).step s input = some (t, some interval)) :
    interval = nextInterval s.state nativePushActive baseline heartbeat ∧
      t = { s with sleep := some (s.clock + interval) } := by
  cases poller_effect step with
  | replied _ _ chosen => exact ⟨chosen, rfl⟩

/-- **Backing off.**  In every run from a state with no field covered, the poller sleeps for the heartbeat
interval if native push is on and the radio has reported by itself the frequency of the VFO that is operating
when the poll is over; else for the baseline one. -/
theorem backs_off_iff (run : (poller nativePushActive baseline heartbeat).Execution s history t)
    (unknown : s.state.covered = []) {front back : List PollerStep} {e : PollerStep} {interval : Nat}
    (whole : history = front ++ e :: back) (sleeps : e.output = some interval) :
    e.after.sleep = some (e.before.clock + interval) ∧
      interval = if nativePushActive && pushed front (.freq e.before.state.handle.snapshot.rxVfo)
        then heartbeat else baseline := by
  subst whole
  have known := covered_run run.before (.freq e.before.state.handle.snapshot.rxVfo)
  simp only [unknown, List.not_mem_nil, false_or] at known
  have same : e.before.state.isNativePushCovered (.freq e.before.state.handle.snapshot.rxVfo) =
      pushed front (.freq e.before.state.handle.snapshot.rxVfo) := by
    rw [CoveredState.isNativePushCovered, Bool.eq_iff_iff, List.contains_iff_mem, known]
  have step := run.step_of_mem e (List.mem_append_right front List.mem_cons_self)
  rw [sleeps] at step
  obtain ⟨chosen, after⟩ := interval_step step
  refine ⟨congrArg Poller.sleep after, chosen.trans ?_⟩
  rw [nextInterval, same]

/-- The radio reports the frequency of VFO B, then that it listens there: only then a sleep is a long one. -/
theorem backs_off_iff_follows : ∃ (history : List PollerStep) (t : Poller) (e : PollerStep),
    (poller true 200 2500).Execution {} (history ++ [e]) t ∧
      (history.filterMap (·.output)) = [200] ∧ e.output = some 2500 ∧
      2500 = if true && pushed history (.freq e.before.state.handle.snapshot.rxVfo) then 2500 else 200 := by
  have run := ((poller true 200 2500).execution_exec {}
    [.record (.freq .b 14074000) .nativePush, .replied, .record (.rxVfo .b) .nativePush, .pass 200, .submit,
      .pass 20] (by decide)).goOn .replied (by decide)
  exact ⟨_, _, _, run, by decide, by decide, (backs_off_iff run rfl rfl (by decide)).2⟩

/-! ### How often it polls -/

/-- While a poll is out, the next one comes no sooner than after the shorter interval. -/
def pollTimer (shortest : Nat) : Retrier Poller where
  clock := Poller.clock
  wake p := some (p.sleep.getD (p.clock + shortest))

theorem wake_asleep {shortest wake : Nat} (asleep : s.sleep = some wake) :
    (pollTimer shortest).wake s = some wake := by
  simp [pollTimer, asleep]

theorem wake_out {shortest : Nat} (out : s.sleep = none) :
    (pollTimer shortest).wake s = some (s.clock + shortest) := by
  simp [pollTimer, out]

def submits (e : PollerStep) : Bool := e.input = .submit

theorem shortest_le_nextInterval (state : CoveredState) :
    min baseline heartbeat ≤ nextInterval state nativePushActive baseline heartbeat := by
  unfold nextInterval
  dsimp only
  split
  · exact min_le_right _ _
  · exact min_le_left _ _

theorem timer_step (step : (poller nativePushActive baseline heartbeat).step s input = some (t, o)) :
    (pollTimer (min baseline heartbeat)).Stays (min baseline heartbeat) s t (submits ⟨s, input, o, t⟩) := by
  cases poller_effect step with
  | pass elapsed =>
      -- Asleep, the next poll stays where it is; with a poll out, it moves on with the clock.
      refine .waits rfl rfl ?_ (Nat.le_add_right _ _)
      cases s.sleep with
      | none => exact Nat.add_le_add_right (Nat.le_add_right _ _) _
      | some wake => exact Nat.le_refl wake
  | record => exact .waits rfl rfl (Nat.le_refl _) (Nat.le_refl _)
  | replied interval out chosen =>
      refine .waits (wake_out out) (wake_asleep rfl) ?_ (Nat.le_refl _)
      exact Nat.add_le_add_left (chosen ▸ shortest_le_nextInterval s.state) _
  | submit wake asleep due => exact .fails (wake_asleep asleep) due (wake_out rfl) (Nat.le_refl _)

/-- **No flooding.**  From when a poll is out on, the `n`th poll after it is submitted no sooner than after `n`
times the shorter interval, whatever is recorded meanwhile. -/
theorem polls_spaced (run : (poller nativePushActive baseline heartbeat).Execution s history t)
    (out : s.sleep = none) {front back : List PollerStep} {e : PollerStep}
    (whole : history = front ++ e :: back) (next : submits e = true) :
    s.clock + (front.countP submits + 1) * min baseline heartbeat ≤ e.before.clock := by
  subst whole
  have earlier := run.before
  obtain ⟨wake, timed, spaced⟩ := (pollTimer (min baseline heartbeat)).failures_spaced submits
    (fun _ => min baseline heartbeat) earlier (wake_out out) (fun before d after split =>
      timer_step (earlier.step_of_mem d (split ▸ List.mem_append_right _ List.mem_cons_self)))
  rw [Finset.sum_const_nat (fun _ _ => rfl), Finset.card_range] at spaced
  obtain ⟨before, input, output, after⟩ := e
  obtain rfl : input = .submit := of_decide_eq_true next
  have step : (poller nativePushActive baseline heartbeat).step before .submit = some (after, output) :=
    run.step_of_mem _ (List.mem_append_right front List.mem_cons_self)
  cases poller_effect step with
  | submit woken asleep due =>
      obtain rfl : woken = wake := Option.some.inj ((wake_asleep asleep).symm.trans timed)
      calc s.clock + (front.countP submits + 1) * min baseline heartbeat
          = s.clock + min baseline heartbeat + front.countP submits * min baseline heartbeat := by
            rw [Nat.succ_mul, Nat.add_comm (_ * _), Nat.add_assoc]
        _ ≤ woken := spaced
        _ ≤ before.clock := due

theorem polls_spaced_third : ∃ (history : List PollerStep) (t : Poller) (e : PollerStep),
    (poller true 200 2500).Execution {} (history ++ [e]) t ∧ history.countP submits = 2 ∧
      0 + (history.countP submits + 1) * min 200 2500 ≤ e.before.clock := by
  have run := ((poller true 200 2500).execution_exec {}
    [.pass 7, .replied, .pass 200, .submit, .replied, .record (.freq .a 7001000) .nativePush, .pass 200, .submit,
      .replied, .pass 2500] (by decide)).goOn .submit (by decide)
  exact ⟨_, _, _, run, by decide, polls_spaced run rfl rfl (by decide)⟩

/-! ### How long it does not poll -/

/-- While the poller waits, a timer is late by no more than `slack`. -/
def OnTime (slack : Nat) (p : Poller) : Prop := ∀ wake ∈ p.sleep, p.clock ≤ wake + slack

instance OnTime.decidable (slack : Nat) (p : Poller) : Decidable (OnTime slack p) :=
  inferInstanceAs (Decidable (∀ wake ∈ p.sleep, p.clock ≤ wake + slack))

/-- From when it goes to sleep until `wake`: it sleeps, or it has woken up in time. -/
inductive Resting (wake slack : Nat) (history : List PollerStep) (p : Poller) : Prop
  | asleep : p.sleep = some wake → p.clock ≤ wake + slack → Resting wake slack history p
  | out (e : PollerStep) : p.sleep = none → e ∈ history → submits e = true → e.before.clock ≤ wake + slack →
      Resting wake slack history p

theorem Resting.step {wake slack : Nat} (resting : Resting wake slack history s)
    (step : (poller nativePushActive baseline heartbeat).step s input = some (t, o))
    (late : OnTime slack t) (quiet : o = none) : Resting wake slack (history ++ [⟨s, input, o, t⟩]) t := by
  cases resting with
  | asleep asleep near =>
      cases poller_effect step with
      | pass => exact .asleep asleep (late wake asleep)
      | record => exact .asleep asleep near
      | replied => cases quiet
      | submit => exact .out _ rfl (List.mem_append_right _ List.mem_cons_self) rfl near
  | out e out mem submitted near =>
      have mem := List.mem_append_left [⟨s, input, o, t⟩] mem
      cases poller_effect step with
      | pass | record => exact .out e out mem submitted near
      | replied => cases quiet
      | submit woken asleep => cases out.symm.trans asleep

/-- **No pausing.**  Where timers are late by no more than `slack` and no poll is out for longer than `patience`,
the last reply is never older than the interval chosen then, and those two. -/
theorem polls_recur {slack patience : Nat}
    (run : (poller nativePushActive baseline heartbeat).Execution s history t)
    {front back : List PollerStep} {e : PollerStep} {interval : Nat} (whole : history = front ++ e :: back)
    (replied : e.output = some interval) (last : ∀ d ∈ back, d.output = none)
    (late : ∀ d ∈ back, OnTime slack d.after)
    (answered : ∀ d ∈ back, submits d = true → t.clock ≤ d.before.clock + patience) :
    t.clock ≤ e.before.clock + interval + slack + patience := by
  subst whole
  obtain ⟨mid, _, rest⟩ := run.split
  obtain ⟨rfl, step, rest⟩ := rest.uncons
  rw [replied] at step
  obtain ⟨-, after⟩ := interval_step step
  have slept : Resting (e.before.clock + interval) slack [] e.after := by
    rw [after]
    exact .asleep rfl ((Nat.le_add_right _ _).trans (Nat.le_add_right _ _))
  have ends := rest.guarded (I := Resting (e.before.clock + interval) slack)
    (G := fun d => OnTime slack d.after ∧ d.output = none) slept
    (fun _ _ _ _ _ _ resting step met => resting.step step met.1 met.2)
    (fun d mem => ⟨late d mem, last d mem⟩)
  cases ends with
  | asleep _ near => exact near.trans (Nat.le_add_right _ _)
  | out d _ mem submitted near =>
      exact (answered d mem submitted).trans (Nat.add_le_add_right near patience)

theorem polls_recur_late : ∃ (front back : List PollerStep) (e : PollerStep) (t : Poller),
    (poller true 200 2500).Execution {} (front ++ e :: back) t ∧ e.before.clock = 7 ∧ t.clock = 230 ∧
      t.clock ≤ e.before.clock + 200 + 5 + 20 := by
  have run := ((poller true 200 2500).execution_exec {} [.pass 7] (by decide)).goOn .replied (by decide)
  have later := (poller true 200 2500).execution_exec (((poller true 200 2500).step
    (((poller true 200 2500).exec {} [.pass 7]).get (by decide)).2 .replied).get (by decide)).1
    [.pass 205, .submit, .pass 18] (by decide)
  have whole := run.append later
  rw [List.append_assoc] at whole
  exact ⟨_, _, _, _, whole, by decide, by decide,
    polls_recur whole rfl rfl (by decide) (by decide) (by decide)⟩

end Runs

end CatHub.Radio
