/-
# CatHub.Radio.Ledger — what becomes of the frames of the radio.

Every frame that the reader hands to the task answers a command, or is an event of its own, or is lost
with a link that broke or a line reply that timed out.  `frames_accounted` says that the ledger of a run
holds all of them, once and in the order of their arrival, up to those still at hand; `replies_fit` that
what a command is answered with has the shape that the command asked for.
-/
import CatHub.Radio.Transport

namespace CatHub.Radio.Transport

open Systems

variable {φ : Type}

/-! ## The ledger -/

/-- What became of a frame. -/
inductive Fate where
  | reply (id : Nat)
  | event
  | lost
  deriving DecidableEq, Repr

/-- The frames that an observation disposes of. -/
def Event.entries : Event φ → List (φ × Fate)
  | .routed frame => [(frame, .event)]
  | .answered id (.ok frames) => frames.map (·, .reply id)
  | _ => []

/-- The lines that the pending command has collected. -/
def Link.held (s : Link φ) : List φ :=
  match s.pending with
  | some ⟨.lines _ acc, _, _⟩ => acc
  | _ => []

/-- The frames that arrived and are not yet disposed of. -/
def Link.hand (s : Link φ) : List φ := s.held ++ s.inbox

/-- One step of a run. -/
abbrev Move (φ : Type) := Transition (Link φ) (Input φ) (List (Event φ))

/-- A step at which the task leaves its loop. -/
def Leaves (e : Move φ) : Prop := e.before.phase = .running ∧ e.after.phase ≠ .running

instance (e : Move φ) : Decidable (Leaves e) := @instDecidableAnd _ _ inferInstance inferInstance

/-- The frames that a step loses. -/
def lost (e : Move φ) : List φ :=
  match e.input with
  | .timeout => e.before.held
  | _ => if Leaves e then e.before.hand else []

def entries (e : Move φ) : List (φ × Fate) :=
  e.output.flatMap Event.entries ++ (lost e).map (·, .lost)

/-- Every frame of a run that was disposed of, and how. -/
def ledger (history : List (Move φ)) : List (φ × Fate) := history.flatMap entries

def Input.frame? : Input φ → Option φ
  | .arrive frame => some frame
  | _ => none

/-- The frames that the reader handed over. -/
def arrivals (history : List (Move φ)) : List φ := history.filterMap (·.input.frame?)

section
variable {config : Config φ} {s t : Link φ} {input : Input φ} {log : List (Event φ)}

/-- A step that neither takes nor disposes of a frame. -/
theorem entries_idle {e : Move φ} (silent : ∀ event ∈ e.output, event.entries = [])
    (nothing : lost e = []) : entries e = [] := by
  rw [entries, nothing, List.map_nil, List.append_nil, List.flatMap_eq_nil_iff]
  exact silent

theorem fst_map_fate (frames : List φ) (fate : Fate) : (frames.map (·, fate)).map Prod.fst = frames := by
  rw [List.map_map]
  exact List.map_id' frames

theorem hand_of_pending_none (none_ : s.pending = none) : s.hand = s.inbox := by
  rw [Link.hand, Link.held, none_, List.nil_append]

/-- A step that stays in the loop loses nothing, unless it is a timeout. -/
theorem lost_of_stays {e : Move φ} (other : e.input ≠ .timeout) (stays : ¬ Leaves e) : lost e = [] := by
  unfold lost
  split
  · rename_i timeout
    exact absurd timeout other
  · exact if_neg stays

theorem lost_of_leaves {e : Move φ} (other : e.input ≠ .timeout) (leaves : Leaves e) :
    lost e = e.before.hand := by
  unfold lost
  split
  · rename_i timeout
    exact absurd timeout other
  · exact if_pos leaves

/-- A command that was written has collected nothing yet. -/
theorem await_hand (s : Link φ) (command : RawCommand) (free : s.pending = none) :
    (s.await command).1.phase = s.phase ∧ (s.await command).1.hand = s.inbox ∧
      ∀ event ∈ (s.await command).2, event.entries = [] := by
  have done : s.hand = s.inbox := hand_of_pending_none free
  unfold Link.await
  cases command.expect with
  | noReply => exact ⟨rfl, done, by simp [Event.entries]⟩
  | reply verbs => exact ⟨rfl, rfl, by simp⟩
  | lines n =>
      dsimp only
      split
      · exact ⟨rfl, done, by simp [Event.entries]⟩
      · exact ⟨rfl, rfl, by simp⟩

/-- A frame that is offered to the pending command becomes its answer, joins its lines, or is routed. -/
theorem offer_hand (config : Config φ) (s : Link φ) (p : Pending φ) (frame : φ)
    (pending : s.pending = some p) :
    (s.offer config p frame).1.phase = s.phase ∧
      s.held ++ frame :: s.inbox =
        ((s.offer config p frame).2.flatMap Event.entries).map Prod.fst ++ (s.offer config p frame).1.hand := by
  obtain ⟨matcher, id, deadline⟩ := p
  cases matcher with
  | verb verbs =>
      have none_ : s.held = [] := by rw [Link.held, pending]
      rw [Link.offer.eq_def]
      by_cases matched : frameMatches (config.bytes frame) verbs = true
      · simp only [matched, if_true, none_, true_and]
        rfl
      · simp only [matched]
        refine ⟨rfl, ?_⟩
        show s.held ++ frame :: s.inbox = frame :: s.hand
        rw [Link.hand, none_]
        rfl
  | lines remaining acc =>
      have collected : s.held = acc := by rw [Link.held, pending]
      rw [Link.offer.eq_def]
      by_cases complete : remaining - 1 = 0 ∨ rprt.isPrefixOf (config.bytes frame)
      · simp only [complete, if_true, collected, List.flatMap_singleton, Event.entries, fst_map_fate,
          true_and]
        exact (List.append_assoc acc [frame] s.inbox).symm
      · simp only [complete, if_false, collected, true_and]
        exact (List.append_assoc acc [frame] s.inbox).symm

/-- What was at hand and what arrives is disposed of, or is at hand afterwards. -/
theorem hand_step (took : (transport config).step s input = some (t, log)) :
    s.hand ++ input.frame?.toList = (entries ⟨s, input, log, t⟩).map Prod.fst ++ t.hand := by
  have took : step config s input = some (t, log) := took
  have idle : t.phase = s.phase → input ≠ .timeout → (∀ event ∈ log, event.entries = []) →
      entries ⟨s, input, log, t⟩ = [] := by
    intro phase other silent
    refine entries_idle silent (lost_of_stays other ?_)
    exact fun leaves => leaves.2 (phase ▸ leaves.1)
  have leave : input ≠ .timeout → Leaves ⟨s, input, log, t⟩ → (∀ event ∈ log, event.entries = []) →
      t.hand = [] → s.hand = (entries ⟨s, input, log, t⟩).map Prod.fst ++ t.hand := by
    intro other leaves silent gone
    rw [entries, lost_of_leaves other leaves, List.flatMap_eq_nil_iff.mpr silent, List.nil_append,
      fst_map_fate, gone, List.append_nil]
  cases input with
  | submit bytes expect =>
      simp only [step, Option.ite_none_right_eq_some, Option.some.injEq, Prod.mk.injEq] at took
      obtain ⟨-, rfl, rfl⟩ := took
      rw [idle rfl (by simp) (by simp [Event.entries])]
      exact List.append_nil _
  | dropSubmitters | tick =>
      cases took
      rw [idle rfl (by simp) (by simp)]
      exact List.append_nil _
  | arrive frame =>
      simp only [step, Option.ite_none_right_eq_some, Option.some.injEq, Prod.mk.injEq] at took
      obtain ⟨-, rfl, rfl⟩ := took
      rw [idle rfl (by simp) (by simp)]
      exact List.append_assoc _ _ _
  | hangUp =>
      simp only [step, Option.ite_none_right_eq_some, Option.some.injEq, Prod.mk.injEq] at took
      obtain ⟨-, rfl, rfl⟩ := took
      rw [idle rfl (by simp) (by simp)]
      exact List.append_nil _
  | take fault =>
      simp only [step, Option.ite_none_right_eq_some] at took
      obtain ⟨⟨running, free⟩, took⟩ := took
      split at took
      · simp only [Option.ite_none_left_eq_some, Option.some.injEq, Prod.mk.injEq] at took
        obtain ⟨-, rfl, rfl⟩ := took
        have gone : Link.hand { s with phase := .shutdown, inbox := [] } = [] := hand_of_pending_none free
        exact (List.append_nil _).trans (leave (by simp) ⟨running, by simp⟩ (by simp) gone)
      · rename_i command queue form
        cases fault with
        | some text =>
            simp only [Option.some.injEq, Prod.mk.injEq] at took
            obtain ⟨rfl, rfl⟩ := took
            exact (List.append_nil _).trans
              (leave (by simp) ⟨running, by simp [Link.disconnect]⟩ (by simp [Event.entries]) rfl)
        | none =>
            have waits := await_hand { s with queue } command free
            simp only [Option.some.injEq, Prod.mk.injEq] at took
            obtain ⟨rfl, rfl⟩ := took
            obtain ⟨phase, hand, silent⟩ := waits
            rw [idle phase (by simp) (List.forall_mem_cons.mpr ⟨rfl, silent⟩), hand,
              hand_of_pending_none free]
            exact List.append_nil _
  | receive =>
      simp only [step, Option.ite_none_right_eq_some] at took
      obtain ⟨running, took⟩ := took
      split at took
      · simp only [Option.ite_none_right_eq_some, Option.some.injEq] at took
        obtain ⟨-, same⟩ := took
        obtain ⟨rfl, rfl⟩ : s.disconnect.1 = t ∧ s.disconnect.2 = log := Prod.ext_iff.mp same
        have silent : ∀ event ∈ s.disconnect.2, event.entries = [] := by
          intro event mem
          obtain ⟨p, -, rfl⟩ := List.mem_map.mp mem
          rfl
        exact (List.append_nil _).trans (leave (by simp) ⟨running, by simp [Link.disconnect]⟩ silent rfl)
      · rename_i frame inbox form
        have hand : s.hand = s.held ++ frame :: inbox := by rw [Link.hand, form]
        split at took
        · rename_i free
          cases took
          have after : Link.hand { s with inbox } = inbox := hand_of_pending_none free
          have none_ : s.held = [] := by rw [Link.held, free]
          rw [hand, none_, after, entries, lost_of_stays (by simp) (fun leaves => leaves.2 running)]
          exact congrArg (frame :: ·) (List.append_nil inbox)
        · rename_i p pending
          have offered : Link.offer config { s with inbox } p frame = (t, log) := Option.some.inj took
          obtain ⟨phase, goes⟩ := offer_hand config { s with inbox } p frame pending
          rw [offered] at phase goes
          rw [entries, lost_of_stays (by simp) (fun leaves => leaves.2 (phase.trans running)), List.map_nil,
            List.append_nil, ← goes, hand]
          exact List.append_nil _
  | timeout =>
      cases pending : s.pending with
      | none => simp [step, pending] at took
      | some p =>
          simp only [step, pending, Option.ite_none_right_eq_some, Option.some.injEq,
            Prod.mk.injEq] at took
          obtain ⟨-, rfl, rfl⟩ := took
          rw [entries, show lost (⟨s, .timeout, _, _⟩ : Move φ) = s.held from rfl, List.map_append,
            fst_map_fate]
          exact List.append_nil _
  | reopen success =>
      cases phase : s.phase with
      | running => simp [step, phase] at took
      | shutdown => simp [step, phase] at took
      | disconnected wake =>
          have stays : ¬ Leaves (⟨s, .reopen success, log, t⟩ : Move φ) := by
            rintro ⟨running, -⟩
            rw [show s.phase = .running from running] at phase
            cases phase
          simp only [step, phase, Option.ite_none_left_eq_some] at took
          obtain ⟨-, took⟩ := took
          rw [entries_idle (by split at took <;> cases took <;> simp) (lost_of_stays (by simp) stays)]
          split at took <;>
          · cases took
            exact List.append_nil _

theorem arrivals_eq {t : Link φ} {history : List (Move φ)}
    (run : (transport config).Execution (opened config) history t) :
    arrivals history = (ledger history).map Prod.fst ++ t.hand := by
  refine run.invariant (I := fun history t =>
    arrivals history = (ledger history).map Prod.fst ++ t.hand) rfl ?_
  intro history s input log t _ known took
  have next := hand_step took
  have more : arrivals (history ++ [⟨s, input, log, t⟩]) = arrivals history ++ input.frame?.toList := by
    rw [arrivals, List.filterMap_append]
    cases frame : input.frame? <;> simp [arrivals, frame]
  have booked : ledger (history ++ [⟨s, input, log, t⟩]) =
      ledger history ++ entries ⟨s, input, log, t⟩ := by
    rw [ledger, List.flatMap_append, List.flatMap_singleton, ledger]
  rw [more, known, List.append_assoc, next, booked, List.map_append, List.append_assoc]

/-- **Frames are accounted for.**  In every run, whatever the link does, the frames that arrived are those
of the ledger, followed by the lines that a pending command has collected and by the inbox: every frame
answers one command, or is routed as one event, or is lost, and their order stays.  A frame is lost only
where the task leaves its loop, or where a line command times out that had collected it. -/
theorem frames_accounted {t : Link φ} {history : List (Move φ)}
    (run : (transport config).Execution (opened config) history t) :
    arrivals history = (ledger history).map Prod.fst ++ t.held ++ t.inbox ∧
      ∀ e ∈ history, ∀ frame, (frame, Fate.lost) ∈ entries e →
        Leaves e ∨ (e.input = .timeout ∧ frame ∈ e.before.held) := by
  constructor
  · rw [arrivals_eq run, List.append_assoc]
    rfl
  · intro e _ frame mem
    have among : frame ∈ lost e := by
      rcases List.mem_append.mp mem with observed | dropped
      · obtain ⟨event, -, here⟩ := List.mem_flatMap.mp observed
        rcases event with id | command | ⟨id, error | frames⟩ | routed <;>
          simp [Event.entries] at here
      · obtain ⟨other, inside, same⟩ := List.mem_map.mp dropped
        cases same
        exact inside
    unfold lost at among
    split at among
    · rename_i timeout
      exact .inr ⟨timeout, among⟩
    · split at among
      · exact .inl ‹_›
      · cases among

end

/-! ## The shape of answers -/

/-- What a command of this kind may be answered with. -/
def Fits (config : Config φ) (frames : List φ) : Expect → Prop
  | .noReply => frames = []
  | .reply verbs => ∃ frame, frames = [frame] ∧ frameMatches (config.bytes frame) verbs = true
  | .lines n =>
      frames.length ≤ n ∧ (∀ frame ∈ frames.dropLast, rprt.isPrefixOf (config.bytes frame) = false) ∧
        (frames.length = n ∨ ∃ frame, frames.getLast? = some frame ∧
          rprt.isPrefixOf (config.bytes frame) = true)

/-- What a pending command has got so far. -/
def Collects (config : Config φ) (matcher : Matcher φ) : Expect → Prop
  | .noReply => False
  | .reply verbs => matcher = .verb verbs
  | .lines n => ∃ remaining acc, matcher = .lines remaining acc ∧ 0 < remaining ∧
      acc.length + remaining = n ∧ ∀ frame ∈ acc, rprt.isPrefixOf (config.bytes frame) = false

/-- The pending command was written, and collects what it asked for. -/
def Written (config : Config φ) (log : List (Event φ)) (s : Link φ) : Prop :=
  ∀ p, s.pending = some p →
    ∃ command, .wrote command ∈ log ∧ command.id = p.id ∧ Collects config p.matcher command.expect

section
variable {config : Config φ} {s t : Link φ} {input : Input φ} {earlier log : List (Event φ)}

/-- Every answer of the step fits a command that was written. -/
def Answers (config : Config φ) (all log : List (Event φ)) : Prop :=
  ∀ id frames, .answered id (.ok frames) ∈ log →
    ∃ command, .wrote command ∈ all ∧ command.id = id ∧ Fits config frames command.expect

/-- A step without a successful answer, after which the pending command is the one before, or none. -/
theorem fits_quiet (written : Written config earlier s) (pending : t.pending = s.pending ∨ t.pending = none)
    (silent : ∀ id frames, .answered id (.ok frames) ∉ log) :
    Written config (earlier ++ log) t ∧ Answers config (earlier ++ log) log := by
  refine ⟨fun p here => ?_, fun id frames mem => absurd mem (silent id frames)⟩
  rcases pending with same | none_
  · obtain ⟨command, mem, sameId, collects⟩ := written p (same ▸ here)
    exact ⟨command, List.mem_append_left _ mem, sameId, collects⟩
  · rw [none_] at here
    cases here

/-- A command that was written collects from then on what it asked for, or is answered with nothing. -/
theorem fits_await {command : RawCommand} (free : s.pending = none) :
    Written config (earlier ++ .wrote command :: (s.await command).2) (s.await command).1 ∧
      Answers config (earlier ++ .wrote command :: (s.await command).2) (s.await command).2 := by
  have wrote : ∀ log : List (Event φ), .wrote command ∈ earlier ++ .wrote command :: log :=
    fun log => List.mem_append_right _ List.mem_cons_self
  have still : ∀ log : List (Event φ), Written config log s := by
    intro log p here
    rw [free] at here
    cases here
  have atOnce : Fits config [] command.expect →
      Answers config (earlier ++ [.wrote command, .answered command.id (.ok [])])
        [.answered command.id (.ok [])] := by
    intro fits id frames mem
    cases List.mem_singleton.mp mem
    exact ⟨command, wrote _, rfl, fits⟩
  unfold Link.await
  cases expects : command.expect with
  | noReply => exact ⟨still _, atOnce (expects ▸ rfl)⟩
  | reply verbs =>
      refine ⟨?_, fun id frames mem => by cases mem⟩
      rintro p ⟨⟩
      exact ⟨command, wrote _, rfl, expects ▸ rfl⟩
  | lines n =>
      dsimp only
      split
      · rename_i zero
        refine ⟨still _, atOnce ?_⟩
        rw [expects]
        exact ⟨Nat.zero_le _, by simp, .inl zero.symm⟩
      · rename_i some_
        refine ⟨?_, fun id frames mem => by cases mem⟩
        rintro p ⟨⟩
        refine ⟨command, wrote _, rfl, ?_⟩
        rw [expects]
        exact ⟨n, [], rfl, Nat.pos_of_ne_zero some_, Nat.zero_add n, by simp⟩

/-- A frame completes what the pending command collects, joins it, or is none of its business. -/
theorem fits_offer {p : Pending φ} {frame : φ} (written : Written config earlier s)
    (pending : s.pending = some p) :
    Written config (earlier ++ (s.offer config p frame).2) (s.offer config p frame).1 ∧
      Answers config (earlier ++ (s.offer config p frame).2) (s.offer config p frame).2 := by
  obtain ⟨command, mem, sameId, collects⟩ := written p pending
  have answers : ∀ frames, Fits config frames command.expect →
      Answers config (earlier ++ [.answered p.id (.ok frames)]) [.answered p.id (.ok frames)] := by
    intro frames fits id other here
    cases List.mem_singleton.mp here
    exact ⟨command, List.mem_append_left _ mem, sameId, fits⟩
  have gone : ∀ (log : List (Event φ)) (s : Link φ), s.pending = none → Written config log s := by
    intro log s free p here
    rw [free] at here
    cases here
  obtain ⟨matcher, id, deadline⟩ := p
  cases expects : command.expect with
  | noReply =>
      rw [expects] at collects
      exact collects.elim
  | reply verbs =>
      rw [expects] at collects
      obtain rfl : matcher = .verb verbs := collects
      rw [Link.offer.eq_def]
      by_cases matched : frameMatches (config.bytes frame) verbs = true
      · simp only [matched, if_true]
        refine ⟨gone _ _ rfl, answers _ ?_⟩
        rw [expects]
        exact ⟨frame, rfl, matched⟩
      · simp only [matched]
        exact fits_quiet written (.inl rfl) (by simp)
  | lines n =>
      rw [expects] at collects
      obtain ⟨remaining, acc, rfl, some_, total, plain⟩ := collects
      rw [Link.offer.eq_def]
      by_cases complete : remaining - 1 = 0 ∨ rprt.isPrefixOf (config.bytes frame)
      · simp only [complete, if_true]
        refine ⟨gone _ _ rfl, answers _ ?_⟩
        rw [expects]
        refine ⟨?_, ?_, ?_⟩
        · rw [List.length_append, List.length_singleton]
          omega
        · rw [List.dropLast_concat]
          exact plain
        · rcases complete with last | status
          · left
            rw [List.length_append, List.length_singleton]
            omega
          · exact .inr ⟨frame, List.getLast?_concat, status⟩
      · simp only [complete, if_false]
        obtain ⟨more, noStatus⟩ := not_or.mp complete
        refine ⟨?_, fun id frames mem => by cases mem⟩
        rintro p ⟨⟩
        refine ⟨command, List.mem_append_left _ mem, sameId, ?_⟩
        rw [expects]
        refine ⟨remaining - 1, acc ++ [frame], rfl, Nat.pos_of_ne_zero more, ?_, ?_⟩
        · rw [List.length_append, List.length_singleton]
          omega
        · rw [List.forall_mem_append, List.forall_mem_singleton]
          exact ⟨plain, Bool.eq_false_iff.mpr noStatus⟩

theorem fits_step (written : Written config earlier s)
    (took : (transport config).step s input = some (t, log)) :
    Written config (earlier ++ log) t ∧ Answers config (earlier ++ log) log := by
  have took : step config s input = some (t, log) := took
  cases input with
  | submit bytes expect | arrive frame | hangUp =>
      simp only [step, Option.ite_none_right_eq_some, Option.some.injEq, Prod.mk.injEq] at took
      obtain ⟨-, rfl, rfl⟩ := took
      exact fits_quiet written (.inl rfl) (by simp)
  | dropSubmitters | tick =>
      cases took
      exact fits_quiet written (.inl rfl) (by simp)
  | take fault =>
      simp only [step, Option.ite_none_right_eq_some] at took
      obtain ⟨⟨running, free⟩, took⟩ := took
      split at took
      · simp only [Option.ite_none_left_eq_some, Option.some.injEq, Prod.mk.injEq] at took
        obtain ⟨-, rfl, rfl⟩ := took
        exact fits_quiet written (.inl rfl) (by simp)
      · rename_i command queue _
        cases fault with
        | some text =>
            simp only [Option.some.injEq, Prod.mk.injEq] at took
            obtain ⟨rfl, rfl⟩ := took
            exact fits_quiet written (.inr rfl) (by simp)
        | none =>
            have fits := @fits_await _ config { s with queue } earlier command free
            simp only [Option.some.injEq, Prod.mk.injEq] at took
            obtain ⟨rfl, rfl⟩ := took
            refine ⟨fits.1, fun id frames mem => fits.2 id frames ?_⟩
            simpa using mem
  | receive =>
      simp only [step, Option.ite_none_right_eq_some] at took
      obtain ⟨running, took⟩ := took
      split at took
      · simp only [Option.ite_none_right_eq_some, Option.some.injEq] at took
        obtain ⟨-, same⟩ := took
        obtain ⟨rfl, rfl⟩ : s.disconnect.1 = t ∧ s.disconnect.2 = log := Prod.ext_iff.mp same
        refine fits_quiet written (.inr rfl) (fun id frames mem => ?_)
        obtain ⟨p, -, same⟩ := List.mem_map.mp mem
        cases same
      · rename_i frame inbox _
        split at took
        · rename_i free
          cases took
          exact fits_quiet written (.inl rfl) (by simp)
        · rename_i p pending
          have fits := @fits_offer _ config { s with inbox } earlier p frame written pending
          rw [Option.some.inj took] at fits
          exact fits
  | timeout =>
      simp only [step] at took
      split at took
      · simp only [Option.ite_none_right_eq_some, Option.some.injEq, Prod.mk.injEq] at took
        obtain ⟨-, rfl, rfl⟩ := took
        exact fits_quiet written (.inr rfl) (by simp)
      · cases took
  | reopen success =>
      simp only [step] at took
      split at took
      · simp only [Option.ite_none_left_eq_some] at took
        obtain ⟨-, took⟩ := took
        split at took <;>
        · cases took
          exact fits_quiet written (.inl rfl) (by simp)
      · cases took

/-- **Answers fit.**  In every run a command that is answered successfully was written before and gets what
it asked for: a frame with one of its verbs; or as many lines as it asked for, or fewer of which the last,
and no other, is a status line. -/
theorem replies_fit {t : Link φ} {history : List (Move φ)}
    (run : (transport config).Execution (opened config) history t) :
    Answers config (history.flatMap (·.output)) (history.flatMap (·.output)) := by
  refine (run.invariant (I := fun history t => Written config (history.flatMap (·.output)) t ∧
    Answers config (history.flatMap (·.output)) (history.flatMap (·.output))) ⟨?_, ?_⟩ ?_).2
  · rintro p ⟨⟩
  · intro id frames mem
    cases mem
  · rintro history s input log t - ⟨written, answers⟩ took
    obtain ⟨next, here⟩ := fits_step written took
    rw [List.flatMap_append, List.flatMap_singleton]
    refine ⟨next, fun id frames mem => ?_⟩
    rcases List.mem_append.mp mem with before | now
    · obtain ⟨command, among, same, fits⟩ := answers id frames before
      exact ⟨command, List.mem_append_left _ among, same, fits⟩
    · exact here id frames now

end

/-! ## A conversation -/

/-- A query that a report of the radio gets in the way of; then the link breaks under a second one. -/
def interrupted : List (Input (List UInt8)) :=
  [.submit (Ts590.ascii ['F', 'A', ';']) (.reply [Ts590.ascii ['F', 'A']]),
   .submit (Ts590.ascii ['F', 'B', ';']) (.reply [Ts590.ascii ['F', 'B']]),
   .take none, .arrive (Ts590.ascii ['M', 'D', '2', ';']),
   .arrive (Ts590.ascii ['F', 'A', '7', ';']), .receive, .receive, .take none, .hangUp, .receive]

theorem frames_accounted_interrupted :
    ∃ (history : List (Move (List UInt8))) (t : Link (List UInt8)),
      history.map (·.input) = interrupted ∧
      arrivals history = (ledger history).map Prod.fst ++ t.held ++ t.inbox ∧
        ∀ e ∈ history, ∀ frame, (frame, Fate.lost) ∈ entries e →
          Leaves e ∨ (e.input = .timeout ∧ frame ∈ e.before.held) := by
  let config : Config (List UInt8) := { bytes := id }
  have enabled : ((transport config).exec (opened config) interrupted).isSome := by decide
  have run := (transport config).execution_exec (opened config) interrupted enabled
  exact ⟨_, _, (transport config).exec_inputs (opened config) interrupted enabled, frames_accounted run⟩

theorem replies_fit_interrupted :
    let config : Config (List UInt8) := { bytes := id }
    ∃ history : List (Move (List UInt8)), history.map (·.input) = interrupted ∧
      Answers config (history.flatMap (·.output)) (history.flatMap (·.output)) := by
  intro config
  have enabled : ((transport config).exec (opened config) interrupted).isSome := by decide
  have run := (transport config).execution_exec (opened config) interrupted enabled
  exact ⟨_, (transport config).exec_inputs (opened config) interrupted enabled, replies_fit run⟩

end CatHub.Radio.Transport
