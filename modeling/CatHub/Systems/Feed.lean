/-
# CatHub.Systems.Feed — a reader that is told of changes late and formats them anew.

A state changes, and each change that matters is put into a log in a second step.  A reader takes the
log at its own pace and renders every change against the state of that moment, which may be much newer
than the change.  It may fall behind: then entries are lost, and it renders a list that restores it,
again one item after the other while the state goes on changing.

A report is a function of the state and the change.  Under `Reports` the last value that the reader was
told, or is still to be told, is the current one: `Settled` keeps that through every step, and
`converges` reads it off when nothing is left to be told.
-/
import CatHub.Systems.Execution

namespace CatHub.Systems

universe u v w x

/-! ## The machine -/

/-- A state that is changed, what restores a reader, and how a reader renders a change.  The flag says
whether it is listening at all. -/
structure Source (σ : Type u) (ε : Type v) (β : Type w) where
  /-- The state after a change, and whether the change is put into the log. -/
  apply : σ → ε → σ × Bool
  restore : σ → List ε
  render : Bool → σ → ε → Option β

/-- The state with one reader of its log. -/
structure Feed (σ : Type u) (ε : Type v) where
  state : σ
  /-- A change that is made and not yet in the log. -/
  inflight : Option ε := none
  /-- What the reader has not taken out of the log. -/
  unread : List ε := []
  /-- What is left of a restoration. -/
  restoring : List ε := []
  listening : Bool := false

inductive FeedInput (ε : Type v) where
  | update (change : ε)
  | publish
  | read
  /-- The reader finds that the log has lost its next entries. -/
  | lag (lost : Nat)
  | restore
  | listen (on : Bool)
  /-- Another reader takes the place of this one. -/
  | join

variable {σ : Type u} {ε : Type v} {β : Type w}

namespace Source

def machine (src : Source σ ε β) : Machine (Feed σ ε) (FeedInput ε) (Option β) where
  step
    | f, .update change =>
        match f.inflight with
        | some _ => none
        | none =>
            let (state, changed) := src.apply f.state change
            some ({ f with state, inflight := if changed then some change else none }, none)
    | f, .publish =>
        match f.inflight with
        | none => none
        | some change => some ({ f with inflight := none, unread := f.unread ++ [change] }, none)
    | f, .read =>
        match f.restoring, f.unread with
        | [], change :: unread =>
            some ({ f with unread }, src.render f.listening f.state change)
        | _, _ => none
    | f, .lag lost =>
        match f.restoring with
        | [] =>
            if lost ≤ f.unread.length then
              some ({ f with unread := f.unread.drop lost, restoring := src.restore f.state }, none)
            else none
        | _ :: _ => none
    | f, .restore =>
        match f.restoring with
        | [] => none
        | change :: restoring =>
            some ({ f with restoring }, src.render f.listening f.state change)
    | f, .listen on => some ({ f with listening := on }, none)
    | f, .join => some ({ f with unread := [], restoring := [], listening := false }, none)

end Source

/-! ## Reports -/

variable {ν : Type x} {φ : Type x}

/-- How a fact about the state is told of: a change that is put into the log tells the new value, or
leaves the fact and what all changes tell of it as they are. -/
structure Reports (src : Source σ ε β) (reads : β → Option ν) (fact : σ → φ) (figure : φ → ν) :
    Prop where
  told : ∀ s c, (src.apply s c).2 = true →
    (src.render true (src.apply s c).1 c).bind reads = some (figure (fact (src.apply s c).1)) ∨
      ((src.render true (src.apply s c).1 c).bind reads = none ∧
        fact (src.apply s c).1 = fact s ∧
        ∀ d, (src.render true (src.apply s c).1 d).bind reads = (src.render true s d).bind reads)
  untold : ∀ s c, (src.apply s c).2 = false →
    fact (src.apply s c).1 = fact s ∧
      ∀ d, (src.render true (src.apply s c).1 d).bind reads = (src.render true s d).bind reads
  /-- A restoration ends with an item that always tells the current value. -/
  restores : ∀ s, ∃ front last, src.restore s = front ++ [last] ∧
    ∀ t, (src.render true t last).bind reads = some (figure (fact t))

namespace Feed

/-- What the changes tell when they are rendered now. -/
def tells (src : Source σ ε β) (reads : β → Option ν) (s : σ) (changes : List ε) : List ν :=
  changes.filterMap fun change => (src.render true s change).bind reads

variable {src : Source σ ε β} {reads : β → Option ν} {fact : σ → φ} {figure : φ → ν}
  {f f' : Feed σ ε}

@[simp] theorem tells_nil (s : σ) : tells src reads s [] = [] := rfl

@[simp] theorem tells_append (s : σ) (front back : List ε) :
    tells src reads s (front ++ back) = tells src reads s front ++ tells src reads s back :=
  List.filterMap_append

theorem tells_cons (s : σ) (change : ε) (changes : List ε) :
    tells src reads s (change :: changes) =
      ((src.render true s change).bind reads).toList ++ tells src reads s changes := by
  unfold tells
  cases told : (src.render true s change).bind reads <;> simp [told]

theorem tells_congr {s t : σ}
    (same : ∀ d, (src.render true t d).bind reads = (src.render true s d).bind reads)
    (changes : List ε) : tells src reads t changes = tells src reads s changes := by
  unfold tells
  rw [funext same]

/-- What the log still holds, and what is about to be put there. -/
def ahead (f : Feed σ ε) : List ε := f.unread ++ f.inflight.toList

/-- The last value that is told, if any, is the current one. -/
def EndsWith (told : List ν) (value : ν) : Prop := ∀ v, told.getLast? = some v → v = value

theorem endsWith_append {front back : List ν} {value : ν} (here : EndsWith back value)
    (before : back = [] → EndsWith front value) : EndsWith (front ++ back) value := by
  intro v last
  rcases List.eq_nil_or_concat back with rfl | ⟨most, v', rfl⟩
  · rw [List.append_nil] at last
    exact before rfl v last
  · refine here v ?_
    simpa using last

theorem EndsWith.of_suffix {front back : List ν} {value : ν} (whole : EndsWith (front ++ back) value) :
    EndsWith back value := by
  intro v last
  refine whole v ?_
  rw [List.getLast?_append, last]
  rfl

/-- The last of what the log tells is the current value, and a restoration that has begun will tell it. -/
structure Consistent (src : Source σ ε β) (reads : β → Option ν) (fact : σ → φ) (figure : φ → ν)
    (f : Feed σ ε) : Prop where
  log : EndsWith (tells src reads f.state f.ahead) (figure (fact f.state))
  restoring : f.restoring = [] ∨ ∃ front last, f.restoring = front ++ [last] ∧
    ∀ t, (src.render true t last).bind reads = some (figure (fact t))

/-- What an update adds to the log: the new value, or nothing, and then nothing else has changed. -/
theorem tells_update (reports : Reports src reads fact figure) (s : σ) (c : ε) :
    tells src reads (src.apply s c).1 (if (src.apply s c).2 then some c else none).toList =
        [figure (fact (src.apply s c).1)] ∨
      (tells src reads (src.apply s c).1 (if (src.apply s c).2 then some c else none).toList = [] ∧
        fact (src.apply s c).1 = fact s ∧
        ∀ changes, tells src reads (src.apply s c).1 changes = tells src reads s changes) := by
  cases changed : (src.apply s c).2 with
  | true =>
      rcases reports.told s c changed with told | ⟨untold, same, others⟩
      · exact .inl (by simp [tells, told])
      · exact .inr ⟨by simp [tells, untold], same, tells_congr others⟩
  | false =>
      obtain ⟨same, others⟩ := reports.untold s c changed
      exact .inr ⟨rfl, same, tells_congr others⟩

/-- What is still to be told. -/
def owed (src : Source σ ε β) (reads : β → Option ν) (f : Feed σ ε) : List ν :=
  tells src reads f.state f.restoring ++ tells src reads f.state f.ahead

/-- A restoration that is under way tells the current value in the end. -/
theorem Consistent.owed (consistent : Consistent src reads fact figure f) :
    EndsWith (owed src reads f) (figure (fact f.state)) := by
  refine endsWith_append consistent.log (fun _ => ?_)
  rcases consistent.restoring with nothing | ⟨front, last, whole, restores⟩
  · rw [nothing]
    exact fun _ absurd => nomatch absurd
  · rw [whole, tells_append, tells_cons, restores]
    intro v last
    simpa using last.symm

theorem Consistent.step (reports : Reports src reads fact figure) {i : FeedInput ε} {o : Option β}
    (consistent : Consistent src reads fact figure f) (step : src.machine.step f i = some (f', o)) :
    Consistent src reads fact figure f' := by
  obtain ⟨state, inflight, unread, restoring, listening⟩ := f
  have log := consistent.log
  cases i with
  | update change =>
      cases inflight with
      | some _ => cases step
      | none =>
          cases step
          refine ⟨?_, consistent.restoring⟩
          simp only [ahead, tells_append, Option.toList_none, List.append_nil] at log ⊢
          rcases tells_update reports state change with told | ⟨untold, same, others⟩
          · refine endsWith_append ?_ (fun absurd => ?_)
            · rw [told]
              intro v last
              simpa using last.symm
            · rw [told] at absurd
              cases absurd
          · rw [untold, same, others, List.append_nil]
            exact log
  | publish =>
      cases inflight with
      | none => cases step
      | some change =>
          cases step
          refine ⟨?_, consistent.restoring⟩
          simpa [ahead] using log
  | read =>
      cases restoring with
      | cons => cases step
      | nil =>
          cases unread with
          | nil => cases step
          | cons change unread =>
              cases step
              refine ⟨?_, .inl rfl⟩
              simp only [ahead, List.cons_append, tells_cons] at log
              exact log.of_suffix
  | lag lost =>
      cases restoring with
      | cons => cases step
      | nil =>
          simp only [Source.machine] at step
          split at step
          · cases step
            refine ⟨?_, .inr (reports.restores state)⟩
            have whole : unread ++ inflight.toList =
                unread.take lost ++ (unread.drop lost ++ inflight.toList) := by
              rw [← List.append_assoc, List.take_append_drop]
            rw [ahead, whole, tells_append] at log
            exact log.of_suffix
          · cases step
  | restore =>
      cases restoring with
      | nil => cases step
      | cons change restoring =>
          cases step
          refine ⟨log, ?_⟩
          rcases consistent.restoring with absurd | ⟨front, last, whole, restores⟩
          · cases absurd
          · cases front with
            | nil =>
                obtain ⟨-, rfl⟩ := List.cons.inj whole
                exact .inl rfl
            | cons first front =>
                obtain ⟨-, rfl⟩ := List.cons.inj whole
                exact .inr ⟨front, last, rfl, restores⟩
  | listen on =>
      cases step
      exact ⟨log, consistent.restoring⟩
  | join =>
      cases step
      refine ⟨?_, .inl rfl⟩
      rw [ahead, tells_append] at log
      exact log.of_suffix

/-! ## Convergence -/

/-- The reader has been told `told`, and with what it is still to be told it ends on the current value; if
the fact has ever changed, it is told something. -/
structure Settled (src : Source σ ε β) (reads : β → Option ν) (fact : σ → φ) (figure : φ → ν)
    (told : List ν) (changed : Prop) (f : Feed σ ε) : Prop where
  consistent : Consistent src reads fact figure f
  ends : EndsWith (told ++ owed src reads f) (figure (fact f.state))
  heard : changed → told ++ owed src reads f ≠ []

/-- One item that was still to be told is told now. -/
theorem Settled.tell {told : List ν} {changed : Prop} {o : Option β}
    (settled : Settled src reads fact figure told changed f) (same : f'.state = f.state)
    (next : owed src reads f = (o.bind reads).toList ++ owed src reads f')
    (consistent : Consistent src reads fact figure f') :
    Settled src reads fact figure (told ++ (o.bind reads).toList)
      (changed ∨ fact f'.state ≠ fact f.state) f' := by
  refine ⟨consistent, ?_, ?_⟩
  · rw [List.append_assoc, ← next, same]
    exact settled.ends
  · rintro (before | absurd)
    · rw [List.append_assoc, ← next]
      exact settled.heard before
    · exact (absurd (congrArg fact same)).elim

theorem Settled.step (reports : Reports src reads fact figure) {told : List ν} {changed : Prop}
    {i : FeedInput ε} {o : Option β} (settled : Settled src reads fact figure told changed f)
    (step : src.machine.step f i = some (f', o)) (before : f.listening = true)
    (after : f'.listening = true) :
    Settled src reads fact figure (told ++ (o.bind reads).toList)
      (changed ∨ fact f'.state ≠ fact f.state) f' := by
  have consistent := settled.consistent.step reports step
  obtain ⟨state, inflight, unread, restoring, listening⟩ := f
  obtain rfl : listening = true := before
  cases i with
  | update change =>
      cases inflight with
      | some _ => cases step
      | none =>
          cases step
          have ends := settled.ends
          have heard := settled.heard
          simp only [owed, ahead, Option.toList_none, List.append_nil, ← List.append_assoc] at ends heard
          rcases tells_update reports state change with news | ⟨untold, same, others⟩
          · refine ⟨consistent, ?_, fun _ => ?_⟩ <;>
              simp only [owed, ahead, tells_append, news, Option.bind_none, Option.toList_none,
                List.append_nil, ← List.append_assoc]
            · intro v last
              simpa using last.symm
            · simp
          · refine ⟨consistent, ?_, ?_⟩ <;>
              simp only [owed, ahead, tells_append, untold, Option.bind_none, Option.toList_none,
                List.append_nil, ← List.append_assoc]
            · rw [same, others, others]
              exact ends
            · rintro (before | absurd)
              · rw [others, others]
                exact heard before
              · exact (absurd same).elim
  | publish =>
      cases inflight with
      | none => cases step
      | some change =>
          cases step
          exact settled.tell rfl (by simp [owed, ahead]) consistent
  | read =>
      cases restoring with
      | cons => cases step
      | nil =>
          cases unread with
          | nil => cases step
          | cons change unread =>
              cases step
              exact settled.tell rfl (by simp [owed, ahead, tells_cons]) consistent
  | lag lost =>
      cases restoring with
      | cons => cases step
      | nil =>
          simp only [Source.machine] at step
          split at step
          · cases step
            -- whatever was lost, the restoration tells the value
            obtain ⟨front, last, whole, restores⟩ := reports.restores state
            refine ⟨consistent, endsWith_append consistent.owed (fun absurd => ?_), fun _ absurd => ?_⟩
            all_goals
              simp only [owed, whole, tells_append, tells_cons, restores] at absurd
              simp at absurd
          · cases step
  | restore =>
      cases restoring with
      | nil => cases step
      | cons change restoring =>
          cases step
          exact settled.tell rfl (by simp [owed, ahead, tells_cons]) consistent
  | listen on =>
      cases step
      exact settled.tell rfl rfl consistent
  | join =>
      cases step
      cases after

/-- What the reader was given in a run. -/
def rendered (history : List (Transition (Feed σ ε) (FeedInput ε) (Option β))) : List β :=
  history.filterMap (·.output)

theorem filterMap_rendered_concat
    {history : List (Transition (Feed σ ε) (FeedInput ε) (Option β))}
    {e : Transition (Feed σ ε) (FeedInput ε) (Option β)} :
    (rendered (history ++ [e])).filterMap reads =
      (rendered history).filterMap reads ++ (e.output.bind reads).toList := by
  rw [rendered, List.filterMap_append, List.filterMap_append]
  congr 1
  cases output : e.output with
  | none => simp [output]
  | some b => cases read : reads b <;> simp [output, read]

/-- What the reader is given is a change, rendered then. -/
theorem rendered_of_step {i : FeedInput ε} {b : β}
    (step : src.machine.step f i = some (f', some b)) :
    ∃ c, src.render f.listening f.state c = some b := by
  obtain ⟨state, inflight, unread, restoring, listening⟩ := f
  cases i with
  | update => cases inflight <;> cases step
  | publish => cases inflight <;> cases step
  | read =>
      rcases restoring with _ | ⟨_, _⟩
      · rcases unread with _ | ⟨change, unread⟩
        · cases step
        · exact ⟨change, (Prod.mk.inj (Option.some.inj step)).2⟩
      · cases step
  | lag lost =>
      rcases restoring with _ | ⟨_, _⟩
      · simp only [Source.machine] at step
        split at step <;> cases step
      · cases step
  | restore =>
      rcases restoring with _ | ⟨change, restoring⟩
      · cases step
      · exact ⟨change, (Prod.mk.inj (Option.some.inj step)).2⟩
  | listen | join => cases step

theorem exists_of_mem_rendered {start stop : Feed σ ε}
    {history : List (Transition (Feed σ ε) (FeedInput ε) (Option β))}
    (run : src.machine.Execution start history stop) {b : β} (mem : b ∈ rendered history) :
    ∃ on s c, src.render on s c = some b := by
  obtain ⟨e, inRun, gave⟩ := List.mem_filterMap.mp mem
  have step := run.step_of_mem e inRun
  rw [gave] at step
  obtain ⟨c, same⟩ := rendered_of_step step
  exact ⟨_, _, c, same⟩

/-- Nothing is left to be told. -/
structure Consumed (f : Feed σ ε) : Prop where
  inflight : f.inflight = none
  unread : f.unread = []
  restoring : f.restoring = []

/-- **Convergence.**  A reader that listens throughout and has taken everything has been told the current
value last, if the fact has changed at all. -/
theorem converges (reports : Reports src reads fact figure) {start mid stop : Feed σ ε}
    {earlier later : List (Transition (Feed σ ε) (FeedInput ε) (Option β))}
    (fresh : start.Consumed) (first : src.machine.Execution start earlier mid)
    (second : src.machine.Execution mid later stop)
    (listening : ∀ e ∈ later, e.before.listening = true ∧ e.after.listening = true)
    (changed : ∃ e ∈ later, fact e.after.state ≠ fact e.before.state) (consumed : stop.Consumed) :
    ((rendered later).filterMap reads).getLast? = some (figure (fact stop.state)) := by
  have begun : Consistent src reads fact figure mid := by
    refine first.invariant (I := fun _ f => Consistent src reads fact figure f) ?_ ?_
    · refine ⟨?_, .inl fresh.restoring⟩
      rw [ahead, fresh.unread, fresh.inflight]
      exact fun _ absurd => nomatch absurd
    · exact fun _ _ _ _ _ _ consistent step => consistent.step reports step
  have settled : Settled src reads fact figure ((rendered later).filterMap reads)
      (∃ e ∈ later, fact e.after.state ≠ fact e.before.state) stop := by
    refine second.guarded
      (I := fun history f => Settled src reads fact figure
        ((rendered history).filterMap reads)
        (∃ e ∈ history, fact e.after.state ≠ fact e.before.state) f)
      (G := fun e => e.before.listening = true ∧ e.after.listening = true) ?_ ?_ listening
    · exact ⟨begun, begun.owed, fun ⟨_, absurd, _⟩ => nomatch absurd⟩
    · intro history f i o f' _ settled step on
      have next := settled.step reports step on.1 on.2
      rw [filterMap_rendered_concat]
      refine ⟨next.consistent, next.ends, fun ⟨e, mem, moved⟩ => next.heard ?_⟩
      rcases List.mem_append.mp mem with mem | mem
      · exact .inl ⟨e, mem, moved⟩
      · rw [List.mem_singleton.mp mem] at moved
        exact .inr moved
  have nothing : owed src reads stop = [] := by
    rw [owed, ahead, consumed.restoring, consumed.unread, consumed.inflight]
    rfl
  have ends := settled.ends
  have heard := settled.heard changed
  rw [nothing, List.append_nil] at ends heard
  obtain ⟨most, last, whole⟩ := (List.eq_nil_or_concat _).resolve_left heard
  rw [whole, List.concat_eq_append, List.getLast?_concat]
  refine congrArg some (ends last ?_)
  rw [whole, List.concat_eq_append, List.getLast?_concat]

end Feed

end CatHub.Systems
