/-
# CatHub.Dialect.ModeRace — `set_mode` requests that run into each other.

Where several sessions set the mode at a time, the halves of their requests take effect in some order: a
half that is dropped where the hub finds it redundant, one that is submitted where the backend records it.
`took` is that order.

However the steps interleave, the radio and the snapshot end in the mode of the base half that took effect
last, with the flag of the DATA half that took effect last.  `modes_unmixed_iff` says what this means for
the requests, and `modes_mix` is a run of two sessions that leaves a mode nobody asked for.
-/
import CatHub.Dialect.Desk
import CatHub.Dialect.ModeHalves

namespace CatHub.Dialect

open Systems Radio Ptt

/-! ## Runs -/

/-- A step of the desk as a history records it. -/
abbrev RaceStep := Transition Desk DeskInput (Option (List UInt8))

/-- Hamlib sessions set the mode and nothing else happens: sessions and scheduler go on, and the link
answers. -/
def Races (endpoint : Nat → FrontEnd × Context) : DeskInput → Prop
  | .request sessionId line => (endpoint sessionId).1 = .hamlibNet ∧ (modeAsked line).isSome = true
  | .pass _ | .go _ | .select | .work | .link _ | .finish => True
  | _ => False

instance (endpoint : Nat → FrontEnd × Context) : (input : DeskInput) → Decidable (Races endpoint input)
  | .request .. => inferInstanceAs (Decidable (_ ∧ _))
  | .pass _ | .go _ | .select | .work | .link _ | .finish => inferInstanceAs (Decidable True)
  | .disconnect _ | .poll | .checkCeiling | .push _ | .connect => inferInstanceAs (Decidable False)

/-- What an input asks for. -/
def DeskInput.asked : DeskInput → Option (Mode × Bool)
  | .request _ line => modeAsked line
  | _ => none

/-- What the requests of a run ask for. -/
def requested (history : List RaceStep) : List (Mode × Bool) := history.filterMap (·.input.asked)

/-- The half that takes effect in a step: the hub finds it redundant, or the backend records it. -/
def takesEffect (d : Desk) : DeskInput → Option Half
  | .go who =>
      match d.activity who with
      | .running (.ask (.isRedundant mutation) _) =>
          if d.state.isRedundant mutation then Half.ofChange mutation.intoChange else none
      | _ => none
  | .work =>
      match d.executing with
      | some (_, .ask (.record change _) _) => Half.ofChange change
      | _ => none
  | _ => none

/-- The halves of a run in the order in which they take effect. -/
def took (history : List RaceStep) : List Half :=
  history.filterMap fun e => takesEffect e.before e.input

/-- Every session has got its answer, and every answer was success. -/
structure AllAnswered (history : List RaceStep) (stop : Desk) : Prop where
  idle : ∀ who, stop.activity who = .idle
  success : ∀ e ∈ history, ∀ reply, e.output = some reply → Succeeds reply

/-! ### What every state of a run has -/

/-- What an activity still owes, where `halves` have taken effect. -/
def Engaged (vfo : Vfo) (halves todo : List Half) : Activity → Prop
  | .idle => True
  | .running rest => Owes vfo rest todo ∧ Complete (todo ++ halves)
  | .waiting next =>
      (∃ half rest, todo = half :: rest ∧ (∀ bytes, Owes vfo (next (.ok bytes)) rest) ∧
        ∀ error, Fails (next (.error error))) ∧ Complete (todo ++ halves)

/-- The requester waits for the half that it owes first. -/
def Awaits (todo : Requester → List Half) (d : Desk) (who : Requester) (half : Half) : Prop :=
  (∃ next, d.activity who = .waiting next) ∧ (todo who).head? = some half

/-- What is left of a write once its bytes are out. -/
def recordRest (mutation : StateMutation) : BackendRest :=
  .ask (.record mutation.intoChange .optimisticWrite) fun _ => .done (.ok [])

/-- How far the backend has come with a half, and how the mode of the radio comes from the one in the
snapshot. -/
inductive Writing (vfo : Vfo) (halves : List Half) (half : Half) :
    BackendRest → (StoredMode → StoredMode) → Prop
  | looking : Writing vfo halves half (execute ts590Backend (.apply (half.mutation vfo))).run id
  | sending (snap : Snapshot) {next : Except BackendError (List UInt8) → BackendRest}
      (ok : ∀ bytes, next (.ok bytes) = recordRest (half.mutation vfo))
      (error : ∀ e, next (.error e) = .done (.error e)) :
      Writing vfo halves half
        (.ask (.submit (Radio.Ts590.applyBytes snap (half.mutation vfo)) .noReply) next) id
  | recording : Writing vfo halves half (recordRest (half.mutation vfo)) half.set
  | recorded (bytes : List UInt8) (took : half ∈ halves) :
      Writing vfo halves half (.done (.ok bytes)) id

/-- The parties whose operations are in the queues or in execution. -/
def inFlight (d : Desk) : List Requester :=
  d.executing.toList.map Prod.fst ++ (pending d.queues).map (·.reply)

/-- The operation in execution is the half that its requester waits for. -/
def Executes (vfo : Vfo) (halves : List Half) (todo : Requester → List Half) (d : Desk)
    (mode : StoredMode) : Option (Requester × BackendRest) → Prop
  | none => mode = d.state.snapshot.inMode
  | some (who, rest) => ∃ half f, Awaits todo d who half ∧ Writing vfo halves half rest f ∧
      mode = f d.state.snapshot.inMode

/-- What every state has, as long as the radio does not fail. -/
structure Race (vfo : Vfo) (radio : Transceiver) (first : StoredMode) (asked : List (Mode × Bool))
    (halves : List Half) (todo : Requester → List Half) (d : Desk) : Prop where
  operating : d.state.snapshot.rxVfo = vfo
  activity : ∀ who, Engaged vfo halves (todo who) (d.activity who)
  queued : ∀ op ∈ pending d.queues, ∃ half, Awaits todo d op.reply half ∧
    op.kind = .apply (half.mutation vfo)
  distinct : (inFlight d).Nodup
  executing : Executes vfo halves todo d (radio.executeAll d.wire).inMode d.executing
  cache : d.state.snapshot.inMode = halves.foldl (fun mode half => half.set mode) first
  ended : (∀ who, d.activity who = .idle) → asked ≠ [] → Complete halves

/-- The radio has failed a session, and the session will say so. -/
def Doomed (d : Desk) : Prop :=
  ∃ who, (∃ rest, d.activity who = .running rest ∧ Fails rest) ∨
    ∃ next error, d.activity who = .waiting next ∧ (∀ error, Fails (next (.error error))) ∧
      d.executing = some (who, .done (.error error))

section
variable {vfo : Vfo} {radio : Transceiver} {first : StoredMode} {asked : List (Mode × Bool)}
  {halves : List Half} {todo : Requester → List Half} {d : Desk} {who : Requester} {half : Half}

theorem Engaged.mono {left : List Half} {activity : Activity} {more : List Half}
    (engaged : Engaged vfo halves left activity) (sub : halves ⊆ more) :
    Engaged vfo more left activity := by
  cases activity with
  | idle => trivial
  | running | waiting =>
      exact ⟨engaged.1, engaged.2.mono (List.append_subset.mpr
        ⟨List.subset_append_left _ _, List.Subset.trans sub (List.subset_append_right _ _)⟩)⟩

theorem Writing.mono {rest : BackendRest} {f : StoredMode → StoredMode} {more : List Half}
    (writing : Writing vfo halves half rest f) (sub : halves ⊆ more) :
    Writing vfo more half rest f := by
  cases writing with
  | looking => exact .looking
  | sending snap ok error => exact .sending snap ok error
  | recording => exact .recording
  | recorded bytes took => exact .recorded bytes (sub took)

/-- What a party does that waits for nothing leaves the others waiting. -/
theorem Awaits.put {other : Requester} {left : List Half} {activity : Activity}
    (awaits : Awaits todo d other half) (ne : other ≠ who) :
    Awaits (Function.update todo who left) (d.put who activity) other half := by
  obtain ⟨⟨next, waiting⟩, head⟩ := awaits
  refine ⟨⟨next, ?_⟩, ?_⟩
  · simpa [Desk.put, Function.update_of_ne ne] using waiting
  · rwa [Function.update_of_ne ne]

namespace Race

/-- Only a party that waits has an operation on its way. -/
theorem waits (race : Race vfo radio first asked halves todo d) (mem : who ∈ inFlight d) :
    ∃ next, d.activity who = .waiting next := by
  rcases List.mem_append.mp mem with executing | queued
  · obtain ⟨⟨other, rest⟩, running, rfl⟩ := List.mem_map.mp executing
    have now := race.executing
    rw [Option.mem_toList.mp running] at now
    obtain ⟨half, f, awaits, -⟩ := now
    exact awaits.1
  · obtain ⟨op, waiting, rfl⟩ := List.mem_map.mp queued
    obtain ⟨half, awaits, -⟩ := race.queued op waiting
    exact awaits.1

/-- A party with nothing on its way moves. -/
theorem put (race : Race vfo radio first asked halves todo d) {asked' : List (Mode × Bool)}
    {activity : Activity} (left : List Half) (free : who ∉ inFlight d)
    (engaged : Engaged vfo halves left activity)
    (ended : activity = .idle → asked' ≠ [] → Complete halves) :
    Race vfo radio first asked' halves (Function.update todo who left) (d.put who activity) where
  operating := race.operating
  activity other := by
    by_cases same : other = who
    · subst same
      simpa [Desk.put] using engaged
    · simpa [Desk.put, Function.update_of_ne same] using race.activity other
  queued op mem := by
    obtain ⟨half, awaits, kind⟩ := race.queued op mem
    refine ⟨half, awaits.put ?_, kind⟩
    rintro rfl
    exact free (List.mem_append_right _ (List.mem_map_of_mem mem))
  distinct := race.distinct
  executing := by
    have now := race.executing
    show Executes vfo halves _ (d.put who activity) _ d.executing
    cases running : d.executing with
    | none =>
        rw [running] at now
        exact now
    | some one =>
        rw [running] at now
        obtain ⟨half, f, awaits, writing, mode⟩ := now
        refine ⟨half, f, awaits.put ?_, writing, mode⟩
        rintro rfl
        refine free (List.mem_append_left _ (List.mem_map_of_mem ?_))
        exact Option.mem_toList.mpr running
  cache := race.cache
  ended idle some_ := ended (by simpa [Desk.put] using idle who) some_

/-- A half that is redundant takes effect without a change. -/
theorem drop (race : Race vfo radio first asked halves todo d)
    (same : half.set d.state.snapshot.inMode = d.state.snapshot.inMode) :
    Race vfo radio first asked (halves ++ [half]) todo d where
  operating := race.operating
  activity other := (race.activity other).mono (List.subset_append_left _ _)
  queued := race.queued
  distinct := race.distinct
  executing := by
    have now := race.executing
    cases running : d.executing with
    | none =>
        rw [running] at now
        exact now
    | some one =>
        rw [running] at now
        obtain ⟨half, f, awaits, writing, mode⟩ := now
        exact ⟨half, f, awaits, writing.mono (List.subset_append_left _ _), mode⟩
  cache := by
    rw [List.foldl_append, ← race.cache]
    exact same.symm
  ended idle some_ := (race.ended idle some_).mono (List.subset_append_left _ _)

/-- A party that waits submits what it waits for. -/
theorem enqueue (race : Race vfo radio first asked halves todo d) (free : who ∉ inFlight d)
    (awaits : Awaits todo d who half) (sessionId : Nat) (priority : Priority) :
    Race vfo radio first asked halves todo { d with
      queues := Radio.enqueue d.queues ⟨sessionId, priority, .apply (half.mutation vfo), who⟩ } where
  operating := race.operating
  activity := race.activity
  queued op mem := by
    rcases List.mem_cons.mp ((pending_enqueue d.queues _).mem_iff.mp mem) with rfl | mem
    · exact ⟨half, awaits, rfl⟩
    · exact race.queued op mem
  distinct := by
    have queue := ((pending_enqueue d.queues
      ⟨sessionId, priority, .apply (half.mutation vfo), who⟩).map (·.reply)).append_left
        (d.executing.toList.map Prod.fst)
    refine (queue.trans List.perm_middle).nodup_iff.mpr ?_
    exact List.nodup_cons.mpr ⟨free, race.distinct⟩
  executing := race.executing
  cache := race.cache
  ended := race.ended

/-- A session takes its next step; what it ends with is success. -/
theorem go {endpoint : Nat → FrontEnd × Context} {d' : Desk} {o : Option (List UInt8)}
    (race : Race vfo radio first asked halves todo d)
    (step : (desk ts590Backend endpoint).step d (.go who) = some (d', o))
    (success : ∀ reply, o = some reply → Succeeds reply) :
    ∃ todo', Race vfo radio first asked (halves ++ (takesEffect d (.go who)).toList) todo' d' := by
  simp only [desk] at step
  split at step
  · rename_i rest running
    have free : who ∉ inFlight d := by
      intro mem
      obtain ⟨next, waiting⟩ := race.waits mem
      cases running.symm.trans waiting
    have engaged := race.activity who
    -- no question of a session that sets the mode changes its world
    have settled : d.settle who (d.world who) = d := by
      simp [Desk.settle, Desk.world, Function.update_eq_self]
    rw [running] at engaged
    obtain ⟨owes, complete⟩ := engaged
    cases rest with
    | done reply =>
        obtain ⟨rfl, rfl⟩ := Prod.mk.inj (Option.some.inj step)
        -- success leaves nothing to do, so both halves have taken effect
        have none : todo who = [] := owes (success reply rfl)
        rw [none] at complete
        simp only [takesEffect, running, Option.toList_none, List.append_nil]
        exact ⟨_, race.put [] free trivial (fun _ _ => complete)⟩
    | ask q next =>
        cases q with
        | snapshot =>
            obtain ⟨rfl, rfl⟩ := Prod.mk.inj (Option.some.inj step)
            show ∃ todo', Race vfo radio first asked _ todo' ((d.settle who (d.world who)).put who
              (.running (next d.state.snapshot)))
            simp only [takesEffect, running, Option.toList_none, List.append_nil, settled]
            refine ⟨_, race.put (todo who) free ⟨owes _ race.operating, complete⟩ ?_⟩
            exact fun idle _ => by cases idle
        | isRedundant mutation =>
            obtain ⟨half, rest, left, rfl, yes, no⟩ := owes
            obtain ⟨rfl, rfl⟩ := Prod.mk.inj (Option.some.inj step)
            show ∃ todo', Race vfo radio first asked _ todo' ((d.settle who (d.world who)).put who
              (.running (next (d.state.isRedundant (half.mutation vfo)))))
            rw [settled]
            cases redundant : d.state.isRedundant (half.mutation vfo) with
            | true =>
                simp only [takesEffect, running, redundant, if_true, Half.ofChange_mutation,
                  Option.toList_some]
                have same := @Half.set_redundant d.state half (race.operating ▸ redundant)
                rw [left] at complete
                exact ⟨_, (race.drop same).put rest free
                  ⟨yes, complete.mono (by simp)⟩ (fun idle _ => by cases idle)⟩
            | false =>
                simp only [takesEffect, running, redundant, Bool.false_eq_true, if_false,
                  Option.toList_none, List.append_nil]
                exact ⟨_, race.put (todo who) free ⟨no, complete⟩ (fun idle _ => by cases idle)⟩
        | submit sessionId priority kind =>
            obtain ⟨half, rest, left, rfl, done, failed⟩ := owes
            obtain ⟨rfl, rfl⟩ := Prod.mk.inj (Option.some.inj step)
            simp only [takesEffect, running, Option.toList_none, List.append_nil]
            have waits : Race vfo radio first asked halves _ (d.put who (.waiting next)) :=
              race.put (todo who) free ⟨⟨half, rest, left, done, failed⟩, complete⟩
                (fun idle _ => by cases idle)
            have awaits : Awaits (Function.update todo who (todo who)) (d.put who (.waiting next)) who
                half := ⟨⟨next, by simp [Desk.put]⟩, by simp [left]⟩
            exact ⟨_, waits.enqueue free awaits sessionId priority⟩
        | _ => exact owes.elim
  · cases step

/-- The scheduler turns to the next operation. -/
theorem select {endpoint : Nat → FrontEnd × Context} {d' : Desk} {o : Option (List UInt8)}
    (race : Race vfo radio first asked halves todo d)
    (step : (desk ts590Backend endpoint).step d .select = some (d', o)) :
    Race vfo radio first asked halves todo d' := by
  simp only [desk] at step
  split at step
  · rename_i op queues resting selected
    obtain ⟨rfl, rfl⟩ := Prod.mk.inj (Option.some.inj step)
    have taken := pending_selectNext selected
    obtain ⟨half, awaits, kind⟩ := race.queued op (taken.mem_iff.mpr List.mem_cons_self)
    have mode := race.executing
    rw [resting] at mode
    exact
      { operating := race.operating
        activity := race.activity
        queued := fun other mem => race.queued other (taken.mem_iff.mpr (List.mem_cons_of_mem _ mem))
        distinct := by
          have distinct := race.distinct
          rw [inFlight, resting] at distinct
          exact (taken.map fun op : Operation Requester => op.reply).nodup_iff.mp distinct
        executing := ⟨half, id, awaits, kind ▸ .looking, mode⟩
        cache := race.cache
        ended := race.ended }
  · cases step

/-- The program of a half. -/
theorem execute_half (vfo : Vfo) (half : Half) :
    (execute ts590Backend (.apply (half.mutation vfo))).run = .ask .snapshot fun snap =>
      .ask (.submit (Radio.Ts590.applyBytes snap (half.mutation vfo)) .noReply) fun
        | .ok _ => recordRest (half.mutation vfo)
        | .error error => .done (.error error) := by
  cases half <;>
  · refine congrArg (Program.ask _) (funext fun snap => congrArg (Program.ask _) (funext fun answer => ?_))
    cases answer <;> rfl

/-- The operation in execution goes on. -/
theorem advance {state : StateHandle} {wire : List (List UInt8)} {more : List Half}
    {rest rest' : BackendRest} {f : StoredMode → StoredMode}
    (race : Race vfo radio first asked halves todo d) (executing : d.executing = some (who, rest))
    (awaits : Awaits todo d who half) (writing : Writing vfo more half rest' f)
    (mode : (radio.executeAll wire).inMode = f state.snapshot.inMode) (sub : halves ⊆ more)
    (operating : state.snapshot.rxVfo = vfo)
    (cache : state.snapshot.inMode = more.foldl (fun mode half => half.set mode) first) :
    Race vfo radio first asked more todo
      { d with state, wire, executing := some (who, rest') } where
  operating := operating
  activity other := (race.activity other).mono sub
  queued := race.queued
  distinct := by
    have distinct := race.distinct
    rw [inFlight, executing] at distinct
    exact distinct
  executing := ⟨half, f, awaits, writing, mode⟩
  cache := cache
  ended idle some_ := (race.ended idle some_).mono sub

/-- The backend looks at the snapshot, or records the half that went out. -/
theorem work {endpoint : Nat → FrontEnd × Context} {d' : Desk} {o : Option (List UInt8)}
    (race : Race vfo radio first asked halves todo d)
    (step : (desk ts590Backend endpoint).step d .work = some (d', o)) :
    Race vfo radio first asked (halves ++ (takesEffect d .work).toList) todo d' := by
  simp only [desk] at step
  split at step
  · rename_i who rest executing
    obtain ⟨after, worked, same⟩ := Option.map_eq_some_iff.mp step
    obtain ⟨rfl, rfl⟩ := Prod.mk.inj same
    have now := race.executing
    rw [executing] at now
    obtain ⟨half, f, awaits, writing, mode⟩ := now
    cases writing with
    | looking =>
        rw [execute_half] at executing worked
        obtain rfl := Option.some.inj worked
        simp only [takesEffect, executing, Option.toList_none, List.append_nil]
        exact race.advance executing awaits (.sending _ (fun _ => rfl) (fun _ => rfl)) mode
          (List.Subset.refl _) race.operating race.cache
    | sending => cases worked
    | recording =>
        obtain rfl := Option.some.inj worked
        have recorded := Half.inMode_record d.state half .optimisticWrite
        rw [race.operating] at recorded
        simp only [takesEffect, executing, recordRest, Half.ofChange_mutation, Option.toList_some]
        refine race.advance executing awaits (.recorded [] (by simp)) (mode.trans recorded.1.symm)
          (List.subset_append_left _ _) recorded.2 ?_
        rw [recorded.1, race.cache, List.foldl_append]
        rfl
    | recorded => cases worked
  · cases step

/-- The link takes the bytes of a half, or fails its session. -/
theorem link {endpoint : Nat → FrontEnd × Context} {d' : Desk} {o : Option (List UInt8)}
    {answer : Except BackendError (List UInt8)} (race : Race vfo radio first asked halves todo d)
    (step : (desk ts590Backend endpoint).step d (.link answer) = some (d', o)) :
    Doomed d' ∨ Race vfo radio first asked halves todo d' := by
  simp only [desk] at step
  split at step
  · rename_i who bytes expect next executing
    obtain ⟨rfl, rfl⟩ := Prod.mk.inj (Option.some.inj step)
    have now := race.executing
    rw [executing] at now
    obtain ⟨half, f, awaits, writing, mode⟩ := now
    cases writing with
    | sending snap ok error =>
        cases answer with
        | error fault =>
            obtain ⟨⟨later, waiting⟩, head⟩ := awaits
            have engaged := race.activity who
            rw [waiting] at engaged
            obtain ⟨⟨_, _, _, _, failed⟩, _⟩ := engaged
            refine .inl ⟨who, .inr ⟨later, fault, waiting, failed, ?_⟩⟩
            rw [error]
        | ok reply =>
            refine .inr ?_
            rw [ok]
            refine race.advance executing awaits .recording ?_ (List.Subset.refl _) race.operating
              race.cache
            rw [Transceiver.executeAll, List.foldl_append]
            exact (Half.inMode_execute _ _ snap half vfo).trans (congrArg half.set mode)
  · cases step

/-- An operation that has ended answers its session. -/
theorem finish {endpoint : Nat → FrontEnd × Context} {d' : Desk} {o : Option (List UInt8)}
    (race : Race vfo radio first asked halves todo d)
    (step : (desk ts590Backend endpoint).step d .finish = some (d', o)) :
    ∃ todo', Race vfo radio first asked halves todo' d' := by
  simp only [desk] at step
  split at step
  · rename_i who result executing
    have now := race.executing
    rw [executing] at now
    obtain ⟨half, f, ⟨⟨next, waiting⟩, head⟩, writing, mode⟩ := now
    rw [waiting] at step
    obtain ⟨rfl, rfl⟩ := Prod.mk.inj (Option.some.inj step)
    cases writing with
    | recorded bytes took =>
        have engaged := race.activity who
        rw [waiting] at engaged
        obtain ⟨⟨first', rest, left, done, failed⟩, complete⟩ := engaged
        rw [left] at head complete
        obtain rfl := Option.some.inj head
        have distinct := race.distinct
        rw [inFlight, executing] at distinct
        obtain ⟨free, others⟩ := List.nodup_cons.mp distinct
        have resting : Race vfo radio first asked halves todo { d with executing := none } :=
          { race with distinct := others, executing := mode }
        refine ⟨_, resting.put rest free ⟨done bytes, complete.mono ?_⟩ (fun idle _ => by cases idle)⟩
        -- the half that is no longer owed has been recorded
        intro other mem
        rcases List.mem_cons.mp mem with rfl | mem
        · exact List.mem_append_right _ took
        · exact mem
  · cases step

end Race

/-! ### A radio that fails -/

theorem Desk.put_other (d : Desk) {who other : Requester} (activity : Activity) (ne : other ≠ who) :
    (d.put who activity).activity other = d.activity other := by
  simp [Desk.put, Function.update_of_ne ne]

/-- A step of one party leaves the others alone. -/
theorem Desk.goOn_other (d : Desk) {other : Requester} (rest : Session (List UInt8))
    (ne : other ≠ who) : (d.goOn who rest).1.activity other = d.activity other := by
  cases rest with
  | done reply => exact d.put_other _ ne
  | ask q next => cases q <;> exact Desk.put_other _ _ ne

theorem Desk.goOn_executing (d : Desk) (who : Requester) (rest : Session (List UInt8)) :
    (d.goOn who rest).1.executing = d.executing := by
  cases rest with
  | done reply => rfl
  | ask q next => cases q <;> rfl

/-- An operation ends without a party whose program runs. -/
theorem Desk.running_finish {backend : RadioBackend} {endpoint : Nat → FrontEnd × Context} {d' : Desk}
    {o : Option (List UInt8)} {rest : Session (List UInt8)}
    (step : (desk backend endpoint).step d .finish = some (d', o))
    (running : d.activity who = .running rest) : d'.activity who = .running rest := by
  simp only [desk] at step
  split at step
  · split at step
    · rename_i waiting
      cases step
      refine (Desk.put_other _ _ ?_).trans running
      rintro rfl
      cases running.symm.trans waiting
    · cases step
      exact running
  · cases step

/-- A party that is not idle is moved by its own step alone, or by the end of an operation. -/
theorem Desk.activity_stays {backend : RadioBackend} {endpoint : Nat → FrontEnd × Context} {d' : Desk}
    {input : DeskInput} {o : Option (List UInt8)}
    (step : (desk backend endpoint).step d input = some (d', o)) (busy : d.activity who ≠ .idle)
    (other : input ≠ .go who) (unfinished : input ≠ .finish) :
    d'.activity who = d.activity who := by
  -- whoever starts was idle
  have elsewhere : ∀ {starter : Requester}, d.activity starter = .idle → who ≠ starter := by
    rintro starter idle rfl
    exact busy idle
  cases input with
  | pass | push | connect =>
      cases step
      rfl
  | request | disconnect | checkCeiling =>
      simp only [desk] at step
      split at step
      · rename_i idle _
        cases step
        exact Desk.put_other _ _ (elsewhere idle)
      · cases step
  | poll =>
      simp only [desk] at step
      split at step
      · rename_i idle
        cases step
        exact Desk.put_other _ _ (elsewhere idle)
      · cases step
  | go mover =>
      simp only [desk] at step
      split at step
      · rename_i rest running
        have left := d.goOn_other rest (fun same => other (same ▸ rfl) : who ≠ mover)
        rwa [Option.some.inj step] at left
      · cases step
  | select | link =>
      simp only [desk] at step
      split at step
      · cases step
        rfl
      · cases step
  | work =>
      simp only [desk] at step
      split at step
      · obtain ⟨after, worked, same⟩ := Option.map_eq_some_iff.mp step
        cases same
        unfold Desk.workOn at worked
        split at worked <;> cases worked <;> rfl
      · cases step
  | finish => exact absurd rfl unfinished

/-- The result of an operation stays until the operation ends. -/
theorem Desk.result_stays {backend : RadioBackend} {endpoint : Nat → FrontEnd × Context} {d' : Desk}
    {input : DeskInput} {o : Option (List UInt8)} {result : Except BackendError (List UInt8)}
    (step : (desk backend endpoint).step d input = some (d', o))
    (executing : d.executing = some (who, .done result)) (unfinished : input ≠ .finish) :
    d'.executing = some (who, .done result) := by
  cases input with
  | pass | push | connect =>
      cases step
      exact executing
  | request | disconnect | checkCeiling | poll =>
      simp only [desk] at step
      split at step
      · cases step
        exact executing
      · cases step
  | go mover =>
      simp only [desk] at step
      split at step
      · rename_i rest running
        have left := d.goOn_executing mover rest
        rw [Option.some.inj step] at left
        exact left.trans executing
      · cases step
  | select | work | link =>
      -- the scheduler waits, and nothing is left to execute
      simp only [desk, executing] at step
      cases step
  | finish => exact absurd rfl unfinished

/-- A session that the radio has failed goes on to say so, as long as every answer is success. -/
theorem Doomed.step {endpoint : Nat → FrontEnd × Context} {d' : Desk} {input : DeskInput}
    {o : Option (List UInt8)} (doomed : Doomed d)
    (step : (desk ts590Backend endpoint).step d input = some (d', o))
    (success : ∀ reply, o = some reply → Succeeds reply) : Doomed d' := by
  obtain ⟨who, ⟨rest, running, fails⟩ | ⟨next, error, waiting, fails, executing⟩⟩ := doomed
  · have busy : d.activity who ≠ .idle := by simp [running]
    by_cases own : input = .go who
    · -- what the session has left to do is to report the failure
      subst own
      obtain ⟨reply, rfl, failed⟩ := fails
      simp only [desk, running] at step
      obtain ⟨rfl, rfl⟩ := Prod.mk.inj (Option.some.inj step)
      exact absurd (success reply rfl) failed
    · by_cases ends : input = .finish
      · subst ends
        exact ⟨who, .inl ⟨rest, Desk.running_finish step running, fails⟩⟩
      · exact ⟨who, .inl ⟨rest, (Desk.activity_stays step busy own ends).trans running, fails⟩⟩
  · have busy : d.activity who ≠ .idle := by simp [waiting]
    by_cases ends : input = .finish
    · subst ends
      simp only [desk, executing, waiting] at step
      cases step
      exact ⟨who, .inl ⟨next (.error error), by simp [Desk.put], fails error⟩⟩
    · have own : input ≠ .go who := by
        rintro rfl
        simp [desk, waiting] at step
      exact ⟨who, .inr ⟨next, error, (Desk.activity_stays step busy own ends).trans waiting, fails,
        Desk.result_stays step executing ends⟩⟩

/-! ### Every run -/

variable {endpoint : Nat → FrontEnd × Context} {start stop : Desk} {history : List RaceStep}

theorem Race.step {d' : Desk} {input : DeskInput} {o : Option (List UInt8)}
    (race : Race vfo radio first asked halves todo d)
    (step : (desk ts590Backend endpoint).step d input = some (d', o)) (races : Races endpoint input)
    (success : ∀ reply, o = some reply → Succeeds reply) :
    Doomed d' ∨ ∃ todo', Race vfo radio first (asked ++ input.asked.toList)
      (halves ++ (takesEffect d input).toList) todo' d' := by
  cases input with
  | go who =>
      obtain ⟨todo', after⟩ := race.go step success
      exact .inr ⟨todo', by simpa [DeskInput.asked] using after⟩
  | pass elapsed =>
      cases step
      exact .inr ⟨todo, by simpa [DeskInput.asked, takesEffect] using { race with }⟩
  | request sessionId line =>
      simp only [desk] at step
      split at step
      · rename_i idle _
        cases step
        obtain ⟨hamlib, sets⟩ := races
        obtain ⟨pair, sets⟩ := Option.isSome_iff_exists.mp sets
        have free : .session sessionId ∉ inFlight d := by
          intro mem
          obtain ⟨next, waiting⟩ := race.waits mem
          cases idle.symm.trans waiting
        have owes := @owes_handle vfo (endpoint sessionId).2 line pair sets
        rw [hamlib]
        simp only [takesEffect, Option.toList_none, List.append_nil]
        refine .inr ⟨_, race.put _ free ⟨owes, ⟨pair.1, by simp⟩, pair.2, by simp⟩ ?_⟩
        exact fun idle _ => by cases idle
      · cases step
  | select =>
      exact .inr ⟨todo, by simpa [DeskInput.asked, takesEffect] using race.select step⟩
  | work => exact .inr ⟨todo, by simpa [DeskInput.asked] using race.work step⟩
  | link answer =>
      rcases race.link step with doomed | after
      · exact .inl doomed
      · exact .inr ⟨todo, by simpa [DeskInput.asked, takesEffect] using after⟩
  | finish =>
      obtain ⟨todo', after⟩ := race.finish step
      exact .inr ⟨todo', by simpa [DeskInput.asked, takesEffect] using after⟩
  | _ => exact races.elim

theorem race_run (fresh : start.Fresh) (sync : radio.inMode = start.state.snapshot.inMode)
    (run : (desk ts590Backend endpoint).Execution start history stop)
    (races : ∀ e ∈ history, Races endpoint e.input)
    (success : ∀ e ∈ history, ∀ reply, e.output = some reply → Succeeds reply) :
    Doomed stop ∨ ∃ todo, Race start.state.snapshot.rxVfo radio start.state.snapshot.inMode
      (requested history) (took history) todo stop := by
  refine run.guarded (I := fun history d => Doomed d ∨ ∃ todo, Race start.state.snapshot.rxVfo radio
      start.state.snapshot.inMode (requested history) (took history) todo d)
    (G := fun e => Races endpoint e.input ∧ ∀ reply, e.output = some reply → Succeeds reply)
    (.inr ⟨fun _ => [], ?_⟩) ?_ (fun e mem => ⟨races e mem, success e mem⟩)
  · exact
      { operating := rfl
        activity := fun who => by
          rw [fresh.idle]
          trivial
        queued := fun op mem => by
          rw [fresh.queues] at mem
          cases mem
        distinct := by
          rw [inFlight, fresh.executing, fresh.queues]
          exact List.nodup_nil
        executing := by
          rw [fresh.executing, fresh.wire]
          exact sync
        cache := rfl
        ended := fun _ some_ => absurd rfl some_ }
  · rintro history d input o d' - (doomed | ⟨todo, race⟩) step ⟨racing, replied⟩
    · exact .inl (doomed.step step replied)
    · have last : ∀ {β : Type} (f : RaceStep → Option β) (e : RaceStep),
          (history ++ [e]).filterMap f = history.filterMap f ++ (f e).toList := by
        intro β f e
        cases value : f e <;> simp [value]
      rw [requested, took, last, last]
      exact race.step step racing replied

/-- Where all are answered, the radio and the snapshot are in the mode of the last halves. -/
theorem ends_in_last (fresh : start.Fresh) (sync : radio.inMode = start.state.snapshot.inMode)
    (run : (desk ts590Backend endpoint).Execution start history stop)
    (races : ∀ e ∈ history, Races endpoint e.input) (answered : AllAnswered history stop) :
    (radio.executeAll stop.wire).inMode = stop.state.snapshot.inMode ∧
      (requested history ≠ [] → ∃ mode on, lastMode (took history) = some mode ∧
        lastData (took history) = some on ∧
        stop.state.snapshot.inMode = (mode.toKenwoodDigit, on)) := by
  rcases race_run fresh sync run races answered.success with ⟨who, state⟩ | ⟨todo, race⟩
  · rcases state with ⟨rest, busy, -⟩ | ⟨next, error, busy, -⟩ <;>
      cases (answered.idle who).symm.trans busy
  · constructor
    · have now := race.executing
      cases running : stop.executing with
      | none =>
          rw [running] at now
          exact now
      | some one =>
          -- an operation in execution would have a session that waits
          rw [running] at now
          obtain ⟨half, f, ⟨⟨next, waiting⟩, -⟩, -⟩ := now
          cases (answered.idle one.1).symm.trans waiting
    · intro some_
      obtain ⟨mode, on, isMode, isOn⟩ := (race.ended answered.idle some_).last
      refine ⟨mode, on, isMode, isOn, ?_⟩
      rw [race.cache, foldl_set, isMode, isOn]
      rfl

end

/-! ## What the requests get -/

/-- What a radio shows that is in the mode asked for. -/
def digits (asked : Mode × Bool) : StoredMode := (asked.1.toKenwoodDigit, asked.2)

/-- The base half that took effect last has the mode asked for, and the DATA half that took effect last
has its flag. -/
def ClosedBy (halves : List Half) (asked : Mode × Bool) : Prop :=
  (lastMode halves).map Mode.toKenwoodDigit = some asked.1.toKenwoodDigit ∧
    lastData halves = some asked.2

/-- **When the requests do not mix.**  Sessions that set the mode start from a radio and a snapshot that
agree, interleave in any way, and are all answered with success.  They leave the radio and the snapshot
in a mode that one of them asked for exactly if the last halves of both kinds fit one of them. -/
theorem modes_unmixed_iff {endpoint : Nat → FrontEnd × Context} {radio : Transceiver}
    {start stop : Desk} {history : List RaceStep} (fresh : start.Fresh)
    (sync : radio.inMode = start.state.snapshot.inMode)
    (run : (desk ts590Backend endpoint).Execution start history stop)
    (races : ∀ e ∈ history, Races endpoint e.input) (answered : AllAnswered history stop) :
    (∃ asked ∈ requested history, (radio.executeAll stop.wire).inMode = digits asked ∧
        stop.state.snapshot.inMode = digits asked) ↔
      ∃ asked ∈ requested history, ClosedBy (took history) asked := by
  obtain ⟨agree, ends⟩ := ends_in_last fresh sync run races answered
  refine exists_congr fun asked => and_congr_right fun mem => ?_
  obtain ⟨mode, on, isMode, isOn, shown⟩ := ends (List.ne_nil_of_mem mem)
  rw [agree, and_self, shown, digits, ClosedBy, isMode, isOn, Prod.mk.injEq]
  simp

/-! ### Two sessions -/

open Radio.Ts590 (ascii)

/-- The session that an input is a request of. -/
def DeskInput.requester : DeskInput → Option Nat
  | .request sessionId _ => some sessionId
  | _ => none

/-- Hamlib clients that may write. -/
def clients (sessionId : Nat) : FrontEnd × Context :=
  (.hamlibNet, ⟨sessionId, ⟨true, true, false, false, false⟩, true, true, false, []⟩)

/-- The radio and the snapshot are in CW. -/
def radioInCw : Transceiver := { a := { modeDigit := 0x33 } }

def deskInCw : Desk where
  state := { snapshot := { a := { mode := .cw } } }
  ptt := { maxTx := 0 }

/-- The scheduler runs one operation, and the link takes it. -/
def served : List DeskInput := [.select, .work, .link (.ok []), .work, .finish]

/-- One session asks for USB with DATA and the other for LSB, and both base halves go out. -/
def bothBases : List DeskInput :=
  [.request 1 (ascii ['M', ' ', 'P', 'K', 'T', 'U', 'S', 'B', ' ', '0']),
    .request 2 (ascii ['M', ' ', 'L', 'S', 'B', ' ', '0']),
    .go (.session 1), .go (.session 2), .go (.session 1), .go (.session 2), .go (.session 1),
    .go (.session 2)] ++ served ++ served

/-- The second session finds its flag to be off after the first has turned it on, and turns it off. -/
def lastWins : List DeskInput :=
  bothBases ++ [.go (.session 1), .go (.session 1)] ++ served ++
    [.go (.session 1), .go (.session 2), .go (.session 2)] ++ served ++ [.go (.session 2)]

/-- The second session finds its flag to be off while the first is about to turn it on. -/
def dropsFlag : List DeskInput :=
  bothBases ++ [.go (.session 1), .go (.session 1), .go (.session 2), .go (.session 2)] ++ served ++
    [.go (.session 1)]

theorem fresh_deskInCw : deskInCw.Fresh := ⟨fun _ => rfl, rfl, rfl, rfl⟩

/-- A run of the two sessions, in which both are answered. -/
theorem answered_of_exec {inputs : List DeskInput} {history : List RaceStep} {stop : Desk}
    (ran : (desk ts590Backend clients).exec deskInCw inputs = some (history, stop))
    (races : inputs.all (fun input => decide (Races clients input)) = true)
    (idle : ∀ who, stop.activity who = .idle)
    (outputs : history.filterMap (·.output) = [HamlibNet.rprtOk, HamlibNet.rprtOk]) :
    (desk ts590Backend clients).Execution deskInCw history stop ∧
      (∀ e ∈ history, Races clients e.input) ∧ AllAnswered history stop := by
  refine ⟨Machine.execution_of_exec ran, fun e mem => ?_, idle, fun e mem reply replied => ?_⟩
  · have input : e.input ∈ inputs := by
      rw [← Machine.inputs_of_exec ran]
      exact List.mem_map_of_mem mem
    exact of_decide_eq_true (List.all_eq_true.mp races _ input)
  · have given : reply ∈ history.filterMap (·.output) := List.mem_filterMap.mpr ⟨e, mem, replied⟩
    rw [outputs] at given
    obtain rfl : reply = HamlibNet.rprtOk := by simpa using given
    exact List.suffix_refl _

/-- Where the last halves are both of the second session, its mode is the one that stays. -/
theorem modes_unmixed_iff_lsb : ∃ (history : List RaceStep) (stop : Desk),
    (desk ts590Backend clients).Execution deskInCw history stop ∧
      requested history = [(.usb, true), (.lsb, false)] ∧
      ∃ asked ∈ requested history, (radioInCw.executeAll stop.wire).inMode = digits asked ∧
        stop.state.snapshot.inMode = digits asked := by
  have ran : (desk ts590Backend clients).exec deskInCw lastWins = some (_, _) := rfl
  obtain ⟨run, races, answered⟩ := answered_of_exec ran rfl
    (fun | .watchdog | .session 0 | .session 1 | .session 2 | .session (_ + 3) => rfl) rfl
  exact ⟨_, _, run, rfl, (modes_unmixed_iff fresh_deskInCw rfl run races answered).mpr
    ⟨(.lsb, false), List.mem_cons_of_mem _ List.mem_cons_self, rfl, rfl⟩⟩

/-- The DATA flag of one request on the base mode of the other: LSB with DATA, which nobody asked for. -/
theorem modes_mix : ¬ ∀ (endpoint : Nat → FrontEnd × Context) (radio : Transceiver) (start stop : Desk)
    (history : List RaceStep), start.Fresh → radio.rx = start.state.snapshot.rxVfo →
      radio.inMode = start.state.snapshot.inMode →
      (desk ts590Backend endpoint).Execution start history stop →
      (∀ e ∈ history, Races endpoint e.input) →
      (history.filterMap (·.input.requester)).Nodup → 2 ≤ (requested history).length →
      AllAnswered history stop →
      ∃ asked ∈ requested history, (radio.executeAll stop.wire).inMode = digits asked ∧
        stop.state.snapshot.inMode = digits asked := by
  intro claim
  have ran : (desk ts590Backend clients).exec deskInCw dropsFlag = some (_, _) := rfl
  obtain ⟨run, races, answered⟩ := answered_of_exec ran rfl
    (fun | .watchdog | .session 0 | .session 1 | .session 2 | .session (_ + 3) => rfl) rfl
  obtain ⟨asked, mem, -, shown⟩ := claim clients radioInCw deskInCw _ _ fresh_deskInCw rfl rfl run races
    (by decide) (by decide) answered
  have neither : ∀ asked ∈ [(Mode.usb, true), (Mode.lsb, false)],
      ((0x31, true) : StoredMode) ≠ digits asked := by decide
  exact neither asked mem shown

end CatHub.Dialect
