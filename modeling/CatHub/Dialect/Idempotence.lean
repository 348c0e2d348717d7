/-
# CatHub.Dialect.Idempotence — a write that is made again is not sent again.

`applyModeled` drops a write that the cache already holds, and the cache is what the last write has
recorded.  `isRedundant_apply` says that the two fit: whatever the state was, once the TS-590 backend
has applied a mutation the handle calls it redundant.  `answerHub` puts a session in front of a backend
on a link that may fail, and `repeat_is_silent` is the law for a session there.
-/
import CatHub.Dialect.Session

namespace CatHub.Dialect

open Systems Radio Ptt

/-! ## What a write leaves behind -/

/-- A mode write names the VFO that the hub receives on. -/
def Operating (mutation : StateMutation) (rxVfo : Vfo) : Prop :=
  match mutation with
  | .setMode vfo _ | .setDataMode vfo _ => vfo = rxVfo
  | _ => True

/-- What was recorded is redundant: a request is compared with the slots that its own change fills. -/
theorem isRedundant_record (h : StateHandle) (source : RadioEventSource) {mutation : StateMutation}
    (notPtt : isSetPtt mutation = false) (operating : Operating mutation h.snapshot.rxVfo) :
    (h.record mutation.intoChange source).isRedundant mutation = true := by
  cases mutation with
  | setPtt keyed source => cases notPtt
  | setMode vfo mode =>
      obtain rfl : vfo = h.snapshot.rxVfo := operating
      -- the record takes the mark of the fact away
      have settled : ModeFact.base h.snapshot.rxVfo ∉
          (h.record (.mode h.snapshot.rxVfo mode) source).uncertainMode := by
        simp [StateHandle.record, StateHandle.settleModeFacts]
      simp [StateHandle.isRedundant, StateMutation.intoChange, settled, Snapshot.isRedundant,
        Snapshot.applyChange, Snapshot.vfo_setVfo, (Snapshot.setVfo_rest h.snapshot _ _).1]
  | setDataMode vfo on =>
      have settled : ModeFact.data vfo ∉ (h.record (.dataMode vfo on) source).uncertainMode := by
        simp [StateHandle.record, StateHandle.settleModeFacts]
      simp [StateHandle.isRedundant, StateMutation.intoChange, settled, Snapshot.isRedundant,
        Snapshot.applyChange, Snapshot.vfo_setVfo]
  | setSplit enabled txVfo =>
      cases txVfo <;> simp [StateHandle.isRedundant, StateMutation.intoChange, Snapshot.isRedundant,
        Snapshot.applyChange]
  | _ =>
      simp [StateHandle.isRedundant, StateMutation.intoChange, Snapshot.isRedundant,
        Snapshot.applyChange, Snapshot.vfo_setVfo]

/-- What was applied is redundant. -/
theorem isRedundant_apply (h : StateHandle) {mutation : StateMutation}
    (notPtt : isSetPtt mutation = false) (operating : Operating mutation h.snapshot.rxVfo) :
    (Ts590.apply h mutation).2.isRedundant mutation = true := by
  have recorded := isRedundant_record h .optimisticWrite notPtt operating
  cases mutation with
  | setRxVfo vfo =>
      -- the split that goes with a switch leaves the receive VFO alone
      cases split : h.snapshot.split with
      | true => simpa [Ts590.apply, Ts590.applyRecords, Ts590.recordAll, split] using recorded
      | false =>
          simp [Ts590.apply, Ts590.applyRecords, Ts590.recordAll, StateHandle.isRedundant,
            StateMutation.intoChange, Snapshot.isRedundant, Snapshot.applyChange, split]
  | _ => exact recorded

/-! ## A session in front of the backend -/

/-- A link that keeps what is submitted.  It may fail, and its answers may depend on all it was given. -/
def keeping (link : List (List UInt8) → Except BackendError (List UInt8)) (bytes : List UInt8)
    (wire : List (List UInt8)) : Except BackendError (List UInt8) × List (List UInt8) :=
  (link (wire ++ [bytes]), wire ++ [bytes])

/-- The world of a session, and what was submitted to the radio.  `meanwhile` is what happens before the
scheduler comes to a submission. -/
def answerHub (meanwhile : World → World)
    (link : List (List UInt8) → Except BackendError (List UInt8)) :
    (q : Question) → World × List (List UInt8) → q.Answer × (World × List (List UInt8))
  | .submit _ _ kind, (w, wire) =>
      let w := meanwhile w
      let (result, state, wire) :=
        (execute ts590Backend kind).run.exec (behind (keeping link)) (w.state, wire)
      (result, ({ w with state }, wire))
  | q, (w, wire) =>
      let (answer, w) := answerAlone (fun _ w => (.error .timeout, w)) q w
      (answer, (w, wire))

section
variable {ctx : Context} {cls : CommandClass} {mutation : StateMutation} {meanwhile : World → World}
  {link : List (List UInt8) → Except BackendError (List UInt8)} {w w' : World}
  {wire wire' : List (List UInt8)}

/-- A redundant write that is allowed is done, and nothing happens. -/
theorem exec_redundant (allowed : ctx.perms.allowsMutation cls mutation = true)
    (redundant : w.state.isRedundant mutation = true) :
    (applyModeled ctx mutation cls).exec (answerHub meanwhile link) (w, wire) = (.ok, (w, wire)) := by
  simp [applyModeled, allowed, answerHub, answerAlone, redundant]

/-- A write that the cache does not hold is submitted. -/
theorem exec_submitted (notPtt : isSetPtt mutation = false)
    (allowed : ctx.perms.allowsMutation cls mutation = true)
    (fresh : w.state.isRedundant mutation = false) :
    (applyModeled ctx mutation cls).exec (answerHub meanwhile link) (w, wire) =
      let (result, w) := answerHub meanwhile link
        (.submit ctx.sessionId (if cls = .pttWrite then .ptt else .write) (.apply mutation)) (w, wire)
      (mapOutcome (faultOf result), w) := by
  cases mutation with
  | setPtt keyed source => cases notPtt
  | _ => cases cls <;> simp [applyModeled, allowed, answerHub, answerAlone, fresh]

/-- A write that is reported done was redundant, or the backend has applied it. -/
theorem done_of_exec (notPtt : isSetPtt mutation = false)
    (done : (applyModeled ctx mutation cls).exec (answerHub meanwhile link) (w, wire) =
      (.ok, (w', wire'))) :
    ctx.perms.allowsMutation cls mutation = true ∧
      ((w.state.isRedundant mutation = true ∧ w' = w) ∨
        w'.state = (Ts590.apply (meanwhile w).state mutation).2) := by
  cases allowed : ctx.perms.allowsMutation cls mutation with
  | false => simp [applyModeled, allowed] at done
  | true =>
      refine ⟨rfl, ?_⟩
      cases redundant : w.state.isRedundant mutation with
      | true =>
          rw [exec_redundant allowed redundant] at done
          obtain ⟨-, same⟩ := Prod.mk.inj done
          exact .inl ⟨rfl, (Prod.mk.inj same).1.symm⟩
      | false =>
          rw [exec_submitted notPtt allowed redundant] at done
          simp only [answerHub, exec_apply_behind, keeping] at done
          cases reply : link (wire ++ [Ts590.applyBytes (meanwhile w).state.snapshot mutation]) with
          | ok bytes =>
              simp only [reply] at done
              obtain ⟨-, reached⟩ := Prod.mk.inj done
              exact .inr (congrArg World.state (Prod.mk.inj reached).1.symm)
          | error error =>
              simp only [reply] at done
              cases error <;> simp [faultOf, mapOutcome] at done

end

/-- The frame of a mode write does not move the receive VFO. -/
theorem operating_apply {h : StateHandle} {mutation : StateMutation}
    (operating : Operating mutation (Ts590.apply h mutation).2.snapshot.rxVfo) :
    Operating mutation h.snapshot.rxVfo := by
  cases mutation with
  | setMode vfo mode =>
      exact operating.trans (Snapshot.setVfo_rest h.snapshot _ _).1
  | setDataMode vfo on =>
      exact operating.trans (Snapshot.setVfo_rest h.snapshot _ _).1
  | _ => trivial

/-- **A write is idempotent on the wire.**  Whatever the state, the link and the others in between: where
a write is reported done, the same write is reported done at once, submits nothing and leaves the world
as it is. -/
theorem repeat_is_silent {ctx : Context} {cls : CommandClass} {mutation : StateMutation}
    {meanwhile meanwhile' : World → World}
    {link link' : List (List UInt8) → Except BackendError (List UInt8)} {w w' : World}
    {wire wire' : List (List UInt8)} (notPtt : isSetPtt mutation = false)
    (operating : Operating mutation w'.state.snapshot.rxVfo)
    (done : (applyModeled ctx mutation cls).exec (answerHub meanwhile link) (w, wire) =
      (.ok, (w', wire'))) :
    (applyModeled ctx mutation cls).exec (answerHub meanwhile' link') (w', wire') =
      (.ok, (w', wire')) := by
  obtain ⟨allowed, ⟨redundant, rfl⟩ | applied⟩ := done_of_exec notPtt done
  · exact exec_redundant allowed redundant
  · refine exec_redundant allowed ?_
    rw [applied] at operating ⊢
    exact isRedundant_apply _ notPtt (operating_apply operating)

/-- A hub that is fresh, and a client that may write. -/
def idle : World := ⟨{}, { maxTx := 0 }, false, 0⟩

def writer : Context := ⟨0, ⟨true, true, false, false, false⟩, true, true, false, []⟩

/-- A mode is written once. -/
theorem repeat_is_silent_mode : ∃ w' wire',
    (applyModeled writer (.setMode .a .cw) .modeledWrite).exec
      (answerHub id (fun _ => .ok [])) (idle, []) = (.ok, (w', wire')) ∧
    wire' = [Ts590.ascii ['M', 'D', '3', ';']] ∧
    (applyModeled writer (.setMode .a .cw) .modeledWrite).exec
      (answerHub id (fun _ => .error .timeout)) (w', wire') = (.ok, (w', wire')) := by
  refine ⟨_, _, rfl, by decide, ?_⟩
  have first : (applyModeled writer (.setMode .a .cw) .modeledWrite).exec
      (answerHub id (fun _ => .ok [])) (idle, []) = (.ok, _) := rfl
  exact repeat_is_silent rfl rfl first

end CatHub.Dialect
