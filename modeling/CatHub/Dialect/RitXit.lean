/-
# CatHub.Dialect.RitXit — the offsets that a client is told against those of the radio.

The radio has a flag each for RIT and XIT and one offset that both share; only the offset commands move
it.  A Hamlib `set_rit` or `set_xit` names an offset, the backend sends the flag, and the snapshot takes
the offset.  So every offset but zero is told and not tuned, and `offsets_agree_iff` says that nothing
else goes wrong.
-/
import CatHub.Dialect.HamlibNet
import CatHub.Systems.Execution

namespace CatHub.Dialect.RitXit

open Systems Radio Ptt HamlibNet

open Radio.Ts590 (ascii terminator splitFrame)

/-! ## The radio -/

/-- The two features that shift a frequency. -/
inductive Feature where
  | rit
  | xit
  deriving DecidableEq, Repr

structure Offsets where
  rit : Bool := false
  xit : Bool := false
  offset : Int := 0
  deriving DecidableEq, Repr

namespace Offsets

def flag (r : Offsets) : Feature → Bool
  | .rit => r.rit
  | .xit => r.xit

/-- By how much the radio shifts its frequency. -/
def effective (r : Offsets) (feature : Feature) : Int := if r.flag feature then r.offset else 0

/-- A flag after a frame: a digit sets it, and a query leaves it. -/
def flagAfter (payload : List UInt8) (on : Bool) : Bool :=
  if payload.head? = some 0x31 then true else if payload.head? = some 0x30 then false else on

/-- The commands that move the offset. -/
def offsetVerbs : List (List UInt8) := [ascii ['R', 'C'], ascii ['R', 'U'], ascii ['R', 'D']]

/-- The radio after one frame; `tune` is what the offset commands do. -/
def obey (tune : List UInt8 → List UInt8 → Int → Int) (r : Offsets) (frame : List UInt8) : Offsets :=
  match splitFrame frame with
  | none => r
  | some (verb, payload) =>
      if verb = ascii ['R', 'T'] then { r with rit := flagAfter payload r.rit }
      else if verb = ascii ['X', 'T'] then { r with xit := flagAfter payload r.xit }
      else if verb ∈ offsetVerbs then { r with offset := tune verb payload r.offset }
      else r

/-- The radio after some bytes, frame by frame. -/
def execute (tune : List UInt8 → List UInt8 → Int → Int) (r : Offsets) (bytes : List UInt8) : Offsets :=
  (bytes.splitOnP (· == terminator)).foldl (obey tune) r

end Offsets

/-! ## The hub -/

/-- What becomes of a submission: the link takes it, or fails with or without having written it. -/
inductive LinkFate where
  | taken (reply : List UInt8)
  | failed (error : BackendError) (written : Bool)
  deriving DecidableEq, Repr

/-- The link in front of a state and a radio that nobody else changes. -/
def LinkFate.answer (tune : List UInt8 → List UInt8 → Int → Int) (fate : LinkFate) :
    (q : LinkQuestion) → StateHandle × Offsets → q.Answer × (StateHandle × Offsets)
  | .submit bytes _, (h, r) =>
      match fate with
      | .taken reply => (.ok reply, (h, r.execute tune bytes))
      | .failed error written => (.error error, (h, if written then r.execute tune bytes else r))
  | .snapshot, (h, r) => (h.snapshot, (h, r))
  | .record change source, (h, r) => ((), (h.record change source, r))

structure Shifted where
  radio : Offsets
  world : World

/-- A session on the native backend. -/
def Shifted.answer (tune : List UInt8 → List UInt8 → Int → Int) (fate : LinkFate) :
    (q : Question) → Shifted → q.Answer × Shifted
  | .submit _ _ kind, s =>
      let (result, state, radio) := (Radio.execute ts590Backend kind).run.exec (fate.answer tune)
        (s.world.state, s.radio)
      (result, ⟨radio, { s.world with state }⟩)
  | q, s =>
      let (answer, world) := answerAlone (fun _ w => (.error .unsupported, w)) q s.world
      (answer, { s with world })

def Feature.command : Feature → Command
  | .rit => .setRit
  | .xit => .setXit

/-- A `set_rit` or a `set_xit`, with any arguments. -/
structure OffsetRequest where
  feature : Feature
  word : List Char
  args : List (List Char)
  named : Command.parse word = some feature.command

/-- The offset that a request names. -/
def OffsetRequest.offset (request : OffsetRequest) : Option Int := request.args.head?.bind parseI32

/-- One request after another, each with what the link makes of it. -/
def offsetDesk (tune : List UInt8 → List UInt8 → Int → Int) (ctx : Context) :
    Machine Shifted (OffsetRequest × LinkFate) LineResult where
  step s input :=
    let (result, t) := (dispatchPlain input.1.word input.1.args ctx).exec
      (Shifted.answer tune input.2) s
    some (t, result)

/-- The offset that `get_rit` and `get_xit` report. -/
def told (s : Snapshot) : Feature → Int
  | .rit => if s.ritEnabled then s.ritOffsetHz else 0
  | .xit => if s.xitEnabled then s.xitOffsetHz else 0

/-! ## One request -/

def Feature.mutation (feature : Feature) (offsetHz : Int) : StateMutation :=
  match feature with
  | .rit => .setRit offsetHz (offsetHz != 0)
  | .xit => .setXit offsetHz (offsetHz != 0)

section
variable {tune : List UInt8 → List UInt8 → Int → Int} {ctx : Context} {fate : LinkFate} {s t : Shifted}

/-- The frames of such a write leave the offset alone. -/
theorem execute_offset (feature : Feature) (offsetHz : Int) (snap : Snapshot) (r : Offsets) :
    (r.execute tune (Radio.Ts590.applyBytes snap (feature.mutation offsetHz))).offset = r.offset := by
  cases feature <;> cases on : offsetHz != 0 <;>
    simp [Feature.mutation, Radio.Ts590.applyBytes, on] <;> rfl

/-- A write that the link takes: its frames reach the radio, and its change the state. -/
theorem exec_apply (mutation : StateMutation) (h : StateHandle) (r : Offsets) :
    (Radio.execute ts590Backend (.apply mutation)).run.exec (fate.answer tune) (h, r) =
      match fate with
      | .taken _ =>
          (.ok [], (Radio.Ts590.apply h mutation).2,
            r.execute tune (Radio.Ts590.applyBytes h.snapshot mutation))
      | .failed error written =>
          (.error error, h,
            if written then r.execute tune (Radio.Ts590.applyBytes h.snapshot mutation) else r) := by
  have link : fate.answer tune = behind (fun bytes r => match fate with
      | .taken reply => (.ok reply, r.execute tune bytes)
      | .failed error written => (.error error, if written then r.execute tune bytes else r)) := by
    funext q s
    cases q <;> cases fate <;> rfl
  rw [link, exec_apply_behind]
  cases fate <;> rfl

/-- The flag of a written offset tells nothing that the offset does not. -/
theorem told_flag (offsetHz : Int) : (if offsetHz != 0 then offsetHz else 0) = offsetHz := by
  by_cases zero : offsetHz = 0
  · rw [zero]
    rfl
  · rw [if_pos (bne_iff_ne.mpr zero)]

/-- The snapshot tells the offset that was written, and the other one as before. -/
theorem told_apply (h : StateHandle) (feature other : Feature) (offsetHz : Int) :
    told (Radio.Ts590.apply h (feature.mutation offsetHz)).2.snapshot other =
      if other = feature then offsetHz else told h.snapshot other := by
  cases feature <;> cases other
  · exact told_flag offsetHz
  · rfl
  · rfl
  · exact told_flag offsetHz

/-- A suppressed write is one of the offset that is told already. -/
theorem told_redundant {h : StateHandle} {feature : Feature} {offsetHz : Int}
    (redundant : h.isRedundant (feature.mutation offsetHz) = true) :
    told h.snapshot feature = offsetHz := by
  have tells := told_flag offsetHz
  cases feature with
  | rit =>
      have held : h.snapshot.ritEnabled = (offsetHz != 0) ∧ h.snapshot.ritOffsetHz = offsetHz := by
        simpa [Feature.mutation, StateHandle.isRedundant, Snapshot.isRedundant] using redundant
      rwa [told, held.1, held.2]
  | xit =>
      have held : h.snapshot.xitEnabled = (offsetHz != 0) ∧ h.snapshot.xitOffsetHz = offsetHz := by
        simpa [Feature.mutation, StateHandle.isRedundant, Snapshot.isRedundant] using redundant
      rwa [told, held.1, held.2]

/-- A write that is reported done. -/
theorem write_done {feature : Feature} {offsetHz : Int}
    (ran : (applyModeled ctx (feature.mutation offsetHz) .modeledWrite).exec
      (Shifted.answer tune fate) s = (.ok, t)) :
    t.radio.offset = s.radio.offset ∧ ∀ other, told t.world.state.snapshot other =
      if other = feature then offsetHz else told s.world.state.snapshot other := by
  cases allowed : ctx.perms.allowsMutation .modeledWrite (feature.mutation offsetHz) with
  | false => simp [applyModeled, allowed] at ran
  | true =>
      cases redundant : s.world.state.isRedundant (feature.mutation offsetHz) with
      | true =>
          have same : t = s := by
            simp [applyModeled, allowed, Shifted.answer, answerAlone, redundant] at ran
            exact ran.symm
          subst same
          refine ⟨rfl, fun other => ?_⟩
          split
          · rename_i here
            rw [here, told_redundant redundant]
          · rfl
      | false =>
          have plain : (applyModeled ctx (feature.mutation offsetHz) .modeledWrite).exec
              (Shifted.answer tune fate) s =
              Prod.map (fun result => mapOutcome (faultOf result)) id (Shifted.answer tune fate
                (.submit ctx.sessionId .write (.apply (feature.mutation offsetHz))) s) := by
            cases feature <;>
              simp only [Feature.mutation] at allowed redundant ⊢ <;>
              simp [applyModeled, allowed, Shifted.answer, answerAlone, redundant]
          rw [plain] at ran
          simp only [Shifted.answer, exec_apply] at ran
          cases fate with
          | taken reply =>
              obtain ⟨-, rfl⟩ := Prod.mk.inj ran
              exact ⟨execute_offset feature offsetHz _ _, fun other => told_apply _ feature other offsetHz⟩
          | failed error written =>
              cases error <;> simp [faultOf, mapOutcome] at ran

/-- What a request that is answered with success leaves behind. -/
theorem request_done {request : OffsetRequest}
    (ran : (dispatchPlain request.word request.args ctx).exec (Shifted.answer tune fate) s =
      (.reply rprtOk, t)) :
    ∃ offsetHz, request.offset = some offsetHz ∧ t.radio.offset = s.radio.offset ∧
      ∀ other, told t.world.state.snapshot other =
        if other = request.feature then offsetHz else told s.world.state.snapshot other := by
  obtain ⟨feature, word, args, named⟩ := request
  have goesOn := Command.not_quit named
  have program : (dispatchPlain word args ctx).exec (Shifted.answer tune fate) s =
      let (bytes, u) := (HamlibNet.set ctx s.world.state.snapshot args feature.command).exec
        (Shifted.answer tune fate) s
      (.reply bytes, u) := by
    have unread : readReply ctx s.world.state.snapshot args feature.command = none := by
      cases feature <;> rfl
    simp [dispatchPlain, Shifted.answer, answerAlone, goesOn, named, unread]
  have sets : HamlibNet.set ctx s.world.state.snapshot args feature.command =
      setOffset ctx (if feature = .rit then ctx.hasRit else ctx.hasXit) args
        (fun offsetHz _ => feature.mutation offsetHz) := by
    cases feature <;> rfl
  rw [program, sets] at ran
  generalize (if feature = .rit then ctx.hasRit else ctx.hasXit) = available at ran
  obtain ⟨replied, reached⟩ := Prod.mk.inj ran
  have answered := LineResult.reply.inj replied
  cases available with
  | false => exact absurd answered (show rprtEnavail ≠ rprtOk by decide)
  | true =>
      cases parsed : args.head?.bind parseI32 with
      | none =>
          simp only [setOffset, parsed] at answered
          exact absurd answered (show rprtEinval ≠ rprtOk by decide)
      | some offsetHz =>
          simp only [setOffset, parsed, Bool.not_true, Bool.false_eq_true, if_false, write,
            Program.exec_bind] at answered reached
          exact ⟨offsetHz, parsed, write_done (Prod.ext (outcomeRprt_ok answered) reached)⟩

end

/-! ## Runs -/

/-- What a feature was last asked to be. -/
def lastAsked (feature : Feature) (requests : List OffsetRequest) (start : Int) : Int :=
  requests.foldl (fun held request =>
    if feature = request.feature then request.offset.getD held else held) start

theorem lastAsked_concat (feature : Feature) (requests : List OffsetRequest) (request : OffsetRequest)
    (start : Int) :
    lastAsked feature (requests ++ [request]) start =
      if feature = request.feature then request.offset.getD (lastAsked feature requests start)
      else lastAsked feature requests start := List.foldl_append

/-- The radio shifts by what the client is told. -/
def Faithful (s : Shifted) : Prop :=
  ∀ feature, s.radio.effective feature = told s.world.state.snapshot feature

/-- **RIT and XIT.**  From a radio without an offset, after requests that were all answered with success,
the radio shifts by what the client is told exactly if nothing but zero is told: the last request for
each feature asked for none. -/
theorem offsets_agree_iff {tune : List UInt8 → List UInt8 → Int → Int} {ctx : Context} {s t : Shifted}
    {history : List (Transition Shifted (OffsetRequest × LinkFate) LineResult)}
    (run : (offsetDesk tune ctx).Execution s history t) (cleared : s.radio.offset = 0)
    (answered : ∀ e ∈ history, e.output = .reply rprtOk) :
    Faithful t ↔ ∀ feature,
      lastAsked feature (history.map (·.input.1)) (told s.world.state.snapshot feature) = 0 := by
  have kept : t.radio.offset = 0 ∧ ∀ feature, told t.world.state.snapshot feature =
      lastAsked feature (history.map (·.input.1)) (told s.world.state.snapshot feature) := by
    refine run.guarded (G := fun e => e.output = .reply rprtOk)
      (I := fun history t => t.radio.offset = 0 ∧ ∀ feature, told t.world.state.snapshot feature =
        lastAsked feature (history.map (·.input.1)) (told s.world.state.snapshot feature))
      ⟨cleared, fun _ => rfl⟩ ?_ answered
    rintro history s' ⟨request, fate⟩ o t' - ⟨still, tells⟩ step rfl
    simp only [offsetDesk, Option.some.injEq, Prod.mk.injEq] at step
    obtain ⟨offsetHz, parsed, same, told'⟩ := request_done (Prod.ext step.2 step.1)
    refine ⟨same.trans still, fun feature => ?_⟩
    rw [told', List.map_append, List.map_singleton, lastAsked_concat, parsed, Option.getD_some, tells]
  have shifts : ∀ feature, t.radio.effective feature = 0 := by
    intro feature
    rw [Offsets.effective, kept.1, ite_self]
  refine forall_congr' (fun feature => ?_)
  rw [shifts, kept.2]
  exact eq_comm

/-- A client that may write, on a backend with both features. -/
def tuner : Context := ⟨0, ⟨true, true, false, false, false⟩, true, true, false, []⟩

/-- `J 100`. -/
def shiftUp : OffsetRequest where
  feature := .rit
  word := ['J']
  args := [['1', '0', '0']]
  named := by decide

/-- `J 0`. -/
def shiftNone : OffsetRequest where
  feature := .rit
  word := ['J']
  args := [['0']]
  named := by decide

/-- A radio and a hub that are fresh. -/
def level : Shifted := ⟨{}, {}, { maxTx := 0 }, false, 0⟩

/-- An offset that is taken back leaves the radio with none. -/
theorem offsets_agree_iff_takenBack : ∃ history t,
    (offsetDesk (fun _ _ offset => offset) tuner).Execution level history t ∧
      history.map (·.input.1.args) = [[['1', '0', '0']], [['0']]] ∧ Faithful t := by
  have run := (offsetDesk (fun _ _ offset => offset) tuner).execution_exec level
    [(shiftUp, .taken []), (shiftNone, .taken [])] rfl
  refine ⟨_, _, run, rfl, (offsets_agree_iff run rfl (by decide)).mpr (fun feature => ?_)⟩
  cases feature <;> decide

/-- An offset of 100 Hz is told, and the radio does not shift. -/
theorem offset_not_tuned : ¬ ∀ (tune : List UInt8 → List UInt8 → Int → Int) (ctx : Context)
    (s t : Shifted) (history : List (Transition Shifted (OffsetRequest × LinkFate) LineResult)),
    (offsetDesk tune ctx).Execution s history t → s.radio.offset = 0 →
      (∀ e ∈ history, e.output = .reply rprtOk) → Faithful t := by
  intro claim
  have run := (offsetDesk (fun _ _ offset => offset) tuner).execution_exec level
    [(shiftUp, .taken [])] rfl
  exact absurd (claim _ _ _ _ _ run rfl (by decide) .rit) (by decide)

end CatHub.Dialect.RitXit
