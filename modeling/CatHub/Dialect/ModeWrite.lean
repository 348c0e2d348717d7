/-
# CatHub.Dialect.ModeWrite — what mode a bridged rig ends up in.

The endpoint takes a mode token apart into a base mode and a DATA flag and writes the two one after the
other; the hub may suppress either write, and the bridge sends the base mode alone or composes the flag
onto the base mode of the snapshot.  `modeBridge` is the machine of `set_mode` requests on a rig,
`Right` the condition under which one of them leaves the rig in the mode it asked for, and
`requested_modes_iff` says that all requests of a run get their mode exactly if all meet it.
-/
import CatHub.Dialect.HamlibNet
import CatHub.Radio.Downstream
import CatHub.Systems.Execution

namespace CatHub.Bridge

open Systems Radio Dialect Dialect.HamlibNet

/-! ## The machine -/

/-- The rig, the hub, and how many operations the request has submitted. -/
structure Station where
  rig : Downstream
  world : World
  submitted : Nat := 0

/-- A session on the bridge: what it submits is run on the rig, and meets a fate of its own. -/
def Station.answer (fates : Nat → Fate) : (q : Question) → Station → q.Answer × Station
  | .submit _ _ kind, s =>
      let (result, bench) := (Radio.execute rigctldBackend kind).run.exec (fates s.submitted).answer
        ⟨s.rig, s.world.state, 0⟩
      (result, ⟨bench.rig, { s.world with state := bench.handle }, s.submitted + 1⟩)
  | q, s =>
      let (answer, world) := answerAlone (fun _ w => (.error .unsupported, w)) q s.world
      (answer, { s with world })

/-- A `set_mode` request whose token is recognized. -/
structure ModeRequest where
  word : List Char
  token : List Char
  more : List (List Char) := []
  named : Command.parse word = some .setMode
  recognized : (Mode.decomposeHamlibToken token).1 ≠ .unknown

/-- The base mode and the DATA flag that a request asks for. -/
def ModeRequest.asked (request : ModeRequest) : Mode × Bool := Mode.decomposeHamlibToken request.token

/-- One request after another, each with the fates of what it submits. -/
def modeBridge (ctx : Context) : Machine Station (ModeRequest × (Nat → Fate)) LineResult where
  step s input :=
    let (result, t) := (dispatchPlain input.1.word (input.1.token :: input.1.more) ctx).exec
      (Station.answer input.2) { s with submitted := 0 }
    some (t, result)

/-- The mode and the flag that the rig's current VFO is in. -/
def Downstream.inMode (rig : Downstream) : Mode × Bool := Mode.decomposeHamlibToken (rig.token rig.current)

/-- The VFO that the hub receives on. -/
def Station.operating (s : Station) : VfoSnapshot := s.world.state.snapshot.vfo s.world.state.snapshot.rxVfo

/-- The snapshot has the mode and the flag of the rig. -/
structure Station.Synchronized (s : Station) : Prop where
  same : s.rig.inMode = (s.operating.mode, s.operating.data)
  known : s.operating.mode ≠ .unknown

/-- The condition on one request: it turns DATA off; or the hub sends the flag, and the mode has a data
token to send; or the hub sends nothing, because nothing would change. -/
def Right (s : Station) (request : ModeRequest) : Prop :=
  let h := s.world.state
  request.asked.2 = false ∨
    if h.isRedundant (.setDataMode h.snapshot.rxVfo request.asked.2) then
      h.isRedundant (.setMode h.snapshot.rxVfo request.asked.1) = true
    else request.asked.1.packable = true

/-! ## One write -/

section
variable {ctx : Context} {fates : Nat → Fate} {s t : Station}

/-- A submitted write answers with nothing, or with the error of the bridge. -/
theorem exec_apply (fate : Fate) (mutation : StateMutation) (bench : Bench) :
    (Radio.execute rigctldBackend (.apply mutation)).run.exec fate.answer bench =
      ((fate.run (Rigctld.apply mutation) bench).1.map (fun _ => []),
        (fate.run (Rigctld.apply mutation) bench).2) := by
  unfold Radio.execute Fate.run
  rw [ExceptT.run_bind, Program.exec_bind, show rigctldBackend.apply = Rigctld.apply from rfl]
  generalize (Rigctld.apply mutation).run.exec fate.answer bench = stop
  obtain ⟨error | _, bench⟩ := stop <;> rfl

variable {mutation : StateMutation} {bytes : List UInt8}

theorem exec_suppressed (allowed : ctx.perms.allowsMutation .modeledWrite mutation = true)
    (redundant : s.world.state.isRedundant mutation = true) :
    (applyModeled ctx mutation .modeledWrite).exec (Station.answer fates) s = (.ok, s) := by
  simp [applyModeled, allowed, Station.answer, answerAlone, redundant]

/-- A write that is not suppressed is one command of the bridge. -/
theorem exec_submitted (allowed : ctx.perms.allowsMutation .modeledWrite mutation = true)
    (needed : s.world.state.isRedundant mutation = false)
    (spells : ∀ fate : Fate, fate.run (Rigctld.apply mutation) ⟨s.rig, s.world.state, 0⟩ =
      fate.run (Rigctld.applyCommand bytes mutation) ⟨s.rig, s.world.state, 0⟩) :
    (applyModeled ctx mutation .modeledWrite).exec (Station.answer fates) s =
      let (result, bench) := (fates s.submitted).run (Rigctld.applyCommand bytes mutation)
        ⟨s.rig, s.world.state, 0⟩
      (Ptt.mapOutcome (faultOf (result.map (fun _ => []))),
        ⟨bench.rig, { s.world with state := bench.handle }, s.submitted + 1⟩) := by
  simp [applyModeled, allowed, Station.answer, answerAlone, needed, exec_apply, spells]

theorem mapOutcome_ok {result : Except BackendError Unit} :
    Ptt.mapOutcome (faultOf (result.map (fun _ => []))) = .ok ↔ result.isOk = true := by
  rcases result with error | _
  · cases error <;> exact iff_of_false (fun same => nomatch same) (fun same => nomatch same)
  · exact ⟨fun _ => rfl, fun _ => rfl⟩

/-- A write that is reported done was either suppressed, or obeyed and recorded. -/
theorem write_done
    (spells : ∀ fate : Fate, fate.run (Rigctld.apply mutation) ⟨s.rig, s.world.state, 0⟩ =
      fate.run (Rigctld.applyCommand bytes mutation) ⟨s.rig, s.world.state, 0⟩)
    (sets : (RigCommand.decode bytes).sets = true)
    (ran : (applyModeled ctx mutation .modeledWrite).exec (Station.answer fates) s = (.ok, t)) :
    (s.world.state.isRedundant mutation = true ∧ t = s) ∨
      (s.world.state.isRedundant mutation = false ∧ t.rig = s.rig.obey (RigCommand.decode bytes) ∧
        t.world.state = s.world.state.record mutation.intoChange .optimisticWrite) := by
  cases allowed : ctx.perms.allowsMutation .modeledWrite mutation with
  | false =>
      simp [applyModeled, allowed] at ran
  | true =>
      cases redundant : s.world.state.isRedundant mutation with
      | true =>
          rw [exec_suppressed allowed redundant] at ran
          exact .inl ⟨rfl, (Prod.mk.inj ran).2.symm⟩
      | false =>
          obtain ⟨isOk, bench⟩ := run_applyCommand (fates s.submitted) bytes mutation s.rig
            s.world.state sets
          rw [exec_submitted allowed redundant spells] at ran
          generalize (fates s.submitted).run (Rigctld.applyCommand bytes mutation) _ = stop
            at ran isOk bench
          obtain ⟨result, after⟩ := stop
          obtain ⟨reported, rfl⟩ := Prod.mk.inj ran
          have acknowledged := isOk.symm.trans (mapOutcome_ok.mp reported)
          rw [if_pos acknowledged, if_pos (Fate.obeyed_of_acknowledged acknowledged)] at bench
          exact .inr ⟨rfl, congrArg Bench.rig bench, congrArg Bench.handle bench⟩

/-- A write that is allowed, and that the rig acknowledges, is done. -/
theorem write_succeeds (allowed : ctx.perms.write = true)
    (acknowledged : ∀ i, (fates i).acknowledged = true)
    (spells : ∀ fate : Fate, fate.run (Rigctld.apply mutation) ⟨s.rig, s.world.state, 0⟩ =
      fate.run (Rigctld.applyCommand bytes mutation) ⟨s.rig, s.world.state, 0⟩)
    (sets : (RigCommand.decode bytes).sets = true) :
    ∃ t, (applyModeled ctx mutation .modeledWrite).exec (Station.answer fates) s = (.ok, t) := by
  have may : ctx.perms.allowsMutation .modeledWrite mutation = true := by
    simp [EndpointPermissions.allowsMutation, allowed]
  cases redundant : s.world.state.isRedundant mutation with
  | true => exact ⟨s, exec_suppressed may redundant⟩
  | false =>
      have isOk := (run_applyCommand (fates s.submitted) bytes mutation s.rig s.world.state sets).1
      refine ⟨_, (exec_submitted may redundant spells).trans (Prod.ext ?_ rfl)⟩
      exact mapOutcome_ok.mpr (isOk.trans (acknowledged _))

/-- The bytes of a base mode write. -/
theorem spells_base (vfo : Vfo) (mode : Mode) (fate : Fate) :
    fate.run (Rigctld.apply (.setMode vfo mode)) ⟨s.rig, s.world.state, 0⟩ =
      fate.run (Rigctld.applyCommand (Rigctld.setModeCommand mode.hamlibToken) (.setMode vfo mode))
        ⟨s.rig, s.world.state, 0⟩ := rfl

/-- The bytes of a flag write: the base mode of the snapshot with the flag composed onto it. -/
theorem spells_flag (vfo : Vfo) (on : Bool) (fate : Fate) :
    fate.run (Rigctld.apply (.setDataMode vfo on)) ⟨s.rig, s.world.state, 0⟩ =
      fate.run (Rigctld.applyCommand (Rigctld.setModeCommand
        ((s.world.state.snapshot.vfo vfo).mode.hamlibTokenWithData on)) (.setDataMode vfo on))
        ⟨s.rig, s.world.state, 0⟩ := by
  unfold Fate.run Rigctld.apply
  rw [ExceptT.run_bind, Program.exec_bind]
  rfl

/-- What a base mode write sends. -/
theorem base_done {vfo : Vfo} {mode : Mode}
    (ran : (applyModeled ctx (.setMode vfo mode) .modeledWrite).exec (Station.answer fates) s =
      (.ok, t)) :
    (s.world.state.isRedundant (.setMode vfo mode) = true ∧ t = s) ∨
      (s.world.state.isRedundant (.setMode vfo mode) = false ∧
        t.rig = s.rig.obey (.setMode mode.hamlibToken) ∧
        t.world.state = s.world.state.record (.mode vfo mode) .optimisticWrite) := by
  have spelled : RigCommand.decode (Rigctld.setModeCommand mode.hamlibToken) =
      .setMode mode.hamlibToken := RigCommand.decode_setMode mode false
  have done := write_done (spells_base vfo mode) (by rw [spelled]; rfl) ran
  rwa [spelled] at done

/-- What a flag write sends. -/
theorem flag_done {vfo : Vfo} {on : Bool}
    (ran : (applyModeled ctx (.setDataMode vfo on) .modeledWrite).exec (Station.answer fates) s =
      (.ok, t)) :
    (s.world.state.isRedundant (.setDataMode vfo on) = true ∧ t = s) ∨
      (s.world.state.isRedundant (.setDataMode vfo on) = false ∧
        t.rig = s.rig.obey
          (.setMode ((s.world.state.snapshot.vfo vfo).mode.hamlibTokenWithData on)) ∧
        t.world.state = s.world.state.record (.dataMode vfo on) .optimisticWrite) := by
  have spelled := RigCommand.decode_setMode (s.world.state.snapshot.vfo vfo).mode on
  have done := write_done (spells_flag vfo on) (by rw [spelled]; rfl) ran
  rwa [spelled] at done

/-! ## One request -/

/-- A request is the base write, and after its success the flag write. -/
theorem exec_set_mode (request : ModeRequest) :
    (dispatchPlain request.word (request.token :: request.more) ctx).exec (Station.answer fates) s =
      let rx := s.world.state.snapshot.rxVfo
      let (base, u) := (applyModeled ctx (.setMode rx request.asked.1) .modeledWrite).exec
        (Station.answer fates) s
      if base = .ok then
        let (outcome, t) := (applyModeled ctx (.setDataMode rx request.asked.2) .modeledWrite).exec
          (Station.answer fates) u
        (.reply (outcomeRprt outcome), t)
      else (.reply (outcomeRprt base), u) := by
  have goesOn := Command.not_quit request.named
  have known : request.asked.1 ≠ .unknown := request.recognized
  simp [dispatchPlain, Station.answer, answerAlone, goesOn, request.named, readReply,
    HamlibNet.set, HamlibNet.setMode, ← ModeRequest.asked.eq_def, known]
  split <;> simp [write, *]

/-- A request that is answered with success did both writes, one after the other. -/
theorem set_mode_done {request : ModeRequest}
    (ran : (dispatchPlain request.word (request.token :: request.more) ctx).exec
      (Station.answer fates) s = (.reply rprtOk, t)) :
    ∃ u,
      (applyModeled ctx (.setMode s.world.state.snapshot.rxVfo request.asked.1) .modeledWrite).exec
        (Station.answer fates) s = (.ok, u) ∧
      (applyModeled ctx (.setDataMode s.world.state.snapshot.rxVfo request.asked.2)
        .modeledWrite).exec (Station.answer fates) u = (.ok, t) := by
  rw [exec_set_mode] at ran
  dsimp only at ran
  generalize (applyModeled ctx (.setMode s.world.state.snapshot.rxVfo request.asked.1)
    .modeledWrite).exec (Station.answer fates) s = base at ran ⊢
  obtain ⟨outcome, u⟩ := base
  split at ran
  · rename_i ok
    simp only [Prod.mk.injEq, LineResult.reply.injEq] at ran
    exact ⟨u, Prod.ext ok rfl, Prod.ext (outcomeRprt_ok ran.1) ran.2⟩
  · rename_i notOk
    simp only [Prod.mk.injEq, LineResult.reply.injEq] at ran
    exact absurd (outcomeRprt_ok ran.1) notOk

theorem inMode_obey (rig : Downstream) (token : List Char) :
    (rig.obey (.setMode token)).inMode = Mode.decomposeHamlibToken token := by
  simp [Downstream.inMode, Downstream.obey]

/-- Recording a mode leaves the flag alone, and what is known of it. -/
theorem record_mode (h : StateHandle) (vfo : Vfo) (mode : Mode) (source : RadioEventSource) :
    (h.record (.mode vfo mode) source).snapshot.rxVfo = h.snapshot.rxVfo ∧
      ((h.record (.mode vfo mode) source).snapshot.vfo vfo).mode = mode ∧
      ((h.record (.mode vfo mode) source).snapshot.vfo vfo).data = (h.snapshot.vfo vfo).data ∧
      ∀ on, (h.record (.mode vfo mode) source).isRedundant (.setDataMode vfo on) =
        h.isRedundant (.setDataMode vfo on) := by
  have mark : ∀ marks : List ModeFact,
      (marks.filter (· != .base vfo)).contains (.data vfo) = marks.contains (.data vfo) := by
    intro marks
    rw [Bool.eq_iff_iff]
    simp
  cases vfo <;>
    refine ⟨rfl, rfl, rfl, fun on => ?_⟩ <;>
    exact congrArg (fun uncertain => !uncertain && _) (mark h.uncertainMode)

theorem record_dataMode (h : StateHandle) (vfo : Vfo) (on : Bool) (source : RadioEventSource) :
    (h.record (.dataMode vfo on) source).snapshot.rxVfo = h.snapshot.rxVfo ∧
      ((h.record (.dataMode vfo on) source).snapshot.vfo vfo).mode = (h.snapshot.vfo vfo).mode ∧
      ((h.record (.dataMode vfo on) source).snapshot.vfo vfo).data = on := by
  cases vfo <;> exact ⟨rfl, rfl, rfl⟩

/-- The base write leaves the flag and what the hub thinks of it alone. -/
theorem base_effect {mode : Mode} (sync : s.Synchronized) (known : mode ≠ .unknown)
    (ran : (applyModeled ctx (.setMode s.world.state.snapshot.rxVfo mode) .modeledWrite).exec
      (Station.answer fates) s = (.ok, t)) :
    t.world.state.snapshot.rxVfo = s.world.state.snapshot.rxVfo ∧ t.operating.mode = mode ∧
      t.operating.data = s.operating.data ∧
      (∀ on, t.world.state.isRedundant (.setDataMode s.world.state.snapshot.rxVfo on) =
        s.world.state.isRedundant (.setDataMode s.world.state.snapshot.rxVfo on)) ∧
      t.rig.inMode = (mode,
        s.world.state.isRedundant (.setMode s.world.state.snapshot.rxVfo mode) &&
          s.operating.data) := by
  rcases base_done ran with ⟨redundant, rfl⟩ | ⟨needed, rig, state⟩
  · have same : t.operating.mode = mode := by
      have digits := (Bool.and_eq_true_iff.mp redundant).2
      exact Mode.toKenwoodDigit_inj sync.known known (beq_iff_eq.mp digits)
    exact ⟨rfl, same, rfl, fun _ => rfl, by rw [sync.same, same, redundant, Bool.true_and]⟩
  · obtain ⟨rx, newMode, data, flag⟩ := record_mode s.world.state s.world.state.snapshot.rxVfo mode
      .optimisticWrite
    rw [← state] at rx newMode data flag
    unfold Station.operating
    rw [rx]
    refine ⟨rfl, newMode, data, flag, ?_⟩
    rw [needed, rig, inMode_obey, Bool.false_and]
    exact Mode.decompose_hamlibTokenWithData mode false known

/-- Where a request that succeeds leaves the hub and the rig. -/
theorem request_done {request : ModeRequest} (sync : s.Synchronized)
    (ran : (dispatchPlain request.word (request.token :: request.more) ctx).exec
      (Station.answer fates) s = (.reply rprtOk, t)) :
    (t.operating.mode, t.operating.data) = request.asked ∧
      t.rig.inMode = (request.asked.1,
        if s.world.state.isRedundant (.setDataMode s.world.state.snapshot.rxVfo request.asked.2) then
          s.world.state.isRedundant (.setMode s.world.state.snapshot.rxVfo request.asked.1) &&
            request.asked.2
        else request.asked.2 && request.asked.1.packable) := by
  obtain ⟨u, base, flagWrite⟩ := set_mode_done ran
  have known : request.asked.1 ≠ .unknown := request.recognized
  obtain ⟨rx, mode, data, flagAlone, rig⟩ := base_effect sync known base
  rw [← flagAlone]
  rcases flag_done flagWrite with ⟨redundant, rfl⟩ | ⟨needed, rig', state⟩
  · have same : t.operating.data = request.asked.2 := by
      have flags := beq_iff_eq.mp (Bool.and_eq_true_iff.mp redundant).2
      rw [Station.operating, rx]
      exact flags
    rw [redundant, if_pos rfl, rig, mode, same, ← data, same]
    exact ⟨rfl, rfl⟩
  · obtain ⟨rx', sameMode, flag⟩ := record_dataMode u.world.state s.world.state.snapshot.rxVfo
      request.asked.2 .optimisticWrite
    rw [← state] at rx' sameMode flag
    rw [Station.operating, rx] at mode
    rw [Station.operating, rx', rx, sameMode, flag, mode, needed, rig', mode, inMode_obey,
      Mode.decompose_hamlibTokenWithData _ _ known]
    exact ⟨rfl, rfl⟩

/-- From a synchronized state, a successful request gets its mode exactly if it meets its condition; and
then the state is synchronized again. -/
theorem mode_iff_right {request : ModeRequest} (sync : s.Synchronized)
    (ran : (dispatchPlain request.word (request.token :: request.more) ctx).exec
      (Station.answer fates) s = (.reply rprtOk, t)) :
    (t.rig.inMode = request.asked ↔ Right s request) ∧
      (t.rig.inMode = request.asked → t.Synchronized) := by
  obtain ⟨hub, rig⟩ := request_done sync ran
  constructor
  · rw [rig, Right, Prod.ext_iff]
    dsimp only
    cases request.asked.2 <;> split <;> simp
  · intro same
    refine ⟨same.trans hub.symm, ?_⟩
    have mode : t.operating.mode = request.asked.1 := congrArg Prod.fst hub
    rw [mode]
    exact request.recognized

end

/-! ## Runs -/

/-- In a run of requests from a synchronized state, all answered with success, the rig ends every
request in the mode and with the flag that it asked for exactly if every request meets its condition. -/
theorem requested_modes_iff {ctx : Context} {s t : Station}
    {history : List (Transition Station (ModeRequest × (Nat → Fate)) LineResult)}
    (run : (modeBridge ctx).Execution s history t) (sync : s.Synchronized)
    (answered : ∀ e ∈ history, e.output = .reply rprtOk) :
    (∀ e ∈ history, e.after.rig.inMode = e.input.1.asked) ↔
      ∀ e ∈ history, Right e.before e.input.1 := by
  have one : ∀ (s : Station) i o t, s.Synchronized → (modeBridge ctx).step s i = some (t, o) →
      o = .reply rprtOk → (t.rig.inMode = i.1.asked ↔ Right s i.1) ∧
        (t.rig.inMode = i.1.asked → t.Synchronized) := by
    rintro s ⟨request, fates⟩ o t sync step rfl
    simp only [modeBridge, Option.some.injEq, Prod.mk.injEq] at step
    have fresh : Station.Synchronized { s with submitted := 0 } := ⟨sync.same, sync.known⟩
    exact @mode_iff_right ctx fates { s with submitted := 0 } t request fresh
      (Prod.ext step.2 step.1)
  constructor
  · intro modes
    refine (run.always (I := Station.Synchronized) (P := fun e => Right e.before e.input.1)
      (G := fun e => e.output = .reply rprtOk ∧ e.after.rig.inMode = e.input.1.asked) sync ?_
      (fun e mem => ⟨answered e mem, modes e mem⟩)).2
    intro s i o t sync step ⟨ok, same⟩
    obtain ⟨right, next⟩ := one s i o t sync step ok
    exact ⟨next same, right.mp same⟩
  · intro rights
    refine (run.always (I := Station.Synchronized)
      (P := fun e => e.after.rig.inMode = e.input.1.asked)
      (G := fun e => e.output = .reply rprtOk ∧ Right e.before e.input.1) sync ?_
      (fun e mem => ⟨answered e mem, rights e mem⟩)).2
    intro s i o t sync step ⟨ok, right⟩
    obtain ⟨iff, next⟩ := one s i o t sync step ok
    exact ⟨next (iff.mpr right), iff.mpr right⟩

/-- A request of a client that may write, on a rig that acknowledges, is answered with success. -/
theorem step_succeeds {ctx : Context} (allowed : ctx.perms.write = true) {fates : Nat → Fate}
    (acknowledged : ∀ i, (fates i).acknowledged = true) (s : Station) (request : ModeRequest) :
    ∃ t, (modeBridge ctx).step s (request, fates) = some (t, .reply rprtOk) := by
  have base : ∀ mode : Mode, (RigCommand.decode (Rigctld.setModeCommand mode.hamlibToken)).sets = true :=
    fun mode => congrArg RigCommand.sets (RigCommand.decode_setMode mode false)
  have flag : ∀ (mode : Mode) on,
      (RigCommand.decode (Rigctld.setModeCommand (mode.hamlibTokenWithData on))).sets = true :=
    fun mode on => congrArg RigCommand.sets (RigCommand.decode_setMode mode on)
  obtain ⟨u, first⟩ := @write_succeeds ctx fates { s with submitted := 0 } _ _ allowed acknowledged
    (spells_base s.world.state.snapshot.rxVfo request.asked.1) (base _)
  obtain ⟨t, second⟩ := @write_succeeds ctx fates u _ _ allowed acknowledged
    (spells_flag s.world.state.snapshot.rxVfo request.asked.2) (flag _ _)
  refine ⟨t, ?_⟩
  simp only [modeBridge, exec_set_mode, first, second, if_true]
  rfl

/-- A client that may write. -/
def operator : Context := ⟨0, ⟨true, true, false, false, false⟩, false, false, false, []⟩

/-- A hub and a rig that agree on a mode. -/
def settled (mode : Mode) (data : Bool) : Station where
  rig := { freq := fun _ => 14074000, token := fun _ => mode.hamlibTokenWithData data }
  world := ⟨{ snapshot := { a := { mode, data } } }, { maxTx := 0 }, false, 0⟩

/-- `M`, with a token that the hub composes itself. -/
def modeRequest (mode : Mode) (data : Bool) (known : mode ≠ .unknown) : ModeRequest where
  word := ['M']
  token := mode.hamlibTokenWithData data
  named := by decide
  recognized := by rwa [Mode.decompose_hamlibTokenWithData _ _ known]

/-- From LSB to PKTUSB both writes are sent, and the rig gets there. -/
theorem requested_modes_iff_pktusb :
    ∃ history t, (modeBridge operator).Execution (settled .lsb false) history t ∧
      history.map (·.input.1.asked) = [(.usb, true)] ∧
      ∀ e ∈ history, e.after.rig.inMode = e.input.1.asked := by
  let request := modeRequest .usb true (by decide)
  obtain ⟨t, took⟩ := @step_succeeds operator rfl (fun _ => {}) (fun _ => rfl) (settled .lsb false)
    request
  have right : Right (settled .lsb false) request := .inr (by decide)
  have run := (@Machine.Execution.start _ _ _ (modeBridge operator) (settled .lsb false)).next took
  refine ⟨_, t, run, congrArg ([·]) (show request.asked = (.usb, true) by decide), ?_⟩
  refine (requested_modes_iff run ⟨by decide, by decide⟩ (fun e mem => ?_)).mpr (fun e mem => ?_)
  · rw [List.mem_singleton.mp mem]
  · rw [List.mem_singleton.mp mem]
    exact right

/-- From PKTUSB to PKTLSB only `M LSB 0` is sent, and the rig loses DATA. -/
theorem pktlsb_loses_data :
    ¬ ∀ (ctx : Context) (s t : Station)
      (history : List (Transition Station (ModeRequest × (Nat → Fate)) LineResult)),
      (modeBridge ctx).Execution s history t → s.Synchronized →
        (∀ e ∈ history, e.output = .reply rprtOk) →
          ∀ e ∈ history, e.after.rig.inMode = e.input.1.asked := by
  intro claim
  let request := modeRequest .lsb true (by decide)
  obtain ⟨t, took⟩ := @step_succeeds operator rfl (fun _ => {}) (fun _ => rfl) (settled .usb true) request
  have sync : (settled .usb true).Synchronized := ⟨by decide, by decide⟩
  have run := (@Machine.Execution.start _ _ _ (modeBridge operator) (settled .usb true)).next took
  have reached : t.rig.inMode = request.asked := claim operator _ _ _ run sync
    (fun e mem => by rw [List.mem_singleton.mp mem]) _ (List.mem_singleton.mpr rfl)
  simp only [modeBridge, Option.some.injEq, Prod.mk.injEq] at took
  obtain ⟨-, left⟩ := @request_done operator (fun _ => {}) (settled .usb true) t request sync
    (Prod.ext took.2 took.1)
  exact absurd (left.symm.trans reached) (by decide)

end CatHub.Bridge
