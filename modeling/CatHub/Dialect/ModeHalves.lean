/-
# CatHub.Dialect.ModeHalves — a mode is set by halves.

A `set_mode` of a Hamlib session is two writes, the base mode and the DATA flag, and each of them is
dropped or submitted on its own.  A `Half` is one of them, with what it does to the mode of the snapshot
and of the radio.  After any halves the mode is that of the last base half, with the flag of the last DATA
half.

`Owes` follows a session: which halves it has still to drop or to submit before it may report success.
`owes_handle` says that a line that sets the mode owes its base half and then its DATA half.
-/
import CatHub.Dialect.Authorization
import CatHub.Radio.Suppression

/-! ## The halves of a mode -/

namespace CatHub.Radio

open Ts590

/-- The mode digit and the DATA flag of the VFO that the hub receives on. -/
def Snapshot.inMode (s : Snapshot) : StoredMode :=
  ((s.vfo s.rxVfo).mode.toKenwoodDigit, (s.vfo s.rxVfo).data)

/-- The mode digit and the DATA flag of the VFO that the radio receives on. -/
def Transceiver.inMode (r : Transceiver) : StoredMode := ((r.vfo r.rx).modeDigit, (r.vfo r.rx).data)

/-- The radio after the writes that went out. -/
def Transceiver.executeAll (r : Transceiver) (wire : List (List UInt8)) : Transceiver :=
  wire.foldl (fun r bytes => r.execute none bytes) r

/-- One of the two writes that set a mode. -/
inductive Half where
  | base (mode : Mode)
  | data (on : Bool)
  deriving DecidableEq, Repr

namespace Half

def mutation (vfo : Vfo) : Half → StateMutation
  | .base mode => .setMode vfo mode
  | .data on => .setDataMode vfo on

/-- The half that a change tells. -/
def ofChange : StateChange → Option Half
  | .mode _ mode => some (.base mode)
  | .dataMode _ on => some (.data on)
  | _ => none

/-- What a half makes of a mode. -/
def set : Half → StoredMode → StoredMode
  | .base mode, found => (mode.toKenwoodDigit, found.2)
  | .data on, found => (found.1, on)

@[simp] theorem ofChange_mutation (half : Half) (vfo : Vfo) :
    ofChange (half.mutation vfo).intoChange = some half := by
  cases half <;> rfl

/-- A half that is redundant changes nothing. -/
theorem set_redundant {h : StateHandle} {half : Half}
    (redundant : h.isRedundant (half.mutation h.snapshot.rxVfo) = true) :
    half.set h.snapshot.inMode = h.snapshot.inMode := by
  have same := (Bool.and_eq_true_iff.mp redundant).2
  cases half with
  | base mode =>
      have digits : (h.snapshot.vfo h.snapshot.rxVfo).mode.toKenwoodDigit = mode.toKenwoodDigit :=
        beq_iff_eq.mp same
      exact Prod.ext digits.symm rfl
  | data on =>
      have flags : (h.snapshot.vfo h.snapshot.rxVfo).data = on := beq_iff_eq.mp same
      exact Prod.ext rfl flags.symm

/-- A half that is recorded sets its part of the mode. -/
theorem inMode_record (h : StateHandle) (half : Half) (source : RadioEventSource) :
    (h.record (half.mutation h.snapshot.rxVfo).intoChange source).snapshot.inMode =
        half.set h.snapshot.inMode ∧
      (h.record (half.mutation h.snapshot.rxVfo).intoChange source).snapshot.rxVfo =
        h.snapshot.rxVfo := by
  cases half <;>
    simp [mutation, StateMutation.intoChange, Snapshot.applyChange, Snapshot.inMode, set,
      Snapshot.vfo_setVfo, (Snapshot.setVfo_rest h.snapshot _ _).1]

/-- So does a half that the radio takes. -/
theorem inMode_execute (r : Transceiver) (stored : Option StoredMode) (snap : Snapshot) (half : Half)
    (vfo : Vfo) :
    (r.execute stored (applyBytes snap (half.mutation vfo))).inMode = half.set r.inMode := by
  cases half with
  | base mode =>
      have sent := r.execute_modeSet stored mode
      simp only [mutation, applyBytes, sent, Transceiver.inMode, Transceiver.vfo_setVfo,
        (r.setVfo_rest _ _).1, if_pos, set]
  | data on =>
      have sent := r.execute_dataSet stored on
      simp only [mutation, applyBytes, sent, Transceiver.inMode, Transceiver.vfo_setVfo,
        (r.setVfo_rest _ _).1, if_pos, set]

end Half

/-- The mode of the last base half. -/
def lastMode (halves : List Half) : Option Mode :=
  (halves.filterMap fun | .base mode => some mode | .data _ => none).getLast?

/-- The flag of the last DATA half. -/
def lastData (halves : List Half) : Option Bool :=
  (halves.filterMap fun | .base _ => none | .data on => some on).getLast?

/-- There are halves of both kinds. -/
def Complete (halves : List Half) : Prop := (∃ mode, .base mode ∈ halves) ∧ ∃ on, .data on ∈ halves

theorem Complete.mono {halves more : List Half} (complete : Complete halves) (sub : halves ⊆ more) :
    Complete more := by
  obtain ⟨⟨mode, base⟩, on, data⟩ := complete
  exact ⟨⟨mode, sub base⟩, on, sub data⟩

/-- The mode after some halves is that of the last ones. -/
theorem foldl_set (halves : List Half) (first : StoredMode) :
    halves.foldl (fun mode half => half.set mode) first =
      (((lastMode halves).map Mode.toKenwoodDigit).getD first.1, (lastData halves).getD first.2) := by
  induction halves using List.reverseRecOn with
  | nil => rfl
  | append_singleton halves half ih =>
      rw [List.foldl_append, ih]
      cases half <;> simp [lastMode, lastData, Half.set, List.filterMap_append]

theorem Complete.last {halves : List Half} (complete : Complete halves) :
    ∃ mode on, lastMode halves = some mode ∧ lastData halves = some on := by
  obtain ⟨⟨mode, base⟩, on, data⟩ := complete
  have modes : (lastMode halves).isSome := by
    rw [lastMode, List.getLast?_isSome]
    exact List.ne_nil_of_mem (List.mem_filterMap.mpr ⟨_, base, rfl⟩)
  have flags : (lastData halves).isSome := by
    rw [lastData, List.getLast?_isSome]
    exact List.ne_nil_of_mem (List.mem_filterMap.mpr ⟨_, data, rfl⟩)
  obtain ⟨mode, isMode⟩ := Option.isSome_iff_exists.mp modes
  obtain ⟨on, isOn⟩ := Option.isSome_iff_exists.mp flags
  exact ⟨mode, on, isMode, isOn⟩

end CatHub.Radio

namespace CatHub.Dialect

open Systems Radio Ptt

/-! ## What a session owes -/

/-- A reply that ends in success. -/
def Succeeds (reply : List UInt8) : Prop := HamlibNet.rprtOk <:+ reply

/-- A session that ends at once, and not in success. -/
def Fails (session : Session (List UInt8)) : Prop :=
  ∃ reply, session = .done reply ∧ ¬ Succeeds reply

/-- The session drops or submits the halves of `todo` on the receive VFO, in order, and succeeds only
where none is left; where the radio fails, so does the session. -/
def Owes (vfo : Vfo) : Session (List UInt8) → List Half → Prop
  | .done reply, todo => Succeeds reply → todo = []
  | .ask .snapshot next, todo =>
      ∀ snap : Snapshot, snap.rxVfo = vfo → Owes vfo (next snap) todo
  | .ask (.isRedundant mutation) next, todo =>
      ∃ half rest, todo = half :: rest ∧ mutation = half.mutation vfo ∧ Owes vfo (next true) rest ∧
        Owes vfo (next false) todo
  | .ask (.submit _ _ kind) next, todo =>
      ∃ half rest, todo = half :: rest ∧ kind = .apply (half.mutation vfo) ∧
        (∀ bytes, Owes vfo (next (.ok bytes)) rest) ∧ ∀ error, Fails (next (.error error))
  | .ask _ _, _ => False

section
variable {vfo : Vfo} {ctx : Context}

theorem Fails.owes {session : Session (List UInt8)} (fails : Fails session) (todo : List Half) :
    Owes vfo session todo := by
  obtain ⟨reply, rfl, failed⟩ := fails
  exact fun success => absurd success failed

/-- A modeled write of a half, and what the session does about its outcome. -/
theorem owes_applyModeled (half : Half) {rest : List Half} {f : ApplyOutcome → Session (List UInt8)}
    (done : Owes vfo (f .ok) rest) (refused : ∀ outcome, outcome ≠ .ok → Fails (f outcome)) :
    Owes vfo (applyModeled ctx (half.mutation vfo) .modeledWrite >>= f) (half :: rest) := by
  unfold applyModeled
  cases allowed : ctx.perms.allowsMutation .modeledWrite (half.mutation vfo) with
  | false => exact (refused .denied (by decide)).owes _
  | true =>
      refine ⟨half, rest, rfl, rfl, done, ?_⟩
      have submits : Owes vfo ((do
          let result ← Session.submit ctx.sessionId .write (.apply (half.mutation vfo))
          return mapOutcome (faultOf result)) >>= f) (half :: rest) := by
        refine ⟨half, rest, rfl, rfl, fun bytes => done, fun error => ?_⟩
        cases error <;> exact refused _ (fun same => nomatch same)
      cases half <;> exact submits

/-- A mode is two halves, whatever is made of the status. -/
theorem owes_setMode {token : List Char} {wrap : List UInt8 → List UInt8}
    (known : (Mode.decomposeHamlibToken token).1 ≠ .unknown)
    (honest : ¬ Succeeds (wrap HamlibNet.rprtEinval)) :
    Owes vfo (HamlibNet.setMode ctx vfo token >>= fun bytes => .done (wrap bytes))
      [.base (Mode.decomposeHamlibToken token).1, .data (Mode.decomposeHamlibToken token).2] := by
  have refused : ∀ outcome, outcome ≠ .ok →
      Fails (.done (wrap (HamlibNet.outcomeRprt outcome))) := by
    intro outcome notOk
    refine ⟨_, rfl, ?_⟩
    cases outcome with
    | ok => exact absurd rfl notOk
    | _ => exact honest
  unfold HamlibNet.setMode
  dsimp only
  rw [if_neg known, Program.bind_assoc]
  refine owes_applyModeled (.base _) ?_ ?_
  · rw [if_pos rfl, HamlibNet.write, Program.bind_assoc]
    exact owes_applyModeled (.data _) (fun _ => rfl) refused
  · intro outcome notOk
    rw [if_neg notOk]
    exact refused outcome notOk

/-- The mode and the DATA flag that a line asks for: it names `set_mode`, and the token is recognized. -/
def modeAsked (line : List UInt8) : Option (Mode × Bool) :=
  match HamlibNet.lineWords line with
  | word :: token :: _ =>
      let asked := Mode.decomposeHamlibToken token
      if HamlibNet.Command.parse word = some .setMode ∧ asked.1 ≠ .unknown then some asked else none
  | _ => none

theorem modeAsked_some {line : List UInt8} {asked : Mode × Bool} (h : modeAsked line = some asked) :
    ∃ word token more, HamlibNet.lineWords line = word :: token :: more ∧
      HamlibNet.Command.parse word = some .setMode ∧ Mode.decomposeHamlibToken token = asked ∧
      asked.1 ≠ .unknown := by
  unfold modeAsked at h
  split at h
  · rename_i word token more text
    dsimp only at h
    split at h
    · rename_i recognized
      obtain rfl := Option.some.inj h
      exact ⟨word, token, more, text, recognized.1, rfl, recognized.2⟩
    · cases h
  · cases h

/-- A `set_mode` command, whatever is made of its status. -/
theorem owes_dispatchPlain {word token : List Char} {more : List (List Char)}
    {f : HamlibNet.LineResult → Session (List UInt8)} (wrap : List UInt8 → List UInt8)
    (named : HamlibNet.Command.parse word = some .setMode)
    (known : (Mode.decomposeHamlibToken token).1 ≠ .unknown)
    (ends : ∀ bytes, f (.reply bytes) = .done (wrap bytes))
    (honest : ¬ Succeeds (wrap HamlibNet.rprtEinval)) :
    Owes vfo (HamlibNet.dispatchPlain word (token :: more) ctx >>= f)
      [.base (Mode.decomposeHamlibToken token).1, .data (Mode.decomposeHamlibToken token).2] := by
  have goesOn := HamlibNet.Command.not_quit named
  intro snap receives
  subst receives
  have whole : (HamlibNet.setMode ctx snap.rxVfo token >>= fun bytes => .done (.reply bytes)) >>= f =
      HamlibNet.setMode ctx snap.rxVfo token >>= fun bytes => .done (wrap bytes) := by
    rw [Program.bind_assoc]
    simp only [Program.done_bind, ends]
  have plain := @owes_setMode snap.rxVfo ctx token wrap known honest
  rw [← whole] at plain
  simp only [if_neg goesOn, named, HamlibNet.readReply, HamlibNet.set, List.head?_cons]
  exact plain

/-- The extended form of a `set_mode` looks at the snapshot and is then the plain one. -/
theorem handleExt_setMode {word : List Char} {args : List (List Char)} {rest : List Char} (sep : Char)
    (text : words Radio.Ts590.isWhitespace rest = word :: args)
    (named : HamlibNet.Command.parse word = some .setMode) :
    HamlibNet.handleExt sep rest ctx = .ask .snapshot fun _ =>
      HamlibNet.dispatchPlain word args ctx >>= fun
        | .quit => .done []
        | .reply bytes => .done (HamlibNet.erpRecords sep
            (HamlibNet.plainRecords (HamlibNet.extEcho word args) bytes)) := by
  unfold HamlibNet.handleExt
  rw [text]
  refine congrArg (Program.ask Question.snapshot) (funext fun snap => ?_)
  have unlabeled : HamlibNet.labeledReply ctx snap (some .setMode) = none := by
    unfold HamlibNet.labeledReply
    split <;> rfl
  show (if _ then _ else _) = _
  rw [named, if_neg (by simp), if_neg (by simp), unlabeled]
  rfl

/-- The session of a line that sets the mode. -/
theorem owes_handle {line : List UInt8} {asked : Mode × Bool} (sets : modeAsked line = some asked) :
    Owes vfo (FrontEnd.hamlibNet.handle line ctx) [.base asked.1, .data asked.2] := by
  obtain ⟨word, token, more, text, named, rfl, known⟩ := modeAsked_some sets
  have honest : ∀ reply, HamlibNet.rprtEinval <:+ reply → ¬ Succeeds reply :=
    fun reply refused success => not_refusing success (.inl refused)
  show Owes vfo (HamlibNet.handle line ctx >>= fun result => .done (HamlibNet.sent result)) _
  unfold HamlibNet.lineWords at text
  unfold HamlibNet.handle HamlibNet.handleLine
  cases extended : HamlibNet.splitErp (Radio.Ts590.trim (HamlibNet.requestText line)) with
  | some parts =>
      obtain ⟨sep, rest⟩ := parts
      rw [extended] at text
      dsimp only at text ⊢
      rw [handleExt_setMode sep text named]
      intro snap receives
      show Owes vfo (((HamlibNet.dispatchPlain word (token :: more) ctx >>= _) >>= _) >>= _) _
      rw [Program.bind_assoc, Program.bind_assoc]
      exact owes_dispatchPlain _ named known (fun bytes => rfl)
        (honest _ (suffix_plainRecords sep (HamlibNet.extEcho word (token :: more)) .error))
  | none =>
      rw [extended] at text
      dsimp only at text ⊢
      rw [text]
      exact owes_dispatchPlain id named known (fun _ => rfl) (honest _ (List.suffix_refl _))

end

end CatHub.Dialect
