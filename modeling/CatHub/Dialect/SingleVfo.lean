/-
# CatHub.Dialect.SingleVfo — what a single-VFO endpoint tells of A and B.

Two hubs `Agree` when their operating VFOs hold the same frequency and mode and the transmitters are
alike; which VFO operates, what the other one holds and the split are free.  A client that is shown one
VFO should not tell such hubs apart.  The TS-590 dialect keeps to that.  The TS-2000 dialect does not
look at the flag: bare `IF`, `FR` and `FT` and the announcement of a switch show what the hubs disagree
on.  Beyond that only one write can differ, one that asserts the mode the hubs already hold while one of
them has come to doubt it.
-/
import CatHub.Dialect.Kenwood

namespace CatHub.Dialect

open Systems Radio Ptt

open Radio.Ts590 (ascii terminator decimal parseU64 splitFrame vfoDigit)

/-! ## Hubs that look alike -/

/-- The dialects that know single-VFO presentation. -/
inductive Modeled where
  | ts590
  | ts2000
  deriving DecidableEq, Repr

def Modeled.dialect : Modeled → ClientDialect
  | .ts590 => ts590Dialect
  | .ts2000 => ts2000Dialect

/-- The verbs of the presentation. -/
def shownVerbs : List (List UInt8) :=
  [ascii ['F', 'A'], ascii ['F', 'B'], ascii ['F', 'R'], ascii ['F', 'T'], ascii ['M', 'D'],
    ascii ['I', 'F'], ascii ['A', 'I'], ascii ['I', 'D'], ascii ['P', 'S']]

def operating (s : Snapshot) : VfoSnapshot := s.vfo s.rxVfo

/-- The snapshots agree on the operating VFO and on the transmitter. -/
structure Agree (s₁ s₂ : Snapshot) : Prop where
  freq : (operating s₁).freqHz = (operating s₂).freqHz
  mode : (operating s₁).mode = (operating s₂).mode
  ptt : s₁.ptt = s₂.ptt

/-- A radio that a session has for itself. -/
abbrev Attached := OpKind → World → Except BackendError (List UInt8) × World

/-- The same operation, on two operating VFOs. -/
inductive Twin (v₁ v₂ : Vfo) : OpKind → OpKind → Prop
  | freq (hz : Nat) : Twin v₁ v₂ (.apply (.setVfoFreq v₁ hz)) (.apply (.setVfoFreq v₂ hz))
  | mode (mode : Mode) : Twin v₁ v₂ (.apply (.setMode v₁ mode)) (.apply (.setMode v₂ mode))
  | raw (bytes : List UInt8) : Twin v₁ v₂ (.passthrough bytes) (.passthrough bytes)

/-- The radios give the same answer to the same operation. -/
def RadiosAgree (radio₁ radio₂ : Attached) (w₁ w₂ : World) : Prop :=
  ∀ k₁ k₂, Twin w₁.state.snapshot.rxVfo w₂.state.snapshot.rxVfo k₁ k₂ →
    (radio₁ k₁ w₁).1 = (radio₂ k₂ w₂).1

/-- What a session is sent that is alone with the hub. -/
def sends (session : Session (List UInt8)) (radio : Attached) (w : World) : List UInt8 :=
  (session.exec (answerAlone radio) w).1

/-- Two sessions send the same bytes to their clients, whatever the radios answer. -/
def SameBytes (session₁ session₂ : Session (List UInt8)) (w₁ w₂ : World) : Prop :=
  ∀ radio₁ radio₂, RadiosAgree radio₁ radio₂ w₁ w₂ → sends session₁ radio₁ w₁ = sends session₂ radio₂ w₂

/-! ## Writes to the operating VFO -/

/-- A write, and the reply that tells how it ended. -/
def written (ctx : Context) (mutation : StateMutation) : Session (List UInt8) := do
  let outcome ← applyModeled ctx mutation .modeledWrite
  return reply outcome

theorem sends_written (radio : Attached) {ctx : Context} {mutation : StateMutation} {w : World}
    (other : isSetPtt mutation = false) :
    sends (written ctx mutation) radio w =
      if !ctx.perms.allowsMutation .modeledWrite mutation then errReply
      else if w.state.isRedundant mutation then []
      else reply (mapOutcome (faultOf (radio (.apply mutation) w).1)) := by
  unfold written sends applyModeled
  cases ctx.perms.allowsMutation .modeledWrite mutation with
  | false => rfl
  | true =>
      cases redundant : w.state.isRedundant mutation with
      | true => simp [answerAlone, redundant, reply]
      | false =>
          cases mutation with
          | setPtt => cases other
          | _ => simp [answerAlone, redundant]

section
variable {ctx : Context} {w₁ w₂ : World}

/-- Writes that both hubs admit and find redundant alike. -/
theorem written_same {m₁ m₂ : StateMutation} (other₁ : isSetPtt m₁ = false)
    (other₂ : isSetPtt m₂ = false)
    (allowed : ctx.perms.allowsMutation .modeledWrite m₁ = ctx.perms.allowsMutation .modeledWrite m₂)
    (redundant : w₁.state.isRedundant m₁ = w₂.state.isRedundant m₂)
    (twin : Twin w₁.state.snapshot.rxVfo w₂.state.snapshot.rxVfo (.apply m₁) (.apply m₂)) :
    SameBytes (written ctx m₁) (written ctx m₂) w₁ w₂ := by
  intro radio₁ radio₂ radios
  rw [sends_written radio₁ other₁, sends_written radio₂ other₂, allowed, redundant,
    radios _ _ twin]

theorem setFreq_same (agree : Agree w₁.state.snapshot w₂.state.snapshot) (payload : List UInt8) :
    SameBytes (setFreq ctx w₁.state.snapshot.rxVfo payload)
      (setFreq ctx w₂.state.snapshot.rxVfo payload) w₁ w₂ := by
  unfold setFreq
  cases parseU64 payload with
  | none => exact fun _ _ _ => rfl
  | some hz =>
      refine written_same rfl rfl rfl ?_ (.freq hz)
      have held := agree.freq
      simp only [operating] at held
      simp [StateHandle.isRedundant, Snapshot.isRedundant, held]

/-- A mode write tells the hubs apart exactly where one of them suppresses it and the other does not. -/
theorem setMode_same_iff (mode : Mode) :
    SameBytes (written ctx (.setMode w₁.state.snapshot.rxVfo mode))
        (written ctx (.setMode w₂.state.snapshot.rxVfo mode)) w₁ w₂ ↔
      (ctx.perms.write = true → w₁.state.isRedundant (.setMode w₁.state.snapshot.rxVfo mode) =
        w₂.state.isRedundant (.setMode w₂.state.snapshot.rxVfo mode)) := by
  constructor
  · intro same allowed
    -- a radio that refuses everything shows what was suppressed
    have refused := same (fun _ w => (.error .unsupported, w)) (fun _ w => (.error .unsupported, w))
      (fun _ _ _ => rfl)
    rw [sends_written _ rfl, sends_written _ rfl] at refused
    have admitted : ∀ vfo,
        ctx.perms.allowsMutation .modeledWrite (.setMode vfo mode) = true := fun _ => by
      simp [EndpointPermissions.allowsMutation, allowed]
    rw [admitted, admitted] at refused
    have visible : errReply ≠ [] := by decide
    revert refused
    cases w₁.state.isRedundant (.setMode w₁.state.snapshot.rxVfo mode) <;>
      cases w₂.state.isRedundant (.setMode w₂.state.snapshot.rxVfo mode) <;>
      simp [faultOf, mapOutcome, reply, visible, visible.symm]
  · intro redundant
    cases allowed : ctx.perms.write with
    | true => exact written_same rfl rfl rfl (redundant allowed) (.mode mode)
    | false =>
        intro radio₁ radio₂ _
        have denied : ∀ vfo,
            ctx.perms.allowsMutation .modeledWrite (.setMode vfo mode) = false := fun _ => by
          simp [EndpointPermissions.allowsMutation, allowed]
        rw [sends_written _ rfl, sends_written _ rfl, denied, denied]
        rfl

end

/-! ## Requests -/

section
variable {ctx : Context} {w₁ w₂ : World}

theorem SameBytes.ite {c : Prop} [Decidable c] {a₁ a₂ b₁ b₂ : Session (List UInt8)}
    (yes : SameBytes a₁ a₂ w₁ w₂) (no : SameBytes b₁ b₂ w₁ w₂) :
    SameBytes (if c then a₁ else b₁) (if c then a₂ else b₂) w₁ w₂ := by
  split
  · exact yes
  · exact no

theorem done_same (bytes : List UInt8) : SameBytes (.done bytes) (.done bytes) w₁ w₂ :=
  fun _ _ _ => rfl

/-- Where a session only looks, what it sends is a function of the snapshot. -/
theorem look_same_iff (f₁ f₂ : Snapshot → List UInt8) :
    SameBytes (Session.snapshot >>= fun snap => .done (f₁ snap))
        (Session.snapshot >>= fun snap => .done (f₂ snap)) w₁ w₂ ↔
      f₁ w₁.state.snapshot = f₂ w₂.state.snapshot := by
  constructor
  · intro same
    exact same (fun _ w => (.ok [], w)) (fun _ w => (.ok [], w)) (fun _ _ _ => rfl)
  · exact fun same _ _ _ => same

/-- Looking first and going on from there. -/
theorem snapshot_same_iff (f₁ f₂ : Snapshot → Session (List UInt8)) :
    SameBytes (Session.snapshot >>= f₁) (Session.snapshot >>= f₂) w₁ w₂ ↔
      SameBytes (f₁ w₁.state.snapshot) (f₂ w₂.state.snapshot) w₁ w₂ := Iff.rfl

/-- A bare query that is answered from the snapshot, and nothing else under that verb. -/
theorem query_same_iff (f : Snapshot → List UInt8) (payload : List UInt8) :
    SameBytes
        (if payload.isEmpty = true then Session.snapshot >>= fun snap => .done (f snap)
          else .done errReply)
        (if payload.isEmpty = true then Session.snapshot >>= fun snap => .done (f snap)
          else .done errReply) w₁ w₂ ↔
      (payload = [] → f w₁.state.snapshot = f w₂.state.snapshot) := by
  cases payload with
  | nil => exact (look_same_iff f f).trans ⟨fun same _ => same, fun same => same rfl⟩
  | cons digit rest => exact iff_of_true (done_same _) (fun absurd => nomatch absurd)

theorem aiRequest_same (ai : w₁.ai = w₂.ai) (payload : List UInt8) :
    SameBytes (aiRequest payload) (aiRequest payload) w₁ w₂ := by
  intro radio₁ radio₂ _
  cases payload with
  | nil => exact congrArg aiFrame ai
  | cons digit payload => rfl

theorem forward_same (request payload : List UInt8) :
    SameBytes (forward ctx request payload) (forward ctx request payload) w₁ w₂ := by
  intro radio₁ radio₂ radios
  have answers := radios _ _ (.raw request)
  unfold forward passthrough
  cases ctx.perms.allows (if payload.isEmpty then .passthroughRead else .configWrite) with
  | false => rfl
  | true =>
      simp only [sends, Bool.not_true, Bool.false_eq_true, if_false, Session.submit_bind,
        Program.exec_ask, answerAlone, answers]
      cases (radio₂ (.passthrough request) w₂).1 <;> rfl

theorem modeRequest_same_iff (agree : Agree w₁.state.snapshot w₂.state.snapshot)
    (payload : List UInt8) :
    SameBytes (modeRequest ctx payload) (modeRequest ctx payload) w₁ w₂ ↔
      ∀ digit rest, payload = digit :: rest → ctx.perms.write = true →
        w₁.state.isRedundant
            (.setMode w₁.state.snapshot.rxVfo (Mode.fromKenwoodDigit digit)) =
          w₂.state.isRedundant
            (.setMode w₂.state.snapshot.rxVfo (Mode.fromKenwoodDigit digit)) := by
  cases payload with
  | nil =>
      refine iff_of_true ((look_same_iff _ _).mpr ?_) (fun _ _ absurd => nomatch absurd)
      exact congrArg modeFrame agree.mode
  | cons digit rest =>
      refine ((snapshot_same_iff _ _).trans (setMode_same_iff _)).trans ?_
      constructor
      · rintro same _ _ ⟨⟩
        exact same
      · exact fun same => same digit rest rfl

end

/-- The VFO that a TS-2000 client is told to transmit on. -/
def shownTx (s : Snapshot) : Vfo := if s.split then s.txVfo else s.rxVfo

/-- The snapshots agree on what a bare TS-2000 query shows of A and B. -/
def ShownAlike (s₁ s₂ : Snapshot) (verb : List UInt8) : Prop :=
  (verb = ascii ['I', 'F'] → s₁.rxVfo = s₂.rxVfo ∧ s₁.split = s₂.split) ∧
    (verb = ascii ['F', 'R'] → s₁.rxVfo = s₂.rxVfo) ∧
    (verb = ascii ['F', 'T'] → shownTx s₁ = shownTx s₂)

/-- The hubs agree on whether a mode write is redundant. -/
def ModeSettled (perms : EndpointPermissions) (h₁ h₂ : StateHandle) (verb payload : List UInt8) :
    Prop :=
  verb = ascii ['M', 'D'] → ∀ digit rest, payload = digit :: rest → perms.write = true →
    h₁.isRedundant (.setMode h₁.snapshot.rxVfo (Mode.fromKenwoodDigit digit)) =
      h₂.isRedundant (.setMode h₂.snapshot.rxVfo (Mode.fromKenwoodDigit digit))

/-- A single-VFO `IF` shows nothing of A and B. -/
theorem synthIf_single {s₁ s₂ : Snapshot} (agree : Agree s₁ s₂) :
    synthIf s₁ true = synthIf s₂ true := by
  have freq := agree.freq
  have mode := agree.mode
  simp only [operating] at freq mode
  simp [synthIf, freq, mode, agree.ptt]

theorem ts590_same_iff {ctx : Context} (single : ctx.singleVfo = true) {w₁ w₂ : World}
    (agree : Agree w₁.state.snapshot w₂.state.snapshot) (ai : w₁.ai = w₂.ai)
    {request verb payload : List UInt8} (split : splitFrame request = some (verb, payload))
    (known : verb ∈ shownVerbs) :
    SameBytes (Ts590Dialect.handle request ctx) (Ts590Dialect.handle request ctx) w₁ w₂ ↔
      ModeSettled ctx.perms w₁.state w₂.state verb payload := by
  have single_if := synthIf_single agree
  have bare : ∀ name, SameBytes
      (Session.snapshot >>= fun snap =>
        .done (freqFrame name (snap.vfo w₁.state.snapshot.rxVfo).freqHz))
      (Session.snapshot >>= fun snap =>
        .done (freqFrame name (snap.vfo w₂.state.snapshot.rxVfo).freqHz)) w₁ w₂ := fun name =>
    (look_same_iff _ _).mpr (congrArg (freqFrame name) agree.freq)
  simp only [shownVerbs, List.mem_cons, List.not_mem_nil, or_false] at known
  unfold Ts590Dialect.handle
  rw [split]
  refine (snapshot_same_iff _ _).trans ?_
  rcases known with rfl | rfl | rfl | rfl | rfl | rfl | rfl | rfl | rfl
  case inr.inr.inr.inr.inl =>
    simp +decide only [if_true, if_false, false_and]
    exact (modeRequest_same_iff agree payload).trans ⟨fun same _ => same, fun same => same rfl⟩
  all_goals
    refine iff_of_true ?_ (fun other => absurd other (by decide))
    simp +decide only [single, if_true, if_false, false_and, true_and, and_true]
  · exact .ite (bare _) (setFreq_same agree payload)
  · exact .ite (bare _) (setFreq_same agree payload)
  · exact done_same _
  · exact done_same _
  · exact .ite ((look_same_iff _ _).mpr single_if) (forward_same request payload)
  · exact aiRequest_same ai payload
  · exact .ite (done_same _) (forward_same request payload)
  · exact .ite (done_same _) (forward_same request payload)

theorem vfoDigit_inj {v₁ v₂ : Vfo} (same : vfoDigit v₁ = vfoDigit v₂) : v₁ = v₂ := by
  cases v₁ <;> cases v₂ <;> first | rfl | exact absurd same (by decide)

/-- A dual-VFO `IF` shows the receive VFO and the split. -/
theorem synthIf_dual_iff {s₁ s₂ : Snapshot} (agree : Agree s₁ s₂) :
    synthIf s₁ false = synthIf s₂ false ↔ s₁.rxVfo = s₂.rxVfo ∧ s₁.split = s₂.split := by
  have freq := agree.freq
  have mode := agree.mode
  simp only [operating] at freq mode
  constructor
  · intro same
    simp only [synthIf, freq, mode, agree.ptt] at same
    have tails := List.append_cancel_left same
    simp only [ifTail, List.append_assoc] at tails
    have digits := List.append_cancel_left tails
    simp only [List.cons_append, List.nil_append, List.cons.injEq, Bool.false_eq_true, if_false] at digits
    refine ⟨vfoDigit_inj digits.2.2.1, ?_⟩
    have splits := digits.2.2.2.2.1
    revert splits
    cases s₁.split <;> cases s₂.split <;> decide
  · rintro ⟨rx, split⟩
    rw [rx] at freq mode
    simp only [synthIf, freq, mode, agree.ptt, rx, split]

theorem vfoFrame_iff {name : List UInt8} {v₁ v₂ : Vfo} :
    vfoFrame name v₁ = vfoFrame name v₂ ↔ v₁ = v₂ := by
  constructor
  · intro same
    have digits := List.append_cancel_left same
    exact vfoDigit_inj (List.cons.inj digits).1
  · exact congrArg _

theorem ts2000_same_iff {ctx : Context} {w₁ w₂ : World}
    (agree : Agree w₁.state.snapshot w₂.state.snapshot) (ai : w₁.ai = w₂.ai)
    {request verb payload : List UInt8} (split : splitFrame request = some (verb, payload))
    (known : verb ∈ shownVerbs) :
    SameBytes (Ts2000Dialect.handle request ctx) (Ts2000Dialect.handle request ctx) w₁ w₂ ↔
      (payload = [] → ShownAlike w₁.state.snapshot w₂.state.snapshot verb) ∧
        ModeSettled ctx.perms w₁.state w₂.state verb payload := by
  have freqRequest : ∀ name, SameBytes (Ts2000Dialect.freqRequest name ctx payload)
      (Ts2000Dialect.freqRequest name ctx payload) w₁ w₂ := by
    intro name
    have frame := congrArg (freqFrame name) agree.freq
    simp only [operating] at frame
    refine (snapshot_same_iff _ _).mpr (.ite ?_ (setFreq_same agree payload))
    rw [frame]
    exact done_same _
  simp only [shownVerbs, List.mem_cons, List.not_mem_nil, or_false] at known
  unfold Ts2000Dialect.handle
  rw [split]
  rcases known with rfl | rfl | rfl | rfl | rfl | rfl | rfl | rfl | rfl
  all_goals
    simp +decide only [ShownAlike, ModeSettled, if_true, if_false, false_and, true_and, and_true,
      false_imp_iff, true_imp_iff, imp_true_iff, and_self, iff_true]
  · exact freqRequest _
  · exact freqRequest _
  · exact query_same_iff (fun s => vfoFrame (ascii ['F', 'R']) s.rxVfo) payload |>.trans
      (imp_congr_right (fun _ => vfoFrame_iff))
  · exact query_same_iff (fun s => vfoFrame (ascii ['F', 'T']) (shownTx s)) payload |>.trans
      (imp_congr_right (fun _ => vfoFrame_iff))
  · exact modeRequest_same_iff agree payload
  · exact query_same_iff Ts2000Dialect.synthIf payload |>.trans
      (imp_congr_right (fun _ => synthIf_dual_iff agree))
  · exact aiRequest_same ai payload
  · exact .ite (done_same _) (done_same _)
  · exact .ite (done_same _) (done_same _)

/-! ## Notifications -/

/-- A change of the hidden VFO, or of the split. -/
def OnHidden (s : Snapshot) : StateChange → Prop
  | .freq vfo _ | .mode vfo _ | .dataMode vfo _ => vfo ≠ s.rxVfo
  | .split .. => True
  | _ => False

/-- A change that names no VFO. -/
def OfRadio : StateChange → Prop
  | .freq .. | .mode .. | .dataMode .. | .split .. | .rxVfo _ => False
  | _ => True

/-- Changes that correspond in two hubs. -/
inductive Corresponds (s₁ s₂ : Snapshot) : StateChange → StateChange → Prop
  | freq (hz : Nat) : Corresponds s₁ s₂ (.freq s₁.rxVfo hz) (.freq s₂.rxVfo hz)
  | mode (mode : Mode) : Corresponds s₁ s₂ (.mode s₁.rxVfo mode) (.mode s₂.rxVfo mode)
  | dataMode (on : Bool) : Corresponds s₁ s₂ (.dataMode s₁.rxVfo on) (.dataMode s₂.rxVfo on)
  | switch (v₁ v₂ : Vfo) : Corresponds s₁ s₂ (.rxVfo v₁) (.rxVfo v₂)
  | hidden {c₁ c₂ : StateChange} : OnHidden s₁ c₁ → OnHidden s₂ c₂ → Corresponds s₁ s₂ c₁ c₂
  | radio {change : StateChange} : OfRadio change → Corresponds s₁ s₂ change change

section
variable {ctx : Context} {s₁ s₂ : Snapshot} {c₁ c₂ : StateChange}

/-- What happens on the hidden VFO alone is not announced. -/
theorem hidden_silent (family : Modeled) (single : ctx.singleVfo = true) {s : Snapshot}
    {change : StateChange} (ai : Bool) (hidden : OnHidden s change) :
    family.dialect.formatNotification ctx ai s change = none := by
  cases ai with
  | false => cases family <;> rfl
  | true =>
      cases family with
      | ts590 =>
          cases change <;> simp_all [Modeled.dialect, ts590Dialect, Ts590Dialect.formatNotification,
            Ts590Dialect.singleVfoNotification, OnHidden]
      | ts2000 =>
          cases change <;> simp_all [Modeled.dialect, ts2000Dialect, Ts2000Dialect.formatNotification,
            OnHidden]

theorem radio_silent (family : Modeled) {s : Snapshot} {change : StateChange} (ai : Bool)
    (single : ctx.singleVfo = true) (radio : OfRadio change) :
    family.dialect.formatNotification ctx ai s change = none := by
  cases ai with
  | false => cases family <;> rfl
  | true =>
      cases change with
      | freq | mode | dataMode | split | rxVfo => exact radio.elim
      | _ => cases family <;> simp [Modeled.dialect, ts590Dialect, Ts590Dialect.formatNotification,
            Ts590Dialect.singleVfoNotification, ts2000Dialect, Ts2000Dialect.formatNotification, single]

theorem ts590_notifies_same (single : ctx.singleVfo = true) (agree : Agree s₁ s₂) (ai : Bool)
    (same : Corresponds s₁ s₂ c₁ c₂) :
    Ts590Dialect.formatNotification ctx ai s₁ c₁ = Ts590Dialect.formatNotification ctx ai s₂ c₂ := by
  cases ai with
  | false => rfl
  | true =>
      have shown := synthIf_single agree
      have freq := agree.freq
      have mode := agree.mode
      simp only [operating] at freq mode
      cases same with
      | hidden h₁ h₂ =>
          exact (hidden_silent .ts590 single true h₁).trans (hidden_silent .ts590 single true h₂).symm
      | radio radio =>
          exact (radio_silent .ts590 true single radio).trans
            (radio_silent .ts590 true single radio).symm
      | freq | mode | dataMode | switch =>
          simp [Ts590Dialect.formatNotification, Ts590Dialect.singleVfoNotification, single, shown,
            freq, mode]

theorem ts2000_notifies_same_iff (agree : Agree s₁ s₂) (single : ctx.singleVfo = true) (ai : Bool)
    (same : Corresponds s₁ s₂ c₁ c₂) :
    Ts2000Dialect.formatNotification ctx ai s₁ c₁ = Ts2000Dialect.formatNotification ctx ai s₂ c₂ ↔
      (ai = true → (∃ vfo, c₁ = .rxVfo vfo) → s₁.rxVfo = s₂.rxVfo ∧ s₁.split = s₂.split) := by
  cases ai with
  | false => exact iff_of_true rfl (fun absurd => nomatch absurd)
  | true =>
      have freq := agree.freq
      have mode := agree.mode
      simp only [operating] at freq mode
      cases same with
      | switch v₁ v₂ =>
          have dual := synthIf_dual_iff agree
          simp [Ts2000Dialect.formatNotification, freq, mode, Ts2000Dialect.synthIf, dual]
      | hidden h₁ h₂ =>
          refine iff_of_true ?_ ?_
          · exact (hidden_silent .ts2000 single true h₁).trans
              (hidden_silent .ts2000 single true h₂).symm
          · rintro - ⟨vfo, rfl⟩
            exact h₁.elim
      | radio radio =>
          refine iff_of_true ?_ ?_
          · exact (radio_silent .ts2000 true single radio).trans
              (radio_silent .ts2000 true single radio).symm
          · rintro - ⟨vfo, rfl⟩
            exact radio.elim
      | freq | mode | dataMode => simp [Ts2000Dialect.formatNotification]

end

/-- What a single-VFO client is sent is the same in two hubs that agree, exactly when its dialect is the
TS-590 one or the hubs agree on what the TS-2000 one shows, and a mode write is suppressed in both or in
neither.  What happens on the hidden VFO alone is not announced. -/
theorem single_vfo_iff (family : Modeled) {ctx : Context} (single : ctx.singleVfo = true)
    {w₁ w₂ : World} (agree : Agree w₁.state.snapshot w₂.state.snapshot) (ai : w₁.ai = w₂.ai) :
    (∀ request verb payload, splitFrame request = some (verb, payload) → verb ∈ shownVerbs →
      (SameBytes (family.dialect.handle request ctx) (family.dialect.handle request ctx) w₁ w₂ ↔
        (family = .ts2000 → payload = [] →
          ShownAlike w₁.state.snapshot w₂.state.snapshot verb) ∧
        ModeSettled ctx.perms w₁.state w₂.state verb payload)) ∧
    (∀ c₁ c₂, Corresponds w₁.state.snapshot w₂.state.snapshot c₁ c₂ →
      (family.dialect.formatNotification ctx w₁.ai w₁.state.snapshot c₁ =
          family.dialect.formatNotification ctx w₂.ai w₂.state.snapshot c₂ ↔
        (family = .ts2000 → w₁.ai = true → (∃ vfo, c₁ = .rxVfo vfo) →
          w₁.state.snapshot.rxVfo = w₂.state.snapshot.rxVfo ∧
            w₁.state.snapshot.split = w₂.state.snapshot.split))) ∧
    (∀ change, OnHidden w₁.state.snapshot change →
      family.dialect.formatNotification ctx w₁.ai w₁.state.snapshot change = none) := by
  refine ⟨fun request verb payload split known => ?_, fun c₁ c₂ same => ?_,
    fun change hidden => hidden_silent family single w₁.ai hidden⟩
  · cases family with
    | ts590 =>
        refine (ts590_same_iff single agree ai split known).trans ?_
        simp
    | ts2000 =>
        refine (ts2000_same_iff agree ai split known).trans ?_
        simp
  · rw [← ai]
    cases family with
    | ts590 =>
        exact iff_of_true (ts590_notifies_same single agree w₁.ai same) (fun absurd => nomatch absurd)
    | ts2000 =>
        refine (ts2000_notifies_same_iff agree single w₁.ai same).trans ?_
        simp

/-- A logger that is shown one VFO. -/
def oneVfoLogger : Context :=
  ⟨0, ⟨true, false, false, false, false⟩, true, true, true, []⟩

/-- A hub that operates on the given VFO, with both VFOs alike. -/
def operatingOn (vfo : Vfo) : World := ⟨{ snapshot := { rxVfo := vfo } }, { maxTx := 0 }, false, 0⟩

/-- To a TS-590 logger, an `IF` on B looks like one on A. -/
theorem single_vfo_ts590 :
    SameBytes (ts590Dialect.handle (ascii ['I', 'F', ';']) oneVfoLogger)
      (ts590Dialect.handle (ascii ['I', 'F', ';']) oneVfoLogger) (operatingOn .a) (operatingOn .b) := by
  have agree : Agree (operatingOn .a).state.snapshot (operatingOn .b).state.snapshot :=
    ⟨rfl, rfl, rfl⟩
  have requests := (@single_vfo_iff .ts590 oneVfoLogger rfl _ _ agree rfl).1
  refine (requests _ (ascii ['I', 'F']) [] (by decide) (by decide)).mpr ⟨?_, ?_⟩
  · exact fun absurd => nomatch absurd
  · exact fun verb => absurd verb (by decide)

/-- A TS-2000 logger that asks for the receive VFO is told the physical one. -/
theorem ts2000_tells_a_from_b : ∃ (ctx : Context) (w₁ w₂ : World), ctx.singleVfo = true ∧
    Agree w₁.state.snapshot w₂.state.snapshot ∧ w₁.ai = w₂.ai ∧
      ¬ SameBytes (ts2000Dialect.handle (ascii ['F', 'R', ';']) ctx)
        (ts2000Dialect.handle (ascii ['F', 'R', ';']) ctx) w₁ w₂ := by
  refine ⟨oneVfoLogger, operatingOn .a, operatingOn .b, rfl, ⟨rfl, rfl, rfl⟩, rfl, fun same => ?_⟩
  have bytes := same (fun _ w => (.ok [], w)) (fun _ w => (.ok [], w)) (fun _ _ _ => rfl)
  exact absurd bytes (by decide)

end CatHub.Dialect
