/-
# CatHub.Dialect.ReadThrough — what a poll of the bridge brings to the Hamlib NET client.

A poll files the frequency and the mode of the rig's current VFO under VFO A, and those of the
transmit VFO, where split is on, under that VFO; the endpoint answers from the VFO that the hub
receives on.  `polled_view` says what the snapshot then holds for each VFO, `Fresh` is the condition
under which that is what the rig holds, and `readsThrough_iff` that the replies carry the rig's values
exactly then.
-/
import CatHub.Dialect.HamlibNet
import CatHub.Radio.Downstream

namespace CatHub.Bridge

open Systems Radio Dialect Dialect.HamlibNet

open Ts590 (ascii recordAll)

/-! ## Replies as a client reads them -/

/-- The lines of a reply. -/
def replyLines (reply : List UInt8) : List (List Char) := words (· == '\n') (fromUtf8Lossy reply)

/-- A text that a reply can carry on one line. -/
def Plain (text : List Char) : Prop := text ≠ [] ∧ ∀ c ∈ text, c.toNat < 0x80 ∧ c ≠ '\n'

instance (text : List Char) : Decidable (Plain text) :=
  @instDecidableAnd _ _ inferInstance (List.decidableBAll _ text)

theorem fromUtf8Lossy_encode {text : List Char} (small : ∀ c ∈ text, c.toNat < 0x80) :
    fromUtf8Lossy (encode text) = text := by
  induction text with
  | nil => rfl
  | cons c text ih =>
      obtain ⟨here, later⟩ := List.forall_mem_cons.mp small
      have one : String.utf8EncodeChar c = [UInt8.ofNat c.toNat] := by
        have low : c.val.toNat ≤ 0x7f := Nat.le_of_lt_succ here
        rw [String.utf8EncodeChar, if_pos low]
        rfl
      have value : (UInt8.ofNat c.toNat).toNat = c.toNat := by
        rw [UInt8.toNat_ofNat']
        omega
      have low : UInt8.ofNat c.toNat < 0x80 := by
        rw [UInt8.lt_iff_toNat_lt, value]
        exact here
      rw [encode, List.flatMap_cons, one, List.singleton_append, fromUtf8Lossy.eq_def]
      simp only [low, if_true, value, Char.ofNat_toNat]
      exact congrArg (c :: ·) (ih later)

/-- What is sent line by line is read line by line. -/
theorem replyLines_lines {texts : List (List Char)} (plain : ∀ text ∈ texts, Plain text) :
    replyLines (lines texts) = texts := by
  have small : ∀ c ∈ texts.flatMap (· ++ ['\n']), c.toNat < 0x80 := by
    intro c mem
    obtain ⟨text, among, here⟩ := List.mem_flatMap.mp mem
    rcases List.mem_append.mp here with here | feed
    · exact ((plain text among).2 c here).1
    · rw [List.mem_singleton.mp feed]
      decide
  rw [replyLines, lines, fromUtf8Lossy_encode small]
  clear small
  induction texts with
  | nil => rfl
  | cons text texts ih =>
      obtain ⟨here, later⟩ := List.forall_mem_cons.mp plain
      have solid : ∀ c ∈ text, (c == '\n') = false := fun c mem => by simpa using (here.2 c mem).2
      rw [List.flatMap_cons, List.append_assoc, List.singleton_append,
        words_first rfl here.1 solid, ih later]

theorem number_chars {n : Nat} {c : Char} (mem : c ∈ number n) :
    ∃ d < 10, c = Char.ofNat (d + 48).toUInt8.toNat := by
  obtain ⟨byte, digit, rfl⟩ := List.mem_map.mp mem
  obtain ⟨d, small, rfl⟩ := Ts590.mem_decimal digit
  exact ⟨d, small, rfl⟩

theorem plain_number (n : Nat) : Plain (number n) := by
  constructor
  · simpa [number, Ts590.decimal] using Ts590.paddedDigits_ne_nil n Nat.zero_lt_one
  · intro c mem
    obtain ⟨d, small, rfl⟩ := number_chars mem
    have digit : ∀ d < 10, (Char.ofNat (d + 48).toUInt8.toNat).toNat < 0x80 ∧
        Char.ofNat (d + 48).toUInt8.toNat ≠ '\n' := by decide
    exact digit d small

/-- Different numbers are written differently. -/
theorem number_inj {m n : Nat} : number m = number n ↔ m = n := by
  refine ⟨fun same => ?_, congrArg number⟩
  have value : ∀ n, Ts590.decimalValue ((number n).map (·.toNat - 48)) = n := by
    intro n
    have digits : (number n).map (·.toNat - 48) = Ts590.paddedDigits 1 n := by
      rw [number, Ts590.decimal, List.map_map, List.map_map]
      conv_rhs => rw [← List.map_id (Ts590.paddedDigits 1 n)]
      apply List.map_congr_left
      intro d mem
      exact (Ts590.digit_char d (Ts590.lt_ten_of_mem_paddedDigits mem)).2.2.2.1
    rw [digits, Ts590.decimalValue_paddedDigits]
  rw [← value m, same, value n]

theorem plain_token {token : List Char} (composed : HamlibToken token) : Plain token := by
  obtain ⟨mode, data, rfl⟩ := composed
  cases mode <;> cases data <;> decide

/-! ## What a poll leaves in the snapshot -/

section
variable {rig : Downstream}

theorem text_modeReply {vfo : Vfo} (composed : HamlibToken (rig.token vfo)) :
    Rigctld.text (Rigctld.firstLine (rig.modeReply vfo)) = rig.token vfo := by
  obtain ⟨mode, data, form⟩ := composed
  rw [Downstream.modeReply, form]
  cases mode <;> cases data <;> rfl

/-- A composed token is taken for a mode, not for a status. -/
theorem detailChanges_composed (composed : HamlibToken (rig.token rig.txVfo)) :
    rig.detailChanges =
      [.freq rig.txVfo (rig.freq rig.txVfo).toNat,
       .mode rig.txVfo (Mode.decomposeHamlibToken (rig.token rig.txVfo)).1,
       .dataMode rig.txVfo (Mode.decomposeHamlibToken (rig.token rig.txVfo)).2] := by
  have line := text_modeReply composed
  obtain ⟨mode, data, form⟩ := composed
  rw [form] at line
  have mode_ : Rigctld.isRprtError (rig.modeReply rig.txVfo) = false := by
    rw [Rigctld.isRprtError, line]
    cases mode <;> cases data <;> decide
  have known : (Mode.decomposeHamlibToken (mode.hamlibTokenWithData data)).1 ≠ .unknown := by
    cases mode <;> cases data <;> decide
  rw [Downstream.detailChanges, mode_, Rigctld.splitModeChanges, line, form]
  simp [known]

/-- What a poll makes of one VFO, with what the snapshot held for it before. -/
def Downstream.view (rig : Downstream) (vfo : Vfo) (before : VfoSnapshot) : Nat × Mode × Bool :=
  if rig.split = true ∧ rig.txVfo = vfo then
    ((rig.freq vfo).toNat, Mode.decomposeHamlibToken (rig.token vfo))
  else
    match vfo with
    | .a => ((rig.freq rig.current).toNat, Mode.fromHamlibToken (rig.token rig.current), before.data)
    | .b => (before.freqHz, before.mode, before.data)

theorem polled_view {bench : Bench} {h : StateHandle} (composed : ∀ v, HamlibToken (rig.token v))
    (polled : Polled rig h bench) :
    let t := bench.handle.snapshot
    t.rxVfo = h.snapshot.rxVfo ∧ t.split = rig.split ∧ t.txVfo = rig.txVfo ∧
      ∀ v, ((t.vfo v).freqHz, (t.vfo v).mode, (t.vfo v).data) = rig.view v (h.snapshot.vfo v) := by
  obtain ⟨power, -, recorded⟩ := polled
  have changes : rig.pollChanges = [.freq .a (rig.freq rig.current).toNat,
      .mode .a (Mode.fromHamlibToken (rig.token rig.current)), .split rig.split (some rig.txVfo)] ++
      if rig.split then
        [.freq rig.txVfo (rig.freq rig.txVfo).toNat,
         .mode rig.txVfo (Mode.decomposeHamlibToken (rig.token rig.txVfo)).1,
         .dataMode rig.txVfo (Mode.decomposeHamlibToken (rig.token rig.txVfo)).2]
      else [] := by
    rw [Downstream.pollChanges, text_modeReply (composed _), detailChanges_composed (composed _)]
  dsimp only
  rw [recorded, changes]
  cases on : rig.split with
  | false =>
      refine ⟨rfl, rfl, rfl, fun v => ?_⟩
      cases v <;> simp [Downstream.view, on, recordAll, Snapshot.applyChange, Snapshot.vfo, Snapshot.setVfo]
  | true =>
      cases tx : rig.txVfo <;>
        refine ⟨rfl, rfl, rfl, fun v => ?_⟩ <;>
        cases v <;>
        simp [Downstream.view, on, tx, recordAll, Snapshot.applyChange, Snapshot.vfo, Snapshot.setVfo]

/-! ## The replies -/

/-- Whatever else there is in the world, and under either name of the command, the lines of the reply
satisfy `P`. -/
def Served (ctx : Context) (state : StateHandle) (command : Command)
    (P : List (List Char) → Prop) : Prop :=
  ∀ radio w word, Command.parse word = some command → w.state = state →
    ∃ bytes, ((dispatchPlain word [] ctx).exec (answerAlone radio) w).1 = .reply bytes ∧
      P (replyLines bytes)

theorem served_iff {ctx : Context} {state : StateHandle} {command : Command} {bytes : List UInt8}
    {P : List (List Char) → Prop} (read : readReply ctx state.snapshot [] command = some bytes) :
    Served ctx state command P ↔ P (replyLines bytes) := by
  have replies : ∀ radio (w : World) word, Command.parse word = some command → w.state = state →
      ((dispatchPlain word [] ctx).exec (answerAlone radio) w).1 = .reply bytes := by
    rintro radio w word parsed rfl
    have goesOn := Command.not_quit parsed
    simp [dispatchPlain, answerAlone, goesOn, parsed, read]
  constructor
  · intro served
    have name : ∃ word, Command.parse word = some command := by
      refine ⟨'\\' :: command.longName, ?_⟩
      cases command <;> decide
    obtain ⟨word, parsed⟩ := name
    obtain ⟨bytes', same, right⟩ := served (fun _ w => (.error .timeout, w))
      ⟨state, { maxTx := 0 }, false, 0⟩ word parsed rfl
    rw [replies _ _ word parsed rfl] at same
    cases same
    exact right
  · intro right radio w word parsed here
    exact ⟨bytes, replies radio w word parsed here, right⟩

/-- The VFO that the rig transmits on. -/
def Downstream.transmitVfo (rig : Downstream) : Vfo := if rig.split then rig.txVfo else rig.current

/-- The replies carry the rig's frequency, mode token, split flag and transmit VFO. -/
structure ReadsThrough (rig : Downstream) (ctx : Context) (state : StateHandle) : Prop where
  freq : Served ctx state .getFreq (· = [number (rig.freq rig.current).toNat])
  mode : Served ctx state .getMode (fun lines => lines.head? = some (rig.token rig.current))
  split : Served ctx state .getSplitVfo (· = [flag rig.split, vfoName rig.transmitVfo])

/-- What the hub holds of the VFO it receives on is what the rig is on: either that VFO was read as the
transmit VFO and is on the frequency and in the mode of the current one; or it is A, and the mode is a
plain one that no DATA flag left from before is composed onto; or it is B, and was right before. -/
def Fresh (rig : Downstream) (before : Snapshot) : Prop :=
  let token := rig.token rig.current
  if rig.split = true ∧ rig.txVfo = before.rxVfo then
    rig.freq before.rxVfo = rig.freq rig.current ∧ rig.token before.rxVfo = token
  else
    match before.rxVfo with
    | .a => (Mode.decomposeHamlibToken token).2 = false ∧
        (before.a.data = true → (Mode.decomposeHamlibToken token).1.packable = false)
    | .b => before.b.freqHz = (rig.freq rig.current).toNat ∧ modeToken before.b = token

/-- The endpoint shows the rig's split: a single-VFO endpoint has VFO A and no split to show, any other
names the VFO that the hub receives on where split is off. -/
def ShowsSplit (rig : Downstream) (ctx : Context) (before : Snapshot) : Prop :=
  if ctx.singleVfo then rig.split = false ∧ rig.current = .a
  else rig.split = true ∨ before.rxVfo = rig.current

/-- A read is answered with a status to those who may not read. -/
theorem replyLines_guardRead (ctx : Context) {texts : List (List Char)}
    (plain : ∀ text ∈ texts, Plain text) :
    replyLines (guardRead ctx (lines texts)) =
      if ctx.perms.read then texts else [['R', 'P', 'R', 'T', ' ', '-', '1']] := by
  have status : rprtEinval = lines [['R', 'P', 'R', 'T', ' ', '-', '1']] := by decide
  rw [guardRead, EndpointPermissions.allows]
  split
  · exact replyLines_lines plain
  · rw [status]
    exact replyLines_lines (by decide)

theorem status_ne_number (n : Nat) : ['R', 'P', 'R', 'T', ' ', '-', '1'] ≠ number n := by
  intro same
  have letter : 'R' ∈ number n := same ▸ List.mem_cons_self
  obtain ⟨d, small, digit⟩ := number_chars letter
  have no : ∀ d < 10, 'R' ≠ Char.ofNat (d + 48).toUInt8.toNat := by decide
  exact no d small digit

theorem status_ne_token {token : List Char} (composed : HamlibToken token) :
    ['R', 'P', 'R', 'T', ' ', '-', '1'] ≠ token := by
  rintro rfl
  exact absurd (composed.letters.2 ' ' (by decide)) (by decide)

theorem servedFreq_iff {ctx : Context} {state : StateHandle} {n : Nat} :
    Served ctx state .getFreq (· = [number n]) ↔
      ctx.perms.read = true ∧ (state.snapshot.vfo state.snapshot.rxVfo).freqHz = n := by
  rw [served_iff rfl, replyLines_guardRead ctx (List.forall_mem_singleton.mpr (plain_number _))]
  split
  · rename_i may
    simp [may, number_inj]
  · rename_i mayNot
    simp [mayNot, status_ne_number]

theorem servedMode_iff {ctx : Context} {state : StateHandle} {token : List Char}
    (composed : HamlibToken token) :
    Served ctx state .getMode (fun lines => lines.head? = some token) ↔
      ctx.perms.read = true ∧ modeToken (state.snapshot.vfo state.snapshot.rxVfo) = token := by
  have plain : ∀ v : VfoSnapshot, ∀ text ∈ [modeToken v, number v.passbandHz], Plain text := by
    intro v
    rw [List.forall_mem_cons, List.forall_mem_singleton]
    exact ⟨plain_token ⟨_, _, rfl⟩, plain_number _⟩
  rw [served_iff rfl, replyLines_guardRead ctx (plain _)]
  split
  · rename_i may
    simp [may]
  · rename_i mayNot
    simp [mayNot, status_ne_token composed]

theorem servedSplit_iff {ctx : Context} {state : StateHandle} {split : Bool} {vfo : Vfo} :
    Served ctx state .getSplitVfo (· = [flag split, vfoName vfo]) ↔
      ctx.perms.read = true ∧ presentedSplit ctx state.snapshot = split ∧
        presentedVfoName ctx (if presentedSplit ctx state.snapshot then state.snapshot.txVfo
          else state.snapshot.rxVfo) = vfoName vfo := by
  have plain : ∀ (on : Bool) (real : Vfo),
      ∀ text ∈ [flag on, presentedVfoName ctx real], Plain text := by
    intro on real
    unfold presentedVfoName
    cases on <;> cases real <;> cases ctx.singleVfo <;> decide
  have flags : ∀ on on' : Bool, flag on = flag on' ↔ on = on' := by decide
  rw [served_iff rfl, replyLines_guardRead ctx (plain _ _)]
  split
  · rename_i may
    simp [may, flags]
  · rename_i mayNot
    simp [mayNot]

/-! ## Reading through -/

/-- The condition says what the view must hold. -/
theorem fresh_iff {before : Snapshot} (composed : ∀ v, HamlibToken (rig.token v)) :
    Fresh rig before ↔
      (rig.view before.rxVfo (before.vfo before.rxVfo)).1 = (rig.freq rig.current).toNat ∧
        (rig.view before.rxVfo (before.vfo before.rxVfo)).2.1.hamlibTokenWithData
          (rig.view before.rxVfo (before.vfo before.rxVfo)).2.2 = rig.token rig.current := by
  unfold Fresh Downstream.view
  dsimp only
  split
  · obtain ⟨mode, data, form⟩ := composed before.rxVfo
    rw [form, Mode.hamlibTokenWithData_decompose, UInt64.toNat_inj]
  · cases before.rxVfo with
    | a =>
        have leftover : ∀ (mode : Mode) (flagged data : Bool),
            ((Mode.decomposeHamlibToken (mode.hamlibTokenWithData flagged)).2 = false ∧
              (data = true →
                (Mode.decomposeHamlibToken (mode.hamlibTokenWithData flagged)).1.packable = false)) ↔
            (Mode.fromHamlibToken (mode.hamlibTokenWithData flagged)).hamlibTokenWithData data =
              mode.hamlibTokenWithData flagged := by
          intro mode flagged data
          cases mode <;> cases flagged <;> cases data <;> decide
        obtain ⟨mode, flagged, form⟩ := composed rig.current
        rw [form]
        exact (leftover mode flagged _).trans (and_iff_right rfl).symm
    | b => exact Iff.rfl

theorem showsSplit_iff {ctx : Context} {before t : Snapshot} (rx : t.rxVfo = before.rxVfo)
    (split : t.split = rig.split) (tx : t.txVfo = rig.txVfo) :
    ShowsSplit rig ctx before ↔
      presentedSplit ctx t = rig.split ∧
        presentedVfoName ctx (if presentedSplit ctx t then t.txVfo else t.rxVfo) =
          vfoName rig.transmitVfo := by
  unfold ShowsSplit presentedSplit presentedVfoName Downstream.transmitVfo
  rw [rx, split, tx]
  cases ctx.singleVfo <;> cases rig.split <;> cases rig.txVfo <;> cases rig.current <;>
    cases before.rxVfo <;> simp <;> decide

/-- After a poll that succeeds, an endpoint serves the rig's frequency, mode and split exactly to those
who may read, where the hub's view is fresh and the endpoint shows the split. -/
theorem readsThrough_iff {fate : Fate} {h : StateHandle} {bench : Bench} (ctx : Context)
    (composed : ∀ v, HamlibToken (rig.token v))
    (polled : fate.run Rigctld.poll ⟨rig, h, 0⟩ = (.ok (), bench)) :
    ReadsThrough rig ctx bench.handle ↔
      ctx.perms.read = true ∧ Fresh rig h.snapshot ∧ ShowsSplit rig ctx h.snapshot := by
  rw [Fate.run] at polled
  have done := (@triple_poll fate rig h).ok ⟨rfl, rfl, rfl⟩ polled
  obtain ⟨rx, split, tx, view⟩ := polled_view composed done
  have here := view bench.handle.snapshot.rxVfo
  rw [rx, Prod.ext_iff, Prod.ext_iff] at here
  obtain ⟨freq, mode, data⟩ := here
  dsimp only at freq mode data
  rw [fresh_iff composed, showsSplit_iff rx split tx, ← freq, ← mode, ← data]
  constructor
  · rintro ⟨freq, mode, split⟩
    obtain ⟨may, freq⟩ := servedFreq_iff.mp freq
    rw [rx] at freq
    have mode := ((servedMode_iff (composed _)).mp mode).2
    rw [rx] at mode
    exact ⟨may, ⟨freq, mode⟩, (servedSplit_iff.mp split).2⟩
  · rintro ⟨may, ⟨freq, mode⟩, split⟩
    refine ⟨servedFreq_iff.mpr ⟨may, ?_⟩, (servedMode_iff (composed _)).mpr ⟨may, ?_⟩,
      servedSplit_iff.mpr ⟨may, split⟩⟩
    · rw [rx]
      exact freq
    · rw [rx]
      exact mode

/-- A poll that is not cut off succeeds. -/
theorem poll_succeeds {fate : Fate} (whole : fate.cut = none) (rig : Downstream) (h : StateHandle) :
    ∃ bench, fate.run Rigctld.poll ⟨rig, h, 0⟩ = (.ok (), bench) ∧ Polled rig h bench := by
  have polled := @triple_poll fate rig h ⟨rig, h, 0⟩ ⟨rfl, rfl, rfl⟩
  unfold Fate.run
  generalize Rigctld.poll.run.exec fate.answer ⟨rig, h, 0⟩ = stop at polled
  obtain ⟨error | _, bench⟩ := stop
  · obtain ⟨cut, -, cuts, -⟩ := polled
    rw [whole] at cuts
    cases cuts
  · exact ⟨bench, rfl, polled⟩

end

/-- A rig on 14.074 MHz, in the same mode on both VFOs. -/
def inMode (mode : Mode) (data : Bool) : Downstream where
  freq := fun _ => 14074000
  token := fun _ => mode.hamlibTokenWithData data

/-- An endpoint that may only look. -/
def looking : Context := ⟨0, ⟨true, false, false, false, false⟩, false, false, false, []⟩

/-- A rig in plain USB is read through. -/
theorem readsThrough_plain :
    ∃ bench, ({} : Fate).run Rigctld.poll ⟨inMode .usb false, {}, 0⟩ = (.ok (), bench) ∧
      ReadsThrough (inMode .usb false) looking bench.handle := by
  obtain ⟨bench, polled, -⟩ := @poll_succeeds {} rfl (inMode .usb false) {}
  refine ⟨bench, polled, (readsThrough_iff looking (fun _ => ⟨.usb, false, rfl⟩) polled).mpr ?_⟩
  exact ⟨rfl, ⟨by decide, by decide⟩, .inr rfl⟩

/-- A rig in PKTUSB is shown in USB. -/
theorem pktusb_shown_as_usb :
    ¬ ∀ (fate : Fate) (rig : Downstream) (h : StateHandle) (bench : Bench) (ctx : Context),
      (∀ v, HamlibToken (rig.token v)) → ctx.perms.read = true → ctx.singleVfo = false →
        fate.run Rigctld.poll ⟨rig, h, 0⟩ = (.ok (), bench) → ReadsThrough rig ctx bench.handle := by
  intro claim
  have composed : ∀ v, HamlibToken ((inMode .usb true).token v) := fun _ => ⟨.usb, true, rfl⟩
  obtain ⟨bench, polled, done⟩ := @poll_succeeds {} rfl (inMode .usb true) {}
  have served := (claim {} _ _ bench looking composed rfl rfl polled).mode
  have token := ((servedMode_iff (composed .a)).mp served).2
  obtain ⟨rx, -, -, view⟩ := polled_view composed done
  have unknown := view .a
  have held : modeToken (bench.handle.snapshot.vfo .a) =
      (Mode.fromHamlibToken (Mode.usb.hamlibTokenWithData true)).hamlibTokenWithData false :=
    congrArg (fun v : Nat × Mode × Bool => v.2.1.hamlibTokenWithData v.2.2) unknown
  rw [rx] at token
  exact absurd (held.symm.trans token) (by decide)

end CatHub.Bridge
