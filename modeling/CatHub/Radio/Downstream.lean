/-
# CatHub.Radio.Downstream — a rig behind a `rigctld`, and the bridge operated on it.

The rig has two VFOs with a frequency and a mode token each, one of them current, and a split
setting.  It reads its commands from bytes: `F`, `f`, `M` and `m` act on the current VFO, `i` and `x`
on the transmit VFO.  It answers every query; a setter it may refuse.

`Alone` is the world of one operation: nobody else touches the rig or the state, but a `Fate` may
make the rig refuse setters, or cut the link at one of the operation's commands, before or after the
rig executed it.
-/
import CatHub.Radio.Rigctld

namespace CatHub.Bridge

open Systems Radio

open Ts590 (ascii decimal fromUtf8 trim parseU64 recordAll)

/-! ## The rig -/

structure Downstream where
  freq : Vfo → UInt64
  token : Vfo → List Char
  passband : Vfo → Nat := fun _ => 2400
  current : Vfo := .a
  split : Bool := false
  txVfo : Vfo := .a
  /-- The answer to every other query, the power queries among them. -/
  others : List UInt8 → List UInt8 := fun _ => ascii ['R', 'P', 'R', 'T', ' ', '-', '1', '1', '\n']

inductive RigCommand where
  | getFreq
  | getMode
  | getSplit
  | getSplitFreq
  | getSplitMode
  | setFreq (hz : UInt64)
  | setMode (token : List Char)
  | setSplit (enabled : Bool) (vfo : Vfo)
  | setPtt
  | other
  deriving DecidableEq, Repr

namespace RigCommand

/-- The command that some bytes spell. -/
def decode (bytes : List UInt8) : RigCommand :=
  match words (fun byte => byte == 0x20 || byte == 0x0A) bytes with
  | [] => .other
  | name :: args =>
      if name = ascii ['f'] then .getFreq
      else if name = ascii ['m'] then .getMode
      else if name = ascii ['s'] then .getSplit
      else if name = ascii ['i'] then .getSplitFreq
      else if name = ascii ['x'] then .getSplitMode
      else if name = ascii ['F'] then
        match args with
        | [hz] => (parseU64 hz).elim .other (fun hz => .setFreq hz.toUInt64)
        | _ => .other
      else if name = ascii ['M'] then
        match args with
        | [token, _] => .setMode (Rigctld.text token)
        | _ => .other
      else if name = ascii ['S'] then
        match args with
        | [on, vfo] =>
            .setSplit (on == ascii ['1']) (if vfo = ascii (vfoName .b) then .b else .a)
        | _ => .other
      else if name = ascii ['T'] then .setPtt
      else .other

/-- Whether the command changes the rig. -/
def sets : RigCommand → Bool
  | .setFreq _ | .setMode _ | .setSplit .. | .setPtt => true
  | _ => false

end RigCommand

namespace Downstream

def line (bytes : List UInt8) : List UInt8 := bytes ++ [Rigctld.newline]

/-- The rig after a command it obeys. -/
def obey (rig : Downstream) : RigCommand → Downstream
  | .setFreq hz => { rig with freq := Function.update rig.freq rig.current hz }
  | .setMode token => { rig with token := Function.update rig.token rig.current token }
  | .setSplit enabled vfo => { rig with split := enabled, txVfo := vfo }
  | _ => rig

def modeReply (rig : Downstream) (vfo : Vfo) : List UInt8 :=
  line (ascii (rig.token vfo)) ++ line (decimal 1 (rig.passband vfo))

/-- The reply to a command it obeys. -/
def reply (rig : Downstream) (bytes : List UInt8) : RigCommand → List UInt8
  | .getFreq => line (decimal 1 (rig.freq rig.current).toNat)
  | .getMode => rig.modeReply rig.current
  | .getSplit =>
      line (ascii [if rig.split then '1' else '0']) ++ line (ascii (vfoName rig.txVfo))
  | .getSplitFreq => line (decimal 1 (rig.freq rig.txVfo).toNat)
  | .getSplitMode => rig.modeReply rig.txVfo
  | .setFreq _ | .setMode _ | .setSplit .. | .setPtt => line (ascii ['R', 'P', 'R', 'T', ' ', '0'])
  | .other => rig.others bytes

/-- Serve one command; setters may be refused. -/
def serve (rig : Downstream) (refuses : Bool) (bytes : List UInt8) : Downstream × List UInt8 :=
  let command := RigCommand.decode bytes
  if refuses && command.sets then (rig, line (ascii ['R', 'P', 'R', 'T', ' ', '-', '9']))
  else (rig.obey command, rig.reply bytes command)

end Downstream

/-! ## What the commands of the bridge mean to it -/

namespace RigCommand

theorem decode_poll :
    decode Rigctld.pollGetFreq = .getFreq ∧ decode Rigctld.pollGetMode = .getMode ∧
      decode Rigctld.pollGetSplit = .getSplit ∧ decode Rigctld.pollGetSplitFreq = .getSplitFreq ∧
      decode Rigctld.pollGetSplitMode = .getSplitMode ∧ decode Rigctld.pollGetRfpower = .other := by
  decide

/-- A decimal number is one word. -/
theorem decimal_solid {n : Nat} :
    decimal 1 n ≠ [] ∧ ∀ byte ∈ decimal 1 n, (byte == 0x20 || byte == 0x0A) = false := by
  constructor
  · simpa [decimal] using Ts590.paddedDigits_ne_nil n (Nat.zero_lt_one)
  · intro byte mem
    obtain ⟨d, small, rfl⟩ := Ts590.mem_decimal mem
    have solid : ∀ d < 10, ((d + 48).toUInt8 == 0x20 || (d + 48).toUInt8 == 0x0A) = false := by
      decide
    exact solid d small

theorem decode_setFreq (hz : UInt64) :
    decode (Rigctld.setFreqCommand hz.toNat) = .setFreq hz := by
  have cut : words (fun byte : UInt8 => byte == 0x20 || byte == 0x0A)
      (Rigctld.setFreqCommand hz.toNat) = [ascii ['F'], decimal 1 hz.toNat] := by
    have form : Rigctld.setFreqCommand hz.toNat =
        ascii ['F'] ++ 0x20 :: (decimal 1 hz.toNat ++ 0x0A :: []) := by
      simp [Rigctld.setFreqCommand, Rigctld.newline, ascii]
    rw [form, words_first rfl (by decide) (by simp [ascii]),
      words_first rfl decimal_solid.1 decimal_solid.2, words_nil]
  rw [decode, cut]
  have read : parseU64 (decimal 1 hz.toNat) = some hz.toNat :=
    Ts590.parseU64_decimal Nat.zero_lt_one hz.toNat_lt
  have number : (parseU64 (decimal 1 hz.toNat)).elim other (fun hz => setFreq hz.toUInt64) =
      setFreq hz := by
    rw [read, Option.elim_some, Nat.toUInt64, UInt64.ofNat_toNat]
  exact number

/-- A composed token reaches the rig as it is. -/
theorem decode_setMode (mode : Mode) (data : Bool) :
    decode (Rigctld.setModeCommand (mode.hamlibTokenWithData data)) =
      .setMode (mode.hamlibTokenWithData data) := by
  cases mode <;> cases data <;> decide

theorem decode_setSplit (enabled : Bool) (vfo : Vfo) :
    decode (Rigctld.setSplitCommand enabled vfo) = .setSplit enabled vfo := by
  cases enabled <;> cases vfo <;> decide

/-- Whatever a power conversion asks about, it sets nothing. -/
theorem decode_power2mW (relative : List Char) (hz : Nat) (token : List Char) :
    decode (Rigctld.power2mWCommand relative hz token) = .other := by
  let rest := ascii (relative ++ [' ']) ++ decimal 1 hz ++ ascii ([' '] ++ token ++ ['\n'])
  have cut : words (fun byte : UInt8 => byte == 0x20 || byte == 0x0A)
      (Rigctld.power2mWCommand relative hz token) =
      ascii ['2'] :: words (fun byte : UInt8 => byte == 0x20 || byte == 0x0A) rest := by
    have form : Rigctld.power2mWCommand relative hz token = ascii ['2'] ++ 0x20 :: rest := by
      simp [Rigctld.power2mWCommand, ascii, rest]
    rw [form, words_first rfl (by decide) (by simp [ascii])]
  rw [decode, cut]
  rfl

theorem obey_query {rig : Downstream} {command : RigCommand} (query : command.sets = false) :
    rig.obey command = rig := by
  cases command <;> first | rfl | cases query

end RigCommand

/-! ## One operation alone -/

/-- The link fails at one of the operation's commands. -/
structure Cut where
  index : Nat
  executed : Bool
  error : BackendError
  deriving DecidableEq, Repr

/-- What an operation meets with. -/
structure Fate where
  refuses : Bool := false
  cut : Option Cut := none
  deriving DecidableEq, Repr

/-- The rig, the state, and how many commands the operation has submitted. -/
structure Bench where
  rig : Downstream
  handle : StateHandle
  sent : Nat := 0

/-- The answers an operation of the bridge gets. -/
def Fate.answer (fate : Fate) : (q : LinkQuestion) → Bench → q.Answer × Bench
  | .submit bytes _, bench =>
      let served := bench.rig.serve fate.refuses bytes
      match fate.cut with
      | some cut =>
          if cut.index = bench.sent then
            (.error cut.error,
              { bench with rig := if cut.executed then served.1 else bench.rig, sent := bench.sent + 1 })
          else (.ok served.2, { bench with rig := served.1, sent := bench.sent + 1 })
      | none => (.ok served.2, { bench with rig := served.1, sent := bench.sent + 1 })
  | .snapshot, bench => (bench.handle.snapshot, bench)
  | .record change source, bench => ((), { bench with handle := bench.handle.record change source })

/-- Run an operation of the bridge. -/
def Fate.run (fate : Fate) (operation : BackendCall Unit) (bench : Bench) :
    Except BackendError Unit × Bench := operation.run.exec fate.answer bench

/-! ### Writes -/

namespace Fate

/-- The rig executes the operation's first command. -/
def obeyed (fate : Fate) : Bool :=
  !fate.refuses && fate.cut.all (fun cut => cut.index != 0 || cut.executed)

/-- The operation learns that the rig did. -/
def acknowledged (fate : Fate) : Bool := !fate.refuses && fate.cut.all (fun cut => cut.index != 0)

theorem obeyed_of_acknowledged {fate : Fate} (h : fate.acknowledged = true) :
    fate.obeyed = true := by
  rw [acknowledged, Bool.and_eq_true] at h
  rw [obeyed, Bool.and_eq_true]
  refine ⟨h.1, ?_⟩
  cases cut : fate.cut with
  | none => rfl
  | some c =>
      have later := h.2
      rw [cut, Option.all_some] at later
      rw [Option.all_some, later, Bool.true_or]

end Fate

theorem checkRprt_ok :
    Rigctld.checkRprt (Downstream.line (ascii ['R', 'P', 'R', 'T', ' ', '0'])) = pure () := rfl

theorem checkRprt_refused :
    Rigctld.checkRprt (Downstream.line (ascii ['R', 'P', 'R', 'T', ' ', '-', '9'])) =
      throw (.rejected "rigctld RPRT -9") := rfl

/-- The reply to a setter. -/
theorem serve_setter {rig : Downstream} {refuses : Bool} {bytes : List UInt8}
    (sets : (RigCommand.decode bytes).sets = true) :
    rig.serve refuses bytes =
      if refuses then (rig, Downstream.line (ascii ['R', 'P', 'R', 'T', ' ', '-', '9']))
      else (rig.obey (RigCommand.decode bytes), Downstream.line (ascii ['R', 'P', 'R', 'T', ' ', '0'])) := by
  unfold Downstream.serve
  generalize RigCommand.decode bytes = command at sets
  cases refuses with
  | true => simp [sets]
  | false => cases command <;> first | rfl | cases sets

/-- A write is recorded exactly when it was acknowledged; the rig may have obeyed one that was not. -/
theorem run_applyCommand (fate : Fate) (bytes : List UInt8) (mutation : StateMutation) (rig : Downstream)
    (h : StateHandle) (sets : (RigCommand.decode bytes).sets = true) :
    (fate.run (Rigctld.applyCommand bytes mutation) ⟨rig, h, 0⟩).1.isOk = fate.acknowledged ∧
      (fate.run (Rigctld.applyCommand bytes mutation) ⟨rig, h, 0⟩).2 =
        ⟨if fate.obeyed then rig.obey (RigCommand.decode bytes) else rig,
          if fate.acknowledged then h.record mutation.intoChange .optimisticWrite else h, 1⟩ := by
  obtain ⟨refuses, cut⟩ := fate
  have served := @serve_setter rig refuses bytes sets
  unfold Fate.run Rigctld.applyCommand Fate.acknowledged Fate.obeyed
  simp only [ExceptT.run_bind, Program.exec_bind, BackendCall.submit, ExceptT.run_mk,
    Program.exec_ask, Program.exec_done, Fate.answer, served]
  cases cut with
  | none =>
      cases refuses with
      | true => simp [checkRprt_refused]; rfl
      | false => simp [checkRprt_ok]; exact ⟨rfl, rfl⟩
  | some cut =>
      by_cases now : cut.index = 0
      · simp [now, Except.isOk, Except.toBool]
        cases refuses <;> cases cut.executed <;> simp
      · cases refuses with
        | true => simp [now, checkRprt_refused]; rfl
        | false =>
            have later : (cut.index != 0) = true := by simpa using now
            simp [now, checkRprt_ok]
            exact ⟨later.symm, rfl⟩

/-! ### Polls -/

/-- What the split details of a poll report. -/
def Downstream.detailChanges (rig : Downstream) : List StateChange :=
  .freq rig.txVfo (rig.freq rig.txVfo).toNat ::
    if Rigctld.isRprtError (rig.modeReply rig.txVfo) then []
    else Rigctld.splitModeChanges rig.txVfo (rig.modeReply rig.txVfo)

/-- What a poll of the rig reports before it comes to the power. -/
def Downstream.pollChanges (rig : Downstream) : List StateChange :=
  [.freq .a (rig.freq rig.current).toNat,
   .mode .a (Mode.fromHamlibToken (Rigctld.text (Rigctld.firstLine (rig.modeReply rig.current)))),
   .split rig.split (some rig.txVfo)] ++
  if rig.split then rig.detailChanges else []

/-- After `sent` commands the rig is as it was, and the state has recorded `seen`. -/
def Recorded (rig : Downstream) (h : StateHandle) (seen : List StateChange) (sent : Nat)
    (bench : Bench) : Prop :=
  bench.sent = sent ∧ bench.rig = rig ∧ bench.handle = recordAll h seen .pollDiff

/-- The poll was cut off at one of its commands.  Up to the power, every command is good for one
record; only the last one before it, the split mode, may be good for two or none. -/
def CutOff (fate : Fate) (rig : Downstream) (h : StateHandle) (bench : Bench) : Prop :=
  ∃ cut seen, fate.cut = some cut ∧ seen <+: rig.pollChanges ∧
    (seen = rig.pollChanges ∧ 3 ≤ cut.index ∨ seen.length = cut.index) ∧
    bench.rig = rig ∧ bench.handle = recordAll h seen .pollDiff

section
variable {fate : Fate} {rig : Downstream} {h : StateHandle} {seen : List StateChange} {sent : Nat}

theorem triple_query {bytes : List UInt8} {expect : Expect} {command : RigCommand}
    (spelled : RigCommand.decode bytes = command) (query : command.sets = false)
    (part : seen <+: rig.pollChanges)
    (count : seen = rig.pollChanges ∧ 3 ≤ sent ∨ seen.length = sent) :
    Program.Triple fate.answer (Recorded rig h seen sent) (BackendCall.submit bytes expect)
      (fun reply bench => reply = rig.reply bytes command ∧ Recorded rig h seen (sent + 1) bench)
      (CutOff fate rig h) := by
  rintro bench ⟨rfl, same, recorded⟩
  have served : rig.serve fate.refuses bytes = (rig, rig.reply bytes command) := by
    simp [Downstream.serve, spelled, query, RigCommand.obey_query query]
  simp only [BackendCall.submit, ExceptT.run_mk, Program.exec_ask, Program.exec_done, Fate.answer,
    same, served]
  cases cut : fate.cut with
  | none => exact ⟨rfl, rfl, rfl, recorded⟩
  | some c =>
      by_cases now : c.index = bench.sent
      · simp only [now, if_true, ite_self]
        exact ⟨c, seen, cut, part, now ▸ count, rfl, recorded⟩
      · simp only [now, if_false]
        exact ⟨trivial, rfl, rfl, recorded⟩

theorem triple_record {change : StateChange} :
    Program.Triple fate.answer (Recorded rig h seen sent) (BackendCall.record change .pollDiff)
      (fun _ => Recorded rig h (seen ++ [change]) sent) (CutOff fate rig h) := by
  rintro bench ⟨count, same, recorded⟩
  refine ⟨count, same, ?_⟩
  simp only [Fate.answer, recorded, recordAll, List.foldl_append, List.foldl_cons,
    List.foldl_nil]

theorem triple_recordAll {changes : List StateChange} :
    Program.Triple fate.answer (Recorded rig h seen sent) (BackendCall.recordAll changes .pollDiff)
      (fun _ => Recorded rig h (seen ++ changes) sent) (CutOff fate rig h) := by
  induction changes generalizing seen with
  | nil => exact Program.Triple.pure (by simp)
  | cons change changes ih =>
      refine Program.Triple.bind triple_record (fun _ => ?_)
      have rest := @ih (seen ++ [change])
      rwa [List.append_assoc] at rest

theorem parseU64_freqReply (hz : UInt64) :
    parseU64 (Rigctld.firstLine (Downstream.line (decimal 1 hz.toNat))) = some hz.toNat := by
  have solid : Rigctld.newline ∉ decimal 1 hz.toNat := by
    intro mem
    have blank := RigCommand.decimal_solid.2 _ mem
    exact absurd blank (by decide)
  rw [Downstream.line, Rigctld.firstLine_append, Rigctld.firstLine_solid solid]
  exact Ts590.parseU64_decimal Nat.zero_lt_one hz.toNat_lt

/-- A line that reads as a number is no status. -/
theorem isRprtError_number {bytes : List UInt8} {n : Nat}
    (number : parseU64 (Rigctld.firstLine bytes) = some n) :
    Rigctld.isRprtError bytes = false := by
  rw [parseU64_eq] at number
  obtain ⟨line, decoded, number⟩ := Option.bind_eq_some_iff.mp number
  rw [Rigctld.isRprtError, Rigctld.text, decoded, Option.getD_some]
  cases trimmed : trim line with
  | nil => rfl
  | cons c rest =>
      rw [trimmed] at number
      by_cases letter : c = 'R'
      · subst letter
        simp [parseUnsigned] at number
      · simp [List.dropPrefix?, Rigctld.rprt, letter]

theorem splitReply_reply (rig : Downstream) (bytes : List UInt8) :
    Rigctld.splitReply (rig.reply bytes .getSplit) = (rig.split, rig.txVfo) := by
  have spelled : ∀ split txVfo, Rigctld.splitReply
      (Downstream.line (ascii [if split then '1' else '0']) ++ Downstream.line (ascii (vfoName txVfo))) =
        (split, txVfo) := by
    intro split txVfo
    cases split <;> cases txVfo <;> decide +kernel
  exact spelled rig.split rig.txVfo

theorem triple_pollSplitDetails {before : List StateChange}
    (whole : rig.pollChanges = before ++ rig.detailChanges) :
    Program.Triple fate.answer (Recorded rig h before before.length)
      (Rigctld.pollSplitDetails rig.txVfo)
      (fun _ => Recorded rig h rig.pollChanges (before.length + 2)) (CutOff fate rig h) := by
  have number := parseU64_freqReply (rig.freq rig.txVfo)
  refine Program.Triple.bind (triple_query RigCommand.decode_poll.2.2.2.1 rfl ?_ (.inr rfl))
    (fun f => ?_)
  · rw [whole]
    exact List.prefix_append before _
  refine Program.Triple.given (fun reply => ?_)
  have read : (if Rigctld.isRprtError f then none else parseU64 (Rigctld.firstLine f)) =
      some (rig.freq rig.txVfo).toNat := by
    rw [reply, Downstream.reply, isRprtError_number number, if_neg Bool.false_ne_true, number]
  rw [read]
  refine Program.Triple.bind triple_record (fun _ => ?_)
  refine Program.Triple.bind (triple_query RigCommand.decode_poll.2.2.2.2.1 rfl ?_
    (.inr (by rw [List.length_append, List.length_singleton]))) (fun m => ?_)
  · rw [whole, Downstream.detailChanges]
    exact ⟨_, by rw [List.append_assoc, List.singleton_append]⟩
  refine Program.Triple.given (fun reply => ?_)
  rw [reply]
  have last := @triple_recordAll fate rig h
    (before ++ [.freq rig.txVfo (rig.freq rig.txVfo).toNat]) (before.length + 2)
    (if Rigctld.isRprtError (rig.modeReply rig.txVfo) then []
      else Rigctld.splitModeChanges rig.txVfo (rig.modeReply rig.txVfo))
  rw [List.append_assoc, List.singleton_append, ← Downstream.detailChanges, ← whole] at last
  exact last

/-- A whole poll has recorded everything, and a power. -/
def Polled (rig : Downstream) (h : StateHandle) (bench : Bench) : Prop :=
  ∃ power, bench.rig = rig ∧
    bench.handle = recordAll h (rig.pollChanges ++ [.txPower power]) .pollDiff

/-- Whatever comes of it, reading the power records one observation more. -/
theorem triple_pollTxPower (late : 3 ≤ sent) :
    Program.Triple fate.answer (Recorded rig h rig.pollChanges sent) Rigctld.pollTxPower
      (fun _ => Polled rig h) (CutOff fate rig h) := by
  have ends : ∀ sent power, Program.Triple fate.answer (Recorded rig h rig.pollChanges sent)
      (BackendCall.record (.txPower power) .pollDiff) (fun _ => Polled rig h) (CutOff fate rig h) :=
    fun sent power => triple_record.mono (fun _ start => start) (fun _ _ done => ⟨power, done.2⟩)
      (fun _ cut => cut)
  refine Program.Triple.bind (triple_query RigCommand.decode_poll.2.2.2.2.2 rfl List.prefix_rfl
    (.inl ⟨rfl, late⟩)) (fun relative => ?_)
  refine Program.Triple.given (fun _ => ?_)
  dsimp only
  split
  · exact ends _ none
  · refine Program.Triple.bind (J := fun _ => Recorded rig h rig.pollChanges (sent + 1)) ?_
      (fun snapshot => ?_)
    · exact fun bench start => start
    · refine Program.Triple.bind (triple_query (RigCommand.decode_power2mW _ _ _) rfl
        List.prefix_rfl (.inl ⟨rfl, by omega⟩)) (fun _ => ?_)
      exact Program.Triple.given (fun _ => ends _ _)

/-- A poll leaves the rig alone.  It records what `pollChanges` lists and then a power, or, cut off, a
part of that list. -/
theorem triple_poll :
    Program.Triple fate.answer (fun bench => bench.sent = 0 ∧ bench.rig = rig ∧ bench.handle = h)
      Rigctld.poll (fun _ => Polled rig h) (CutOff fate rig h) := by
  refine Program.Triple.bind (triple_query RigCommand.decode_poll.1 rfl List.nil_prefix (.inr rfl))
    (fun f => ?_)
  refine Program.Triple.given (fun reply => ?_)
  subst reply
  refine Program.Triple.bind (J := fun _ => Recorded rig h
    [.freq .a (rig.freq rig.current).toNat] 1) ?_ (fun _ => ?_)
  · simp only [Downstream.reply, parseU64_freqReply, Rigctld.recordRead]
    exact triple_record
  refine Program.Triple.bind (triple_query RigCommand.decode_poll.2.1 rfl ⟨_, rfl⟩ (.inr rfl))
    (fun m => ?_)
  refine Program.Triple.given (fun reply => ?_)
  subst reply
  refine Program.Triple.bind triple_record (fun _ => ?_)
  refine Program.Triple.bind (triple_query RigCommand.decode_poll.2.2.1 rfl ⟨_, rfl⟩ (.inr rfl))
    (fun s => ?_)
  refine Program.Triple.given (fun reply => ?_)
  subst reply
  rw [splitReply_reply]
  refine Program.Triple.bind triple_record (fun _ => ?_)
  dsimp only
  split
  · rename_i on
    have whole : rig.pollChanges = [.freq .a (rig.freq rig.current).toNat] ++
        [.mode .a (Mode.fromHamlibToken (Rigctld.text (Rigctld.firstLine
          (rig.modeReply rig.current))))] ++ [.split rig.split (some rig.txVfo)] ++
        rig.detailChanges := by
      simp [Downstream.pollChanges, on]
    exact Program.Triple.bind (triple_pollSplitDetails whole) (fun _ => triple_pollTxPower (by simp))
  · rename_i off
    have whole : rig.pollChanges = [.freq .a (rig.freq rig.current).toNat] ++
        [.mode .a (Mode.fromHamlibToken (Rigctld.text (Rigctld.firstLine
          (rig.modeReply rig.current))))] ++ [.split rig.split (some rig.txVfo)] := by
      simp [Downstream.pollChanges, off]
    have power := @triple_pollTxPower fate rig h 3 le_rfl
    rw [whole] at power
    exact power

end

end CatHub.Bridge
