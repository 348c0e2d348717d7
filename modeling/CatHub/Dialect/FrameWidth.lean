/-
# CatHub.Dialect.FrameWidth — frequency frames of 14 bytes and `IF` answers of 38.

The formats pad a frequency to eleven digits and write what is longer in full, and neither the parsers
nor the state bound it.  So the width of every frame at the desk rests on the frequencies that enter: as
long as they fit, everything stored fits, and so does everything that is sent.
-/
import CatHub.Dialect.AutoInfo
import CatHub.Dialect.Resync
import CatHub.Dialect.Retarget
import CatHub.Radio.Narrow

namespace CatHub.Dialect

open Systems Radio Ptt

open Radio.Ts590 (ascii terminator decimal parseU64 splitFrame isAsciiAlphabetic vfoDigit
  length_decimal_iff mem_decimal decimal_figures NarrowFrame eventChanges freqVerb applyBytes
  parseIfStatus pollCommands)

/-! ## Frames -/

/-- The letters that a command begins with. -/
def letters (command : List UInt8) : List UInt8 := command.takeWhile isAsciiAlphabetic

/-- The command names a frequency or asks for one. -/
def Tunes (command : List UInt8) : Prop :=
  letters command = ascii ['F', 'A'] ∨ letters command = ascii ['F', 'B']

instance (command : List UInt8) : Decidable (Tunes command) := inferInstanceAs (Decidable (_ ∨ _))

def Figure (byte : UInt8) : Prop := 0x30 ≤ byte ∧ byte ≤ 0x39

/-- A verb and eleven digits; with the terminator, 14 bytes. -/
structure FreqExact (command : List UInt8) : Prop where
  length : command.length = 13
  digits : ∀ byte ∈ command.drop 2, Figure byte

/-- An `IF` answer with each field at its offset; with the terminator, 38 bytes. -/
structure StatusExact (command : List UInt8) : Prop where
  length : command.length = 37
  freq : ∀ byte ∈ (command.drop 2).take 11, Figure byte
  ptt : ∃ ptt : Bool, command[28]? = some (if ptt then 0x31 else 0x30)
  mode : ∃ mode : Mode, command[29]? = some mode.toKenwoodDigit
  rxVfo : ∃ vfo, command[30]? = some (vfoDigit vfo)
  split : ∃ split : Bool, command[32]? = some (if split then 0x31 else 0x30)

/-- A command to a client has the width of its verb. -/
structure Exact (command : List UInt8) : Prop where
  freq : Tunes command → FreqExact command
  status : letters command = ascii ['I', 'F'] → StatusExact command

def ExactFrames (bytes : List UInt8) : Prop := ∀ command ∈ commands bytes, Exact command

/-- The frequency frames in it have their width. -/
def ExactFreqs (bytes : List UInt8) : Prop := ∀ command ∈ commands bytes, Tunes command → FreqExact command

/-- So have those to the radio, which is asked for a frequency by the bare verb. -/
def ExactSets (bytes : List UInt8) : Prop :=
  ∀ command ∈ commands bytes, Tunes command → FreqExact command ∨ command.length = 2

section
variable {bytes body back : List UInt8}

theorem forall_commands (closed : terminator ∉ body) {Q : List UInt8 → Prop} :
    (∀ command ∈ commands (body ++ [terminator] ++ back), Q command) ↔
      Q body ∧ ∀ command ∈ commands back, Q command := by
  have single : commands body = [body] := by
    refine List.splitOnP_eq_singleton (fun byte mem => ?_)
    exact beq_false_of_ne (fun same => closed (same ▸ mem))
  rw [commands_append, single, List.singleton_append, List.forall_mem_cons]

/-- Commands of other verbs may be anything. -/
theorem exactFrames_of_verbs (other : ∀ verb ∈ verbs bytes,
    verb ≠ ascii ['F', 'A'] ∧ verb ≠ ascii ['F', 'B'] ∧ verb ≠ ascii ['I', 'F']) :
    ExactFrames bytes := by
  intro command mem
  obtain ⟨fa, fb, status⟩ := other _ (List.mem_map_of_mem mem)
  exact ⟨fun tunes => (tunes.elim fa fb).elim, fun same => absurd same status⟩

theorem exactSets_of_verbs (other : ∀ verb ∈ verbs bytes,
    verb ≠ ascii ['F', 'A'] ∧ verb ≠ ascii ['F', 'B']) : ExactSets bytes := by
  intro command mem tunes
  obtain ⟨fa, fb⟩ := other _ (List.mem_map_of_mem mem)
  exact (tunes.elim fa fb).elim

theorem exactFrames_nil : ExactFrames [] := exactFrames_of_verbs (by decide)

/-- A frame with nothing behind it. -/
theorem exactFrames_alone (exact_ : ExactFrames (bytes ++ [])) : ExactFrames bytes :=
  List.append_nil bytes ▸ exact_

theorem figure_of_mem_decimal {width n : Nat} {byte : UInt8} (mem : byte ∈ decimal width n) :
    Figure byte := by
  have figures : ∀ d < 10, 0x30 ≤ (d + 48).toUInt8 ∧ (d + 48).toUInt8 ≤ 0x39 := by decide
  obtain ⟨d, small, rfl⟩ := mem_decimal mem
  exact figures d small

/-- A verb of letters is what a command of it begins with, and there are no letters behind it. -/
theorem letters_append {verb payload : List UInt8}
    (alphabetic : ∀ byte ∈ verb, isAsciiAlphabetic byte = true)
    (plain : ∀ byte ∈ payload, isAsciiAlphabetic byte = false) :
    letters (verb ++ payload) = verb := by
  rw [letters, List.takeWhile_append_of_pos alphabetic]
  cases payload with
  | nil => exact List.append_nil verb
  | cons byte payload =>
      rw [List.takeWhile_cons_of_neg (by simp [plain byte List.mem_cons_self]), List.append_nil]

/-- A frequency that fits has the width of its frame. -/
theorem freqExact_decimal (vfo : Vfo) {hz : Nat} (narrow : hz < 10 ^ 11) :
    FreqExact (freqVerb vfo ++ decimal 11 hz) := by
  have two : (freqVerb vfo).length = 2 := by cases vfo <;> rfl
  refine ⟨?_, fun byte mem => ?_⟩
  · rw [List.length_append, two, length_decimal_iff.mpr narrow]
  · rw [List.drop_left' two] at mem
    exact figure_of_mem_decimal mem

theorem exactFrames_freq (vfo : Vfo) {hz : Nat} (narrow : hz < 10 ^ 11) (rest : ExactFrames back) :
    ExactFrames (freqFrame (freqVerb vfo) hz ++ back) := by
  have named : letters (freqVerb vfo ++ decimal 11 hz) = freqVerb vfo :=
    letters_append (Radio.Ts590.freqVerb_letters vfo) (fun _ mem => (decimal_figures mem).2)
  refine (forall_commands (Radio.Ts590.freqVerb_closed vfo hz)).mpr
    ⟨⟨fun _ => freqExact_decimal vfo narrow, fun same => ?_⟩, rest⟩
  rw [named] at same
  cases vfo <;> exact absurd same (by decide)

theorem exactFrames_mode (mode : Mode) (rest : ExactFrames back) :
    ExactFrames (modeFrame mode ++ back) := by
  rw [modeFrame_eq]
  have closed : terminator ∉ ascii ['M', 'D'] ++ [mode.toKenwoodDigit] := by
    cases mode <;> decide
  have named : letters (ascii ['M', 'D'] ++ [mode.toKenwoodDigit]) = ascii ['M', 'D'] := by
    cases mode <;> decide
  refine (forall_commands closed).mpr ⟨⟨fun tunes => ?_, fun same => ?_⟩, rest⟩
  · rw [Tunes, named] at tunes
    exact absurd tunes (by decide)
  · rw [named] at same
    exact absurd same (by decide)

/-- An `IF` answer is its verb, the frequency and the figures behind it. -/
theorem status_eq (s : Snapshot) (singleVfo : Bool) :
    status s singleVfo = ascii ['I', 'F'] ++ (decimal 11 (s.vfo s.rxVfo).freqHz ++
      ifFigures s.ptt (s.vfo s.rxVfo).mode (if singleVfo then .a else s.rxVfo)
        (!singleVfo && s.split)) := List.append_assoc _ _ _

theorem letters_status (s : Snapshot) (singleVfo : Bool) :
    letters (status s singleVfo) = ascii ['I', 'F'] := by
  rw [status_eq]
  refine letters_append (List.all_eq_true.mp (by decide)) (List.forall_mem_append.mpr ⟨?_, ?_⟩)
  · exact fun _ mem => (decimal_figures mem).2
  · exact fun byte mem => (ifFigures_plain _ _ _ _ byte mem).2

theorem statusExact_status {s : Snapshot} (singleVfo : Bool)
    (narrow : (s.vfo s.rxVfo).freqHz < 10 ^ 11) : StatusExact (status s singleVfo) := by
  have width := length_decimal_iff.mpr narrow
  rw [status_eq]
  set figures := ifFigures s.ptt (s.vfo s.rxVfo).mode (if singleVfo then .a else s.rxVfo)
    (!singleVfo && s.split) with tail
  have field : ∀ n, (ascii ['I', 'F'] ++ (decimal 11 (s.vfo s.rxVfo).freqHz ++ figures))[n + 13]? =
      figures[n]? := by
    intro n
    rw [← List.append_assoc, List.getElem?_append_right (by simp [width, ascii])]
    simp [width, ascii]
  refine ⟨?_, fun byte mem => ?_, ⟨s.ptt, field 15⟩, ⟨_, field 16⟩, ⟨_, field 17⟩, ⟨_, field 19⟩⟩
  · rw [List.length_append, List.length_append, width]
    rfl
  · have digits : byte ∈ decimal 11 (s.vfo s.rxVfo).freqHz := by
      have two : (ascii ['I', 'F']).length = 2 := rfl
      rwa [List.drop_left' two, List.take_left' width] at mem
    exact figure_of_mem_decimal digits

theorem exactFrames_synthIf {s : Snapshot} (singleVfo : Bool) (narrow : s.Narrow)
    (rest : ExactFrames back) : ExactFrames (synthIf s singleVfo ++ back) := by
  rw [synthIf_eq]
  refine (forall_commands (status_closed s singleVfo)).mpr
    ⟨⟨fun tunes => ?_, fun _ => statusExact_status singleVfo (narrow _)⟩, rest⟩
  rw [Tunes, letters_status] at tunes
  exact absurd tunes (by decide)

end

/-! ## What the desk relies on -/

/-- The queries that only the poller sends. -/
def polled : List (List UInt8) :=
  [ascii ['F', 'A', ';'], ascii ['F', 'B', ';'], ascii ['I', 'F', ';'], ascii ['M', 'D', ';']]

/-- An answer of the radio enters no wide frequency, and one that may go to a client has frames of the
right width. -/
def NarrowAnswer (bytes : List UInt8) (answer : Except BackendError (List UInt8)) : Prop :=
  ∀ reply, answer = .ok reply → NarrowFrame reply ∧ (bytes ∉ polled → ExactFrames reply)

/-- An operation that writes no wide frequency and forwards no frequency. -/
def NarrowOp : OpKind → Prop
  | .apply (.setVfoFreq _ hz) => hz < 10 ^ 11
  | .passthrough raw => ExactSets raw ∧ raw ∉ polled
  | _ => True

/-- The contract under which every frame has its width.  What a Hamlib client is sent is no frame. -/
def widthContract (endpoint : Nat → FrontEnd × Context) : Contract where
  snapshot := Snapshot.Narrow
  change := StateChange.Narrow
  operation := NarrowOp
  wire := ExactSets
  answer := NarrowAnswer
  push := NarrowFrame
  result result := ∀ bytes, result = .ok bytes → ExactFrames bytes
  reply who bytes := ∀ sessionId, who = .session sessionId → (endpoint sessionId).1 ≠ .hamlibNet →
    ExactFrames bytes

/-! ### The backend -/

theorem exactSets_applyBytes {mutation : StateMutation} (narrow : NarrowOp (.apply mutation))
    (snap : Snapshot) : ExactSets (applyBytes snap mutation) := by
  cases mutation with
  | setVfoFreq vfo hz =>
      intro command mem tunes
      have frame := exactFrames_alone (exactFrames_freq vfo narrow exactFrames_nil)
      exact .inl ((frame command mem).freq tunes)
  | _ =>
      refine exactSets_of_verbs (fun verb mem => ?_)
      have known := verbs_applyBytes snap _ verb mem
      clear mem
      revert verb
      dsimp only [writeVerbs]
      decide

theorem exactSets_polls : ∀ cmd ∈ pollCommands, ExactSets cmd := by
  have two : ∀ cmd ∈ pollCommands, ∀ command ∈ commands cmd, command.length = 2 ∨ command = [] := by
    decide
  intro cmd mem command inside tunes
  rcases two cmd mem command inside with query | rfl
  · exact .inr query
  · exact absurd tunes (by decide)

section
variable {endpoint : Nat → FrontEnd × Context}

/-- A part of an operation keeps to the contract. -/
abbrev LinkMeets (endpoint : Nat → FrontEnd × Context) {α : Type} (Q : α → Prop)
    (call : BackendCall α) : Prop :=
  Program.MeetsOk (widthContract endpoint).linkAsks (widthContract endpoint).linkTold Q call

theorem meets_submit {bytes : List UInt8} {expect : Expect} (exact_ : ExactSets bytes) :
    LinkMeets endpoint (fun reply => NarrowAnswer bytes (.ok reply))
      (BackendCall.submit bytes expect) := by
  refine ⟨exact_, fun answer told reply same => ?_⟩
  exact (same ▸ told : NarrowAnswer bytes (.ok reply))

theorem meets_snapshot : LinkMeets endpoint (fun _ => True) BackendCall.snapshot :=
  And.intro trivial (fun _ _ _ _ => trivial)

theorem meets_record {change : StateChange} {source : RadioEventSource} (fits : change.Narrow) :
    LinkMeets endpoint (fun _ => True) (BackendCall.record change source) :=
  And.intro fits (fun _ _ _ _ => trivial)

theorem meets_recordAll {changes : List StateChange} {source : RadioEventSource}
    (fits : ∀ change ∈ changes, change.Narrow) :
    LinkMeets endpoint (fun _ => True) (BackendCall.recordAll changes source) :=
  .forM (fun change mem => meets_record (fits change mem))

theorem meets_recordReply {frame : List UInt8} {source : RadioEventSource} (narrow : NarrowFrame frame) :
    LinkMeets endpoint (fun _ => True) (Radio.Ts590.recordReply frame source) := by
  unfold Radio.Ts590.recordReply
  cases parsed : parseIfStatus frame with
  | some status =>
      exact meets_recordAll (Radio.Ts590.ifChanges_narrow (Radio.Ts590.parseIfStatus_narrow parsed))
  | none =>
      cases split : splitFrame frame with
      | none => exact .pure trivial
      | some parts =>
          refine .bind meets_snapshot (fun snap _ => ?_)
          cases reported : Radio.Ts590.reportedChange snap parts.1 parts.2 with
          | none => exact .pure trivial
          | some change => exact meets_record (Radio.Ts590.reportedChange_narrow narrow split reported)

theorem meets_poll : LinkMeets endpoint (fun _ => True) Radio.Ts590.poll := by
  refine .forM (fun cmd mem => .bind (meets_submit (exactSets_polls cmd mem)) (fun reply told => ?_))
  exact meets_recordReply (told reply rfl).1

/-- A write records the frequency that it writes. -/
theorem applyRecords_narrow {mutation : StateMutation} (narrow : NarrowOp (.apply mutation))
    (snap : Snapshot) : ∀ change ∈ Radio.Ts590.applyRecords snap mutation, change.Narrow := by
  rintro _ mem vfo hz rfl
  cases mutation with
  | setVfoFreq =>
      cases List.mem_singleton.mp mem
      exact narrow
  | setRxVfo =>
      unfold Radio.Ts590.applyRecords at mem
      split at mem <;> simp [StateMutation.intoChange] at mem
  | _ => cases List.mem_singleton.mp mem

theorem operates_execute {kind : OpKind} (narrow : NarrowOp kind) :
    (widthContract endpoint).Operates (execute ts590Backend kind).run := by
  have silent : LinkMeets endpoint ExactFrames (pure []) := .pure exactFrames_nil
  have whole : LinkMeets endpoint ExactFrames (execute ts590Backend kind) := by
    cases kind with
    | poll => exact .bind meets_poll (fun _ _ => silent)
    | apply mutation =>
        refine .bind (.bind meets_snapshot (fun snap _ => ?_)) (fun _ (_ : True) => silent)
        refine .bind (meets_submit (exactSets_applyBytes narrow snap)) (fun _ _ => ?_)
        exact meets_recordAll (applyRecords_narrow narrow snap)
    | passthrough raw =>
        exact And.intro narrow.1 (fun answer told reply same => (told reply same).2 narrow.2)
  exact whole

theorem width_supported : (widthContract endpoint).Supported ts590Backend where
  record narrow fits := narrow.applyChange fits
  event narrow fits := by
    change (Radio.Ts590.recordEvent _ _ _).1.snapshot.Narrow
    rw [Radio.Ts590.recordEvent_eq]
    exact Radio.Ts590.recordAll_narrow narrow (Radio.Ts590.eventChanges_narrow fits)
  operation _ narrow := operates_execute narrow
  poll := trivial
  receive := trivial
  enable bytes enable := by
    obtain rfl := Option.some.inj enable
    exact exactSets_of_verbs (by decide)
  silent _ _ _ _ := exactFrames_nil

end

/-! ### The clients -/

section
variable {endpoint : Nat → FrontEnd × Context} {ctx : Context} {who : Requester}
  {request payload : List UInt8}

theorem serves_done {bytes : List UInt8} (exact_ : ExactFrames bytes) :
    (widthContract endpoint).Serves who (.done bytes) := fun _ _ _ => exact_

/-- An answer that is neither a frequency nor an `IF`. -/
theorem serves_fixed (bytes : List UInt8) (other : ∀ verb ∈ verbs bytes,
    verb ≠ ascii ['F', 'A'] ∧ verb ≠ ascii ['F', 'B'] ∧ verb ≠ ascii ['I', 'F']) :
    (widthContract endpoint).Serves who (.done bytes) := serves_done (exactFrames_of_verbs other)

theorem serves_look {next : Snapshot → Session (List UInt8)}
    (rest : ∀ snap : Snapshot, snap.Narrow → (widthContract endpoint).Serves who (next snap)) :
    (widthContract endpoint).Serves who (Session.snapshot >>= next) := And.intro trivial rest

theorem serves_ite {c : Prop} [Decidable c] {a b : Session (List UInt8)}
    (yes : c → (widthContract endpoint).Serves who a)
    (no : ¬ c → (widthContract endpoint).Serves who b) :
    (widthContract endpoint).Serves who (if c then a else b) := by
  split
  · exact yes ‹_›
  · exact no ‹_›

theorem exactFrames_reply (outcome : ApplyOutcome) : ExactFrames (reply outcome) := by
  cases outcome <;> exact exactFrames_of_verbs (by decide)

theorem serves_write {mutation : StateMutation} {cls : CommandClass}
    (narrow : NarrowOp (.apply mutation)) :
    (widthContract endpoint).Serves who
      (applyModeled ctx mutation cls >>= fun outcome => .done (reply outcome)) := by
  have asks : (applyModeled ctx mutation cls).Asks (Question.Submits NarrowOp) :=
    asks_applyModeled_of (fun _ => submits_of_not_submit) (fun _ _ _ => narrow)
  exact (asks.meets (fun _ => trivial)).bind
    (fun outcome (_ : True) => serves_done (exactFrames_reply outcome))

theorem serves_setFreq (vfo : Vfo) (narrow : ∀ hz, parseU64 payload = some hz → hz < 10 ^ 11) :
    (widthContract endpoint).Serves who (setFreq ctx vfo payload) := by
  unfold setFreq
  cases number : parseU64 payload with
  | none => exact serves_fixed errReply (by decide)
  | some hz => exact @serves_write endpoint ctx who (.setVfoFreq vfo hz) _ (narrow hz number)

theorem serves_modeRequest : (widthContract endpoint).Serves who (modeRequest ctx payload) := by
  cases payload with
  | nil =>
      exact serves_look (fun snap _ => serves_done (exactFrames_alone
        (exactFrames_mode (snap.vfo snap.rxVfo).mode exactFrames_nil)))
  | cons digit payload =>
      exact serves_look (fun snap _ => @serves_write endpoint ctx who
        (.setMode snap.rxVfo (Mode.fromKenwoodDigit digit)) _ trivial)

theorem serves_pttRequest (keyed : Bool) :
    (widthContract endpoint).Serves who (pttRequest ctx keyed) :=
  @serves_write endpoint ctx who (.setPtt keyed .generic) _ trivial

theorem serves_aiRequest : (widthContract endpoint).Serves who (aiRequest payload) := by
  cases payload with
  | nil =>
      refine ⟨trivial, fun on _ => ?_⟩
      cases on <;> exact serves_fixed _ (by decide)
  | cons digit payload => exact ⟨trivial, fun _ _ => serves_done exactFrames_nil⟩

theorem serves_forward (raw : ExactSets request) (other : request ∉ polled) :
    (widthContract endpoint).Serves who (forward ctx request payload) := by
  have refused : (widthContract endpoint).Serves who (.done errReply) :=
    serves_fixed errReply (by decide)
  unfold forward passthrough
  refine serves_ite (fun _ => refused) (fun _ => ⟨⟨raw, other⟩, fun result told => ?_⟩)
  cases result with
  | error => exact refused
  | ok bytes => exact serves_done (told bytes rfl)

/-- A frequency request: a read of a narrow snapshot, or a write of a narrow frequency. -/
theorem serves_freq {target verb : Vfo}
    (narrow : ∀ hz, parseU64 payload = some hz → hz < 10 ^ 11) :
    (widthContract endpoint).Serves who
      (if payload.isEmpty then
        Session.snapshot >>= fun snap => .done (freqFrame (freqVerb verb) (snap.vfo target).freqHz)
      else setFreq ctx target payload) := by
  refine serves_ite (fun _ => serves_look (fun snap fits => serves_done ?_))
    (fun _ => serves_setFreq target narrow)
  exact exactFrames_alone (exactFrames_freq verb (fits target) exactFrames_nil)

/-- What a delivered request forwards names no frequency, and is no query of the poller. -/
theorem forwards_exact {body verb : List UInt8} (closed : terminator ∉ body)
    (split : splitFrame (body ++ [terminator]) = some (verb, payload))
    (fa : verb ≠ ascii ['F', 'A']) (fb : verb ≠ ascii ['F', 'B']) (md : verb ≠ ascii ['M', 'D'])
    (status : ¬ (verb = ascii ['I', 'F'] ∧ payload.isEmpty = true)) :
    ExactSets (body ++ [terminator]) ∧ body ++ [terminator] ∉ polled := by
  constructor
  · refine exactSets_of_verbs ?_
    rw [verbs_delivered closed split, List.forall_mem_cons, List.forall_mem_singleton]
    exact ⟨⟨fa, fb⟩, by decide⟩
  · intro mem
    have parts : ∀ cmd ∈ polled, splitFrame cmd = some (ascii ['F', 'A'], []) ∨
        splitFrame cmd = some (ascii ['F', 'B'], []) ∨ splitFrame cmd = some (ascii ['I', 'F'], []) ∨
        splitFrame cmd = some (ascii ['M', 'D'], []) := by decide
    have same := parts _ mem
    rw [split] at same
    simp only [Option.some.injEq, Prod.mk.injEq] at same
    rcases same with ⟨rfl, -⟩ | ⟨rfl, -⟩ | ⟨rfl, rfl⟩ | ⟨rfl, -⟩
    · exact fa rfl
    · exact fb rfl
    · exact status ⟨rfl, rfl⟩
    · exact md rfl

theorem serves_ts590 {body : List UInt8} (closed : terminator ∉ body)
    (narrow : NarrowFrame (body ++ [terminator])) :
    (widthContract endpoint).Serves who (Ts590Dialect.handle (body ++ [terminator]) ctx) := by
  unfold Ts590Dialect.handle
  cases split : splitFrame (body ++ [terminator]) with
  | none => exact serves_fixed errReply (by decide)
  | some parts =>
      obtain ⟨verb, payload⟩ := parts
      refine serves_look (fun snap _ => ?_)
      refine serves_ite (fun fa => @serves_freq endpoint ctx who payload _ .a
        (fun hz => narrow verb payload hz split (.inl fa))) (fun fa => ?_)
      refine serves_ite (fun fb => @serves_freq endpoint ctx who payload _ .b
        (fun hz => narrow verb payload hz split (.inr fb))) (fun fb => ?_)
      -- FR and FT of a single-VFO endpoint
      refine serves_ite (fun _ => ?_) (fun _ => serves_ite (fun _ => ?_) (fun _ => ?_))
      · cases payload.isEmpty <;> exact serves_fixed _ (by decide)
      · cases payload.isEmpty <;> exact serves_fixed _ (by decide)
      refine serves_ite (fun _ => serves_modeRequest) (fun md => ?_)
      refine serves_ite (fun _ => serves_pttRequest true) (fun _ => ?_)
      refine serves_ite (fun _ => serves_pttRequest false) (fun _ => ?_)
      refine serves_ite (fun _ => serves_aiRequest) (fun _ => ?_)
      -- ID, PS and IF, and everything else
      refine serves_ite (fun _ => serves_fixed _ (by decide)) (fun _ => ?_)
      refine serves_ite (fun _ => serves_fixed _ (by decide)) (fun _ => ?_)
      refine serves_ite (fun _ => serves_look (fun s fits => serves_done ?_)) (fun status => ?_)
      · exact exactFrames_alone (exactFrames_synthIf ctx.singleVfo fits exactFrames_nil)
      · obtain ⟨raw, other⟩ := forwards_exact closed split fa fb md status
        exact serves_forward raw other

theorem serves_ts2000 (narrow : NarrowFrame request) :
    (widthContract endpoint).Serves who (Ts2000Dialect.handle request ctx) := by
  have shown : ∀ verb v, verb = ascii ['F', 'R'] ∨ verb = ascii ['F', 'T'] →
      (widthContract endpoint).Serves who (.done (vfoFrame verb v)) := by
    rintro _ v (rfl | rfl) <;> cases v <;> exact serves_fixed _ (by decide)
  unfold Ts2000Dialect.handle
  cases split : splitFrame request with
  | none => exact serves_fixed errReply (by decide)
  | some parts =>
      obtain ⟨verb, payload⟩ := parts
      refine serves_ite (fun _ => serves_look (fun s fits => serves_done ?_)) (fun _ => ?_)
      · exact exactFrames_alone (exactFrames_synthIf false fits exactFrames_nil)
      -- FA and FB, for the operating VFO
      have freqRequest : ∀ vfo, (∀ hz, parseU64 payload = some hz → hz < 10 ^ 11) →
          (widthContract endpoint).Serves who
            (Ts2000Dialect.freqRequest (freqVerb vfo) ctx payload) := by
        intro vfo narrow
        refine serves_look (fun snap fits => serves_ite (fun _ => serves_done ?_)
          (fun _ => serves_setFreq snap.rxVfo narrow))
        exact exactFrames_alone (exactFrames_freq vfo (fits snap.rxVfo) exactFrames_nil)
      refine serves_ite (fun fa => freqRequest .a
        (fun hz => narrow verb payload hz split (.inl fa))) (fun _ => ?_)
      refine serves_ite (fun fb => freqRequest .b
        (fun hz => narrow verb payload hz split (.inr fb))) (fun _ => ?_)
      refine serves_ite (fun _ => serves_modeRequest) (fun _ => ?_)
      -- FR and FT, which may only be asked for
      refine serves_ite (fun _ => serves_look (fun snap _ => shown _ _ (.inl rfl))) (fun _ => ?_)
      refine serves_ite (fun _ => serves_look (fun snap _ => shown _ _ (.inr rfl))) (fun _ => ?_)
      refine serves_ite (fun _ => serves_aiRequest) (fun _ => ?_)
      refine serves_ite (fun _ => serves_fixed _ (by decide)) (fun _ => ?_)
      exact serves_ite (fun _ => serves_fixed _ (by decide)) (fun _ => serves_fixed errReply (by decide))

end

/-! ## Every run -/

/-- The request is one that the endpoint takes out of a stream; mirrors are not asked. -/
def Served (endpoint : Nat → FrontEnd × Context) : DeskInput → Prop
  | .request sessionId bytes => (endpoint sessionId).1 ≠ .transparent ∧
      ∃ stream, bytes ∈ (endpoint sessionId).1.requests stream
  | _ => True

/-- A frequency that a request writes has at most eleven digits. -/
def NarrowRequest (front : FrontEnd) (bytes : List UInt8) : Prop :=
  match front with
  | .hamlibNet => ∀ vfo hz, HamlibNet.AsksFor bytes (.setVfoFreq vfo hz) → hz < 10 ^ 11
  | _ => NarrowFrame bytes

/-- Every frequency that a step enters has at most eleven digits, and what it relays its width. -/
def NarrowStep (endpoint : Nat → FrontEnd × Context) (d : Desk) : DeskInput → Prop
  | .request sessionId bytes => NarrowRequest (endpoint sessionId).1 bytes
  | .link answer => ∀ who bytes expect next,
      d.executing = some (who, .ask (.submit bytes expect) next) → NarrowAnswer bytes answer
  | .push frame => NarrowFrame frame ∧ (eventChanges d.state.snapshot frame = [] → ExactFreqs frame)
  | _ => True

theorem takes_of_narrowStep {endpoint : Nat → FrontEnd × Context} {d : Desk} {input : DeskInput}
    (served : Served endpoint input) (narrow : NarrowStep endpoint d input) :
    (widthContract endpoint).Takes endpoint d input := by
  cases input with
  | request sessionId bytes =>
      obtain ⟨noMirror, stream, mem⟩ := served
      change (widthContract endpoint).Serves _ _
      change NarrowRequest _ _ at narrow
      rcases front : (endpoint sessionId).1 with _ | _ | _ | _
      · rw [front] at mem narrow
        obtain ⟨body, closed, rfl⟩ := requestFrames_closed mem
        exact serves_ts590 closed narrow
      · rw [front] at narrow
        exact serves_ts2000 narrow
      · exact absurd front noMirror
      · rw [front] at narrow
        have lets : HamlibNet.LetsThrough (Question.Submits NarrowOp) (HamlibNet.AsksFor bytes) := by
          refine ⟨fun _ => submits_of_not_submit, fun mutation asks _ _ => ?_⟩
          cases mutation with
          | setVfoFreq vfo hz => exact narrow vfo hz asks
          | _ => trivial
        have asks : (FrontEnd.hamlibNet.handle bytes (endpoint sessionId).2).Asks
            (Question.Submits NarrowOp) := (HamlibNet.LetsThrough.handle lets).bind (fun _ => trivial)
        refine asks.meets (fun bytes => ?_)
        rintro _ ⟨⟩ other
        exact absurd front other
  | link answer => exact narrow
  | push frame => exact narrow.1
  | _ => trivial

abbrev DeskStep := Transition Desk DeskInput (Option (List UInt8))

/-- The changes that a step records. -/
def recordedBy (e : DeskStep) : List StateChange :=
  match e.input, e.before.executing with
  | .work, some (_, .ask (.record change _) _) => [change]
  | .push frame, _ => eventChanges e.before.state.snapshot frame
  | _, _ => []

theorem recordedBy_narrow {endpoint : Nat → FrontEnd × Context} {e : DeskStep}
    (upheld : Upheld (widthContract endpoint) e.before) (narrow : NarrowStep endpoint e.before e.input) :
    ∀ change ∈ recordedBy e, change.Narrow := by
  unfold recordedBy
  split
  · rename_i executing
    rw [List.forall_mem_singleton]
    exact (upheld.executing _ _ executing).1
  · rename_i frame _ pushed
    rw [pushed] at narrow
    exact Radio.Ts590.eventChanges_narrow narrow.1
  · exact List.forall_mem_nil _

/-- The changes that a session may be told of: what a step records, and all of the state where it
lagged. -/
def Announced (history : List DeskStep) (change : StateChange) : Prop :=
  ∃ e ∈ history, change ∈ recordedBy e ∨ change ∈ e.after.state.snapshot.asChanges

/-- Every frame of a run has its width. -/
structure WidthKept (endpoint : Nat → FrontEnd × Context) (history : List DeskStep) (stop : Desk) :
    Prop where
  /-- What goes to the radio. -/
  wire : ∀ bytes ∈ stop.wire, ExactSets bytes
  /-- What a native client is answered. -/
  reply : ∀ e ∈ history, ∀ sessionId bytes, e.input = .go (.session sessionId) →
    e.output = some bytes → (endpoint sessionId).1 ≠ .hamlibNet → ExactFrames bytes
  /-- What one is notified of, formatted against any state of the run. -/
  notification : ∀ change, Announced history change → ∀ e ∈ history,
    ∀ dialect ∈ [ts590Dialect, ts2000Dialect], ∀ ctx ai bytes,
      dialect.formatNotification ctx ai e.after.state.snapshot change = some bytes → ExactFrames bytes
  /-- What one is relayed of the frames that the hub does not model. -/
  relay : ∀ e ∈ history, ∀ frame, e.input = .push frame →
    eventChanges e.before.state.snapshot frame = [] → ∀ dialect ∈ [ts590Dialect, ts2000Dialect],
      ∀ ctx ai bytes, dialect.formatPassthrough ctx ai frame = some bytes → ExactFreqs bytes

section
variable {ctx : Context} {ai : Bool} {s : Snapshot} {change : StateChange} {bytes : List UInt8}

/-- What is told of the operating VFO alone. -/
theorem exactFrames_operating {vfo : Vfo} {shown : List UInt8} (exact_ : ExactFrames shown)
    (told : (if vfo = s.rxVfo then some shown else none) = some bytes) : ExactFrames bytes := by
  obtain ⟨-, same⟩ := Option.ite_none_right_eq_some.mp told
  exact Option.some.inj same ▸ exact_

theorem exactFrames_singleVfo (narrow : s.Narrow) (fits : change.Narrow)
    (told : Ts590Dialect.singleVfoNotification change s = some bytes) : ExactFrames bytes := by
  have status := exactFrames_alone (exactFrames_synthIf true narrow exactFrames_nil)
  cases change with
  | freq vfo hz => exact exactFrames_operating (exactFrames_freq .a (fits vfo hz rfl) status) told
  | mode vfo mode => exact exactFrames_operating (exactFrames_mode mode status) told
  | rxVfo vfo =>
      cases told
      rw [List.append_assoc]
      exact exactFrames_freq .a (narrow _) (exactFrames_mode _ status)
  | _ => cases told

theorem exactFrames_ts590 (narrow : s.Narrow) (fits : change.Narrow)
    (told : Ts590Dialect.formatNotification ctx ai s change = some bytes) : ExactFrames bytes := by
  have status := exactFrames_alone (exactFrames_synthIf false narrow exactFrames_nil)
  unfold Ts590Dialect.formatNotification at told
  cases ai with
  | false => cases told
  | true =>
      cases single : ctx.singleVfo with
      | true =>
          rw [single] at told
          exact exactFrames_singleVfo narrow fits told
      | false =>
          rw [single] at told
          cases change with
          | freq vfo hz =>
              have alone := exactFrames_alone (exactFrames_freq vfo (fits vfo hz rfl) exactFrames_nil)
              have both := exactFrames_freq vfo (fits vfo hz rfl) status
              cases told
              cases vfo <;> split
              · exact both
              · exact alone
              · exact both
              · exact alone
          | mode vfo mode => exact exactFrames_operating (exactFrames_mode mode status) told
          | rxVfo vfo =>
              cases told
              exact status
          | _ => cases told

theorem exactFrames_ts2000 (narrow : s.Narrow) (fits : change.Narrow)
    (told : Ts2000Dialect.formatNotification ctx ai s change = some bytes) : ExactFrames bytes := by
  unfold Ts2000Dialect.formatNotification at told
  cases ai with
  | false => cases told
  | true =>
      cases change with
      | freq vfo hz =>
          have frame := exactFrames_alone (exactFrames_freq .a (fits vfo hz rfl) exactFrames_nil)
          exact exactFrames_operating frame told
      | mode vfo mode =>
          have frame := exactFrames_alone (exactFrames_mode mode exactFrames_nil)
          exact exactFrames_operating frame told
      | rxVfo vfo =>
          cases told
          have status := exactFrames_alone (exactFrames_synthIf false narrow exactFrames_nil)
          rw [List.append_assoc]
          exact exactFrames_freq .a (narrow _) (exactFrames_mode _ status)
      | _ => cases told

end

/-- **The width of frames.**  In every run that no frequency of twelve digits enters, every frequency
frame to the radio or to a native client has 14 bytes, and every `IF` answer has 38 with each field at
its offset. -/
theorem frames_keep_width {endpoint : Nat → FrontEnd × Context} {start stop : Desk}
    {history : List DeskStep} (fresh : start.Fresh) (blank : start.state = {})
    (run : (desk ts590Backend endpoint).Execution start history stop)
    (served : ∀ e ∈ history, Served endpoint e.input)
    (narrow : ∀ e ∈ history, NarrowStep endpoint e.before e.input) :
    WidthKept endpoint history stop := by
  have initial : start.state.snapshot.Narrow := by
    rw [blank]
    exact Snapshot.narrow_default
  obtain ⟨upheld, kept⟩ := upheld_run width_supported fresh initial run
    (fun e mem => takes_of_narrowStep (served e mem) (narrow e mem))
  refine ⟨upheld.wire, fun e mem sessionId bytes going sent =>
    (kept e mem).reply _ bytes going sent sessionId rfl, ?_, ?_⟩
  · rintro change ⟨e, mem, announced⟩ later after dialect native ctx ai bytes told
    have visited := (kept later after).after.snapshot
    have fits : change.Narrow := by
      rcases announced with recorded | restored
      · exact recordedBy_narrow (kept e mem).before (narrow e mem) change recorded
      · exact (kept e mem).after.snapshot.asChanges change restored
    rcases List.mem_pair.mp native with rfl | rfl
    · exact exactFrames_ts590 visited fits told
    · exact @exactFrames_ts2000 ctx _ _ _ _ visited fits told
  · intro e mem frame pushed unmodeled dialect native ctx ai bytes relayed
    have width := narrow e mem
    rw [pushed] at width
    rcases List.mem_pair.mp native with rfl | rfl
    · change Ts590Dialect.formatPassthrough ctx ai frame = some bytes at relayed
      unfold Ts590Dialect.formatPassthrough at relayed
      split at relayed
      · cases relayed
      · split at relayed
        · cases relayed
          exact width.2 unmodeled
        · cases relayed
    · cases relayed

/-- A TS-590 client that may do anything, in every session. -/
def logger (sessionId : Nat) : FrontEnd × Context :=
  (.ts590, ⟨sessionId, ⟨true, true, true, true, true⟩, true, true, false, []⟩)

/-- Such a client sends one request, and what it submits is written. -/
def writeInputs (request : List UInt8) : List DeskInput :=
  [.request 1 request, .go (.session 1), .go (.session 1), .go (.session 1), .select, .work,
    .link (.ok [])]

section
variable {request : List UInt8} {history : List DeskStep}

theorem served_write (delivered : request ∈ requestFrames request)
    (inputs : history.map (·.input) = writeInputs request) : ∀ e ∈ history, Served logger e.input := by
  intro e mem
  have known : e.input ∈ writeInputs request := inputs ▸ List.mem_map_of_mem mem
  generalize e.input = input at known
  rcases List.mem_cons.mp known with rfl | known
  · exact ⟨by decide, request, delivered⟩
  · simp only [List.mem_cons, List.not_mem_nil, or_false] at known
    rcases known with rfl | rfl | rfl | rfl | rfl | rfl <;> trivial

theorem narrow_write (narrow : NarrowFrame request)
    (inputs : history.map (·.input) = writeInputs request) :
    ∀ e ∈ history, NarrowStep logger e.before e.input := by
  intro e mem
  have known : e.input ∈ writeInputs request := inputs ▸ List.mem_map_of_mem mem
  generalize e.input = input at known
  rcases List.mem_cons.mp known with rfl | known
  · exact narrow
  · simp only [List.mem_cons, List.not_mem_nil, or_false] at known
    rcases known with rfl | rfl | rfl | rfl | rfl | rfl
    · trivial
    · trivial
    · trivial
    · trivial
    · trivial
    · rintro who bytes expect next - reply ⟨⟩
      refine ⟨fun verb payload hz split => ?_, fun _ => exactFrames_nil⟩
      cases split

end

theorem frames_keep_width_write : ∃ (history : List DeskStep) (stop : Desk),
    (desk ts590Backend logger).Execution { ptt := { maxTx := 0 } } history stop ∧
      stop.wire = [ascii ['F', 'A', '0', '0', '0', '1', '4', '0', '7', '4', '0', '0', '0', ';']] ∧
      WidthKept logger history stop := by
  let request := ascii ['F', 'A', '0', '0', '0', '1', '4', '0', '7', '4', '0', '0', '0', ';']
  have enabled : ((desk ts590Backend logger).exec { ptt := { maxTx := 0 } }
      (writeInputs request)).isSome := rfl
  have run := Machine.execution_exec (desk ts590Backend logger) { ptt := { maxTx := 0 } } _ enabled
  have inputs := Machine.exec_inputs (desk ts590Backend logger) { ptt := { maxTx := 0 } } _ enabled
  have narrow : NarrowFrame request := by
    intro verb payload hz split _ number
    have parts : splitFrame request = some (ascii ['F', 'A'],
        ascii ['0', '0', '0', '1', '4', '0', '7', '4', '0', '0', '0']) := by decide
    rw [parts] at split
    obtain ⟨rfl, rfl⟩ := Prod.mk.inj (Option.some.inj split)
    exact Radio.Ts590.parseU64_lt number
  refine ⟨_, _, run, rfl, ?_⟩
  exact frames_keep_width ⟨fun _ => rfl, rfl, rfl, rfl⟩ rfl run (served_write (by decide) inputs)
    (narrow_write narrow inputs)

/-- A frequency of twelve digits goes out in a frame of 15 bytes. -/
theorem wide_frame_sent : ¬ ∀ (endpoint : Nat → FrontEnd × Context) (start stop : Desk)
    (history : List DeskStep), start.Fresh → start.state = {} →
      (desk ts590Backend endpoint).Execution start history stop →
      (∀ e ∈ history, Served endpoint e.input) → WidthKept endpoint history stop := by
  intro claim
  let request := ascii ['F', 'A', '1', '0', '0', '0', '0', '0', '0', '0', '0', '0', '0', '0', ';']
  have enabled : ((desk ts590Backend logger).exec { ptt := { maxTx := 0 } }
      (writeInputs request)).isSome := rfl
  have run := Machine.execution_exec (desk ts590Backend logger) { ptt := { maxTx := 0 } } _ enabled
  have inputs := Machine.exec_inputs (desk ts590Backend logger) { ptt := { maxTx := 0 } } _ enabled
  have kept := claim _ _ _ _ ⟨fun _ => rfl, rfl, rfl, rfl⟩ rfl run (served_write (by decide) inputs)
  have sent : (((desk ts590Backend logger).exec { ptt := { maxTx := 0 } }
      (writeInputs request)).get enabled).2.wire = [request] := rfl
  have wide := kept.wire request (sent ▸ List.mem_cons_self) request.dropLast (by decide) (by decide)
  rcases wide with frame | query
  · exact absurd frame.length (by decide)
  · exact absurd query (by decide)

end CatHub.Dialect
