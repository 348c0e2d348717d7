/-
# CatHub.Dialect.Extended — the extended reply carries the plain one.

A line with a separator in front is answered with one block: an echo, the values of the plain reply,
some of them behind a label, and a status.  `Block` says so of the bytes, and that a client which cuts
the block at the separator finds these records and no others.  Four branches of `handleExt` build such
blocks; `extended_agrees` compares each with `dispatchPlain`, whatever hub stands behind them.

The list of VFOs that `V ?` asks for has no plain counterpart, and `extended_agrees` says nothing of `q`.
-/
import CatHub.Dialect.ReadThrough

namespace CatHub.Dialect.HamlibNet

open Systems Radio Ptt Bridge

open Radio.Ts590 (ascii trim isWhitespace)

/-! ## Records -/

/-- What a status begins with. -/
def statusWord : List Char := ['R', 'P', 'R', 'T']

/-- Whether a record is a status: the word, a blank and a code. -/
def isStatus (record : List Char) : Bool := (statusWord ++ [' ']).isPrefixOf record

/-- The data of a plain reply. -/
def values (reply : List UInt8) : List (List Char) :=
  (replyLines reply).filter (fun line => !isStatus line)

/-- The return code of a plain reply; one that has data only means success. -/
def returnCode (reply : List UInt8) : List Char := ((replyLines reply).find? isStatus).getD erpOk

/-- The labels of the extended replies. -/
def labels : List (List Char) :=
  [['F', 'r', 'e', 'q', 'u', 'e', 'n', 'c', 'y'], ['M', 'o', 'd', 'e'],
   ['P', 'a', 's', 's', 'b', 'a', 'n', 'd'], ['V', 'F', 'O'], ['P', 'T', 'T'],
   ['F', 'r', 'e', 'q'], ['W', 'i', 'd', 't', 'h'], ['S', 'p', 'l', 'i', 't'],
   ['S', 'a', 't', 'M', 'o', 'd', 'e']]

/-- The record carries the value, as it is or behind a label. -/
def Carries (record value : List Char) : Prop :=
  record = value ∨ ∃ label ∈ labels, record = labeled label value

/-- The block answers as the plain reply does, with this echo and these data records. -/
structure Answered (sep : Char) (request : List (List Char)) (reply block : List UInt8)
    (echo : List Char) (data : List (List Char)) : Prop where
  joined : block = erpRecords sep (echo :: data ++ [returnCode reply])
  carries : List.Forall₂ Carries data (values reply)
  closed : isStatus (returnCode reply) = true
  /-- The status is the last record and no other. -/
  only : ∀ record ∈ echo :: data, isStatus record = false
  /-- A client finds the records, unless the separator stands in what it has sent or asked for. -/
  read : (sep = '\n' ∨ ∀ text ∈ request ++ values reply, sep ∉ text) →
    (List.intercalate [sep] (echo :: data ++ [returnCode reply])).splitOn sep =
      echo :: data ++ [returnCode reply]

/-- One block answers as the plain reply does. -/
def Block (sep : Char) (request : List (List Char)) (reply block : List UInt8) : Prop :=
  ∃ echo data, Answered sep request reply block echo data

/-- The extended result agrees with the plain one. -/
def Agrees (sep : Char) (request : List (List Char)) : LineResult → LineResult → Prop
  | .reply plain, .reply extended => Block sep request plain extended
  | .quit, .quit => True
  | _, _ => False

/-! ### Statuses -/

/-- The three statuses of the plain protocol. -/
def statuses : List (List UInt8) := [rprtOk, rprtEinval, rprtEnavail]

theorem status_values {reply : List UInt8} (status : reply ∈ statuses) :
    values reply = [] ∧ replyLines reply = [returnCode reply] ∧
      statusWord.isPrefixOf (returnCode reply) = true ∧ isStatus (returnCode reply) = true ∧
      ∀ sep ∈ ['\n', ';', '|', ','], sep ∉ returnCode reply := by
  simp only [statuses, List.mem_cons, List.not_mem_nil, or_false] at status
  rcases status with rfl | rfl | rfl <;>
    exact ⟨by decide, by decide, by decide, by decide, each_of_all (by decide)⟩

theorem isStatus_of_word {record : List Char} (other : statusWord.isPrefixOf record = false) :
    isStatus record = false := by
  rw [Bool.eq_false_iff] at other ⊢
  intro status
  apply other
  rw [isStatus, List.isPrefixOf_iff_prefix] at status
  exact List.isPrefixOf_iff_prefix.mpr ((List.prefix_append _ _).trans status)

/-- A reply without a status word is data. -/
theorem data_values {reply : List UInt8}
    (data : ∀ line ∈ replyLines reply, statusWord.isPrefixOf line = false) :
    values reply = replyLines reply ∧ returnCode reply = erpOk := by
  have other : ∀ line ∈ replyLines reply, isStatus line = false :=
    fun line mem => isStatus_of_word (data line mem)
  constructor
  · exact List.filter_eq_self.mpr (fun line mem => by rw [other line mem, Bool.not_false])
  · have none_ : (replyLines reply).find? isStatus = none :=
      List.find?_eq_none.mpr (fun line mem => Bool.eq_false_iff.mp (other line mem))
    rw [returnCode, none_, Option.getD_none]

/-- A plain reply is a status, or data without one. -/
def Shaped (reply : List UInt8) : Prop :=
  reply ∈ statuses ∨ ∀ line ∈ replyLines reply, statusWord.isPrefixOf line = false

/-- The marks that select the extended form separate the records, the plus sign by a line feed. -/
def separators : List Char := ['\n', ';', '|', ',']

theorem mem_separators {line rest : List Char} {sep : Char}
    (extended : splitErp line = some (sep, rest)) : sep ∈ separators := by
  unfold splitErp at extended
  split at extended <;> first | (cases extended; decide) | cases extended

theorem closed_of_shaped {reply : List UInt8} (shaped : Shaped reply) :
    isStatus (returnCode reply) = true ∧ ∀ sep ∈ separators, sep ∉ returnCode reply := by
  rcases shaped with status | data
  · exact (status_values status).2.2.2
  · rw [(data_values data).2]
    exact ⟨by decide, each_of_all (by decide)⟩

/-! ### Labels -/

theorem label_letters : ∀ label ∈ labels,
    isStatus label = false ∧ ∀ sep ∈ separators, sep ∉ labeled label [] := by
  intro label mem
  have apart : ∀ label ∈ labels, (separators.all fun sep => decide (sep ∉ labeled label [])) = true :=
    each_of_all (by decide)
  exact ⟨each_of_all (p := fun label => isStatus label = false) (by decide) label mem,
    each_of_all (apart label mem)⟩

/-- A label is no status, whatever stands behind it. -/
theorem isStatus_labeled {label : List Char} (mem : label ∈ labels) (value : List Char) :
    isStatus (labeled label value) = false := by
  simp only [labels, List.mem_cons, List.not_mem_nil, or_false] at mem
  rcases mem with rfl | rfl | rfl | rfl | rfl | rfl | rfl | rfl | rfl <;> rfl

theorem Carries.isStatus {record value : List Char} (carries : Carries record value)
    (data : HamlibNet.isStatus value = false) : HamlibNet.isStatus record = false := by
  obtain rfl | ⟨label, mem, rfl⟩ := carries
  · exact data
  · exact isStatus_labeled mem value

theorem Carries.apart {record value : List Char} {sep : Char} (carries : Carries record value)
    (mark : sep ∈ separators) (apart : sep ∉ value) : sep ∉ record := by
  obtain rfl | ⟨label, mem, rfl⟩ := carries
  · exact apart
  · have front := (label_letters label mem).2 sep mark
    simp only [labeled, List.append_nil] at front
    rw [labeled, List.mem_append, not_or]
    exact ⟨front, apart⟩

/-- Every record carries one of the values. -/
theorem exists_carried {data texts : List (List Char)} (carries : List.Forall₂ Carries data texts)
    {record : List Char} (mem : record ∈ data) : ∃ value ∈ texts, Carries record value := by
  induction carries with
  | nil => cases mem
  | cons here _ ih =>
      rcases List.mem_cons.mp mem with rfl | later
      · exact ⟨_, List.mem_cons_self, here⟩
      · obtain ⟨value, among, carried⟩ := ih later
        exact ⟨value, List.mem_cons_of_mem _ among, carried⟩

/-- A block is right if its echo is one and its records carry the values. -/
theorem Answered.of {sep : Char} {request : List (List Char)} {reply : List UInt8} {echo : List Char}
    {data : List (List Char)} (mark : sep ∈ separators) (shaped : Shaped reply)
    (echoed : HamlibNet.isStatus echo = false)
    (echoApart : (sep = '\n' ∨ ∀ text ∈ request, sep ∉ text) → sep ∉ echo)
    (carries : List.Forall₂ Carries data (values reply)) :
    Answered sep request reply (erpRecords sep (echo :: data ++ [returnCode reply])) echo data where
  joined := rfl
  carries := carries
  closed := (closed_of_shaped shaped).1
  only := by
    have each : ∀ record ∈ data, HamlibNet.isStatus record = false := by
      intro record mem
      obtain ⟨value, among, carried⟩ := exists_carried carries mem
      exact carried.isStatus (by simpa using (List.mem_filter.mp among).2)
    exact List.forall_mem_cons.mpr ⟨echoed, each⟩
  read := by
    intro apart
    refine List.splitOn_intercalate sep (fun record mem => ?_) (by simp)
    rcases List.mem_append.mp mem with mem | last
    · rcases List.mem_cons.mp mem with rfl | mem
      · exact echoApart (apart.imp_right (fun free text mem => free text (List.mem_append_left _ mem)))
      · obtain ⟨value, among, carried⟩ := exists_carried carries mem
        refine carried.apart mark ?_
        rcases apart with rfl | free
        · intro feed
          have solid := solid_of_mem_words (List.mem_filter.mp among).1 _ feed
          exact absurd solid (by decide)
        · exact free value (List.mem_append_right _ among)
    · rw [List.mem_singleton.mp last]
      exact (closed_of_shaped shaped).2 sep mark

/-! ## What the plain protocol replies -/

/-- A value of the hub: one line, and not a status word. -/
def Value (text : List Char) : Prop := Plain text ∧ statusWord.isPrefixOf text = false

/-- A text that begins with anything else is not a status word. -/
theorem not_word {c : Char} (other : c ≠ 'R') (text : List Char) :
    statusWord.isPrefixOf (c :: text) = false := by
  rw [statusWord, List.isPrefixOf_cons_cons, Bool.and_eq_false_imp]
  intro same
  exact absurd (beq_iff_eq.mp same).symm other

theorem value_number (n : Nat) : Value (number n) := by
  refine ⟨plain_number n, ?_⟩
  cases form : number n with
  | nil => exact absurd form (plain_number n).1
  | cons c text =>
      obtain ⟨d, small, rfl⟩ := number_chars (form ▸ List.mem_cons_self)
      have digit : ∀ d < 10, Char.ofNat (d + 48).toUInt8.toNat ≠ 'R' := by decide
      exact not_word (digit d small) text

theorem value_signed (i : Int) : Value (signed i) := by
  unfold signed
  split
  · obtain ⟨some_, plain⟩ := plain_number i.natAbs
    exact ⟨⟨List.cons_ne_nil _ _, List.forall_mem_cons.mpr ⟨by decide, plain⟩⟩,
      not_word (by decide) _⟩
  · exact value_number _

theorem value_flag (on : Bool) : Value (flag on) := by
  cases on <;> exact ⟨by decide, rfl⟩

theorem value_vfoName (vfo : Vfo) : Value (vfoName vfo) := by
  cases vfo <;> exact ⟨by decide, rfl⟩

theorem value_presentedVfoName (ctx : Context) (vfo : Vfo) : Value (presentedVfoName ctx vfo) := by
  unfold presentedVfoName
  split <;> exact value_vfoName _

theorem value_modeToken (v : VfoSnapshot) : Value (modeToken v) := by
  refine ⟨plain_token ⟨v.mode, v.data, rfl⟩, ?_⟩
  unfold modeToken
  cases v.mode <;> cases v.data <;> rfl

theorem value_relativeDecimal (power : TxPower) : Value power.relativeDecimal := by
  unfold TxPower.relativeDecimal
  split
  · exact ⟨by decide, rfl⟩
  · split
    · exact ⟨by decide, rfl⟩
    · refine ⟨⟨List.cons_ne_nil _ _, fun c mem => ?_⟩, not_word (by decide) _⟩
      rcases List.mem_append.mp mem with point | digit
      · have plain : ∀ c ∈ ['0', '.'], c.toNat < 0x80 ∧ c ≠ '\n' := each_of_all (by decide)
        exact plain c point
      · -- what is left of six digits without the zeros at their end
        have six := (List.dropWhile_sublist _).mem (List.mem_reverse.mp digit)
        obtain ⟨byte, among, rfl⟩ := List.mem_map.mp (List.mem_reverse.mp six)
        obtain ⟨d, small, rfl⟩ := Radio.Ts590.mem_decimal among
        have plain : ∀ d < 10, (Char.ofNat (d + 48).toUInt8.toNat).toNat < 0x80 ∧
            Char.ofNat (d + 48).toUInt8.toNat ≠ '\n' := by decide
        exact plain d small

/-- Lines of values. -/
theorem values_lines {texts : List (List Char)} (each : ∀ text ∈ texts, Value text) :
    Shaped (lines texts) ∧ values (lines texts) = texts ∧ returnCode (lines texts) = erpOk := by
  have cut := replyLines_lines (fun text mem => (each text mem).1)
  have data : ∀ line ∈ replyLines (lines texts), statusWord.isPrefixOf line = false := by
    rw [cut]
    exact fun text mem => (each text mem).2
  obtain ⟨all, ok⟩ := data_values data
  exact ⟨.inr data, all.trans cut, ok⟩

section
variable {ctx : Context} {snapshot : Snapshot} {args : List (List Char)}

theorem shaped_guardRead {answer : List UInt8} (shaped : Shaped answer) :
    Shaped (guardRead ctx answer) := by
  unfold guardRead
  split
  · exact shaped
  · exact .inl (by decide)

theorem shaped_lines {texts : List (List Char)} (each : ∀ text ∈ texts, Value text) :
    Shaped (lines texts) := (values_lines each).1

theorem shaped_enavail : Shaped rprtEnavail := .inl (by decide)

/-- A read is answered with a status, or with data. -/
theorem shaped_readReply {command : Command} {reply : List UInt8}
    (quiet : ∀ line ∈ replyLines ctx.dumpState, statusWord.isPrefixOf line = false)
    (read : readReply ctx snapshot args command = some reply) : Shaped reply := by
  have zero : Value ['0'] := value_flag false
  cases command with
  | getFreq | getRit | getXit | getPtt | getPowerstat | getVfo =>
      obtain rfl := Option.some.inj read
      exact shaped_guardRead (shaped_lines (by
        simp [value_number, value_signed, value_flag, value_presentedVfoName]))
  | getMode | getVfoInfo | getSplitVfo =>
      obtain rfl := Option.some.inj read
      exact shaped_guardRead (shaped_lines (by
        simp [value_number, value_modeToken, value_flag, value_presentedVfoName, zero]))
  | getSplitFreq | getSplitMode =>
      obtain rfl := Option.some.inj read
      refine shaped_guardRead ?_
      split
      · exact shaped_enavail
      · exact shaped_lines (by simp [value_number, value_modeToken])
  | getLevel =>
      obtain rfl := Option.some.inj read
      refine shaped_guardRead ?_
      split
      · split
        · exact shaped_lines (by simp [value_relativeDecimal])
        · exact shaped_enavail
      · exact shaped_enavail
  | power2mW =>
      obtain rfl := Option.some.inj read
      refine shaped_guardRead ?_
      split
      · split
        · exact shaped_lines (by simp [value_number])
        · exact shaped_enavail
      · exact shaped_enavail
  | dumpState =>
      obtain rfl := Option.some.inj read
      exact .inr quiet
  | chkVfo =>
      obtain rfl := Option.some.inj read
      exact shaped_lines (by simp [zero])
  | setFreq | setMode | setVfo | setPtt | setSplitVfo | setRit | setXit => cases read

/-! ### Writes -/

/-- The program ends with a status, whatever it is told. -/
abbrev EndsWithStatus (session : Session (List UInt8)) : Prop :=
  session.Meets (fun _ => True) (fun _ _ => True) (· ∈ statuses)

theorem meets_applyModeled {mutation : StateMutation} {cls : CommandClass}
    {Q : ApplyOutcome → Prop} (ends : ∀ outcome, Q outcome) :
    (applyModeled ctx mutation cls).Meets (fun _ => True) (fun _ _ => True) Q :=
  (asks_applyModeled_of (fun _ _ => trivial) (fun _ _ _ => trivial)).meets ends

theorem status_outcome (outcome : ApplyOutcome) : outcomeRprt outcome ∈ statuses := by
  cases outcome <;> decide

theorem status_write {mutation : StateMutation} {cls : CommandClass} :
    EndsWithStatus (write ctx mutation cls) :=
  (meets_applyModeled fun _ => trivial).bind (fun outcome _ => status_outcome outcome)

theorem status_setMode {rxVfo : Vfo} {token : List Char} :
    EndsWithStatus (setMode ctx rxVfo token) := by
  unfold setMode
  dsimp only
  split
  · exact (by decide : rprtEinval ∈ statuses)
  · refine (meets_applyModeled fun _ => trivial).bind (fun outcome _ => ?_)
    split
    · exact status_write
    · exact status_outcome outcome

theorem status_setOffset {available : Bool} {mutation : Int → Bool → StateMutation} :
    EndsWithStatus (setOffset ctx available args mutation) := by
  unfold setOffset
  split
  · exact (by decide : rprtEnavail ∈ statuses)
  · split
    · exact status_write
    · exact (by decide : rprtEinval ∈ statuses)

theorem status_set (command : Command) : EndsWithStatus (set ctx snapshot args command) := by
  have einval : rprtEinval ∈ statuses := by decide
  have enavail : rprtEnavail ∈ statuses := by decide
  have ok : rprtOk ∈ statuses := by decide
  cases command with
  | setFreq =>
      unfold set
      cases args.head?.bind parseFreqHz with
      | none => exact einval
      | some hz => exact status_write
  | setMode =>
      unfold set
      cases args.head? with
      | none => exact einval
      | some token => exact status_setMode
  | setSplitVfo =>
      unfold set
      dsimp only
      split
      · exact einval
      · split
        · split
          · exact enavail
          · exact ok
        · exact status_write
  | setVfo =>
      unfold set
      cases ctx.perms.allows .modeledWrite with
      | true => exact ok
      | false => exact einval
  | setPtt => exact status_write
  | setRit | setXit => exact status_setOffset
  | _ => exact enavail

end

/-! ## Echoes -/

/-- A word goes on in front of a character that it does not hold. -/
theorem prefix_before {word front more : List Char} {c : Char} (free : c ∉ word)
    (starts : word <+: front ++ c :: more) : word <+: front := by
  rcases List.prefix_or_prefix_of_prefix starts (List.prefix_append front (c :: more)) with inside | beyond
  · exact inside
  · obtain ⟨rest, rfl⟩ := beyond
    have later := (List.prefix_append_right_inj front).mp starts
    cases rest with
    | nil => rw [List.append_nil]
    | cons d rest =>
        obtain ⟨same, -⟩ := List.cons_prefix_cons.mp later
        exact absurd (List.mem_append_right front (same ▸ List.mem_cons_self)) free

theorem extEcho_form (cmd : List Char) (args : List (List Char)) :
    ∃ more, extEcho cmd args =
      ((Command.parse cmd).map Command.longName).getD cmd ++ ':' :: more ∧
      ∀ c ∈ more, c = ' ' ∨ ∃ arg ∈ args, c ∈ arg := by
  cases args with
  | nil => exact ⟨[], rfl, fun c mem => nomatch mem⟩
  | cons arg args =>
      refine ⟨' ' :: List.intercalate [' '] (arg :: args), by simp [extEcho], fun c mem => ?_⟩
      rcases List.mem_cons.mp mem with rfl | mem
      · exact .inl rfl
      · induction args generalizing arg with
        | nil => exact .inr ⟨arg, List.mem_cons_self, by simpa using mem⟩
        | cons next args ih =>
            rw [List.intercalate_cons_cons, List.append_assoc, List.mem_append, List.mem_append] at mem
            rcases mem with here | blank | later
            · exact .inr ⟨arg, List.mem_cons_self, here⟩
            · exact .inl (List.mem_singleton.mp blank)
            · rcases ih next (List.mem_cons_of_mem _ later) later with blank | ⟨arg', among, here⟩
              · exact .inl blank
              · exact .inr ⟨arg', List.mem_cons_of_mem _ among, here⟩

/-- Long names have neither blanks nor separators, and none of them begins like a status. -/
theorem longName_letters (command : Command) :
    (∀ c ∈ ' ' :: separators, c ∉ command.longName) ∧ command.longName.head? ≠ some 'R' := by
  cases command <;> exact ⟨each_of_all (by decide), by decide⟩

section
variable {cmd : List Char} {args : List (List Char)}

/-- The name in an echo has no blank. -/
theorem blank_name (word : ∀ c ∈ cmd, isWhitespace c = false) :
    ' ' ∉ ((Command.parse cmd).map Command.longName).getD cmd := by
  cases Command.parse cmd with
  | none => exact fun mem => absurd (word ' ' mem) (by decide)
  | some command => exact (longName_letters command).1 ' ' List.mem_cons_self

theorem isStatus_extEcho (word : ∀ c ∈ cmd, isWhitespace c = false) :
    isStatus (extEcho cmd args) = false := by
  obtain ⟨more, form, -⟩ := extEcho_form cmd args
  rw [form, Bool.eq_false_iff, isStatus, Ne, List.isPrefixOf_iff_prefix]
  intro starts
  have inside := prefix_before (by decide) starts
  exact blank_name word (inside.subset (by decide))

/-- Only an echo of an unknown command may begin like a status. -/
theorem word_extEcho {command : Command} (named : Command.parse cmd = some command) :
    statusWord.isPrefixOf (extEcho cmd args) = false := by
  obtain ⟨more, form, -⟩ := extEcho_form cmd args
  rw [form, named, Option.map_some, Option.getD_some]
  cases command <;> rfl

theorem extEcho_apart {sep : Char} (mark : sep ∈ separators)
    (apart : ∀ text ∈ cmd :: args, sep ∉ text) : sep ∉ extEcho cmd args := by
  obtain ⟨more, form, made⟩ := extEcho_form cmd args
  have plain : ∀ c ∈ separators, c ≠ ':' ∧ c ≠ ' ' := each_of_all (by decide)
  obtain ⟨here, later⟩ := List.forall_mem_cons.mp apart
  rw [form, List.mem_append, List.mem_cons, not_or, not_or]
  refine ⟨?_, (plain sep mark).1, fun mem => ?_⟩
  · cases Command.parse cmd with
    | none => exact here
    | some command => exact (longName_letters command).1 sep (List.mem_cons_of_mem _ mark)
  · rcases made sep mem with blank | ⟨arg, among, inside⟩
    · exact (plain sep mark).2 blank
    · exact later arg among inside

/-! ## The four branches -/

/-- The echo of a request holds a separator only if the request does, and never a line feed. -/
theorem extEcho_apart_request {sep : Char} (mark : sep ∈ separators)
    (solid : ∀ word ∈ cmd :: args, ∀ c ∈ word, isWhitespace c = false)
    (apart : sep = '\n' ∨ ∀ text ∈ cmd :: args, sep ∉ text) : sep ∉ extEcho cmd args := by
  refine extEcho_apart mark ?_
  rcases apart with rfl | apart
  · intro word among feed
    exact absurd (solid word among '\n' feed) (by decide)
  · exact apart

/-- The generic branch cuts the plain reply into records. -/
theorem plainRecords_shaped {reply : List UInt8} (shaped : Shaped reply)
    (named : reply ∈ statuses ∨ ∃ command, Command.parse cmd = some command) :
    plainRecords (extEcho cmd args) reply = extEcho cmd args :: values reply ++ [returnCode reply] := by
  show (if (extEcho cmd args :: replyLines reply).any (statusWord.isPrefixOf ·) then
    extEcho cmd args :: replyLines reply else extEcho cmd args :: replyLines reply ++ [erpOk]) = _
  rcases shaped with status | data
  · obtain ⟨none_, only, coded, -⟩ := status_values status
    rw [none_, only, if_pos (by simp [coded])]
    rfl
  · obtain ⟨all, ok⟩ := data_values data
    rcases named with status | ⟨command, named⟩
    · obtain ⟨-, only, coded, -⟩ := status_values status
      rw [data (returnCode reply) (only ▸ List.mem_cons_self)] at coded
      cases coded
    · have quiet : (extEcho cmd args :: replyLines reply).any (statusWord.isPrefixOf ·) = false := by
        rw [List.any_eq_false]
        exact List.forall_mem_cons.mpr ⟨Bool.eq_false_iff.mp (word_extEcho named),
          fun line mem => Bool.eq_false_iff.mp (data line mem)⟩
      rw [all, ok, quiet]
      rfl

theorem block_plain {sep : Char} {reply : List UInt8} (mark : sep ∈ separators)
    (solid : ∀ word ∈ cmd :: args, ∀ c ∈ word, isWhitespace c = false) (shaped : Shaped reply)
    (named : reply ∈ statuses ∨ ∃ command, Command.parse cmd = some command) :
    Block sep (cmd :: args) reply (erpRecords sep (plainRecords (extEcho cmd args) reply)) := by
  rw [plainRecords_shaped shaped named]
  exact ⟨_, _, .of mark shaped (isStatus_extEcho (solid cmd List.mem_cons_self))
    (extEcho_apart_request mark solid) (List.forall₂_same.mpr fun value _ => .inl rfl)⟩

/-- The branches with labels: each value stands behind its own. -/
theorem block_labeled {sep : Char} {request : List (List Char)} (echo : List Char)
    (pairs : List (List Char × List Char)) (mark : sep ∈ separators)
    (echoed : isStatus echo = false) (apart : sep ∉ echo)
    (each : ∀ pair ∈ pairs, pair.1 ∈ labels ∧ Value pair.2) :
    Block sep request (lines (pairs.map Prod.snd)) (erpRecords sep
      (echo :: pairs.map (fun pair => labeled pair.1 pair.2) ++ [erpOk])) := by
  have valued : ∀ text ∈ pairs.map Prod.snd, Value text := by
    intro text mem
    obtain ⟨pair, among, rfl⟩ := List.mem_map.mp mem
    exact (each pair among).2
  obtain ⟨shaped, same, ok⟩ := values_lines valued
  refine ⟨echo, pairs.map (fun pair => labeled pair.1 pair.2), ?_⟩
  rw [← ok]
  refine .of mark shaped echoed (fun _ => apart) ?_
  rw [same, List.forall₂_map_left_iff, List.forall₂_map_right_iff, List.forall₂_same]
  exact fun pair among => .inr ⟨pair.1, (each pair among).1, rfl⟩

end

/-! ## The two forms -/

/-- The line is the list of VFOs that a client begins with. -/
def AsksVfos (cmd : List Char) (args : List (List Char)) : Prop :=
  Command.parse cmd = some .setVfo ∧ args.head? = some ['?']

instance (cmd : List Char) (args : List (List Char)) : Decidable (AsksVfos cmd args) :=
  inferInstanceAs (Decidable (_ ∧ _))

section
variable {σ : Type} {answer : (q : Question) → σ → q.Answer × σ} {ctx : Context} {cmd : List Char}
  {args : List (List Char)} {s : σ}

/-- A plain command, in front of any hub. -/
theorem exec_dispatchPlain (ctx : Context) (args : List (List Char)) (s : σ)
    (looking : ∀ s, (answer .snapshot s).2 = s) (goesOn : ¬ (cmd = ['q'] ∨ cmd = ['Q'])) :
    (dispatchPlain cmd args ctx).exec answer s =
      match Command.parse cmd with
      | none => (.reply rprtEnavail, s)
      | some command =>
          match readReply ctx (answer .snapshot s).1 args command with
          | some bytes => (.reply bytes, s)
          | none =>
              let (bytes, t) := (set ctx (answer .snapshot s).1 args command).exec answer s
              (.reply bytes, t) := by
  unfold dispatchPlain
  rw [Session.snapshot_bind, Program.exec_ask, looking s, if_neg goesOn]
  cases Command.parse cmd with
  | none => rfl
  | some command =>
      dsimp only
      cases readReply ctx (answer .snapshot s).1 args command with
      | some bytes => rfl
      | none => rw [Program.exec_bind]; rfl

/-- What a plain command other than quitting replies. -/
theorem dispatchPlain_replies (args : List (List Char)) (s : σ)
    (looking : ∀ s, (answer .snapshot s).2 = s)
    (quiet : ∀ line ∈ replyLines ctx.dumpState, statusWord.isPrefixOf line = false)
    (goesOn : ¬ (cmd = ['q'] ∨ cmd = ['Q'])) :
    ∃ reply, ((dispatchPlain cmd args ctx).exec answer s).1 = .reply reply ∧ Shaped reply ∧
      (reply ∈ statuses ∨ ∃ command, Command.parse cmd = some command) := by
  rw [exec_dispatchPlain ctx args s looking goesOn]
  cases named : Command.parse cmd with
  | none => exact ⟨_, rfl, .inl (by decide), .inl (by decide)⟩
  | some command =>
      dsimp only
      cases read : readReply ctx (answer .snapshot s).1 args command with
      | some bytes => exact ⟨_, rfl, shaped_readReply quiet read, .inr ⟨command, rfl⟩⟩
      | none =>
          have status : ((set ctx (answer .snapshot s).1 args command).exec answer s).1 ∈ statuses :=
            (status_set command).exec answer (fun _ _ => trivial) s
          exact ⟨_, rfl, .inl status, .inl status⟩

/-- An extended command, in front of the same hub. -/
theorem exec_handleExt {sep : Char} {rest : List Char} (looking : ∀ s, (answer .snapshot s).2 = s)
    (text : words isWhitespace rest = cmd :: args) :
    (handleExt sep rest ctx).exec answer s =
      if AsksVfos cmd args then (vfoList ctx sep, s)
      else if Command.parse cmd = some .getVfoInfo then
        (erpRecords sep (if ctx.perms.allows .modeledRead then
          vfoInfoRecords ctx (answer .snapshot s).1 args
          else [extEcho cmd args, ['R', 'P', 'R', 'T', ' ', '-', '1']]), s)
      else
        match labeledReply ctx (answer .snapshot s).1 (Command.parse cmd) with
        | some records => (erpRecords sep records, s)
        | none =>
            match (dispatchPlain cmd args ctx).exec answer s with
            | (.quit, t) => ([], t)
            | (.reply bytes, t) => (erpRecords sep (plainRecords (extEcho cmd args) bytes), t) := by
  unfold handleExt
  rw [text]
  dsimp only
  rw [Session.snapshot_bind, Program.exec_ask, looking s]
  by_cases vfos : AsksVfos cmd args
  · rw [if_pos vfos, if_pos (show _ ∧ _ from vfos)]
    rfl
  · rw [if_neg vfos, if_neg (show ¬ (_ ∧ _) from vfos)]
    split
    · rfl
    · cases labeledReply ctx (answer .snapshot s).1 (Command.parse cmd) with
      | some records => rfl
      | none =>
          dsimp only
          rw [Program.exec_bind]
          rcases (dispatchPlain cmd args ctx).exec answer s with ⟨bytes | _, t⟩ <;> rfl

/-- The poll of one VFO carries the plain values behind its labels. -/
theorem block_vfoInfo {sep : Char} {snapshot : Snapshot} {request : List (List Char)}
    (mark : sep ∈ separators) :
    Block sep request
      (lines [number (snapshot.vfo (presentedVfo ctx snapshot (parseVfoArg args.head?))).freqHz,
        modeToken (snapshot.vfo (presentedVfo ctx snapshot (parseVfoArg args.head?))),
        number (snapshot.vfo (presentedVfo ctx snapshot (parseVfoArg args.head?))).passbandHz,
        flag (presentedSplit ctx snapshot), ['0']])
      (erpRecords sep (vfoInfoRecords ctx snapshot args)) := by
  set v := snapshot.vfo (presentedVfo ctx snapshot (parseVfoArg args.head?)) with v_def
  refine block_labeled (labeled Command.getVfoInfo.longName
      (presentedVfoName ctx (presentedVfo ctx snapshot (parseVfoArg args.head?))))
    [(['F', 'r', 'e', 'q'], number v.freqHz), (['M', 'o', 'd', 'e'], modeToken v),
      (['W', 'i', 'd', 't', 'h'], number v.passbandHz),
      (['S', 'p', 'l', 'i', 't'], flag (presentedSplit ctx snapshot)),
      (['S', 'a', 't', 'M', 'o', 'd', 'e'], ['0'])] mark rfl ?_ ?_
  · have free : ∀ vfo, ∀ sep ∈ separators,
        sep ∉ labeled Command.getVfoInfo.longName (vfoName vfo) := by
      intro vfo
      cases vfo <;> exact each_of_all (by decide)
    unfold presentedVfoName
    split
    · exact free .a sep mark
    · exact free _ sep mark
  · simp [labels, value_number, value_modeToken, value_flag, show Value ['0'] from value_flag false]

/-- The reads with labels carry the plain values. -/
theorem block_labeledReply {sep : Char} {snapshot : Snapshot} (request : List (List Char))
    (args : List (List Char)) {command : Command} {records : List (List Char)} (mark : sep ∈ separators)
    (found : labeledReply ctx snapshot (some command) = some records) :
    ∃ reply, readReply ctx snapshot args command = some reply ∧
      Block sep request reply (erpRecords sep records) := by
  have apart : ∀ command : Command, sep ∉ command.longName ++ [':'] := by
    intro command
    have colon : ∀ c ∈ separators, c ≠ ':' := each_of_all (by decide)
    rw [List.mem_append, List.mem_singleton, not_or]
    exact ⟨(longName_letters command).1 sep (List.mem_cons_of_mem _ mark), colon sep mark⟩
  unfold labeledReply at found
  dsimp only at found
  split at found
  · cases found
  · rename_i reads
    rw [Bool.not_eq_true, Bool.not_eq_false'] at reads
    set v := snapshot.vfo snapshot.rxVfo with v_def
    cases command with
    | getFreq =>
        obtain rfl := Option.some.inj found
        refine ⟨lines [number v.freqHz], by rw [readReply, guardRead, if_pos reads], ?_⟩
        exact block_labeled _
          [(['F', 'r', 'e', 'q', 'u', 'e', 'n', 'c', 'y'], number v.freqHz)] mark rfl
          (apart .getFreq) (by simp [labels, value_number])
    | getMode =>
        obtain rfl := Option.some.inj found
        refine ⟨lines [modeToken v, number v.passbandHz],
          by rw [readReply, guardRead, if_pos reads], ?_⟩
        exact block_labeled _ [(['M', 'o', 'd', 'e'], modeToken v),
            (['P', 'a', 's', 's', 'b', 'a', 'n', 'd'], number v.passbandHz)] mark rfl
          (apart .getMode) (by simp [labels, value_number, value_modeToken])
    | getVfo =>
        obtain rfl := Option.some.inj found
        refine ⟨lines [presentedVfoName ctx snapshot.rxVfo],
          by rw [readReply, guardRead, if_pos reads], ?_⟩
        exact block_labeled _ [(['V', 'F', 'O'], presentedVfoName ctx snapshot.rxVfo)] mark
          rfl (apart .getVfo) (by simp [labels, value_presentedVfoName])
    | getPtt =>
        obtain rfl := Option.some.inj found
        refine ⟨lines [flag snapshot.ptt], by rw [readReply, guardRead, if_pos reads], ?_⟩
        exact block_labeled _ [(['P', 'T', 'T'], flag snapshot.ptt)] mark rfl
          (apart .getPtt) (by simp [labels, value_flag])
    | _ => cases found

/-- **The two forms agree.**  A line with a separator in front has the effect of the plain command, and
its reply is one block that answers as the plain reply does; the line that asks for the list of VFOs has
no effect either, and is answered with that list. -/
theorem extended_agrees {line rest : List Char} {sep : Char}
    (looking : ∀ s, (answer .snapshot s).2 = s)
    (quiet : ∀ line ∈ replyLines ctx.dumpState, statusWord.isPrefixOf line = false)
    (extended : splitErp (trim line) = some (sep, rest))
    (text : words isWhitespace rest = cmd :: args) (goesOn : ¬ (cmd = ['q'] ∨ cmd = ['Q'])) :
    ((handleLine line ctx).exec answer s).2 = ((dispatchPlain cmd args ctx).exec answer s).2 ∧
      if AsksVfos cmd args then
        (handleLine line ctx).exec answer s = (.reply (vfoList ctx sep), s) ∧
          ∃ reply, ((dispatchPlain cmd args ctx).exec answer s).1 = .reply reply
      else
        Agrees sep (cmd :: args) ((dispatchPlain cmd args ctx).exec answer s).1
          ((handleLine line ctx).exec answer s).1 := by
  have mark := mem_separators extended
  have solid : ∀ word ∈ cmd :: args, ∀ c ∈ word, isWhitespace c = false :=
    fun word among => solid_of_mem_words (text ▸ among)
  have handled : (handleLine line ctx).exec answer s =
      (.reply ((handleExt sep rest ctx).exec answer s).1, ((handleExt sep rest ctx).exec answer s).2) := by
    unfold handleLine
    rw [extended]
    exact Program.exec_bind answer _ _ s
  obtain ⟨reply, replies, shaped, named⟩ :=
    dispatchPlain_replies args s looking quiet goesOn
  have plain := exec_dispatchPlain ctx args s looking goesOn
  rw [handled, exec_handleExt looking text]
  by_cases vfos : AsksVfos cmd args
  · rw [if_pos vfos, if_pos vfos]
    refine ⟨?_, rfl, reply, replies⟩
    rw [plain, vfos.1]
    rfl
  · rw [if_neg vfos, if_neg vfos, replies]
    by_cases info : Command.parse cmd = some .getVfoInfo
    · rw [if_pos info]
      rw [plain, info] at replies
      obtain rfl := LineResult.reply.inj replies
      refine ⟨by rw [plain, info]; rfl, ?_⟩
      show Block sep (cmd :: args) (guardRead ctx _) (erpRecords sep _)
      cases reads : ctx.perms.allows .modeledRead with
      | true =>
          rw [guardRead, if_pos reads, if_pos rfl]
          exact block_vfoInfo mark
      | false =>
          -- the record of the refusal is the one that the generic branch would cut
          have einval : rprtEinval ∈ statuses := by decide
          have refused : [extEcho cmd args, ['R', 'P', 'R', 'T', ' ', '-', '1']] =
              plainRecords (extEcho cmd args) rprtEinval :=
            (plainRecords_shaped (.inl einval) (.inl einval)).symm
          rw [guardRead, reads, if_neg Bool.false_ne_true, if_neg Bool.false_ne_true, refused]
          exact block_plain mark solid (.inl einval) (.inl einval)
    · rw [if_neg info]
      cases found : labeledReply ctx (answer .snapshot s).1 (Command.parse cmd) with
      | some records =>
          cases parsed : Command.parse cmd with
          | none =>
              rw [parsed] at found
              unfold labeledReply at found
              dsimp only at found
              split at found <;> cases found
          | some command =>
              rw [parsed] at found
              obtain ⟨reply', read, block⟩ :=
                block_labeledReply (cmd :: args) args mark found
              rw [plain, parsed] at replies
              simp only [read] at replies
              obtain rfl := LineResult.reply.inj replies
              refine ⟨?_, block⟩
              rw [plain, parsed]
              simp only [read]
      | none =>
          dsimp only
          rcases ran : (dispatchPlain cmd args ctx).exec answer s with ⟨result, t⟩
          rw [ran] at replies
          obtain rfl : result = .reply reply := replies
          exact ⟨rfl, block_plain mark solid shaped named⟩

end

/-- A client that may read and no more. -/
def listener : Context := ⟨0, ⟨true, false, false, false, false⟩, true, true, false, []⟩

/-- A hub that is fresh, and a radio that does not answer. -/
def stillHub : (q : Question) → World → q.Answer × World :=
  answerAlone (fun _ w => (.error .timeout, w))

def fresh : World := ⟨{}, { maxTx := 0 }, false, 0⟩

/-- `+f`. -/
theorem extended_agrees_getFreq :
    Agrees '\n' [['f']] ((dispatchPlain ['f'] [] listener).exec stillHub fresh).1
      ((handleLine ['+', 'f'] listener).exec stillHub fresh).1 :=
  (@extended_agrees World stillHub listener ['f'] [] fresh ['+', 'f'] ['f'] '\n' (fun _ => rfl)
    (by decide) rfl (by decide) (by decide)).2

/-- The status ends the block. -/
theorem erpRecords_last (sep : Char) (records : List (List Char)) (last : List Char) :
    encode (last ++ ['\n']) <:+ erpRecords sep (records ++ [last]) := by
  have ends : last <:+ List.intercalate [sep] (records ++ [last]) := by
    induction records with
    | nil => simp
    | cons record records ih =>
        cases records with
        | nil => exact ⟨record ++ [sep], by simp⟩
        | cons next records => exact ih.trans ⟨record ++ [sep], by simp⟩
  obtain ⟨front, form⟩ := ends
  exact ⟨encode front, by simp [erpRecords, ← form, encode]⟩

/-- A client that may not write asks for the list of VFOs, which a plain `V` refuses; what an echo repeats
may be taken for a status; and `+q` is answered with nothing and leaves the connection open. -/
theorem extended_differs :
    (¬ ∀ (ctx : Context) (w : World) (line rest cmd : List Char) (args : List (List Char)) (sep : Char),
      (∀ line ∈ replyLines ctx.dumpState, statusWord.isPrefixOf line = false) →
      splitErp (trim line) = some (sep, rest) → words isWhitespace rest = cmd :: args →
      Agrees sep (cmd :: args) ((dispatchPlain cmd args ctx).exec stillHub w).1
        ((handleLine line ctx).exec stillHub w).1) ∧
    (∃ block, ((handleLine [';', 'F', ' ', '1', ';', 'R', 'P', 'R', 'T', ' ', '9'] listener).exec
      stillHub fresh).1 = .reply block ∧
      ((fromUtf8Lossy block).dropLast.splitOn ';').filter isStatus =
        [['R', 'P', 'R', 'T', ' ', '9'], ['R', 'P', 'R', 'T', ' ', '-', '1']]) ∧
    ((dispatchPlain ['q'] [] listener).exec stillHub fresh).1 = .quit ∧
      ((handleLine ['+', 'q'] listener).exec stillHub fresh).1 = .reply [] := by
  refine ⟨fun claim => ?_, ⟨_, rfl, by decide⟩, rfl, rfl⟩
  obtain ⟨echo, data, answered⟩ := claim listener fresh ['+', 'V', ' ', '?'] ['V', ' ', '?'] ['V'] [['?']]
    '\n' (by decide) rfl (by decide)
  have ends := erpRecords_last '\n' (echo :: data) (returnCode rprtEinval)
  rw [show erpRecords '\n' (echo :: data ++ [returnCode rprtEinval]) = vfoList listener '\n' from
    answered.joined.symm] at ends
  exact absurd ends (by decide)

end CatHub.Dialect.HamlibNet
