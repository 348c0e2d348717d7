/-
# CatHub.Dialect.Chained — the bridge of one hub at the Hamlib endpoint of another.

The bridge backend is a client of the protocol that the Hamlib endpoint serves.  `upstream` is an endpoint
as the bridge meets it: command lines go in, and the replies come out.  `chained_poll` says what a poll
learns of the hub behind the endpoint, and `chained_write` what a write through the bridge does there;
the tokens of the protocol lose something both ways, and the definitions say what.  `bridge_counts` ties
the lines that the bridge waits for to those that an endpoint announces when it handles the line.
-/
import CatHub.Dialect.HamlibConnection
import CatHub.Radio.Power
import Mathlib.Data.List.DropRight

namespace CatHub.Dialect.HamlibNet

open Systems Radio Ptt Bridge

open Radio.Ts590 (ascii trim isWhitespace decimal recordAll parseU64_decimal)

/-! ## Command lines -/

/-- A word of a command: visible characters. -/
def Token (word : List Char) : Prop := word ≠ [] ∧ ∀ c ∈ word, c.toNat < 0x80 ∧ isWhitespace c = false

instance (word : List Char) : Decidable (Token word) :=
  @instDecidableAnd _ _ inferInstance (List.decidableBAll _ word)

/-- Words with a blank between them. -/
def commandLine (texts : List (List Char)) : List Char := List.intercalate [' '] texts

theorem commandLine_cons (first second : List Char) (rest : List (List Char)) :
    commandLine (first :: second :: rest) = first ++ ' ' :: commandLine (second :: rest) := by
  simp [commandLine, List.intercalate]

theorem words_commandLine {texts : List (List Char)} (tokens : ∀ word ∈ texts, Token word) :
    words isWhitespace (commandLine texts) = texts := by
  induction texts with
  | nil => rfl
  | cons first rest ih =>
      obtain ⟨here, later⟩ := List.forall_mem_cons.mp tokens
      have solid : ∀ c ∈ first, isWhitespace c = false := fun c mem => (here.2 c mem).2
      cases rest with
      | nil =>
          rw [show commandLine [first] = first by simp [commandLine]]
          exact words_solid here.1 solid
      | cons second rest => rw [commandLine_cons, words_first (by decide) here.1 solid, ih later]

/-- What stands in a command line: the characters of its words, and blanks. -/
theorem mem_commandLine {texts : List (List Char)} {c : Char} (mem : c ∈ commandLine texts) :
    c = ' ' ∨ ∃ word ∈ texts, c ∈ word := by
  induction texts with
  | nil => simp [commandLine] at mem
  | cons first rest ih =>
      cases rest with
      | nil =>
          rw [show commandLine [first] = first by simp [commandLine]] at mem
          exact .inr ⟨first, List.mem_cons_self, mem⟩
      | cons second rest =>
          rw [commandLine_cons] at mem
          rcases List.mem_append.mp mem with here | later
          · exact .inr ⟨first, List.mem_cons_self, here⟩
          · rcases List.mem_cons.mp later with blank | later
            · exact .inl blank
            · obtain blank | ⟨word, among, here⟩ := ih later
              · exact .inl blank
              · exact .inr ⟨word, List.mem_cons_of_mem _ among, here⟩

theorem plain_commandLine {texts : List (List Char)} (tokens : ∀ word ∈ texts, Token word) :
    ∀ c ∈ commandLine texts, c.toNat < 0x80 ∧ c ≠ '\n' ∧ c ≠ '\r' := by
  intro c mem
  rcases mem_commandLine mem with rfl | ⟨word, among, here⟩
  · decide
  · obtain ⟨small, visible⟩ := (tokens word among).2 c here
    refine ⟨small, ?_, ?_⟩ <;>
    · rintro rfl
      cases visible

/-! ## Lines as they arrive -/

theorem ascii_eq_encode {text : List Char} (small : ∀ c ∈ text, c.toNat < 0x80) :
    ascii text = encode text := by
  induction text with
  | nil => rfl
  | cons c text ih =>
      obtain ⟨here, later⟩ := List.forall_mem_cons.mp small
      have low : c.val.toNat ≤ 0x7f := Nat.le_of_lt_succ here
      rw [encode, List.flatMap_cons, String.utf8EncodeChar, if_pos low]
      exact congrArg (_ :: ·) (ih later)

theorem toUInt8_ne {c d : Char} (small : c.toNat < 0x80) (small' : d.toNat < 0x80) (differ : c ≠ d) :
    c.toNat.toUInt8 ≠ d.toNat.toUInt8 := by
  intro same
  apply differ
  have value : ∀ n : Nat, n < 0x80 → n.toUInt8.toNat = n := fun n small => by
    rw [Nat.toUInt8, UInt8.toNat_ofNat']
    omega
  have numbers := congrArg UInt8.toNat same
  rw [value _ small, value _ small'] at numbers
  exact Char.toNat_inj.mp numbers

theorem requestText_commandLine {texts : List (List Char)} (tokens : ∀ word ∈ texts, Token word) :
    requestText (ascii (commandLine texts)) = commandLine texts := by
  have plain := plain_commandLine tokens
  have open_ : (ascii (commandLine texts)).getLast? ≠ some 0x0D := by
    intro last
    obtain ⟨c, mem, same⟩ := List.mem_map.mp (List.mem_of_getLast? last)
    exact toUInt8_ne (plain c mem).1 (by decide) (plain c mem).2.2 same
  rw [requestText, if_neg open_, ascii_eq_encode (fun c mem => (plain c mem).1),
    fromUtf8Lossy_encode (fun c mem => (plain c mem).1)]

/-- A line that is not too long is delivered. -/
theorem requestLines_line (line : List UInt8) {front : List UInt8} (closed : 0x0A ∉ front)
    (short : line.length + front.length ≤ maxLineLen) (stream : List UInt8) :
    requestLines (front ++ 0x0A :: stream) line = (line ++ front) :: requestLines stream [] := by
  induction front generalizing line with
  | nil => rw [List.nil_append, requestLines, if_pos rfl, List.append_nil]
  | cons byte front ih =>
      rw [List.length_cons] at short
      have inside : byte ≠ 0x0A := fun same => closed (same ▸ List.mem_cons_self)
      have room : ¬ maxLineLen ≤ line.length := by omega
      rw [List.cons_append, requestLines, if_neg inside, if_neg room,
        ih _ (fun mem => closed (List.mem_cons_of_mem byte mem))
          (by rw [List.length_append, List.length_singleton]; omega), List.append_assoc,
        List.singleton_append]

theorem trim_cons {c : Char} (visible : isWhitespace c = false) (text : List Char) :
    ∃ rest, trim (c :: text) = c :: rest := by
  have keeps : ∀ front : List Char, ∃ rest, (front ++ [c]).dropWhile isWhitespace = rest ++ [c] := by
    intro front
    induction front with
    | nil => exact ⟨[], List.dropWhile_cons_of_neg (by simp [visible])⟩
    | cons d front ih =>
        rw [List.cons_append, List.dropWhile_cons]
        split
        · exact ih
        · exact ⟨d :: front, rfl⟩
  obtain ⟨rest, kept⟩ := keeps text.reverse
  refine ⟨rest.reverse, ?_⟩
  rw [trim, List.dropWhile_cons_of_neg (by simp [visible]), List.reverse_cons, kept, List.reverse_append]
  rfl

/-- The line of a command is not in the extended form. -/
theorem plainForm_commandLine {cmd : List Char} {args : List (List Char)}
    (tokens : ∀ word ∈ cmd :: args, Token word) (plain : ∀ c ∈ cmd.head?, c ∉ ['+', ';', '|', ',']) :
    splitErp (trim (commandLine (cmd :: args))) = none := by
  obtain ⟨some_, solid⟩ := tokens cmd List.mem_cons_self
  cases cmd with
  | nil => exact absurd rfl some_
  | cons c cmd =>
      obtain ⟨more, line⟩ : ∃ more, commandLine ((c :: cmd) :: args) = c :: more := by
        cases args with
        | nil => exact ⟨cmd, by simp [commandLine]⟩
        | cons arg args => exact ⟨_, commandLine_cons _ _ _⟩
      obtain ⟨rest, trimmed⟩ := trim_cons (solid c List.mem_cons_self).2 more
      have other : c ∉ ['+', ';', '|', ','] := plain c rfl
      simp only [List.mem_cons, List.not_mem_nil, or_false, not_or] at other
      rw [line, trimmed, splitErp.eq_def]
      split <;> simp_all

/-! ## The endpoint behind the bridge -/

/-- The endpoint of a hub as the `rigctld` of another one.  What is not answered times out. -/
def upstream (ctx : Context) (radio : OpKind → World → Except BackendError (List UInt8) × World)
    (bytes : List UInt8) (w : World) : Except BackendError (List UInt8) × World :=
  let (replies, w) :=
    (converse ctx (fun _ => true) 0 (requestLines bytes [])).exec (answerAlone radio) w
  (if replies.flatten.isEmpty then .error .timeout else .ok replies.flatten, w)

/-- The bytes are a command in one line. -/
structure Spelled (bytes : List UInt8) (cmd : List Char) (args : List (List Char)) : Prop where
  form : bytes = ascii (commandLine (cmd :: args)) ++ [Rigctld.newline]
  tokens : ∀ word ∈ cmd :: args, Token word
  plain : ∀ c ∈ cmd.head?, c ∉ ['+', ';', '|', ',']

/-- And the line is short enough to be read. -/
structure Commands (bytes : List UInt8) (cmd : List Char) (args : List (List Char)) : Prop extends
    Spelled bytes cmd args where
  short : (commandLine (cmd :: args)).length ≤ maxLineLen

section
variable {ctx : Context} {radio : OpKind → World → Except BackendError (List UInt8) × World}
  {bytes : List UInt8} {cmd : List Char} {args : List (List Char)}

theorem Spelled.closed (spelled : Spelled bytes cmd args) :
    Rigctld.newline ∉ ascii (commandLine (cmd :: args)) := by
  intro mem
  obtain ⟨c, among, same⟩ := List.mem_map.mp mem
  obtain ⟨small, inside, -⟩ := plain_commandLine spelled.tokens c among
  exact toUInt8_ne small (by decide) inside same

theorem Spelled.handled (spelled : Spelled bytes cmd args) :
    handle (ascii (commandLine (cmd :: args))) ctx = dispatchPlain cmd args ctx := by
  rw [handle, requestText_commandLine spelled.tokens, handleLine,
    plainForm_commandLine spelled.tokens spelled.plain]
  dsimp only
  rw [words_commandLine spelled.tokens]

theorem upstream_command (commands : Commands bytes cmd args) (w : World)
    {reply : List UInt8} {t : World} (some_ : reply ≠ [])
    (served : (dispatchPlain cmd args ctx).exec (answerAlone radio) w = (.reply reply, t)) :
    upstream ctx radio bytes w = (.ok reply, t) := by
  have spelled := commands.toSpelled
  have delivered : requestLines (ascii (commandLine (cmd :: args)) ++ [Rigctld.newline]) [] =
      [ascii (commandLine (cmd :: args))] := by
    have whole := requestLines_line [] spelled.closed (by simpa [ascii] using commands.short) []
    simpa [Rigctld.newline, requestLines] using whole
  rw [spelled.form, upstream, delivered, converse, spelled.handled, Program.exec_bind, served]
  simp [converse, some_]

theorem upstream_read (commands : Commands bytes cmd args) {command : Command}
    (named : Command.parse cmd = some command) {w : World} {reply : List UInt8} (some_ : reply ≠ [])
    (read : readReply ctx w.state.snapshot args command = some reply) :
    upstream ctx radio bytes w = (.ok reply, w) := by
  refine upstream_command commands w some_ ?_
  rw [exec_dispatchPlain ctx args w (fun _ => rfl) (Command.not_quit named), named]
  dsimp only [answerAlone]
  rw [read]

end

/-! ## Tokens -/

theorem digit_visible : ∀ d < 10, (Char.ofNat (d + 48).toUInt8.toNat).toNat < 0x80 ∧
    isWhitespace (Char.ofNat (d + 48).toUInt8.toNat) = false := by decide

theorem token_number (n : Nat) : Token (number n) := by
  refine ⟨(plain_number n).1, fun c mem => ?_⟩
  obtain ⟨d, small, rfl⟩ := number_chars mem
  exact digit_visible d small

theorem token_modeToken (v : VfoSnapshot) : Token (modeToken v) := by
  unfold modeToken
  cases v.mode <;> cases v.data <;> decide

theorem length_modeToken (v : VfoSnapshot) : (modeToken v).length ≤ 100 := by
  unfold modeToken
  cases v.mode <;> cases v.data <;> decide

theorem length_stripped (text : List Char) :
    (text.reverse.dropWhile (· == '0')).length ≤ text.length :=
  (List.dropWhile_sublist _).length_le.trans (List.length_reverse ..).le

theorem length_relativeDecimal {power : TxPower}
    (level : power.relativeMillionths ≤ TxPower.relativeScale) : power.relativeDecimal.length ≤ 100 := by
  unfold TxPower.relativeDecimal
  split
  · decide
  · rename_i part
    have six : (decimal 6 power.relativeMillionths).length = 6 :=
      Radio.Ts590.length_decimal_iff.mpr (Nat.lt_of_le_of_ne level part)
    split
    · decide
    · have cut := length_stripped ((decimal 6 power.relativeMillionths).map (fun byte => Char.ofNat byte.toNat))
      rw [List.length_map, six] at cut
      rw [List.length_append, List.length_reverse]
      exact (Nat.add_le_add_left cut 2).trans (by decide)

theorem token_relativeDecimal (power : TxPower) : Token power.relativeDecimal := by
  unfold TxPower.relativeDecimal
  split
  · decide
  · split
    · decide
    · refine ⟨List.cons_ne_nil _ _, fun c mem => ?_⟩
      rcases List.mem_append.mp mem with point | digit
      · have plain : ∀ c ∈ ['0', '.'], c.toNat < 0x80 ∧ isWhitespace c = false := each_of_all (by decide)
        exact plain c point
      · have six := (List.dropWhile_sublist _).mem (List.mem_reverse.mp digit)
        obtain ⟨byte, among, rfl⟩ := List.mem_map.mp (List.mem_reverse.mp six)
        obtain ⟨d, small, rfl⟩ := Radio.Ts590.mem_decimal among
        exact digit_visible d small

theorem ascii_number (n : Nat) : ascii (number n) = decimal 1 n := by
  rw [ascii, number, List.map_map]
  refine (List.map_congr_left fun byte mem => ?_).trans (List.map_id _)
  obtain ⟨d, small, rfl⟩ := Radio.Ts590.mem_decimal mem
  have value : ∀ d < 10, (Char.ofNat (d + 48).toUInt8.toNat).toNat.toUInt8 = (d + 48).toUInt8 := by decide
  exact value d small

theorem length_number {n : Nat} (word : n < 2 ^ 64) : (number n).length ≤ 20 := by
  have digits : (Nat.digits 10 n).length ≤ 20 :=
    (Nat.digits_length_le_iff (by decide) n).mpr (word.trans (by decide))
  rw [number, List.length_map, decimal, List.length_map, Radio.Ts590.length_paddedDigits]
  omega

/-! ## Reading replies -/

section
variable {text : List Char} (texts : List (List Char))

theorem lines_cons (text : List Char) (texts : List (List Char)) :
    lines (text :: texts) = encode text ++ Rigctld.newline :: lines texts := by
  rw [lines, List.flatMap_cons, encode, List.flatMap_append, List.flatMap_append, List.append_assoc]
  rfl

theorem firstLine_lines (plain : Plain text) :
    Rigctld.firstLine (lines (text :: texts)) = ascii text := by
  have small : ∀ c ∈ text, c.toNat < 0x80 := fun c mem => (plain.2 c mem).1
  have solid : Rigctld.newline ∉ ascii text := by
    intro mem
    obtain ⟨c, among, same⟩ := List.mem_map.mp mem
    exact toUInt8_ne (plain.2 c among).1 (by decide) (plain.2 c among).2 same
  rw [lines_cons, ← ascii_eq_encode small, Rigctld.firstLine_append, Rigctld.firstLine_solid solid]

theorem fromUtf8_ascii_text (small : ∀ c ∈ text, c.toNat < 0x80) :
    Radio.Ts590.fromUtf8 (ascii text) = some text := by
  have low : ∀ byte ∈ ascii text, byte < 0x80 := by
    intro byte mem
    obtain ⟨c, among, rfl⟩ := List.mem_map.mp mem
    have := small c among
    rw [UInt8.lt_iff_toNat_lt, Nat.toUInt8, UInt8.toNat_ofNat', Nat.mod_eq_of_lt (by omega)]
    exact this
  rw [Radio.Ts590.fromUtf8_ascii _ low, ascii, List.map_map]
  refine congrArg some ((List.map_congr_left fun c mem => ?_).trans (List.map_id _))
  have := small c mem
  show Char.ofNat (UInt8.ofNat c.toNat).toNat = c
  rw [UInt8.toNat_ofNat', Nat.mod_eq_of_lt (by omega), Char.ofNat_toNat]

theorem text_ascii (small : ∀ c ∈ text, c.toNat < 0x80) : Rigctld.text (ascii text) = text := by
  rw [Rigctld.text, fromUtf8_ascii_text small, Option.getD_some]

/-- The first line of a reply. -/
theorem text_firstLine (plain : Plain text) :
    Rigctld.text (Rigctld.firstLine (lines (text :: texts))) = text := by
  rw [firstLine_lines texts plain, text_ascii (fun c mem => (plain.2 c mem).1)]

theorem parse_firstLine {n : Nat} (word : n < 2 ^ 64) :
    Radio.Ts590.parseU64 (Rigctld.firstLine (lines (number n :: texts))) = some n := by
  rw [firstLine_lines texts (plain_number n), ascii_number, parseU64_decimal Nat.one_pos word]

theorem trim_token (token : Token text) : trim text = text :=
  Radio.Ts590.trim_solid text (fun c mem => (token.2 c mem).2)

/-- A word is not taken for a status. -/
theorem token_no_status (token : Token text) : text.dropPrefix? Rigctld.rprt = none := by
  cases found : text.dropPrefix? Rigctld.rprt with
  | none => rfl
  | some code =>
      obtain ⟨front, rfl, same⟩ := List.dropPrefix?_eq_some_iff.mp found
      obtain rfl := beq_iff_eq.mp same
      have blank : isWhitespace ' ' = false :=
        (token.2 ' ' (List.mem_append_left code (by decide))).2
      cases blank

theorem plain_of_token (token : Token text) : Plain text := by
  refine ⟨token.1, fun c mem => ⟨(token.2 c mem).1, ?_⟩⟩
  rintro rfl
  cases (token.2 '\n' mem).2

theorem data_no_status (token : Token text) : Rigctld.isRprtError (lines (text :: texts)) = false := by
  rw [Rigctld.isRprtError, text_firstLine texts (plain_of_token token), trim_token token,
    token_no_status token]
  rfl

end

/-! ## The power -/

/-- What was cut off the end can be put there again. -/
theorem pad_stripped (c : Char) (text : List Char) :
    (text.reverse.dropWhile (· == c)).reverse ++
      List.replicate (text.length - (text.reverse.dropWhile (· == c)).reverse.length) c = text := by
  have cut : (text.reverse.dropWhile (· == c)).reverse ++ (text.reverse.takeWhile (· == c)).reverse = text := by
    rw [← List.reverse_append, List.takeWhile_append_dropWhile, List.reverse_reverse]
  have tail : (text.reverse.takeWhile (· == c)).reverse =
      List.replicate (text.reverse.takeWhile (· == c)).reverse.length c := by
    refine List.eq_replicate_of_mem (fun d mem => ?_)
    have same : (d == c) = true :=
      List.mem_takeWhile_imp (p := (· == c)) (List.mem_reverse.mp mem)
    exact beq_iff_eq.mp same
  have length := congrArg List.length cut
  rw [List.length_append] at length
  rw [show text.length - (text.reverse.dropWhile (· == c)).reverse.length =
    (text.reverse.takeWhile (· == c)).reverse.length by omega, ← tail, cut]

/-- The level that was written is read. -/
theorem parse_relativeDecimal {power : TxPower} (level : power.relativeMillionths ≤ TxPower.relativeScale) :
    TxPower.parseRelativeMillionths power.relativeDecimal = some power.relativeMillionths := by
  have token := token_relativeDecimal power
  unfold TxPower.relativeDecimal at token ⊢
  split at token
  · rename_i whole
    rw [if_pos whole, whole]
    decide
  · rename_i part
    rw [if_neg part]
    split at token
    · rename_i zero
      rw [if_pos zero, zero]
      decide
    · rename_i some_
      rw [if_neg some_]
      set digits := (decimal 6 power.relativeMillionths).map (fun byte => Char.ofNat byte.toNat) with six
      have small : power.relativeMillionths < 10 ^ 6 := Nat.lt_of_le_of_ne level part
      have width : digits.length = 6 := by
        rw [six, List.length_map]
        exact Radio.Ts590.length_decimal_iff.mpr small
      have digit : ∀ c ∈ digits, c.isDigit = true ∧ c ≠ '.' := by
        intro c mem
        obtain ⟨byte, among, rfl⟩ := List.mem_map.mp mem
        obtain ⟨d, lt, rfl⟩ := Radio.Ts590.mem_decimal among
        have each : ∀ d < 10, (Char.ofNat (d + 48).toUInt8.toNat).isDigit = true ∧
            Char.ofNat (d + 48).toUInt8.toNat ≠ '.' := by decide
        exact each d lt
      set fraction := (digits.reverse.dropWhile (· == '0')).reverse with stripped
      have among : ∀ c ∈ fraction, c ∈ digits := by
        intro c mem
        exact List.mem_reverse.mp ((List.dropWhile_sublist _).mem (List.mem_reverse.mp mem))
      have bounded : fraction.length ≤ 6 := by
        rw [← width, stripped, List.length_reverse]
        exact length_stripped digits
      have padded : fraction ++ List.replicate (6 - fraction.length) '0' = digits := by
        have whole := pad_stripped '0' digits
        rwa [width] at whole
      have value : Radio.Ts590.decimalValue (digits.map (·.toNat - 48)) = power.relativeMillionths := by
        have same : digits.map (·.toNat - 48) = Radio.Ts590.paddedDigits 6 power.relativeMillionths := by
          rw [six, decimal, List.map_map, List.map_map]
          refine (List.map_congr_left fun d mem => ?_).trans (List.map_id _)
          exact (Radio.Ts590.digit_char d (Radio.Ts590.lt_ten_of_mem_paddedDigits mem)).2.2.2.1
        rw [same, Radio.Ts590.decimalValue_paddedDigits]
      have point : splitOnce '.' (['0', '.'] ++ fraction) = some (['0'], fraction) := by
        rw [splitOnce, if_pos (by simp)]
        rfl
      have digitsOnly : fraction.all (·.isDigit) = true :=
        List.all_eq_true.mpr (fun c mem => (digit c (among c mem)).1)
      rw [TxPower.parseRelativeMillionths, trim_token token, point]
      simp only [Option.getD_some, if_true, digitsOnly, Bool.not_true, Bool.or_false, padded, value]
      rw [if_neg (by simpa using bounded)]

/-- A reading as a client of the endpoint takes it: the maximum is inferred. -/
def relayedPower (power : TxPower) : Option TxPower :=
  TxPower.fromRelativeMillionths power.relativeMillionths power.milliwatts

/-! ## The poll -/

/-- What is learned of the VFO that transmits in split: its frequency, if it has one, and its mode if that is
known.  DATA is learned where the mode has a data token, and lost where it has none. -/
def projectedDetails (s : Snapshot) : List StateChange :=
  let target := s.vfo s.txVfo
  (if target.freqHz = 0 then [] else [.freq s.txVfo target.freqHz]) ++
    (if target.modeKnown then
      [.mode s.txVfo target.mode.spoken, .dataMode s.txVfo (target.data && target.mode.packable)]
    else [])

/-- What is learned of the mode of the operating VFO: nothing in DATA, where the mode has a data token. -/
def projectedMode (v : VfoSnapshot) : Mode :=
  if v.data && v.mode.packable then .unknown else v.mode.spoken

/-- What a poll of an endpoint records, in the values of the hub behind it.  Its operating VFO becomes VFO A
of the bridge, without its DATA flag. -/
def projected (ctx : Context) (s : Snapshot) : List StateChange :=
  let operating := s.vfo s.rxVfo
  let split := presentedSplit ctx s
  let transmit := if ctx.singleVfo then .a else if split then s.txVfo else s.rxVfo
  [.freq .a operating.freqHz, .mode .a (projectedMode operating), .split split (some transmit)] ++
    (if split then projectedDetails s else []) ++ [.txPower (s.txPower.bind relayedPower)]

theorem fromHamlibToken_modeToken (v : VfoSnapshot) :
    Mode.fromHamlibToken (modeToken v) = projectedMode v :=
  Mode.fromHamlibToken_hamlibTokenWithData v.mode v.data

/-- The numbers of a snapshot fit the words that the code keeps them in. -/
structure Worded (s : Snapshot) : Prop where
  freq : ∀ v, (s.vfo v).freqHz < 2 ^ 64
  power : ∀ power ∈ s.txPower,
    power.relativeMillionths ≤ TxPower.relativeScale ∧ power.milliwatts < 2 ^ 32

section
variable {ctx : Context} {radio : OpKind → World → Except BackendError (List UInt8) × World}

theorem plain_head {c : Char} {cmd : List Char} (other : c ∉ ['+', ';', '|', ',']) :
    ∀ d ∈ (c :: cmd).head?, d ∉ ['+', ';', '|', ','] := by
  intro d first
  obtain rfl : c = d := Option.some.inj first
  exact other

theorem commands_poll :
    Commands Rigctld.pollGetFreq ['f'] [] ∧ Commands Rigctld.pollGetMode ['m'] [] ∧
      Commands Rigctld.pollGetSplit ['s'] [] ∧ Commands Rigctld.pollGetSplitFreq ['i'] [] ∧
      Commands Rigctld.pollGetSplitMode ['x'] [] ∧
      Commands Rigctld.pollGetRfpower ['l'] [['R', 'F', 'P', 'O', 'W', 'E', 'R']] := by
  have each : ∀ {bytes c args}, bytes = ascii (commandLine ([c] :: args)) ++ [Rigctld.newline] →
      (∀ word ∈ [c] :: args, Token word) → c ∉ ['+', ';', '|', ','] →
      (commandLine ([c] :: args)).length ≤ maxLineLen → Commands bytes [c] args :=
    fun form tokens other short => ⟨⟨form, tokens, plain_head other⟩, short⟩
  refine ⟨each rfl ?_ ?_ ?_, each rfl ?_ ?_ ?_, each rfl ?_ ?_ ?_, each rfl ?_ ?_ ?_, each rfl ?_ ?_ ?_,
    each rfl ?_ ?_ ?_⟩ <;> decide

theorem spelled_power {relative token : List Char} (hz : Nat) (level : Token relative)
    (mode : Token token) :
    Spelled (Rigctld.power2mWCommand relative hz token) ['2'] [relative, number hz, token] where
  form := by
    rw [Rigctld.power2mWCommand, ← ascii_number]
    simp [ascii, commandLine, List.intercalate, Rigctld.newline]
  tokens := by
    simp [level, token_number, mode]
    decide
  plain := plain_head (by decide)

theorem commands_power {relative token : List Char} {hz : Nat} (level : Token relative)
    (short : relative.length ≤ 100) (word : hz < 2 ^ 64) (mode : Token token)
    (short' : token.length ≤ 100) :
    Commands (Rigctld.power2mWCommand relative hz token) ['2'] [relative, number hz, token] where
  toSpelled := spelled_power hz level mode
  short := by
    have digits := length_number word
    simp [commandLine, List.intercalate, maxLineLen]
    omega

section
variable {h : StateHandle} {w : World}

theorem exec_submit {bytes reply : List UInt8} (expect : Expect)
    (answers : upstream ctx radio bytes w = (.ok reply, w)) :
    (BackendCall.submit bytes expect).run.exec (behind (upstream ctx radio)) (h, w) =
      (.ok reply, (h, w)) := by
  show ((upstream ctx radio bytes w).1, (h, (upstream ctx radio bytes w).2)) = _
  rw [answers]

theorem guardRead_allowed (read : ctx.perms.read = true) (answer : List UInt8) :
    guardRead ctx answer = answer := if_pos read

theorem lines_ne_nil (text : List Char) (texts : List (List Char)) : lines (text :: texts) ≠ [] := by
  rw [lines_cons]
  simp

/-- A number that fits is read under any limit above it. -/
theorem parseUnsigned_limit {limit limit' n : Nat} {text : List Char}
    (parsed : parseUnsigned limit text = some n) (fits : n < limit') :
    parseUnsigned limit' text = some n := by
  unfold parseUnsigned at parsed ⊢
  dsimp only at parsed ⊢
  split_ifs at parsed with bad small
  obtain rfl := Option.some.inj parsed
  rw [if_neg bad, if_pos fits]

theorem parseUnsigned_number {limit n : Nat} (word : n < 2 ^ 64) (fits : n < limit) :
    parseUnsigned limit (number n) = some n := by
  have plain := plain_number n
  have decoded : Radio.Ts590.fromUtf8 (ascii (number n)) = some (number n) :=
    fromUtf8_ascii_text (fun c mem => (plain.2 c mem).1)
  have parsed := parse_firstLine [] word
  rw [firstLine_lines [] plain, parseU64_eq, decoded, Option.bind_some, trim_token (token_number n)] at parsed
  exact parseUnsigned_limit parsed fits

/-- A converted level is told back. -/
theorem convertedPower_number {level milliwatts : Nat} (word : milliwatts < 2 ^ 32) :
    Rigctld.convertedPower level (lines [number milliwatts]) =
      TxPower.fromRelativeMillionths level milliwatts := by
  rw [Rigctld.convertedPower, data_no_status [] (token_number milliwatts),
    text_firstLine [] (plain_number milliwatts), trim_token (token_number milliwatts),
    parseUnsigned_number (word.trans (by decide)) word]
  rfl

theorem exec_power (read : ctx.perms.read = true) (worded : Worded w.state.snapshot)
    (known : ∀ v, (h.snapshot.vfo v).freqHz < 2 ^ 64) :
    Rigctld.pollTxPower.run.exec (behind (upstream ctx radio)) (h, w) =
      (.ok (), (h.record (.txPower (w.state.snapshot.txPower.bind relayedPower)) .pollDiff, w)) := by
  have commands := commands_poll.2.2.2.2.2
  have named : Command.parse ['l'] = some .getLevel := by decide
  have asked : eqIgnoreAsciiCase ['R', 'F', 'P', 'O', 'W', 'E', 'R'] ['R', 'F', 'P', 'O', 'W', 'E', 'R'] =
      true := by decide
  rw [Rigctld.pollTxPower, ExceptT.run_bind, Program.exec_bind]
  cases power : w.state.snapshot.txPower with
  | none =>
      have answers : upstream ctx radio Rigctld.pollGetRfpower w = (.ok rprtEnavail, w) := by
        refine upstream_read commands named (by decide) ?_
        simp [readReply, guardRead_allowed read, asked, power]
      rw [exec_submit _ answers]
      have silent : TxPower.parseRelativeMillionths
          (trim (Rigctld.text (Rigctld.firstLine rprtEnavail))) = none := by decide
      dsimp only
      rw [silent]
      rfl
  | some reading =>
      obtain ⟨level, word⟩ := worded.power reading power
      have token := token_relativeDecimal reading
      have answers : upstream ctx radio Rigctld.pollGetRfpower w = (.ok (lines [reading.relativeDecimal]), w) := by
        refine upstream_read commands named (lines_ne_nil _ _) ?_
        simp [readReply, guardRead_allowed read, asked, power]
      rw [exec_submit _ answers]
      dsimp only
      rw [text_firstLine [] (plain_of_token token), trim_token token, parse_relativeDecimal level]
      dsimp only
      rw [ExceptT.run_bind, Program.exec_bind, show BackendCall.snapshot.run.exec (behind (upstream ctx radio))
        (h, w) = (.ok h.snapshot, (h, w)) from rfl]
      dsimp only
      set tx := h.snapshot.vfo (if h.snapshot.split then h.snapshot.txVfo else h.snapshot.rxVfo)
      have converting : Command.parse ['2'] = some .power2mW := by decide
      have converts : upstream ctx radio (Rigctld.power2mWCommand reading.relativeDecimal tx.freqHz
          (tx.mode.hamlibTokenWithData tx.data)) w = (.ok (lines [number reading.milliwatts]), w) := by
        refine upstream_read (commands_power token (length_relativeDecimal level) (known _)
          (token_modeToken tx) (length_modeToken tx)) converting (lines_ne_nil _ _) ?_
        have back : reading.milliwattsForRelative reading.relativeMillionths = some reading.milliwatts := by
          rw [TxPower.milliwattsForRelative, if_neg (Nat.not_lt.mpr level), if_pos rfl]
        simp [readReply, guardRead_allowed read, power, parse_relativeDecimal level, back]
      rw [ExceptT.run_bind, Program.exec_bind, exec_submit _ converts]
      dsimp only
      rw [convertedPower_number word]
      rfl

theorem exec_recordRead {α : Type} (value : Option α) (change : α → StateChange) (h : StateHandle) (w : World) :
    (Rigctld.recordRead value change).run.exec (behind (upstream ctx radio)) (h, w) =
      (.ok (), (recordAll h (value.map change).toList .pollDiff, w)) := by
  cases value <;> rfl

theorem exec_record (change : StateChange) (source : RadioEventSource) (h : StateHandle) (w : World) :
    (BackendCall.record change source).run.exec (behind (upstream ctx radio)) (h, w) =
      (.ok (), (h.record change source, w)) := rfl

theorem splitReply_lines (split : Bool) (vfo : Vfo) :
    Rigctld.splitReply (lines [flag split, vfoName vfo]) = (split, vfo) := by
  cases split <;> cases vfo <;> decide

theorem spoken_known (mode : Mode) : mode.spoken ≠ .unknown := by cases mode <;> decide

theorem decompose_modeToken (v : VfoSnapshot) :
    Mode.decomposeHamlibToken (modeToken v) = (v.mode.spoken, v.data && v.mode.packable) :=
  Mode.decompose_spoken v.mode v.data

theorem exec_details (read : ctx.perms.read = true) (dual : ctx.singleVfo = false)
    (worded : Worded w.state.snapshot) :
    (Rigctld.pollSplitDetails w.state.snapshot.txVfo).run.exec (behind (upstream ctx radio)) (h, w) =
      (.ok (), (recordAll h (projectedDetails w.state.snapshot) .pollDiff, w)) := by
  obtain ⟨-, -, -, asksFreq, asksMode, -⟩ := commands_poll
  set s := w.state.snapshot with here
  set target := s.vfo s.txVfo with transmits
  have token := token_modeToken target
  have freq : upstream ctx radio Rigctld.pollGetSplitFreq w =
      (.ok (if target.freqHz = 0 then rprtEnavail else lines [number target.freqHz]), w) := by
    refine upstream_read asksFreq (by decide : Command.parse ['i'] = some .getSplitFreq) ?_ ?_
    · split
      · decide
      · exact lines_ne_nil _ _
    · simp [readReply, guardRead_allowed read, dual, ← here, ← transmits]
  have mode : upstream ctx radio Rigctld.pollGetSplitMode w =
      (.ok (if target.modeKnown = false then rprtEnavail
        else lines [modeToken target, number target.passbandHz]), w) := by
    refine upstream_read asksMode (by decide : Command.parse ['x'] = some .getSplitMode) ?_ ?_
    · split
      · decide
      · exact lines_ne_nil _ _
    · simp [readReply, guardRead_allowed read, dual, ← here, ← transmits]
  have enavail : Rigctld.isRprtError rprtEnavail = true := by decide
  rw [Rigctld.pollSplitDetails, ExceptT.run_bind, Program.exec_bind, exec_submit _ freq]
  dsimp only
  rw [ExceptT.run_bind, Program.exec_bind, exec_recordRead]
  dsimp only
  rw [ExceptT.run_bind, Program.exec_bind, exec_submit _ mode]
  dsimp only
  rw [exec_recordAll_behind]
  have toldFreq : ∀ reply, reply = (if target.freqHz = 0 then rprtEnavail else lines [number target.freqHz]) →
      (if Rigctld.isRprtError reply then none else Radio.Ts590.parseU64 (Rigctld.firstLine reply)) =
        if target.freqHz = 0 then none else some target.freqHz := by
    rintro reply rfl
    have word : target.freqHz < 2 ^ 64 := worded.freq s.txVfo
    by_cases zero : target.freqHz = 0
    · rw [if_pos zero, if_pos zero, enavail, if_pos rfl]
    · rw [if_neg zero, if_neg zero, data_no_status [] (token_number target.freqHz), parse_firstLine [] word]
      rfl
  have toldMode : ∀ reply, reply = (if target.modeKnown = false then rprtEnavail
        else lines [modeToken target, number target.passbandHz]) →
      (if Rigctld.isRprtError reply then [] else Rigctld.splitModeChanges s.txVfo reply) =
        if target.modeKnown then
          [.mode s.txVfo target.mode.spoken, .dataMode s.txVfo (target.data && target.mode.packable)]
        else [] := by
    rintro reply rfl
    cases target.modeKnown with
    | false => rw [if_pos rfl, enavail]; rfl
    | true =>
        rw [if_neg (show ¬ (true = false) by decide), data_no_status _ token, Rigctld.splitModeChanges,
          text_firstLine _ (plain_of_token token), decompose_modeToken]
        exact if_neg (spoken_known target.mode)
  rw [toldFreq _ rfl, toldMode _ rfl, projectedDetails, recordAll, recordAll, recordAll, List.foldl_append]
  by_cases zero : target.freqHz = 0
  · rw [if_pos zero, if_pos zero]
    rfl
  · rw [if_neg zero, if_neg zero]
    rfl

/-- The frequencies fit the words that the code keeps them in. -/
def Bounded (h : StateHandle) : Prop := ∀ v, (h.snapshot.vfo v).freqHz < 2 ^ 64

theorem bounded_record {h : StateHandle} {change : StateChange} {source : RadioEventSource}
    (bounded : Bounded h) (word : ∀ v hz, change = .freq v hz → hz < 2 ^ 64) :
    Bounded (h.record change source) := by
  intro v
  have same := bounded v
  cases change with
  | freq w hz =>
      have told := word w hz rfl
      cases v <;> cases w <;> first | exact told | exact same
  | mode w | dataMode w => cases v <;> cases w <;> exact same
  | _ => cases v <;> exact same

/-- **A poll of another hub.**  The poll of the bridge at an endpoint that may read succeeds, leaves the hub
behind the endpoint alone, and records of it just what `projected` says, whatever was known before: its
operating frequency and mode, its split and transmit VFO as they are presented, and its power at the level
at which it was observed.  DATA on the operating VFO is not learned, and hides the mode. -/
theorem chained_poll (read : ctx.perms.read = true) (worded : Worded w.state.snapshot)
    (known : Bounded h) :
    Rigctld.poll.run.exec (behind (upstream ctx radio)) (h, w) =
      (.ok (), (recordAll h (projected ctx w.state.snapshot) .pollDiff, w)) := by
  obtain ⟨asksFreq, asksMode, asksSplit, -⟩ := commands_poll
  set s := w.state.snapshot with here
  set operating := s.vfo s.rxVfo with operates
  set split := presentedSplit ctx s with splits
  have token := token_modeToken operating
  have freq : upstream ctx radio Rigctld.pollGetFreq w = (.ok (lines [number operating.freqHz]), w) := by
    refine upstream_read asksFreq (by decide : Command.parse ['f'] = some .getFreq) (lines_ne_nil _ _) ?_
    rw [readReply, guardRead_allowed read]
  have mode : upstream ctx radio Rigctld.pollGetMode w =
      (.ok (lines [modeToken operating, number operating.passbandHz]), w) := by
    refine upstream_read asksMode (by decide : Command.parse ['m'] = some .getMode) (lines_ne_nil _ _) ?_
    rw [readReply, guardRead_allowed read]
  have splitVfo : upstream ctx radio Rigctld.pollGetSplit w =
      (.ok (lines [flag split, presentedVfoName ctx (if split then s.txVfo else s.rxVfo)]), w) := by
    refine upstream_read asksSplit (by decide : Command.parse ['s'] = some .getSplitVfo) (lines_ne_nil _ _) ?_
    rw [readReply, guardRead_allowed read]
  rw [Rigctld.poll, ExceptT.run_bind, Program.exec_bind, exec_submit _ freq]
  dsimp only
  rw [parse_firstLine [] (worded.freq s.rxVfo : operating.freqHz < 2 ^ 64), ExceptT.run_bind,
    Program.exec_bind, exec_recordRead]
  dsimp only
  rw [ExceptT.run_bind, Program.exec_bind, exec_submit _ mode]
  dsimp only
  rw [text_firstLine _ (plain_of_token token), fromHamlibToken_modeToken, ExceptT.run_bind,
    Program.exec_bind, exec_record]
  dsimp only
  rw [ExceptT.run_bind, Program.exec_bind, exec_submit _ splitVfo]
  dsimp only
  set transmit : Vfo := if ctx.singleVfo then .a else if split then s.txVfo else s.rxVfo with transmits
  have named : presentedVfoName ctx (if split then s.txVfo else s.rxVfo) = vfoName transmit := by
    rw [transmits, presentedVfoName]
    split <;> rfl
  rw [named, splitReply_lines, ExceptT.run_bind, Program.exec_bind, exec_record]
  dsimp only
  set polled := recordAll h [.freq .a operating.freqHz,
    .mode .a (projectedMode operating), .split split (some transmit)] .pollDiff with start
  have bounded : Bounded polled := by
    refine Radio.Ts590.recordAll_keeps bounded_record known ?_
    simp only [List.forall_mem_cons]
    refine ⟨?_, ?_, ?_, by simp⟩
    · rintro v hz ⟨⟩
      exact worded.freq s.rxVfo
    · rintro v hz ⟨⟩
    · rintro v hz ⟨⟩
  have record : ∀ changes, recordAll polled changes .pollDiff = recordAll h ([.freq .a operating.freqHz,
      .mode .a (projectedMode operating), .split split (some transmit)] ++ changes)
        .pollDiff := by
    intro changes
    rw [start, recordAll, recordAll, recordAll, List.foldl_append]
  have goal : projected ctx s = [.freq .a operating.freqHz,
      .mode .a (projectedMode operating), .split split (some transmit)] ++
        ((if split then projectedDetails s else []) ++ [.txPower (s.txPower.bind relayedPower)]) := rfl
  have power := fun h : StateHandle => @exec_power ctx radio h w read worded
  have rest : (if split = true then do Rigctld.pollSplitDetails transmit; Rigctld.pollTxPower
      else Rigctld.pollTxPower : BackendCall Unit).run.exec (behind (upstream ctx radio)) (polled, w) =
        (.ok (), (recordAll polled ((if split then projectedDetails s else []) ++
          [.txPower (s.txPower.bind relayedPower)]) .pollDiff, w)) := by
    by_cases on : split = true
    · have both : ctx.singleVfo = false ∧ s.split = true := by simpa [splits, presentedSplit] using on
      have target : transmit = s.txVfo := by simp [transmits, both.1, on]
      rw [if_pos on, if_pos on, target, ExceptT.run_bind, Program.exec_bind,
        exec_details read both.1 worded]
      dsimp only
      rw [power _ ?_, recordAll, recordAll, List.foldl_append]
      · rfl
      · refine Radio.Ts590.recordAll_keeps bounded_record bounded ?_
        rintro change mem v hz rfl
        have told : hz = (s.vfo s.txVfo).freqHz := by
          rcases List.mem_append.mp mem with freq | mode
          · split at freq
            · cases freq
            · cases List.mem_singleton.mp freq
              rfl
          · split at mode <;> simp at mode
        rw [told]
        exact worded.freq s.txVfo
    · rw [if_neg on, if_neg on, power polled bounded]
      rfl
  rw [goal, ← record]
  exact rest

end

end

/-! ## Writes -/

section
variable {ctx : Context} {radio : OpKind → World → Except BackendError (List UInt8) × World}
  {h : StateHandle} {w : World}

/-- The session does what the write does, and replies whether it succeeded. -/
def Reports (radio : OpKind → World → Except BackendError (List UInt8) × World)
    (session : Session (List UInt8)) (write : Session ApplyOutcome) : Prop :=
  ∀ w, (session.exec (answerAlone radio) w).2 = (write.exec (answerAlone radio) w).2 ∧
    ((session.exec (answerAlone radio) w).1 = rprtOk ↔ (write.exec (answerAlone radio) w).1 = .ok)

theorem commands_setMode {token : List Char} (word : Token token) (short : token.length ≤ 100) :
    Commands (Rigctld.setModeCommand token) ['M'] [token, ['0']] where
  form := by simp [Rigctld.setModeCommand, ascii, commandLine, List.intercalate, Rigctld.newline]
  tokens := by
    simp [word]
    decide
  plain := plain_head (by decide)
  short := by
    simp [commandLine, List.intercalate, maxLineLen]
    omega

theorem spelled_setFreq (hz : Nat) : Spelled (Rigctld.setFreqCommand hz) ['F'] [number hz] where
  form := by
    rw [Rigctld.setFreqCommand, ← ascii_number]
    simp [ascii, commandLine, List.intercalate]
  tokens := by
    simp [token_number]
    decide
  plain := plain_head (by decide)

theorem commands_setSplit (enabled : Bool) (vfo : Vfo) :
    Commands (Rigctld.setSplitCommand enabled vfo) ['S'] [flag enabled, vfoName vfo] := by
  cases enabled <;> cases vfo <;> exact ⟨⟨rfl, by decide, plain_head (by decide)⟩, by decide⟩

/-- The digit that a key request carries. -/
def keyDigit (keyed : Bool) (source : PttSource) : List Char :=
  if keyed then
    match source with
    | .generic => ['1']
    | .mic => ['2']
    | .data => ['3']
  else ['0']

theorem commands_setPtt (keyed : Bool) (source : PttSource) :
    Commands (Rigctld.setPttCommand keyed source) ['T'] [keyDigit keyed source] := by
  cases keyed <;> cases source <;> exact ⟨⟨rfl, by decide, plain_head (by decide)⟩, by decide⟩

end

/-! ## The lines that the bridge waits for -/

/-- Handling what is asked, an endpoint answers with as many lines as the bridge waits for, or ends with a
status. -/
def Understood (ctx : Context) : LinkQuestion → Prop
  | .submit bytes expect => ∃ line n, bytes = line ++ [Rigctld.newline] ∧ Rigctld.newline ∉ line ∧
      expect = .lines n ∧ (handle line ctx).Meets (fun _ => True) (fun _ _ => True)
        (fun result => ∃ reply, result = .reply reply ∧ reply ≠ [] ∧ Sized n reply)
  | _ => True

section
variable {ctx : Context}

theorem ne_nil_of_sized {n : Nat} {reply : List UInt8} (some_ : 0 < n) (sized : Sized n reply) :
    reply ≠ [] := by
  obtain ⟨texts, rfl, -, complete⟩ := sized
  cases texts with
  | nil =>
      rcases complete.ends with none_ | ⟨line, last, -⟩
      · exact absurd none_ (Nat.ne_of_lt some_)
      · cases last
  | cons text texts => exact lines_ne_nil text texts

theorem understood {bytes : List UInt8} {cmd : List Char} {args : List (List Char)} {command : Command}
    {n : Nat} (spelled : Spelled bytes cmd args) (named : Command.parse cmd = some command)
    (other : command ≠ .dumpState) (some_ : 0 < n) (counts : command.answerLines ctx = n) :
    (BackendCall.submit bytes (.lines n)).run.Asks (Understood ctx) := by
  refine ⟨⟨_, n, spelled.form, spelled.closed, rfl, ?_⟩, fun _ => trivial⟩
  rw [spelled.handled, dispatchPlain, Session.snapshot_bind]
  refine ⟨trivial, fun snapshot _ => ?_⟩
  beta_reduce
  rw [if_neg (Command.not_quit named), named]
  dsimp only
  split
  · rename_i reply read
    have sized := sized_readReply (fun same => absurd same other) read
    rw [counts] at sized
    exact ⟨reply, rfl, ne_nil_of_sized some_ sized, sized⟩
  · refine (status_set command).bind (fun reply status => ?_)
    have sized := sized_status some_ status
    exact ⟨reply, rfl, ne_nil_of_sized some_ sized, sized⟩

theorem trim_trim (text : List Char) : trim (trim text) = trim text := by
  set inner := text.dropWhile isWhitespace with cut
  set tail := inner.reverse.dropWhile isWhitespace with cut'
  have form : trim text = tail.reverse := rfl
  have front : tail.reverse.dropWhile isWhitespace = tail.reverse := by
    cases here : tail.reverse with
    | nil => rfl
    | cons c rest =>
        obtain ⟨more, whole⟩ : tail.reverse <+: inner := by
          rw [← List.reverse_suffix, List.reverse_reverse]
          exact List.dropWhile_suffix _
        rw [here, List.cons_append] at whole
        have first := List.head?_dropWhile_not isWhitespace text
        rw [← cut, ← whole, List.head?_cons] at first
        exact List.dropWhile_cons_of_neg (by simp [first])
  rw [form, trim, front, List.reverse_reverse, cut', List.dropWhile_idempotent]

theorem splitOnce_parts {c : Char} {text front back : List Char}
    (parts : (splitOnce c text).getD (text, []) = (front, back)) :
    text = front ++ c :: back ∨ text = front ∧ back = [] := by
  rw [splitOnce] at parts
  split at parts
  · rename_i mem
    obtain ⟨rfl, rfl⟩ := Prod.mk.inj parts
    refine .inl ?_
    cases rest : text.dropWhile (· != c) with
    | nil =>
        have all := List.dropWhile_eq_nil_iff.mp rest c mem
        simp at all
    | cons d more =>
        have stops := List.head?_dropWhile_not (· != c) text
        rw [rest, List.head?_cons] at stops
        obtain rfl : d = c := by simpa using stops
        rw [List.drop_one, List.tail_cons, ← rest, List.takeWhile_append_dropWhile]
  · obtain ⟨rfl, rfl⟩ := Prod.mk.inj parts
    exact .inr ⟨rfl, rfl⟩

theorem figure_visible {c : Char} (figure : c.isDigit = true) : c.toNat < 0x80 ∧ isWhitespace c = false := by
  simp only [Char.isDigit, ge_iff_le, Bool.and_eq_true, decide_eq_true_eq, UInt32.le_iff_toNat_le] at figure
  obtain ⟨low, high⟩ : 48 ≤ c.toNat ∧ c.toNat ≤ 57 := figure
  refine ⟨by omega, ?_⟩
  simp only [isWhitespace, Bool.or_eq_false_iff, Bool.and_eq_false_iff, decide_eq_false_iff_not,
    beq_eq_false_iff_ne]
  omega

/-- What is read as a relative level is a word. -/
theorem token_of_level {text : List Char} {level : Nat}
    (read : TxPower.parseRelativeMillionths (trim text) = some level) : Token (trim text) := by
  rw [TxPower.parseRelativeMillionths, trim_trim] at read
  dsimp only at read
  obtain ⟨⟨whole, fraction⟩, parts⟩ :
      ∃ parts, (splitOnce '.' (trim text)).getD (trim text, []) = parts := ⟨_, rfl⟩
  rw [parts] at read
  dsimp only at read
  have visible : ∀ c ∈ ['0', '1', '.'], c.toNat < 0x80 ∧ isWhitespace c = false := each_of_all (by decide)
  have halves : (whole = ['0'] ∨ whole = ['1']) ∧
      ∀ c ∈ fraction, c.toNat < 0x80 ∧ isWhitespace c = false := by
    split_ifs at read with zero bad one
    · have fine : fraction.length ≤ 6 ∧ ∀ c ∈ fraction, c.isDigit = true := by simpa using bad
      exact ⟨.inl zero, fun c mem => figure_visible (fine.2 c mem)⟩
    · refine ⟨.inr one.1, fun c mem => ?_⟩
      obtain rfl := beq_iff_eq.mp (List.all_eq_true.mp one.2 c mem)
      exact visible _ (by decide)
  obtain ⟨front, back⟩ := halves
  have some_ : whole ≠ [] ∧ ∀ c ∈ whole, c.toNat < 0x80 ∧ isWhitespace c = false := by
    rcases front with rfl | rfl
    · exact ⟨by simp, fun c mem => visible c (List.mem_cons.mpr (.inl (List.mem_singleton.mp mem)))⟩
    · exact ⟨by simp, fun c mem => visible c (by simp [List.mem_singleton.mp mem])⟩
  rcases splitOnce_parts parts with text | ⟨text, -⟩
  · rw [text]
    refine ⟨by simp, fun c mem => ?_⟩
    rcases List.mem_append.mp mem with here | later
    · exact some_.2 c here
    · rcases List.mem_cons.mp later with rfl | later
      · exact visible _ (by decide)
      · exact back c later
  · rw [text]
    exact some_

theorem asks_recordRead {α : Type} (read : Option α) (change : α → StateChange) :
    (Rigctld.recordRead read change).run.Asks (Understood ctx) := by
  cases read with
  | none => trivial
  | some value => exact ⟨trivial, fun _ => trivial⟩

theorem asks_checkRprt (reply : List UInt8) : (Rigctld.checkRprt reply).run.Asks (Understood ctx) := by
  unfold Rigctld.checkRprt
  dsimp only
  split
  · split <;> trivial
  · trivial

theorem asks_pollTxPower : Rigctld.pollTxPower.run.Asks (Understood ctx) := by
  obtain ⟨-, -, -, -, -, power⟩ := commands_poll
  refine Program.Asks.bindExcept (understood power.toSpelled (by decide : Command.parse ['l'] = some .getLevel)
    (by decide) Nat.one_pos rfl) (fun reply => ?_)
  dsimp only
  split
  · exact ⟨trivial, fun _ => trivial⟩
  · rename_i level read
    refine ⟨trivial, fun snapshot => ?_⟩
    have spelled := spelled_power (snapshot.vfo (if snapshot.split then snapshot.txVfo else snapshot.rxVfo)).freqHz
      (token_of_level read)
      (token_modeToken (snapshot.vfo (if snapshot.split then snapshot.txVfo else snapshot.rxVfo)))
    exact Program.Asks.bindExcept (understood spelled (by decide : Command.parse ['2'] = some .power2mW)
      (by decide) Nat.one_pos rfl) (fun _ => ⟨trivial, fun _ => trivial⟩)

theorem asks_pollSplitDetails (vfo : Vfo) : (Rigctld.pollSplitDetails vfo).run.Asks (Understood ctx) := by
  obtain ⟨-, -, -, freq, mode, -⟩ := commands_poll
  refine Program.Asks.bindExcept (understood freq.toSpelled
    (by decide : Command.parse ['i'] = some .getSplitFreq) (by decide) Nat.one_pos rfl) (fun _ => ?_)
  refine Program.Asks.bindExcept (asks_recordRead _ _) (fun _ => ?_)
  exact Program.Asks.bindExcept (understood mode.toSpelled
    (by decide : Command.parse ['x'] = some .getSplitMode) (by decide) Nat.two_pos rfl)
    (fun _ => asks_recordAll_of (fun _ _ => trivial))

theorem asks_bridge_poll : Rigctld.poll.run.Asks (Understood ctx) := by
  obtain ⟨freq, mode, split, -⟩ := commands_poll
  refine Program.Asks.bindExcept (understood freq.toSpelled
    (by decide : Command.parse ['f'] = some .getFreq) (by decide) Nat.one_pos rfl) (fun _ => ?_)
  refine Program.Asks.bindExcept (asks_recordRead _ _) (fun _ => ?_)
  refine Program.Asks.bindExcept (understood mode.toSpelled
    (by decide : Command.parse ['m'] = some .getMode) (by decide) Nat.two_pos rfl) (fun _ => ?_)
  refine ⟨trivial, fun _ => ?_⟩
  refine Program.Asks.bindExcept (understood split.toSpelled
    (by decide : Command.parse ['s'] = some .getSplitVfo) (by decide) Nat.two_pos rfl) (fun _ => ?_)
  refine ⟨trivial, fun _ => ?_⟩
  beta_reduce
  split
  · exact Program.Asks.bindExcept (asks_pollSplitDetails _) (fun _ => asks_pollTxPower)
  · exact asks_pollTxPower

theorem asks_applyCommand {bytes : List UInt8} {cmd : List Char} {args : List (List Char)} {command : Command}
    (mutation : StateMutation) (spelled : Spelled bytes cmd args) (named : Command.parse cmd = some command)
    (other : command ≠ .dumpState) (counts : command.answerLines ctx = 1) :
    (Rigctld.applyCommand bytes mutation).run.Asks (Understood ctx) := by
  refine Program.Asks.bindExcept (understood spelled named other Nat.one_pos counts) (fun reply => ?_)
  exact Program.Asks.bindExcept (asks_checkRprt reply) (fun _ => ⟨trivial, fun _ => trivial⟩)

theorem asks_bridge_apply (mutation : StateMutation) :
    (Rigctld.apply mutation).run.Asks (Understood ctx) := by
  cases mutation with
  | setVfoFreq v hz =>
      exact asks_applyCommand _ (spelled_setFreq hz) (by decide : Command.parse ['F'] = some .setFreq)
        (by decide) rfl
  | setMode v mode =>
      let target : VfoSnapshot := { mode, data := false }
      exact asks_applyCommand _ (commands_setMode (token_modeToken target) (length_modeToken target)).toSpelled
        (by decide : Command.parse ['M'] = some .setMode) (by decide) rfl
  | setDataMode v on =>
      refine ⟨trivial, fun snapshot => ?_⟩
      let target : VfoSnapshot := { mode := (snapshot.vfo v).mode, data := on }
      exact asks_applyCommand _ (commands_setMode (token_modeToken target) (length_modeToken target)).toSpelled
        (by decide : Command.parse ['M'] = some .setMode) (by decide) rfl
  | setSplit enabled txVfo =>
      exact asks_applyCommand _ (commands_setSplit enabled (txVfo.getD .b)).toSpelled
        (by decide : Command.parse ['S'] = some .setSplitVfo) (by decide) rfl
  | setPtt keyed source =>
      exact asks_applyCommand _ (commands_setPtt keyed source).toSpelled
        (by decide : Command.parse ['T'] = some .setPtt) (by decide) rfl
  | setRxVfo | setRit | setXit => trivial

/-- **The bridge and the endpoint count alike.**  Whatever it does, and whatever it was answered before, the
bridge asks in single lines of the plain form and waits for a number of lines; and whatever becomes of such
a line at an endpoint that handles it, it is answered with just so many lines, or with fewer that end with
a status.  A line can be too long to be handled, where the level that it quotes has thousands of zeros. -/
theorem bridge_counts (kind : OpKind) : (Radio.execute rigctldBackend kind).run.Asks (Understood ctx) := by
  cases kind with
  | poll => exact Program.Asks.bindExcept asks_bridge_poll (fun _ => trivial)
  | apply mutation => exact Program.Asks.bindExcept (asks_bridge_apply mutation) (fun _ => trivial)
  | passthrough => trivial

end

/-! ## Two hubs -/

/-- A radio that does whatever it is told and changes nothing. -/
def obliging (_ : OpKind) (w : World) : Except BackendError (List UInt8) × World := (.ok [], w)

/-- A hub in split at half of its power. -/
def splitHub : World where
  state := {
    snapshot := {
      a := ⟨14195000, .usb, true, false, 2400⟩
      b := ⟨14200000, .usb, true, false, 2400⟩
      txVfo := .b
      split := true
      txPower := some ⟨500000, 50000, none⟩ } }
  ptt := { maxTx := 0 }
  ai := false
  clock := 0

theorem chained_poll_split :
    Rigctld.poll.run.exec (behind (upstream looking obliging)) ({}, splitHub) =
      (.ok (), (recordAll {} [.freq .a 14195000, .mode .a .usb, .split true (some .b), .freq .b 14200000,
        .mode .b .usb, .dataMode .b false, .txPower (some ⟨500000, 50000, some 100000⟩)] .pollDiff,
        splitHub)) := by
  have worded : Worded splitHub.state.snapshot := by
    refine ⟨?_, by decide⟩
    intro v
    cases v <;> decide
  have known : Bounded {} := by
    intro v
    cases v <;> decide
  have told : projected looking splitHub.state.snapshot = [.freq .a 14195000, .mode .a .usb,
      .split true (some .b), .freq .b 14200000, .mode .b .usb, .dataMode .b false,
      .txPower (some ⟨500000, 50000, some 100000⟩)] := by decide
  rw [← told]
  exact chained_poll rfl worded known

end CatHub.Dialect.HamlibNet
