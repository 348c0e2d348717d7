/-
# CatHub.Dialect.HamlibConnection — one client of the Hamlib listener, from its first byte to its last.

`serveConn` reads a line byte by byte, handles it and writes the reply, until the client quits, sends an
overlong line or goes away, and then gives up the transmitter.  `connection_serves` says what every run of
it comes to, whoever else moves in between: one turn for each line, in their order, and at the end a lease
that the session does not hold.  `keeps_step` says that a client of the plain protocol which counts lines
takes the replies apart as they were written.
-/
import CatHub.Dialect.Extended
import CatHub.Systems.Replies

namespace CatHub.Dialect.HamlibNet

open Systems Radio Ptt Bridge

open Radio.Ts590 (ascii trim isWhitespace)

/-! ## Serving -/

/-- Serve a connection from within its `n`-th line on, and list the replies that were written.  A write
fails where `written` says so. -/
def serveFrom (ctx : Context) (written : Nat → Bool) :
    Nat → List UInt8 → List UInt8 → Session (List (List UInt8))
  | _, _, [] => return []
  | n, line, byte :: stream =>
      if byte = 0x0A then do
        match ← handle line ctx with
        | .quit => return []
        | .reply bytes =>
            if !bytes.isEmpty && !written n then return []
            else do
              let replies ← serveFrom ctx written (n + 1) [] stream
              return bytes :: replies
      -- an overlong line closes the connection
      else if maxLineLen ≤ line.length then return []
      else serveFrom ctx written n (line ++ [byte]) stream

/-- Serve one accepted connection until it closes or quits. -/
def serveConn (ctx : Context) (written : Nat → Bool) (stream : List UInt8) :
    Session (List (List UInt8)) := do
  let replies ← serveFrom ctx written 0 [] stream
  releasePttOnDisconnect ctx
  return replies

/-- Handle lines until one quits or its reply cannot be written. -/
def converse (ctx : Context) (written : Nat → Bool) :
    Nat → List (List UInt8) → Session (List (List UInt8))
  | _, [] => return []
  | n, line :: lines => do
      match ← handle line ctx with
      | .quit => return []
      | .reply bytes =>
          if !bytes.isEmpty && !written n then return []
          else do
            let replies ← converse ctx written (n + 1) lines
            return bytes :: replies

variable {ctx : Context} {written : Nat → Bool}

/-- The loop over bytes is the loop over lines. -/
theorem serveFrom_eq (ctx : Context) (written : Nat → Bool) (n : Nat) (line stream : List UInt8) :
    serveFrom ctx written n line stream = converse ctx written n (requestLines stream line) := by
  induction stream generalizing n line with
  | nil => rfl
  | cons byte stream ih =>
      rw [serveFrom, requestLines]
      split
      · rw [converse]
        simp only [ih]
      · split
        · rfl
        · exact ih n (line ++ [byte])

/-! ## Turns -/

/-- A line, what the session did about it, and the reply. -/
structure Turn where
  line : List UInt8
  trace : Trace
  reply : List UInt8

/-- Why the lines from `rest` on were not answered, and what the session did last. -/
def Stops (ctx : Context) (written : Bool) (rest : List (List UInt8)) (last : Trace) : Prop :=
  (rest = [] ∧ last = []) ∨
    ∃ line later, rest = line :: later ∧
      (Runs (handle line ctx) last .quit ∨
        ∃ reply, Runs (handle line ctx) last (.reply reply) ∧ reply ≠ [] ∧ written = false)

/-- A conversation is one turn after the other. -/
theorem converse_turns {n : Nat} {lines replies : List (List UInt8)} {trace : Trace}
    (run : Runs (converse ctx written n lines) trace replies) :
    ∃ (turns : List Turn) (rest : List (List UInt8)) (last : Trace),
      lines = turns.map Turn.line ++ rest ∧ replies = turns.map Turn.reply ∧
      trace = turns.flatMap Turn.trace ++ last ∧
      (∀ turn ∈ turns, Runs (handle turn.line ctx) turn.trace (.reply turn.reply)) ∧
      Stops ctx (written (n + turns.length)) rest last := by
  induction lines generalizing n replies trace with
  | nil =>
      obtain ⟨rfl, rfl⟩ := Program.run_done run
      exact ⟨[], [], [], rfl, rfl, rfl, by simp, .inl ⟨rfl, rfl⟩⟩
  | cons line lines ih =>
      obtain ⟨first, result, rest, handled, goesOn, rfl⟩ := Program.run_bind run
      cases result with
      | quit =>
          obtain ⟨rfl, rfl⟩ := Program.run_done goesOn
          exact ⟨[], line :: lines, first, rfl, rfl, List.append_nil _, by simp,
            .inr ⟨line, lines, rfl, .inl handled⟩⟩
      | reply bytes =>
          dsimp only at goesOn
          split at goesOn
          · rename_i failed
            obtain ⟨rfl, rfl⟩ := Program.run_done goesOn
            rw [Bool.and_eq_true, Bool.not_eq_true', Bool.not_eq_true', List.isEmpty_eq_false_iff] at failed
            exact ⟨[], line :: lines, first, rfl, rfl, List.append_nil _, by simp,
              .inr ⟨line, lines, rfl, .inr ⟨bytes, handled, failed⟩⟩⟩
          · obtain ⟨middle, later, none_, served, ends, rfl⟩ := Program.run_bind goesOn
            obtain ⟨rfl, rfl⟩ := Program.run_done ends
            obtain ⟨turns, rest, last, rfl, rfl, rfl, each, stops⟩ := ih served
            refine ⟨⟨line, first, bytes⟩ :: turns, rest, last, rfl, rfl, ?_, ?_, ?_⟩
            · rw [List.flatMap_cons, List.append_nil, List.append_assoc]
            · exact List.forall_mem_cons.mpr ⟨handled, each⟩
            · rw [List.length_cons, show n + (turns.length + 1) = n + 1 + turns.length by omega]
              exact stops

theorem owner_unkey (m : PttManager) (sessionId : Nat) : (m.unkey sessionId).owner ≠ some sessionId := by
  rw [PttManager.unkey_owner]
  split
  · exact Option.some_ne_none sessionId |>.symm
  · assumption

/-- After its last words a session does not hold the lease. -/
theorem release_lets_go {trace : Trace} (run : Runs (releasePttOnDisconnect ctx) trace ()) :
    ∃ e, trace.getLast? = some e ∧ e.after.ptt.owner ≠ some ctx.sessionId := by
  rw [releasePttOnDisconnect, Session.owner_bind] at run
  obtain ⟨before, answer, after, rest, looked, goesOn, rfl⟩ := Program.run_ask run
  obtain ⟨rfl, rfl⟩ := looked
  split at goesOn
  · rename_i other
    obtain ⟨rfl, -⟩ := Program.run_done goesOn
    exact ⟨_, rfl, other⟩
  · rw [Session.submit_bind] at goesOn
    obtain ⟨_, _, _, later, -, unkeys, rfl⟩ := Program.run_ask goesOn
    obtain ⟨start, _, ends, more, gone, none_, rfl⟩ := Program.run_ask unkeys
    obtain ⟨rfl, -⟩ := Program.run_done none_
    refine ⟨_, rfl, ?_⟩
    have left : ends = { start with ptt := start.ptt.unkey ctx.sessionId } := gone
    show ends.ptt.owner ≠ _
    rw [left]
    exact owner_unkey start.ptt ctx.sessionId

/-- **A connection is served line by line.**  In every run of a connection, whatever others do in between,
each of its lines is handled by itself, in order, and answered with what handling it came to.  It goes on
so until the stream ends, a line is too long, a client quits or a reply cannot be written.  The last that
the session does leaves the lease to others. -/
theorem connection_serves {stream : List UInt8} {replies : List (List UInt8)} {trace : Trace}
    (run : Runs (serveConn ctx written stream) trace replies) :
    ∃ (turns : List Turn) (rest : List (List UInt8)) (last farewell : Trace),
      requestLines stream [] = turns.map Turn.line ++ rest ∧ replies = turns.map Turn.reply ∧
      trace = turns.flatMap Turn.trace ++ last ++ farewell ∧
      (∀ turn ∈ turns, Runs (handle turn.line ctx) turn.trace (.reply turn.reply)) ∧
      Stops ctx (written turns.length) rest last ∧
      ∃ e, farewell.getLast? = some e ∧ e.after.ptt.owner ≠ some ctx.sessionId := by
  obtain ⟨talk, heard, after, served, goesOn, rfl⟩ := Program.run_bind run
  obtain ⟨farewell, _, none_, released, ends, rfl⟩ := Program.run_bind goesOn
  obtain ⟨rfl, rfl⟩ := Program.run_done ends
  rw [serveFrom_eq] at served
  obtain ⟨turns, rest, last, cut, answers, rfl, each, stops⟩ := converse_turns served
  rw [Nat.zero_add] at stops
  refine ⟨turns, rest, last, farewell, cut, answers, ?_, each, stops, release_lets_go released⟩
  rw [List.append_nil]

/-! ## Counting lines -/

/-- How many lines a plain reply to a command has, unless it is a status. -/
def Command.answerLines (ctx : Context) : Command → Nat
  | .getMode | .getSplitVfo | .getSplitMode => 2
  | .getVfoInfo => 5
  | .dumpState => (replyLines ctx.dumpState).length
  | _ => 1

/-- How many lines a client expects for a request line. -/
def announced (ctx : Context) (line : List UInt8) : Nat :=
  match words isWhitespace (requestText line) with
  | [] => 0
  | cmd :: _ => ((Command.parse cmd).map (Command.answerLines ctx)).getD 1

/-- The line is in the plain form. -/
def PlainForm (line : List UInt8) : Prop := splitErp (trim (requestText line)) = none

instance (line : List UInt8) : Decidable (PlainForm line) :=
  inferInstanceAs (Decidable (_ = none))

/-- The capability dump is lines of data. -/
def Dumps (ctx : Context) : Prop :=
  ∃ texts, ctx.dumpState = lines texts ∧ ∀ text ∈ texts, Value text

/-- The reply is made of lines, as many as announced or up to a status. -/
def Sized (n : Nat) (reply : List UInt8) : Prop :=
  ∃ texts, reply = lines texts ∧ (∀ text ∈ texts, Plain text) ∧ Complete isStatus n texts

theorem Sized.cut {n : Nat} {reply : List UInt8} (sized : Sized n reply) :
    reply = lines (replyLines reply) ∧ Complete isStatus n (replyLines reply) := by
  obtain ⟨texts, rfl, plain, complete⟩ := sized
  rw [replyLines_lines plain]
  exact ⟨rfl, complete⟩

theorem sized_lines {n : Nat} {texts : List (List Char)} (length : texts.length = n)
    (each : ∀ text ∈ texts, Value text) : Sized n (lines texts) :=
  ⟨texts, rfl, fun text mem => (each text mem).1,
    complete_data length (fun text mem => isStatus_of_word (each text mem).2)⟩

theorem sized_status {n : Nat} {reply : List UInt8} (some_ : 0 < n) (status : reply ∈ statuses) :
    Sized n reply := by
  have line : ∀ code : List Char, Plain (statusWord ++ ' ' :: code) →
      Sized n (lines [statusWord ++ ' ' :: code]) := by
    intro code plain
    refine ⟨_, rfl, List.forall_mem_singleton.mpr plain, complete_status some_ ?_⟩
    rw [isStatus, List.isPrefixOf_iff_prefix]
    exact ⟨code, by simp⟩
  simp only [statuses, List.mem_cons, List.not_mem_nil, or_false] at status
  rcases status with rfl | rfl | rfl
  · exact line ['0'] (by decide)
  · exact line ['-', '1'] (by decide)
  · exact line ['-', '1', '1'] (by decide)

section
variable {snapshot : Snapshot} {args : List (List Char)}

theorem sized_guardRead {n : Nat} {answer : List UInt8} (some_ : 0 < n) (sized : Sized n answer) :
    Sized n (guardRead ctx answer) := by
  unfold guardRead
  split
  · exact sized
  · exact sized_status some_ (by decide)

/-- Every read has its number of lines. -/
theorem sized_readReply {command : Command} {reply : List UInt8}
    (dumps : command = .dumpState → Dumps ctx)
    (read : readReply ctx snapshot args command = some reply) :
    Sized (command.answerLines ctx) reply := by
  have zero : Value ['0'] := value_flag false
  have enavail : ∀ {n}, 0 < n → Sized n rprtEnavail := fun some_ => sized_status some_ (by decide)
  cases command with
  | getFreq | getRit | getXit | getPtt | getPowerstat | getVfo =>
      obtain rfl := Option.some.inj read
      exact sized_guardRead Nat.one_pos (sized_lines rfl (by
        simp [value_number, value_signed, value_flag, value_presentedVfoName]))
  | getMode | getVfoInfo | getSplitVfo =>
      obtain rfl := Option.some.inj read
      exact sized_guardRead (Nat.succ_pos _) (sized_lines rfl (by
        simp [value_number, value_modeToken, value_flag, value_presentedVfoName, zero]))
  | getSplitFreq | getSplitMode =>
      obtain rfl := Option.some.inj read
      refine sized_guardRead (Nat.succ_pos _) ?_
      split
      · exact enavail (Nat.succ_pos _)
      · exact sized_lines rfl (by simp [value_number, value_modeToken])
  | getLevel =>
      obtain rfl := Option.some.inj read
      refine sized_guardRead Nat.one_pos ?_
      split
      · split
        · exact sized_lines rfl (by simp [value_relativeDecimal])
        · exact enavail Nat.one_pos
      · exact enavail Nat.one_pos
  | power2mW =>
      obtain rfl := Option.some.inj read
      refine sized_guardRead Nat.one_pos ?_
      split
      · split
        · exact sized_lines rfl (by simp [value_number])
        · exact enavail Nat.one_pos
      · exact enavail Nat.one_pos
  | dumpState =>
      obtain rfl := Option.some.inj read
      obtain ⟨texts, form, each⟩ := dumps rfl
      rw [Command.answerLines, form]
      exact sized_lines (by rw [replyLines_lines (fun text mem => (each text mem).1)]) each
  | chkVfo =>
      obtain rfl := Option.some.inj read
      exact sized_lines rfl (by simp [zero])
  | setFreq | setMode | setVfo | setPtt | setSplitVfo | setRit | setXit => cases read

/-- A write announces one line. -/
theorem answerLines_set {command : Command} (writes : readReply ctx snapshot args command = none) :
    command.answerLines ctx = 1 := by
  cases command <;> first | rfl | cases writes

/-- The result of a line has the size that the line announces. -/
def Announces (n : Nat) : LineResult → Prop
  | .reply bytes => Sized n bytes
  | .quit => True

theorem announced_dispatchPlain (dumps : Dumps ctx) (cmd : List Char) :
    (dispatchPlain cmd args ctx).Meets (fun _ => True) (fun _ _ => True)
      (Announces (((Command.parse cmd).map (Command.answerLines ctx)).getD 1)) := by
  rw [dispatchPlain, Session.snapshot_bind]
  refine ⟨trivial, fun snapshot _ => ?_⟩
  split
  · exact trivial
  · cases Command.parse cmd with
    | none => exact sized_status Nat.one_pos (by decide)
    | some command =>
        dsimp only
        split
        · rename_i bytes read
          exact sized_readReply (fun _ => dumps) read
        · rename_i writes
          rw [Option.map_some, Option.getD_some, answerLines_set writes]
          exact (status_set command).bind (fun bytes status => sized_status Nat.one_pos status)

theorem announced_handle {line : List UInt8} (dumps : Dumps ctx) (plain : PlainForm line) :
    (handle line ctx).Meets (fun _ => True) (fun _ _ => True) (Announces (announced ctx line)) := by
  have plain : splitErp (trim (requestText line)) = none := plain
  rw [handle, handleLine, announced, plain]
  cases words isWhitespace (requestText line) with
  | nil => exact ⟨[], rfl, by simp, complete_nil⟩
  | cons cmd args => exact announced_dispatchPlain dumps cmd

end

theorem lines_flatten (replies : List (List (List Char))) :
    (replies.map lines).flatten = lines replies.flatten := by
  induction replies with
  | nil => rfl
  | cons texts replies ih =>
      rw [List.map_cons, List.flatten_cons, ih, List.flatten_cons, lines, lines, lines, encode, encode,
        encode, List.flatMap_append, List.flatMap_append]

/-- The lines of all replies are the lines of each. -/
theorem replyLines_flatten {replies : List (List UInt8)} (sized : ∀ reply ∈ replies, ∃ n, Sized n reply) :
    replyLines replies.flatten = (replies.map replyLines).flatten := by
  have cut : replies = (replies.map replyLines).map lines := by
    rw [List.map_map]
    refine (List.map_id replies).symm.trans (List.map_congr_left fun reply mem => ?_)
    obtain ⟨n, size⟩ := sized reply mem
    exact size.cut.1
  rw [cut, lines_flatten, replyLines_lines, ← cut]
  intro text mem
  obtain ⟨texts, among, here⟩ := List.mem_flatten.mp mem
  obtain ⟨reply, written, rfl⟩ := List.mem_map.mp among
  obtain ⟨n, whole, rfl, plain, -⟩ := sized reply written
  exact plain text (replyLines_lines plain ▸ here)

/-- **A client that counts lines keeps step.**  Whatever plain lines it sends, in every run of its
connection the bytes that it was sent, cut into lines and taken by the numbers that its own lines announce
or up to a status, are the replies to these lines, one for each. -/
theorem keeps_step {stream : List UInt8} {replies : List (List UInt8)} {trace : Trace} (dumps : Dumps ctx)
    (plain : ∀ line ∈ requestLines stream [], PlainForm line)
    (run : Runs (serveConn ctx written stream) trace replies) :
    let answered := (requestLines stream []).take replies.length
    replies.length = answered.length ∧
      readAll isStatus (answered.map (announced ctx)) (replyLines replies.flatten) =
        replies.map replyLines ∧
      ∀ reply ∈ replies, reply = lines (replyLines reply) := by
  obtain ⟨talk, heard, after, served, goesOn, -⟩ := Program.run_bind run
  obtain ⟨_, _, _, -, ends, -⟩ := Program.run_bind goesOn
  obtain ⟨-, rfl⟩ := Program.run_done ends
  rw [serveFrom_eq] at served
  obtain ⟨turns, rest, last, cut, rfl, -, each, -⟩ := converse_turns served
  intro answered
  have front : answered = turns.map Turn.line := by
    rw [show answered = (requestLines stream []).take _ from rfl, cut, List.length_map]
    exact List.take_left' (List.length_map _)
  have sized : ∀ turn ∈ turns, Sized (announced ctx turn.line) turn.reply := by
    intro turn mem
    have known : turn.line ∈ requestLines stream [] :=
      cut ▸ List.mem_append_left rest (List.mem_map_of_mem mem)
    exact (announced_handle dumps (plain turn.line known)).ends (each turn mem)
  have all : ∀ reply ∈ turns.map Turn.reply, ∃ n, Sized n reply := by
    intro reply mem
    obtain ⟨turn, among, rfl⟩ := List.mem_map.mp mem
    exact ⟨_, sized turn among⟩
  refine ⟨by rw [front, List.length_map, List.length_map], ?_, fun reply mem => ?_⟩
  · rw [replyLines_flatten all, front]
    refine readAll_flatten ?_
    rw [List.map_map, List.map_map, List.forall₂_map_left_iff, List.forall₂_map_right_iff,
      List.forall₂_same]
    exact fun turn mem => (sized turn mem).cut.2
  · obtain ⟨n, size⟩ := all reply mem
    exact size.cut.1

/-! ## A conversation -/

/-- A frequency, a write that lacks its number, and the end; then one more line. -/
def calls : List UInt8 := ascii ['f', '\n', 'F', '\r', '\n', 'q', '\n', 'f', '\n']

/-- An endpoint for readers that serves a dump of two lines. -/
def dumping : Context := { looking with dumpState := lines [['1'], ['0', ' ', '0']] }

theorem exists_served : ∃ (replies : List (List UInt8)) (trace : Trace),
    Runs (serveConn dumping (fun _ => true) calls) trace replies :=
  have alone := Program.exists_run _ (answers_alone fun _ w => (.error .unsupported, w))
    (serveConn dumping (fun _ => true) calls) ⟨{}, { maxTx := 0 }, false, 0⟩
  ⟨_, alone⟩

theorem connection_serves_calls :
    ∃ (replies : List (List UInt8)) (trace : Trace) (turns : List Turn) (rest : List (List UInt8))
      (last farewell : Trace),
      requestLines calls [] = turns.map Turn.line ++ rest ∧ replies = turns.map Turn.reply ∧
      trace = turns.flatMap Turn.trace ++ last ++ farewell ∧
      (∀ turn ∈ turns, Runs (handle turn.line dumping) turn.trace (.reply turn.reply)) ∧
      Stops dumping true rest last ∧
      ∃ e, farewell.getLast? = some e ∧ e.after.ptt.owner ≠ some dumping.sessionId := by
  obtain ⟨replies, trace, run⟩ := exists_served
  exact ⟨replies, trace, connection_serves run⟩

theorem keeps_step_calls :
    ∃ replies : List (List UInt8),
      let answered := (requestLines calls []).take replies.length
      replies.length = answered.length ∧
        readAll isStatus (answered.map (announced dumping)) (replyLines replies.flatten) =
          replies.map replyLines ∧
        ∀ reply ∈ replies, reply = lines (replyLines reply) := by
  obtain ⟨replies, trace, run⟩ := exists_served
  have dumps : Dumps dumping := by
    refine ⟨[['1'], ['0', ' ', '0']], rfl, ?_⟩
    have data : ∀ text ∈ [['1'], ['0', ' ', '0']], Plain text ∧ statusWord.isPrefixOf text = false :=
      each_of_all (by decide)
    exact data
  have plain : ∀ line ∈ requestLines calls [], PlainForm line := by decide
  exact ⟨replies, keeps_step dumps plain run⟩

end CatHub.Dialect.HamlibNet
