/-
# CatHub.WinKeyer.HostGrammar — the host grammar as a framing, and the parser as its reader.

The length of an item is settled by its first byte or, for Admin and Pointer, by its second one.
`hostFraming` reads it off the front of a whole stream; `ClientParser` learns it byte by byte.
`feed_held` ties the two together: what the parser holds after a stream is what the framing leaves of
it, and the parser's length field is what the tables say of the bytes it holds.
-/
import CatHub.Systems.Framing
import CatHub.WinKeyer.Protocol

namespace CatHub.WinKeyer

open Systems

/-! ## The tables -/

/-- The length of the command that begins with these bytes, as far as they tell. -/
def commandLen : List UInt8 → Option Nat
  | [] => none
  | [opcode] => initialCommandLen opcode
  | opcode :: sub :: _ =>
      if opcode = 0x00 then some (if sub == 0x1c then 3 else adminCommandLen sub)
      else if opcode = 0x16 && inRange 0x01 0x03 sub then some 3
      else initialCommandLen opcode

/-- Every opcode has a length, of at most sixteen bytes. -/
theorem initialCommandLen_le {opcode : UInt8} (command : opcode ≤ 0x1f) :
    ∃ n, initialCommandLen opcode = some n ∧ 1 ≤ n ∧ n ≤ 16 := by
  have table : ∀ k < 32, (initialCommandLen k.toUInt8).any (fun n => 1 ≤ n && n ≤ 16) = true := by
    decide
  have small : opcode.toNat < 32 := Nat.lt_succ_of_le (UInt8.le_iff_toNat_le.mp command)
  have entry := table opcode.toNat small
  rw [show opcode.toNat.toUInt8 = opcode from UInt8.ofNat_toNat] at entry
  cases here : initialCommandLen opcode with
  | none => simp [here] at entry
  | some n => exact ⟨n, rfl, by simpa [here] using entry⟩

theorem adminCommandLen_le (sub : UInt8) : 2 ≤ adminCommandLen sub ∧ adminCommandLen sub ≤ 258 := by
  unfold adminCommandLen
  repeat' split
  all_goals omega

/-- The second byte may refine a length, and it leaves a command of one byte alone. -/
theorem commandLen_second {opcode : UInt8} (command : opcode ≤ 0x1f) (sub : UInt8)
    (later : List UInt8) :
    ∃ n, commandLen (opcode :: sub :: later) = some n ∧ 1 ≤ n ∧ n ≤ 258 ∧
      (n = 1 ↔ commandLen [opcode] = some 1) := by
  obtain ⟨first, here, some_, few⟩ := initialCommandLen_le command
  obtain ⟨least, most⟩ := adminCommandLen_le sub
  show ∃ n, (if opcode = 0x00 then some (if sub == 0x1c then 3 else adminCommandLen sub)
      else if opcode = 0x16 && inRange 0x01 0x03 sub then some 3 else initialCommandLen opcode) =
        some n ∧ 1 ≤ n ∧ n ≤ 258 ∧ (n = 1 ↔ initialCommandLen opcode = some 1)
  by_cases isAdmin : opcode = 0x00
  · have two : initialCommandLen opcode = some 2 := by rw [isAdmin]; decide
    rw [if_pos isAdmin, two]
    have bounds : 2 ≤ (if sub == 0x1c then 3 else adminCommandLen sub) ∧
        (if sub == 0x1c then 3 else adminCommandLen sub) ≤ 258 := by
      split <;> omega
    refine ⟨_, rfl, by omega, bounds.2, ?_⟩
    rw [Option.some_inj]
    omega
  rw [if_neg isAdmin]
  by_cases pointer : (opcode = 0x16 && inRange 0x01 0x03 sub) = true
  · have two : initialCommandLen opcode = some 2 := by
      rw [show opcode = 0x16 by simpa using (Bool.and_eq_true_iff.mp pointer).1]
      decide
    rw [if_pos pointer, two]
    exact ⟨3, rfl, by omega, by omega, by simp⟩
  · rw [if_neg pointer, here]
    refine ⟨first, rfl, some_, by omega, ?_⟩
    rw [Option.some_inj]

/-! ## The framing -/

/-- The bytes of an item. -/
def ClientItem.bytes : ClientItem → List UInt8
  | .data byte => [byte]
  | .command bytes => bytes

/-- The item that a piece of the stream is. -/
def itemOf : List UInt8 → ClientItem
  | [byte] => if byte > 0x1f then .data byte else .command [byte]
  | bytes => .command bytes

/-- What stands at the front of a host stream. -/
def hostVerdict : List UInt8 → Verdict ClientItem
  | [] => .more
  | byte :: later =>
      if byte > 0x1f then .piece 1
      else
        match commandLen (byte :: later) with
        | some n => if n ≤ (byte :: later).length then .piece n else .more
        | none => .more

theorem bytes_itemOf (piece : List UInt8) : (itemOf piece).bytes = piece := by
  unfold itemOf
  split
  · split <;> rfl
  · rfl

theorem itemOf_command {opcode : UInt8} (command : opcode ≤ 0x1f) (later : List UInt8) :
    itemOf (opcode :: later) = .command (opcode :: later) := by
  cases later with
  | nil => exact if_neg (UInt8.not_lt.mpr command)
  | cons => rfl

theorem hostVerdict_data {byte : UInt8} (data : 0x1f < byte) (later : List UInt8) :
    hostVerdict (byte :: later) = .piece 1 := if_pos data

theorem hostVerdict_command {opcode : UInt8} (command : opcode ≤ 0x1f) {later : List UInt8} {n : Nat}
    (len : commandLen (opcode :: later) = some n) :
    hostVerdict (opcode :: later) = if n ≤ later.length + 1 then .piece n else .more := by
  rw [hostVerdict, if_neg (UInt8.not_lt.mpr command), len]
  rfl

/-- Every command has a length as soon as its first byte is there. -/
theorem commandLen_some {opcode : UInt8} (command : opcode ≤ 0x1f) (later : List UInt8) :
    ∃ n, commandLen (opcode :: later) = some n ∧ 1 ≤ n ∧ n ≤ 258 := by
  cases later with
  | nil =>
      obtain ⟨first, here, some_, few⟩ := initialCommandLen_le command
      exact ⟨first, here, some_, by omega⟩
  | cons sub later =>
      obtain ⟨n, len, some_, few, -⟩ := commandLen_second command sub later
      exact ⟨n, len, some_, few⟩

/-- A command that is complete keeps its length, whatever comes later. -/
theorem commandLen_settled {opcode : UInt8} (command : opcode ≤ 0x1f) {later : List UInt8} {n : Nat}
    (len : commandLen (opcode :: later) = some n) (whole : n ≤ later.length + 1)
    (more : List UInt8) : commandLen (opcode :: (later ++ more)) = some n := by
  cases later with
  | cons sub later => exact len
  | nil =>
      obtain ⟨first, here, some_, -⟩ := initialCommandLen_le command
      obtain rfl : first = n := Option.some_inj.mp (here.symm.trans len)
      obtain rfl : first = 1 := by
        rw [List.length_nil] at whole
        omega
      cases more with
      | nil => exact len
      | cons sub more =>
          obtain ⟨n, second, -, -, one⟩ := commandLen_second command sub more
          rw [List.nil_append, second, one.mpr len]

theorem hostVerdict_settled {stream : List UInt8} (later : List UInt8)
    (settled : hostVerdict stream ≠ .more) : hostVerdict (stream ++ later) = hostVerdict stream := by
  cases stream with
  | nil => exact absurd rfl settled
  | cons byte rest =>
      by_cases data : 0x1f < byte
      · rw [List.cons_append, hostVerdict_data data, hostVerdict_data data]
      · have command := UInt8.not_lt.mp data
        obtain ⟨n, len, -⟩ := commandLen_some command rest
        rw [hostVerdict_command command len] at settled ⊢
        by_cases whole : n ≤ rest.length + 1
        · have inside : n ≤ (rest ++ later).length + 1 := by
            rw [List.length_append]
            omega
          rw [List.cons_append,
            hostVerdict_command command (commandLen_settled command len whole later), if_pos inside,
            if_pos whole]
        · exact absurd (if_neg whole) settled

theorem hostVerdict_piece {stream : List UInt8} {n : Nat} (piece : hostVerdict stream = .piece n) :
    0 < n ∧ n ≤ stream.length := by
  cases stream with
  | nil => cases piece
  | cons byte rest =>
      by_cases data : 0x1f < byte
      · rw [hostVerdict_data data] at piece
        cases piece
        exact ⟨Nat.one_pos, Nat.succ_le_succ (Nat.zero_le _)⟩
      · have command := UInt8.not_lt.mp data
        obtain ⟨len, here, some_, -⟩ := commandLen_some command rest
        rw [hostVerdict_command command here] at piece
        split at piece
        · cases piece
          exact ⟨some_, ‹_›⟩
        · cases piece

theorem hostVerdict_sound {stream : List UInt8} {item : ClientItem} :
    hostVerdict stream ≠ .fault item := by
  unfold hostVerdict
  split
  · nofun
  · split
    · nofun
    · split
      · split <;> nofun
      · nofun

/-- The host grammar: nothing in it is a fault. -/
def hostFraming : Framing UInt8 ClientItem where
  verdict := hostVerdict
  decode := itemOf
  stops := fun _ => false
  idle := rfl
  filled := hostVerdict_piece
  settled := hostVerdict_settled
  stops_fault fault := absurd fault hostVerdict_sound
  goes_on _ := rfl

/-- A command that is not complete lacks one more byte at least. -/
theorem lacks_of_open {opcode : UInt8} (command : opcode ≤ 0x1f) {later : List UInt8} {n : Nat}
    (open_ : hostVerdict (opcode :: later) = .more) (byte : UInt8)
    (len : commandLen (opcode :: (later ++ [byte])) = some n) : later.length + 2 ≤ n := by
  obtain ⟨before, here, some_, -⟩ := commandLen_some command later
  rw [hostVerdict_command command here] at open_
  have short : later.length + 1 < before := by
    by_contra whole
    rw [if_pos (Nat.not_lt.mp whole)] at open_
    cases open_
  cases later with
  | cons sub later =>
      obtain rfl : before = n := Option.some_inj.mp (here.symm.trans len)
      exact short
  | nil =>
      obtain ⟨second, refined, least, -, one⟩ := commandLen_second command byte []
      obtain rfl : second = n := Option.some_inj.mp (refined.symm.trans len)
      have notOne : second ≠ 1 := by
        rw [Ne, one, here, Option.some_inj]
        exact Nat.ne_of_gt short
      rw [List.length_nil]
      omega

/-! ## The parser reads it -/

namespace ClientParser

/-- The parser that holds these bytes of a command. -/
def held (command : List UInt8) : ClientParser := ⟨command, commandLen command⟩

/-- The parser's length field is what the tables say of the bytes it holds. -/
theorem refine_held {command : List UInt8} (some_ : command ≠ []) (byte : UInt8) :
    refineVariableLength { held command with command := command ++ [byte] } =
      held (command ++ [byte]) := by
  match command with
  | [] => exact absurd rfl some_
  | [opcode] =>
      show refineVariableLength ⟨[opcode, byte], initialCommandLen opcode⟩ = ⟨[opcode, byte], _⟩
      unfold refineVariableLength
      split
      · rename_i two
        cases two
        rfl
      · rename_i two
        cases two
        simp only [List.cons_append, List.nil_append, commandLen]
        split <;> simp_all
      · rename_i notAdmin notPointer
        have isAdmin : opcode ≠ 0x00 := fun same => notAdmin byte (by rw [same])
        have isPointer : opcode ≠ 0x16 := fun same => notPointer byte (by rw [same])
        simp [commandLen, isAdmin, isPointer]
  | opcode :: sub :: later =>
      show refineVariableLength
          ⟨opcode :: sub :: (later ++ [byte]), commandLen (opcode :: sub :: later)⟩ =
        ⟨opcode :: sub :: (later ++ [byte]), _⟩
      unfold refineVariableLength
      -- with three bytes or more nothing is refined
      split
      · rename_i two
        simp at two
      · rename_i two
        simp at two
      · rfl

theorem complete_held {command : List UInt8} {n : Nat} (len : commandLen command = some n) :
    complete (held command) =
      if n = command.length then ({}, some (.command command)) else (held command, none) := by
  show (if commandLen command = some command.length then _ else _) = _
  simp only [len, Option.some_inj]
  rfl

/-- What one byte does to a partial command: it completes the item, or the parser holds one byte
more. -/
theorem push_held {command : List UInt8} (open_ : hostVerdict command = .more) (byte : UInt8) :
    (hostVerdict (command ++ [byte]) = .more ∧
        (held command).push byte = (held (command ++ [byte]), none)) ∨
      (hostVerdict (command ++ [byte]) = .piece (command.length + 1) ∧
        (held command).push byte = ({}, some (itemOf (command ++ [byte])))) := by
  by_cases data : command = [] ∧ 0x1f < byte
  · obtain ⟨rfl, data⟩ := data
    right
    refine ⟨hostVerdict_data data [], ?_⟩
    rw [List.nil_append, itemOf, if_pos data]
    exact if_pos data
  -- all that is held, with the new byte, is a command that lacks nothing or goes on
  obtain ⟨opcode, later, form, isCommand, pushed, lacks⟩ : ∃ opcode later,
      command ++ [byte] = opcode :: later ∧ opcode ≤ 0x1f ∧
        (held command).push byte = complete (held (command ++ [byte])) ∧
        ∀ n, commandLen (command ++ [byte]) = some n → command.length + 1 ≤ n := by
    cases command with
    | nil =>
        have isCommand : byte ≤ 0x1f := UInt8.not_lt.mp (fun larger => data ⟨rfl, larger⟩)
        refine ⟨byte, [], rfl, isCommand, if_neg (UInt8.not_lt.mpr isCommand), ?_⟩
        intro n len
        obtain ⟨m, here, some_, -⟩ := commandLen_some isCommand []
        obtain rfl : m = n := Option.some_inj.mp (here.symm.trans len)
        exact some_
    | cons opcode later =>
        have isCommand : opcode ≤ 0x1f := by
          apply UInt8.not_lt.mp
          intro larger
          rw [hostVerdict_data larger] at open_
          cases open_
        refine ⟨opcode, later ++ [byte], rfl, isCommand, ?_, ?_⟩
        · rw [← refine_held (List.cons_ne_nil opcode later) byte]
          rfl
        · exact fun n len => lacks_of_open isCommand open_ byte len
  obtain ⟨n, len, -⟩ := commandLen_some isCommand later
  have size : later.length = command.length := by
    have both := congrArg List.length form
    rw [List.length_append, List.length_singleton, List.length_cons] at both
    omega
  rw [form] at lacks
  have least := lacks n len
  rw [pushed, form, hostVerdict_command isCommand len, complete_held len, List.length_cons, size]
  by_cases whole : n = command.length + 1
  · right
    rw [if_pos (Nat.le_of_eq whole), if_pos whole, itemOf_command isCommand, whole]
    exact ⟨rfl, rfl⟩
  · left
    rw [if_neg (by omega), if_neg whole]
    exact ⟨rfl, rfl⟩

/-- **The parser holds what the framing leaves**, and has handed out what the framing cuts off. -/
theorem feed_held {command : List UInt8} (open_ : hostVerdict command = .more)
    (stream : List UInt8) :
    (held command).feed stream =
      (held (hostFraming.split (command ++ stream)).2, (hostFraming.split (command ++ stream)).1) := by
  induction stream generalizing command with
  | nil =>
      rw [List.append_nil, Framing.split_more (F := hostFraming) open_]
      rfl
  | cons byte stream ih =>
      have cut : command ++ byte :: stream = (command ++ [byte]) ++ stream := by simp
      rw [feed, cut]
      rcases push_held open_ byte with ⟨goesOn, pushed⟩ | ⟨ends, pushed⟩
      · rw [pushed]
        show (((held (command ++ [byte])).feed stream).1, _) = _
        rw [ih goesOn]
        rfl
      · have whole : (command ++ [byte]).length = command.length + 1 := by simp
        have rest : feed {} stream = _ := @ih [] rfl
        rw [pushed, Framing.split_ahead (F := hostFraming) ends stream, ← whole, List.take_length,
          List.drop_length, List.nil_append]
        show ((feed {} stream).1, itemOf (command ++ [byte]) :: (feed {} stream).2) = _
        rw [rest]
        rfl

theorem feed_split (stream : List UInt8) :
    feed {} stream = (held (hostFraming.split stream).2, (hostFraming.split stream).1) :=
  @feed_held [] rfl stream

theorem feed_cons (p : ClientParser) (byte : UInt8) (later : List UInt8) :
    p.feed (byte :: later) =
      (((p.push byte).1.feed later).1, (p.push byte).2.toList ++ ((p.push byte).1.feed later).2) := rfl

/-- The parser may be stopped anywhere and goes on from there. -/
theorem feed_append (p : ClientParser) (front back : List UInt8) :
    p.feed (front ++ back) =
      (((p.feed front).1.feed back).1, (p.feed front).2 ++ ((p.feed front).1.feed back).2) := by
  induction front generalizing p with
  | nil => rfl
  | cons byte front ih =>
      rw [List.cons_append, feed_cons, feed_cons, ih, List.append_assoc]

end ClientParser

/-! ## What the parser is for -/

/-- Data lies above the opcodes, and a command has the length that the tables give. -/
def ClientItem.WellFormed : ClientItem → Prop
  | .data byte => 0x1f < byte
  | .command bytes => commandLen bytes = some bytes.length

/-- No table has an entry for a data byte. -/
theorem initialCommandLen_data {byte : UInt8} (data : 0x1f < byte) : initialCommandLen byte = none := by
  have table : ∀ k < 256, 31 < k → initialCommandLen k.toUInt8 = none := by
    decide +kernel
  rw [← UInt8.ofNat_toNat (x := byte)]
  exact table byte.toNat byte.toNat_lt (UInt8.lt_iff_toNat_lt.mp data)

theorem opcode_of_commandLen {byte : UInt8} {later : List UInt8} {n : Nat}
    (len : commandLen (byte :: later) = some n) : byte ≤ 0x1f := by
  apply UInt8.not_lt.mp
  intro data
  have none_ := initialCommandLen_data data
  have isAdmin : byte ≠ 0x00 := by
    rintro rfl
    cases none_
  have isPointer : byte ≠ 0x16 := by
    rintro rfl
    cases none_
  cases later with
  | nil => exact absurd (none_.symm.trans len) nofun
  | cons sub later => simp [commandLen, isAdmin, isPointer, none_] at len

/-- A well-formed item is one piece, and that piece is the item. -/
theorem hostVerdict_item {item : ClientItem} (wellFormed : item.WellFormed) :
    hostVerdict item.bytes = .piece item.bytes.length ∧ itemOf item.bytes = item := by
  cases item with
  | data byte => exact ⟨hostVerdict_data wellFormed [], if_pos wellFormed⟩
  | command bytes =>
      have len : commandLen bytes = some bytes.length := wellFormed
      cases bytes with
      | nil => cases len
      | cons opcode later =>
          have isCommand := opcode_of_commandLen len
          refine ⟨?_, itemOf_command isCommand later⟩
          rw [ClientItem.bytes, hostVerdict_command isCommand len, if_pos (by simp)]

/-- Well-formed items that stand one behind the other are handed out as they are. -/
theorem feed_wellFormed {list : List ClientItem} (wellFormed : ∀ item ∈ list, item.WellFormed) :
    ClientParser.feed {} (list.flatMap ClientItem.bytes) = ({}, list) := by
  have pieces : ∀ piece ∈ list.map ClientItem.bytes,
      hostFraming.verdict piece = .piece piece.length := by
    intro piece mem
    obtain ⟨item, inList, rfl⟩ := List.mem_map.mp mem
    exact (hostVerdict_item (wellFormed item inList)).1
  have back : (list.map ClientItem.bytes).map hostFraming.decode = list := by
    rw [List.map_map]
    conv_rhs => rw [← List.map_id list]
    exact List.map_congr_left fun item inList => (hostVerdict_item (wellFormed item inList)).2
  rw [ClientParser.feed_split, List.flatMap_def, Framing.split_flatten pieces, back]
  rfl

/-- A command that is cut off where it ends keeps its length. -/
theorem commandLen_take {opcode : UInt8} (command : opcode ≤ 0x1f) {later : List UInt8} {k : Nat}
    (len : commandLen (opcode :: later) = some (k + 1)) :
    commandLen (opcode :: later.take k) = some (k + 1) := by
  cases later with
  | nil => rwa [List.take_nil]
  | cons sub later =>
      cases k with
      | succ k => exact len
      | zero =>
          obtain ⟨n, second, -, -, one⟩ := commandLen_second command sub later
          exact one.mp (Option.some_inj.mp (second.symm.trans len))

/-- A piece is a well-formed item. -/
theorem wellFormed_piece {stream : List UInt8} {n : Nat} (piece : hostVerdict stream = .piece n) :
    (itemOf (stream.take n)).WellFormed := by
  cases stream with
  | nil => cases piece
  | cons byte rest =>
      by_cases data : 0x1f < byte
      · rw [hostVerdict_data data] at piece
        cases piece
        rw [List.take_succ_cons, List.take_zero, itemOf, if_pos data]
        exact data
      have isCommand := UInt8.not_lt.mp data
      obtain ⟨len, here, some_, -⟩ := commandLen_some isCommand rest
      rw [hostVerdict_command isCommand here] at piece
      split at piece
      · rename_i whole
        cases piece
        obtain ⟨k, rfl⟩ := Nat.exists_eq_succ_of_ne_zero (Nat.ne_of_gt some_)
        have size : (rest.take k).length = k :=
          List.length_take_of_le (Nat.le_of_succ_le_succ whole)
        rw [List.take_succ_cons, itemOf_command isCommand]
        show commandLen (byte :: rest.take k) = some ((rest.take k).length + 1)
        rw [size, commandLen_take isCommand here]
      · cases piece

/-- What the parser hands out is well formed. -/
theorem wellFormed_feed (stream : List UInt8) :
    ∀ item ∈ (ClientParser.feed {} stream).2, item.WellFormed := by
  rw [ClientParser.feed_split]
  exact Framing.split_forall hostVerdict_sound wellFormed_piece stream

/-- What the parser still holds is a command with bytes to come. -/
theorem lacking_of_open {command : List UInt8} (open_ : hostVerdict command = .more)
    (some_ : command ≠ []) :
    ∃ opcode later n, command = opcode :: later ∧ opcode ≤ 0x1f ∧ commandLen command = some n ∧
      command.length < n ∧ n ≤ 258 := by
  obtain ⟨opcode, later, rfl⟩ := List.exists_cons_of_ne_nil some_
  have isCommand : opcode ≤ 0x1f := by
    apply UInt8.not_lt.mp
    intro larger
    rw [hostVerdict_data larger] at open_
    cases open_
  obtain ⟨n, len, -, few⟩ := commandLen_some isCommand later
  refine ⟨opcode, later, n, rfl, isCommand, len, ?_, few⟩
  by_contra whole
  rw [List.length_cons, Nat.not_lt] at whole
  rw [hostVerdict_command isCommand len, if_pos whole] at open_
  cases open_

/-- A partial command can be completed: with one more byte its length is settled, and zeros do for the
rest. -/
theorem exists_wellFormed {command : List UInt8} (open_ : hostVerdict command = .more)
    (some_ : command ≠ []) : ∃ later, (ClientItem.command (command ++ later)).WellFormed := by
  obtain ⟨opcode, rest, -, rfl, isCommand, -⟩ := lacking_of_open open_ some_
  obtain ⟨n, len, -⟩ := commandLen_some isCommand (rest ++ [0x00])
  have lacks := lacks_of_open isCommand open_ 0x00 len
  have settled (zeros : List UInt8) : commandLen (opcode :: (rest ++ 0x00 :: zeros)) = some n := by
    rw [← len]
    cases rest <;> rfl
  refine ⟨0x00 :: List.replicate (n - rest.length - 2) 0x00, (settled _).trans ?_⟩
  congr 1
  simp only [List.cons_append, List.length_cons, List.length_append, List.length_replicate]
  omega

/-- **The client parser.**  What it has handed out and what it holds are the stream; well-formed items,
one behind the other, are handed out as they are; and what it holds is shorter than the longest
command and can be completed. -/
theorem client_parser_exact :
    (∀ stream, (ClientParser.feed {} stream).2.flatMap ClientItem.bytes ++
      (ClientParser.feed {} stream).1.command = stream) ∧
    (∀ list : List ClientItem, (∀ item ∈ list, item.WellFormed) →
      ClientParser.feed {} (list.flatMap ClientItem.bytes) = ({}, list)) ∧
    (∀ stream, (ClientParser.feed {} stream).1.command.length < 258 ∧
      ((ClientParser.feed {} stream).1.command ≠ [] → ∃ later,
        (ClientParser.feed {} stream).1.feed later =
          ({}, [.command ((ClientParser.feed {} stream).1.command ++ later)]))) := by
  refine ⟨?_, fun list => feed_wellFormed, ?_⟩
  · intro stream
    rw [ClientParser.feed_split]
    exact Framing.split_spells hostVerdict_sound (fun _ => bytes_itemOf _) stream
  · intro stream
    have open_ := Framing.split_rest (F := hostFraming) hostVerdict_sound stream
    rw [ClientParser.feed_split]
    generalize (hostFraming.split stream).2 = command at open_
    refine ⟨?_, fun some_ => ?_⟩
    · by_cases some_ : command = []
      · rw [some_]
        exact Nat.zero_lt_succ _
      · obtain ⟨-, -, n, -, -, -, short, few⟩ := lacking_of_open open_ some_
        exact Nat.lt_of_lt_of_le short few
    · obtain ⟨later, wellFormed⟩ := exists_wellFormed open_ some_
      refine ⟨later, ?_⟩
      have alone := @feed_wellFormed [.command (command ++ later)] (by simpa using wellFormed)
      rw [List.flatMap_singleton] at alone
      rw [ClientParser.feed_held open_, ← ClientParser.feed_split]
      exact alone

end CatHub.WinKeyer
