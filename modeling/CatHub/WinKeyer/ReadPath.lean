/-
# CatHub.WinKeyer.ReadPath — what a virtual endpoint makes of the bytes of its client.

The client's bytes come in reads of any size.  Text and buffered commands are collected and handed to the
broker as one stream request; any other command first flushes what was collected.  Some requests are
answered by the endpoint itself.  The read path is a program that asks the broker and writes to the
client; `handleReads` runs it over the reads of a session.

`endpoint_keeps_order` says that the requests carry the items of the whole stream, in order, however it
was cut.  What they leave out is what the endpoint answers itself, and a Set Speed whose value is no
speed.
-/
import CatHub.Systems.Program
import CatHub.WinKeyer.Endpoint
import CatHub.WinKeyer.HostGrammar

namespace CatHub.WinKeyer.ReadPath

open Systems

/-! ## The endpoint -/

/-- Permissions assigned to one virtual endpoint. -/
structure EndpointPermissions where
  status : Bool := false
  send : Bool := false
  control : Bool := false
  ptt : Bool := false
  configWrite : Bool := false
  deriving DecidableEq, Repr

/-- What an endpoint asks of the broker and of its client. -/
inductive Ask where
  | stream (controlPrefix text : List UInt8)
  | cancel
  | setSpeed (speed : SpeedMode)
  | configure (command : List UInt8)
  | activeOwnerCommand (command : List UInt8)
  | maintenanceCommand (command : List UInt8)
  | releaseMaintenance
  | snapshot
  /-- One byte for the client. -/
  | write (byte : UInt8)
  deriving DecidableEq, Repr

/-- A request is accepted or refused, and a byte is written or not. -/
abbrev Ask.Answer : Ask → Type
  | .snapshot => BrokerSnapshot
  | _ => Bool

abbrev Call (α : Type) : Type := Program Ask Ask.Answer α

/-- What a session of an endpoint keeps between reads. -/
structure EndpointSession where
  parser : ClientParser := {}
  opened : Bool := false
  maintenanceActive : Bool := false
  sessionMode : SessionMode := .wk1
  deriving DecidableEq, Repr

def parseSpeed (value : UInt8) : Option SpeedMode :=
  if value = 0 then some .pot
  else if inRange 5 99 value then some (.fixed value)
  else none

def isBuffered (command : List UInt8) : Bool :=
  command.head?.any (fun opcode => inRange 0x18 0x1f opcode)

def bufferedAllowed (command : List UInt8) (permissions : EndpointPermissions) : Bool :=
  !(command.head? == some 0x18 || command.head? == some 0x19) || permissions.ptt

/-- Hand the collected bytes over, if there are any; whether the session goes on. -/
def flushStream (bufferedPrefix intendedText : List UInt8) : Call Bool :=
  if bufferedPrefix.isEmpty && intendedText.isEmpty then return true
  else Program.perform (Ask.stream bufferedPrefix intendedText)

/-- Write one byte to the client; without a client the session ends. -/
def writeByte (byte : UInt8) (s : EndpointSession) : Call (Option EndpointSession) := do
  let taken : Bool ← Program.perform (Ask.write byte)
  return if taken then some s else none

/-- Only those who may configure get a maintenance command through; anyone else is cut off. -/
def maintain (permissions : EndpointPermissions) (command : List UInt8) (s : EndpointSession) :
    Call (Option EndpointSession) :=
  if !permissions.configWrite then return none
  else do
    let accepted : Bool ← Program.perform (Ask.maintenanceCommand command)
    return if accepted then some { s with maintenanceActive := true } else none

/-- Handle an Admin command. -/
def handleAdmin (permissions : EndpointPermissions) (command : List UInt8) (s : EndpointSession) :
    Call (Option EndpointSession) :=
  match command[1]? with
  | none => return some s
  | some sub =>
      if sub = 0x02 && permissions.status then do
        let s := { s with opened := true, sessionMode := .wk1 }
        let snapshot : BrokerSnapshot ← Program.perform Ask.snapshot
        writeByte (snapshot.firmwareRevision.getD 0xff) s
      else if sub = 0x03 then do
        let _ : Bool ← Program.perform Ask.releaseMaintenance
        return some { s with opened := false, maintenanceActive := false }
      else if sub = 0x04 && permissions.status then
        match command[2]? with
        | some value => writeByte value s
        | none => return some s
      else if (inRange 0x05 0x07 sub || sub = 0x15 || inRange 0x17 0x18 sub) && permissions.status then
        writeByte 0 s
      else if sub = 0x09 && permissions.status then do
        let snapshot : BrokerSnapshot ← Program.perform Ask.snapshot
        writeByte (snapshot.firmwareRevision.getD 0xff) s
      else if sub = 0x0a && permissions.control then return some { s with sessionMode := .wk1 }
      else if sub = 0x0b && permissions.control then return some { s with sessionMode := .wk2 }
      else if sub = 0x14 && permissions.control then return some { s with sessionMode := .wk3 }
      else if (sub = 0x0f || sub = 0x13 || sub = 0x16 || sub = 0x19) && permissions.control then do
        let _ : Bool ← Program.perform (Ask.configure command)
        return some s
      else maintain permissions command s

/-- Handle a command that is neither buffered nor Clear Buffer; `none` ends the session. -/
def handleCommand (permissions : EndpointPermissions) (command : List UInt8) (s : EndpointSession) :
    Call (Option EndpointSession) :=
  if command.head? = some 0x00 then handleAdmin permissions command s
  else if !s.opened then return some s
  else
    match command.head? with
    | none => return some s
    | some opcode =>
        if opcode = 0x02 && permissions.control then
          match command[1]?.bind parseSpeed with
          | some speed => do
              let _ : Bool ← Program.perform (Ask.setSpeed speed)
              return some s
          | none => return some s
        else if opcode = 0x07 && permissions.status then do
          let snapshot : BrokerSnapshot ← Program.perform Ask.snapshot
          writeByte (0x80 ||| (snapshot.potValue.getD 0 &&& 0x3f)) s
        else if opcode = 0x15 && permissions.status then do
          let snapshot : BrokerSnapshot ← Program.perform Ask.snapshot
          writeByte (synthesizeStatus snapshot s.sessionMode) s
        else
          match commandPolicy command with
          | .transient =>
              if permissions.control then do
                let _ : Bool ← Program.perform (Ask.configure command)
                return some s
              else return some s
          | .activeOwner =>
              if permissions.control && (opcode != 0x0b || permissions.ptt) then do
                let _ : Bool ← Program.perform (Ask.activeOwnerCommand command)
                return some s
              else return some s
          | .maintenance => maintain permissions command s
          | .virtualized => return some s

/-- Handle the bytes of one read, with what was collected from it so far. -/
def handleRead (permissions : EndpointPermissions) :
    List UInt8 → EndpointSession → (bufferedPrefix intendedText : List UInt8) →
      Call (Option EndpointSession)
  | [], s, bufferedPrefix, intendedText => do
      let goesOn ← flushStream bufferedPrefix intendedText
      return if goesOn then some s else none
  | byte :: bytes, s, bufferedPrefix, intendedText =>
      let (parser, item) := s.parser.push byte
      let s := { s with parser }
      match item with
      | none => handleRead permissions bytes s bufferedPrefix intendedText
      | some (.data byte) =>
          if s.opened && permissions.send then
            handleRead permissions bytes s bufferedPrefix (intendedText ++ [byte])
          else handleRead permissions bytes s bufferedPrefix intendedText
      | some (.command command) =>
          if command.head? = some 0x0a then
            -- what this read has collected has not reached the keyer yet
            if permissions.send then do
              let _ : Bool ← Program.perform Ask.cancel
              handleRead permissions bytes s [] []
            else handleRead permissions bytes s [] []
          else if isBuffered command then
            if s.opened && permissions.send && bufferedAllowed command permissions then
              if !intendedText.isEmpty then do
                if ← flushStream bufferedPrefix intendedText then
                  handleRead permissions bytes s command []
                else return none
              else handleRead permissions bytes s (bufferedPrefix ++ command) intendedText
            else handleRead permissions bytes s bufferedPrefix intendedText
          else do
            if ← flushStream bufferedPrefix intendedText then
              match ← handleCommand permissions command s with
              | some s => handleRead permissions bytes s [] []
              | none => return none
            else return none

/-- The reads of a session, as long as it lasts. -/
def handleReads (permissions : EndpointPermissions) :
    List (List UInt8) → EndpointSession → Call (Option EndpointSession)
  | [], s => return some s
  | chunk :: chunks, s => do
      match ← handleRead permissions chunk s [] [] with
      | some s => handleReads permissions chunks s
      | none => return none

/-! ## What reaches the broker -/

/-- The bytes that a request carries. -/
def Ask.carried : Ask → List UInt8
  | .stream controlPrefix text => controlPrefix ++ text
  | .setSpeed speed => speed.command
  | .configure command | .activeOwnerCommand command | .maintenanceCommand command => command
  | .cancel | .releaseMaintenance | .snapshot | .write _ => []

/-- The bytes that the requests carried, in request order. -/
def passed (log : List Ask) : List UInt8 := log.flatMap Ask.carried

theorem passed_concat (log : List Ask) (q : Ask) : passed (log ++ [q]) = passed log ++ q.carried := by
  simp [passed]

/-- A broker that accepts every request, and a client that may stop taking bytes; `log` is what was asked
before. -/
def desk (snapshot : List Ask → BrokerSnapshot) (takes : List Ask → UInt8 → Bool) :
    (q : Ask) → List Ask → q.Answer × List Ask
  | .snapshot, log => (snapshot log, log ++ [.snapshot])
  | .write byte, log => (takes log byte, log ++ [.write byte])
  | .stream controlPrefix text, log => (true, log ++ [.stream controlPrefix text])
  | .cancel, log => (true, log ++ [.cancel])
  | .setSpeed speed, log => (true, log ++ [.setSpeed speed])
  | .configure command, log => (true, log ++ [.configure command])
  | .activeOwnerCommand command, log => (true, log ++ [.activeOwnerCommand command])
  | .maintenanceCommand command, log => (true, log ++ [.maintenanceCommand command])
  | .releaseMaintenance, log => (true, log ++ [.releaseMaintenance])

/-- All permissions. -/
def allPermissions : EndpointPermissions := ⟨true, true, true, true, true⟩

/-- The endpoint answers the item itself: the virtualized Admin commands, the pot and the status. -/
def answeredLocally : ClientItem → Bool
  | .data _ => false
  | .command command =>
      commandPolicy command == .virtualized || command.head? == some 0x07 ||
        command.head? == some 0x15

/-- The item is a Set Speed whose value is no speed. -/
def setsNoSpeed : ClientItem → Bool
  | .data _ => false
  | .command command => command.head? == some 0x02 && (command[1]?.bind parseSpeed).isNone

/-- What is to be passed on of an item. -/
def forwarded (item : ClientItem) : List UInt8 :=
  if answeredLocally item || setsNoSpeed item then [] else item.bytes

/-- The item is well formed, and neither Clear Buffer nor Host Close. -/
structure Ordinary (item : ClientItem) : Prop where
  wellFormed : item.WellFormed
  notClear : item ≠ .command [0x0a]
  notClose : item ≠ .command [0x00, 0x03]

section
variable {snapshot : List Ask → BrokerSnapshot} {takes : List Ask → UInt8 → Bool} {log : List Ask}
  {s : EndpointSession}

/-- The session goes on with this parser and the broker has what is expected of it; or the client did not
take a byte, and the broker has a part of that. -/
def Delivers (takes : List Ask → UInt8 → Bool) (expected : List UInt8) (parser : ClientParser)
    (r : Option EndpointSession × List Ask) : Prop :=
  match r.1 with
  | some s => passed r.2 = expected ∧ s.opened = true ∧ s.parser = parser
  | none => passed r.2 <+: expected ∧ ∃ log byte, takes log byte = false

theorem exec_flushStream (snapshot : List Ask → BrokerSnapshot) (takes : List Ask → UInt8 → Bool)
    (bufferedPrefix intendedText : List UInt8) (log : List Ask) :
    ∃ log', (flushStream bufferedPrefix intendedText).exec (desk snapshot takes) log = (true, log') ∧
      passed log' = passed log ++ (bufferedPrefix ++ intendedText) := by
  unfold flushStream
  split
  · rename_i nothing
    rw [Bool.and_eq_true, List.isEmpty_iff, List.isEmpty_iff] at nothing
    obtain ⟨rfl, rfl⟩ := nothing
    exact ⟨log, rfl, (List.append_nil _).symm⟩
  · exact ⟨log ++ [.stream bufferedPrefix intendedText], rfl, passed_concat _ _⟩

/-- A byte for the client carries nothing. -/
theorem delivers_writeByte (byte : UInt8) (opened : s.opened = true) :
    Delivers takes (passed log) s.parser ((writeByte byte s).exec (desk snapshot takes) log) := by
  have nothing : passed (log ++ [.write byte]) = passed log :=
    (passed_concat log _).trans (List.append_nil _)
  show Delivers takes (passed log) s.parser
    (if takes log byte = true then some s else none, log ++ [.write byte])
  cases taken : takes log byte with
  | true => exact ⟨nothing, opened, rfl⟩
  | false => exact ⟨nothing ▸ List.prefix_refl _, log, byte, taken⟩

/-- Neither does a look at the snapshot before it. -/
theorem delivers_answer (reply : BrokerSnapshot → UInt8) (opened : s.opened = true) :
    Delivers takes (passed log) s.parser
      ((writeByte (reply (snapshot log)) s).exec (desk snapshot takes) (log ++ [.snapshot])) := by
  have nothing : passed (log ++ [.snapshot]) = passed log :=
    (passed_concat log _).trans (List.append_nil _)
  rw [← nothing]
  exact delivers_writeByte _ opened

/-! ### Commands -/

/-- The Admin commands that the endpoint handles itself, but for Host Close, are those that the policy
calls virtualized. -/
theorem virtualized_admin {sub : UInt8} (args : List UInt8) (notClose : sub ≠ 0x03) :
    (commandPolicy (0x00 :: sub :: args) == .virtualized) =
      (sub == 0x02 || sub == 0x04 || (inRange 0x05 0x07 sub || sub == 0x15 || inRange 0x17 0x18 sub) ||
        sub == 0x09 || sub == 0x0a || sub == 0x0b || sub == 0x14) := by
  have policy : (commandPolicy (0x00 :: sub :: args) == .virtualized) =
      (inRange 0x02 0x07 sub || inRange 0x09 0x0b sub || inRange 0x14 0x15 sub ||
        inRange 0x17 0x18 sub) := by
    unfold commandPolicy
    cases virtual : (inRange 0x02 0x07 sub || inRange 0x09 0x0b sub || inRange 0x14 0x15 sub ||
      inRange 0x17 0x18 sub) <;> simp [virtual]
  have table : ∀ k < 256, k ≠ 3 → (inRange 0x02 0x07 k.toUInt8 || inRange 0x09 0x0b k.toUInt8 ||
      inRange 0x14 0x15 k.toUInt8 || inRange 0x17 0x18 k.toUInt8) =
      (k.toUInt8 == 0x02 || k.toUInt8 == 0x04 || (inRange 0x05 0x07 k.toUInt8 || k.toUInt8 == 0x15 ||
        inRange 0x17 0x18 k.toUInt8) || k.toUInt8 == 0x09 || k.toUInt8 == 0x0a || k.toUInt8 == 0x0b ||
        k.toUInt8 == 0x14) := by decide +kernel
  have other : sub.toNat ≠ 3 := fun same => notClose (UInt8.toNat_inj.mp same)
  have entry := table sub.toNat sub.toNat_lt other
  rw [show sub.toNat.toUInt8 = sub from UInt8.ofNat_toNat] at entry
  rw [policy, entry]

theorem forwarded_admin {sub : UInt8} (args : List UInt8) (notClose : sub ≠ 0x03) :
    forwarded (.command (0x00 :: sub :: args)) =
      if (sub == 0x02 || sub == 0x04 || (inRange 0x05 0x07 sub || sub == 0x15 ||
        inRange 0x17 0x18 sub) || sub == 0x09 || sub == 0x0a || sub == 0x0b || sub == 0x14) = true
      then [] else 0x00 :: sub :: args := by
  have plain : (answeredLocally (.command (0x00 :: sub :: args)) ||
      setsNoSpeed (.command (0x00 :: sub :: args))) =
      (commandPolicy (0x00 :: sub :: args) == .virtualized) := by
    simp [answeredLocally, setsNoSpeed]
  rw [forwarded, plain, virtualized_admin args notClose]
  rfl

theorem forwarded_local {item : ClientItem} (here : answeredLocally item = true) :
    forwarded item = [] := by
  rw [forwarded, here]
  rfl

theorem forwarded_other {item : ClientItem} (other : answeredLocally item = false)
    (speed : setsNoSpeed item = false) : forwarded item = item.bytes := by
  rw [forwarded, other, speed]
  rfl

/-- Commands other than Admin go to the profile or to the active owner. -/
theorem policy_cases {opcode : UInt8} (args : List UInt8) (other : opcode ≠ 0x00) :
    commandPolicy (opcode :: args) = .transient ∨ commandPolicy (opcode :: args) = .activeOwner := by
  unfold commandPolicy
  dsimp only
  rw [if_neg (by simpa using other)]
  split
  · exact .inr rfl
  · exact .inl rfl

/-- A speed is the command that asks for it. -/
theorem command_parseSpeed {value : UInt8} {speed : SpeedMode} (parsed : parseSpeed value = some speed) :
    speed.command = [0x02, value] := by
  unfold parseSpeed at parsed
  split at parsed
  · rename_i zero
    obtain rfl := Option.some.inj parsed
    rw [zero]
    rfl
  · split at parsed
    · obtain rfl := Option.some.inj parsed
      rfl
    · cases parsed

/-- With all permissions a maintenance command is passed on. -/
theorem delivers_maintain (command : List UInt8) (opened : s.opened = true) :
    Delivers takes (passed log ++ command) s.parser
      ((maintain allPermissions command s).exec (desk snapshot takes) log) :=
  ⟨passed_concat log (.maintenanceCommand command), opened, rfl⟩

theorem delivers_handleAdmin {sub : UInt8} (args : List UInt8) (notClose : sub ≠ 0x03)
    (opened : s.opened = true) :
    Delivers takes (passed log ++ forwarded (.command (0x00 :: sub :: args))) s.parser
      ((handleAdmin allPermissions (0x00 :: sub :: args) s).exec (desk snapshot takes) log) := by
  rw [forwarded_admin args notClose]
  unfold handleAdmin
  dsimp only [List.getElem?_cons_succ, List.getElem?_cons_zero, allPermissions]
  simp only [Bool.and_true, decide_eq_true_eq]
  by_cases opens : sub = 0x02
  · rw [if_pos opens, if_pos (by simp [opens]), List.append_nil]
    exact delivers_answer (s := { s with opened := true, sessionMode := .wk1 })
      (fun snapshot => snapshot.firmwareRevision.getD 0xff) rfl
  rw [if_neg opens, if_neg notClose]
  by_cases echoes : sub = 0x04
  · rw [if_pos echoes, if_pos (by simp [echoes]), List.append_nil]
    cases args with
    | nil => exact ⟨rfl, opened, rfl⟩
    | cons value args => exact delivers_writeByte value opened
  rw [if_neg echoes]
  by_cases zero : (inRange 0x05 0x07 sub || decide (sub = 0x15) || inRange 0x17 0x18 sub) = true
  · have here : (inRange 0x05 0x07 sub || sub == 0x15 || inRange 0x17 0x18 sub) = true := zero
    rw [if_pos zero, if_pos (by simp only [here, Bool.or_true, Bool.true_or]), List.append_nil]
    exact delivers_writeByte 0 opened
  rw [if_neg zero]
  by_cases revision : sub = 0x09
  · rw [if_pos revision, if_pos (by simp [revision]), List.append_nil]
    exact delivers_answer (fun snapshot => snapshot.firmwareRevision.getD 0xff) opened
  rw [if_neg revision]
  by_cases wk1 : sub = 0x0a
  · rw [if_pos wk1, if_pos (by simp [wk1]), List.append_nil]
    exact ⟨rfl, opened, rfl⟩
  rw [if_neg wk1]
  by_cases wk2 : sub = 0x0b
  · rw [if_pos wk2, if_pos (by simp [wk2]), List.append_nil]
    exact ⟨rfl, opened, rfl⟩
  rw [if_neg wk2]
  by_cases wk3 : sub = 0x14
  · rw [if_pos wk3, if_pos (by simp [wk3]), List.append_nil]
    exact ⟨rfl, opened, rfl⟩
  rw [if_neg wk3]
  -- all others are passed on
  have passes : ¬ (sub == 0x02 || sub == 0x04 || (inRange 0x05 0x07 sub || sub == 0x15 ||
      inRange 0x17 0x18 sub) || sub == 0x09 || sub == 0x0a || sub == 0x0b || sub == 0x14) = true := by
    have zero' : (inRange 0x05 0x07 sub || sub == 0x15 || inRange 0x17 0x18 sub) = false :=
      Bool.eq_false_iff.mpr zero
    simp only [zero', Bool.or_false, Bool.or_eq_true, beq_iff_eq]
    rintro (((((h | h) | h) | h) | h) | h) <;> contradiction
  rw [if_neg passes]
  split
  · exact ⟨passed_concat log (.configure _), opened, rfl⟩
  · exact delivers_maintain _ opened

/-- A command that is not an Admin command. -/
theorem delivers_handleCommand {opcode : UInt8} (args : List UInt8)
    (ordinary : Ordinary (.command (opcode :: args))) (opened : s.opened = true) :
    Delivers takes (passed log ++ forwarded (.command (opcode :: args))) s.parser
      ((handleCommand allPermissions (opcode :: args) s).exec (desk snapshot takes) log) := by
  unfold handleCommand
  rw [List.head?_cons]
  by_cases admin : opcode = 0x00
  · subst admin
    rw [if_pos rfl]
    have len : commandLen (0x00 :: args) = some (args.length + 1) := ordinary.wellFormed
    cases args with
    | nil => exact absurd (Option.some.inj len) (by decide)
    | cons sub args =>
        refine delivers_handleAdmin args (fun close => ?_) opened
        subst close
        have two : args = [] := by
          have size : 2 = args.length + 2 := Option.some.inj len
          exact List.eq_nil_of_length_eq_zero (by omega)
        exact ordinary.notClose (by rw [two])
  rw [if_neg (fun same => admin (Option.some.inj same)), opened]
  dsimp only [allPermissions, Bool.not_true, List.getElem?_cons_succ]
  simp only [Bool.and_true, Bool.or_true, decide_eq_true_eq, if_true]
  by_cases speeds : opcode = 0x02
  · subst speeds
    rw [if_pos rfl]
    obtain ⟨value, rfl⟩ : ∃ value, args = [value] := by
      have len : commandLen (0x02 :: args) = some (args.length + 1) := ordinary.wellFormed
      have two : commandLen (0x02 :: args) = some 2 := by cases args <;> rfl
      have one : args.length = 1 := by
        have same := Option.some.inj (len.symm.trans two)
        omega
      exact List.length_eq_one_iff.mp one
    cases parsed : parseSpeed value with
    | some speed =>
        have some_ : ([value] : List UInt8)[0]?.bind parseSpeed = some speed := parsed
        rw [some_, forwarded_other (by rfl) (by simp [setsNoSpeed, parsed])]
        refine ⟨?_, opened, rfl⟩
        show passed (log ++ [.setSpeed speed]) = passed log ++ [0x02, value]
        rw [passed_concat, ← command_parseSpeed parsed]
        rfl
    | none =>
        have none_ : ([value] : List UInt8)[0]?.bind parseSpeed = none := parsed
        have nothing : forwarded (.command [0x02, value]) = [] := by
          simp [forwarded, setsNoSpeed, parsed]
        rw [none_, nothing, List.append_nil]
        exact ⟨rfl, opened, rfl⟩
  rw [if_neg speeds]
  by_cases pot : opcode = 0x07
  · rw [if_pos pot, forwarded_local (by simp [answeredLocally, pot]), List.append_nil]
    exact delivers_answer (fun snapshot => 0x80 ||| (snapshot.potValue.getD 0 &&& 0x3f)) opened
  rw [if_neg pot]
  by_cases status : opcode = 0x15
  · rw [if_pos status, forwarded_local (by simp [answeredLocally, status]), List.append_nil]
    exact delivers_answer (fun snapshot => synthesizeStatus snapshot s.sessionMode) opened
  rw [if_neg status]
  -- what is left goes to the profile or to the active owner
  have passes : forwarded (.command (opcode :: args)) = opcode :: args := by
    refine forwarded_other ?_ (by simp [setsNoSpeed, speeds])
    rcases policy_cases args admin with transient | owner <;>
      simp [answeredLocally, *]
  rw [passes]
  rcases policy_cases args admin with transient | owner
  · rw [transient]
    exact ⟨passed_concat log (.configure _), opened, rfl⟩
  · rw [owner]
    exact ⟨passed_concat log (.activeOwnerCommand _), opened, rfl⟩

/-- A buffered command is passed on. -/
theorem forwarded_buffered {opcode : UInt8} {args : List UInt8}
    (buffered : isBuffered (opcode :: args) = true) :
    forwarded (.command (opcode :: args)) = opcode :: args := by
  have table : ∀ k < 256, inRange 0x18 0x1f k.toUInt8 = true →
      k.toUInt8 ≠ 0x00 ∧ k.toUInt8 ≠ 0x02 ∧ k.toUInt8 ≠ 0x07 ∧ k.toUInt8 ≠ 0x15 := by decide +kernel
  have entry := table opcode.toNat opcode.toNat_lt
  rw [show opcode.toNat.toUInt8 = opcode from UInt8.ofNat_toNat] at entry
  obtain ⟨admin, speeds, pot, status⟩ := entry (by simpa [isBuffered] using buffered)
  refine forwarded_other ?_ (by simp [setsNoSpeed, speeds])
  rcases policy_cases args admin with transient | owner <;> simp [answeredLocally, *]

theorem Ordinary.command_cons {command : List UInt8} (ordinary : Ordinary (.command command)) :
    ∃ opcode args, command = opcode :: args := by
  cases command with
  | nil => cases ordinary.wellFormed
  | cons opcode args => exact ⟨opcode, args, rfl⟩

theorem Ordinary.head_ne_clear {opcode : UInt8} {args : List UInt8}
    (ordinary : Ordinary (.command (opcode :: args))) : (opcode :: args).head? ≠ some 0x0a := by
  intro clear
  obtain rfl := Option.some.inj clear
  have len : commandLen (0x0a :: args) = some (args.length + 1) := ordinary.wellFormed
  have one : commandLen (0x0a :: args) = some 1 := by cases args <;> rfl
  have none_ : args.length = 0 := by
    have same := Option.some.inj (len.symm.trans one)
    omega
  exact ordinary.notClear (by rw [List.eq_nil_of_length_eq_zero none_])

/-! ### Reads -/

/-- The items that the bytes complete. -/
abbrev itemsOf (parser : ClientParser) (bytes : List UInt8) : List ClientItem := (parser.feed bytes).2

theorem Delivers.mono {expected more : List UInt8} {parser : ClientParser}
    {r : Option EndpointSession × List Ask} (refused : r.1 = none)
    (delivers : Delivers takes expected parser r) (parser' : ClientParser) :
    Delivers takes (expected ++ more) parser' r := by
  obtain ⟨result, log⟩ := r
  obtain rfl : result = none := refused
  exact ⟨delivers.1.trans (List.prefix_append _ _), delivers.2⟩

/-- One read, with what was collected from it so far. -/
theorem delivers_handleRead {bytes : List UInt8} {bufferedPrefix intendedText : List UInt8}
    (opened : s.opened = true) (ordinary : ∀ item ∈ itemsOf s.parser bytes, Ordinary item) :
    Delivers takes (passed log ++ (bufferedPrefix ++ intendedText) ++
        (itemsOf s.parser bytes).flatMap forwarded) (s.parser.feed bytes).1
      ((handleRead allPermissions bytes s bufferedPrefix intendedText).exec (desk snapshot takes) log) := by
  induction bytes generalizing s bufferedPrefix intendedText log with
  | nil =>
      obtain ⟨log', flushed, carried⟩ := exec_flushStream snapshot takes bufferedPrefix intendedText log
      unfold handleRead
      rw [Program.exec_bind, flushed]
      exact ⟨carried.trans (List.append_nil _).symm, opened, rfl⟩
  | cons byte bytes ih =>
      rcases pushed : s.parser.push byte with ⟨parser, item⟩
      have fed : s.parser.feed (byte :: bytes) =
          ((parser.feed bytes).1, item.toList ++ (parser.feed bytes).2) := by
        rw [ClientParser.feed_cons, pushed]
      unfold itemsOf at ordinary ⊢
      rw [fed] at ordinary ⊢
      unfold handleRead
      rw [pushed]
      dsimp only at ordinary ⊢
      cases item with
      | none => exact ih opened ordinary
      | some item =>
          rw [Option.toList_some, List.singleton_append] at ordinary ⊢
          obtain ⟨here, later⟩ := List.forall_mem_cons.mp ordinary
          rw [List.flatMap_cons]
          have sends : (s.opened && allPermissions.send) = true := by
            rw [opened]
            rfl
          cases item with
          | data byte =>
              have grown : passed log ++ (bufferedPrefix ++ intendedText) ++
                  (forwarded (.data byte) ++ (parser.feed bytes).2.flatMap forwarded) =
                  passed log ++ (bufferedPrefix ++ (intendedText ++ [byte])) ++
                    (parser.feed bytes).2.flatMap forwarded := by
                simp [forwarded, answeredLocally, setsNoSpeed, ClientItem.bytes]
              dsimp only
              rw [if_pos sends, grown]
              exact ih opened later
          | command command =>
              obtain ⟨opcode, args, rfl⟩ := here.command_cons
              dsimp only
              rw [if_neg here.head_ne_clear]
              obtain ⟨log', flushed, carried⟩ :=
                exec_flushStream snapshot takes bufferedPrefix intendedText log
              by_cases buffered : isBuffered (opcode :: args) = true
              · -- a buffered command is collected, behind a flush of the text before it
                have allowed : (s.opened && allPermissions.send &&
                    bufferedAllowed (opcode :: args) allPermissions) = true := by
                  rw [sends]
                  exact Bool.or_true _
                rw [if_pos buffered, if_pos allowed, forwarded_buffered buffered]
                cases intendedText with
                | nil =>
                    have grown : passed log ++ (bufferedPrefix ++ []) ++
                        (opcode :: args ++ (parser.feed bytes).2.flatMap forwarded) =
                        passed log ++ (bufferedPrefix ++ (opcode :: args) ++ []) ++
                          (parser.feed bytes).2.flatMap forwarded := by simp
                    rw [if_neg (by simp), grown]
                    exact ih opened later
                | cons first text =>
                    have grown : passed log ++ (bufferedPrefix ++ first :: text) ++
                        (opcode :: args ++ (parser.feed bytes).2.flatMap forwarded) =
                        passed log' ++ (opcode :: args ++ []) ++
                          (parser.feed bytes).2.flatMap forwarded := by
                      rw [carried]
                      simp
                    have collected : (!(first :: text).isEmpty) = true := rfl
                    rw [if_pos collected, Program.exec_bind, flushed, if_pos rfl, grown]
                    exact ih opened later
              · -- any other command is handled behind a flush of what was collected
                rw [if_neg buffered, Program.exec_bind, flushed, if_pos rfl, Program.exec_bind, ← carried,
                  ← List.append_assoc]
                have handled : Delivers takes (passed log' ++ forwarded (.command (opcode :: args))) parser
                    ((handleCommand allPermissions (opcode :: args) { s with parser }).exec
                      (desk snapshot takes) log') := delivers_handleCommand args here opened
                rcases ran : (handleCommand allPermissions (opcode :: args) { s with parser }).exec
                  (desk snapshot takes) log' with ⟨_ | s', log''⟩
                · rw [ran] at handled
                  exact handled.mono rfl _
                · rw [ran] at handled
                  obtain ⟨told, stays, same⟩ := handled
                  dsimp only at told stays same ⊢
                  subst same
                  have next : Delivers takes
                      (passed log'' ++ ([] ++ []) ++ (s'.parser.feed bytes).2.flatMap forwarded)
                      (s'.parser.feed bytes).1
                      ((handleRead allPermissions bytes s' [] []).exec (desk snapshot takes) log'') :=
                    ih stays later
                  rw [List.append_nil, List.append_nil, told] at next
                  exact next

/-- All reads of a session. -/
theorem delivers_handleReads {chunks : List (List UInt8)} (opened : s.opened = true)
    (ordinary : ∀ item ∈ itemsOf s.parser chunks.flatten, Ordinary item) :
    Delivers takes (passed log ++ (itemsOf s.parser chunks.flatten).flatMap forwarded)
      (s.parser.feed chunks.flatten).1
      ((handleReads allPermissions chunks s).exec (desk snapshot takes) log) := by
  induction chunks generalizing s log with
  | nil => exact ⟨(List.append_nil _).symm, opened, rfl⟩
  | cons chunk chunks ih =>
      unfold itemsOf at ordinary ⊢
      rw [List.flatten_cons, ClientParser.feed_append] at ordinary ⊢
      dsimp only at ordinary ⊢
      obtain ⟨now, later⟩ := List.forall_mem_append.mp ordinary
      rw [List.flatMap_append, ← List.append_assoc]
      unfold handleReads
      rw [Program.exec_bind]
      have read : Delivers takes (passed log ++ (s.parser.feed chunk).2.flatMap forwarded)
          (s.parser.feed chunk).1
          ((handleRead allPermissions chunk s [] []).exec (desk snapshot takes) log) := by
        have whole : Delivers takes
            (passed log ++ ([] ++ []) ++ (s.parser.feed chunk).2.flatMap forwarded)
            (s.parser.feed chunk).1
            ((handleRead allPermissions chunk s [] []).exec (desk snapshot takes) log) :=
          delivers_handleRead opened now
        rw [List.append_nil, List.append_nil] at whole
        exact whole
      rcases ran : (handleRead allPermissions chunk s [] []).exec (desk snapshot takes) log with
        ⟨_ | s', log'⟩
      · rw [ran] at read
        exact read.mono rfl _
      · rw [ran] at read
        obtain ⟨told, stays, same⟩ := read
        dsimp only at told stays same ⊢
        rw [← same] at later ⊢
        rw [← told]
        exact ih stays later

end

/-- Whatever a session has read since its parser was new, and however the stream that follows is cut into
reads: the requests carry every item of the stream that is to be passed on, once and in order.  If the
client stops taking bytes they carry the front of that, and a client that takes them all never ends the
session. -/
theorem endpoint_keeps_order (s : EndpointSession) (opened : s.opened = true) (earlier : List UInt8)
    (parsing : s.parser = (ClientParser.feed {} earlier).1) (chunks : List (List UInt8))
    (noClear : ClientItem.command [0x0a] ∉ itemsOf s.parser chunks.flatten)
    (noClose : ClientItem.command [0x00, 0x03] ∉ itemsOf s.parser chunks.flatten)
    (snapshot : List Ask → BrokerSnapshot) (takes : List Ask → UInt8 → Bool) :
    let r := (handleReads allPermissions chunks s).exec (desk snapshot takes) []
    let expected := (itemsOf s.parser chunks.flatten).flatMap forwarded
    passed r.2 <+: expected ∧ (r.1 ≠ none → passed r.2 = expected) ∧
      ((∀ log byte, takes log byte = true) → r.1 ≠ none) := by
  intro r expected
  have ordinary : ∀ item ∈ itemsOf s.parser chunks.flatten, Ordinary item := by
    intro item mem
    refine ⟨?_, ne_of_mem_of_not_mem mem noClear, ne_of_mem_of_not_mem mem noClose⟩
    -- an item of the stream is an item of all that the parser was fed
    have whole := wellFormed_feed (earlier ++ chunks.flatten)
    rw [ClientParser.feed_append, ← parsing] at whole
    exact whole item (List.mem_append_right _ mem)
  have delivered : Delivers takes expected (s.parser.feed chunks.flatten).1 r :=
    delivers_handleReads opened ordinary
  rcases ran : r with ⟨_ | s', log⟩
  · rw [ran] at delivered
    obtain ⟨front, log', byte, refused⟩ := delivered
    refine ⟨front, fun ends => absurd rfl ends, fun takesAll => ?_⟩
    exact absurd (takesAll log' byte) (by rw [refused]; decide)
  · rw [ran] at delivered
    obtain ⟨all, -, -⟩ := delivered
    exact ⟨all ▸ List.prefix_refl _, fun _ => all, fun _ ends => by cases ends⟩

/-- A session that has sent Host Open. -/
def openedSession : EndpointSession := { opened := true }

/-- A broker with an idle keyer, and a client that takes every byte. -/
def idleDesk : (q : Ask) → List Ask → q.Answer × List Ask :=
  desk (fun _ => ⟨some 23, true, false, false, false, none, none, none, none, 0, none, none⟩) fun _ _ => true

/-- Text around a buffered command and a speed, with a cut inside of each of the two commands. -/
theorem endpoint_keeps_order_cut :
    let r := (handleReads allPermissions [[0x43, 0x1c], [20, 0x51, 0x02], [25, 0x15, 0x4b]]
      openedSession).exec idleDesk []
    passed r.2 = [0x43, 0x1c, 20, 0x51, 0x02, 25, 0x4b] := by
  intro r
  obtain ⟨-, whole, lasts⟩ := endpoint_keeps_order openedSession rfl [] rfl
    [[0x43, 0x1c], [20, 0x51, 0x02], [25, 0x15, 0x4b]] (by decide) (by decide) _ _
  exact whole (lasts fun _ _ => rfl)

/-- A Set Speed whose value is no speed is neither answered nor passed on. -/
theorem endpoint_drops_speed :
    let r := (handleReads allPermissions [[0x02, 3]] openedSession).exec idleDesk []
    itemsOf openedSession.parser [0x02, 3] = [.command [0x02, 3]] ∧
      answeredLocally (.command [0x02, 3]) = false ∧
      r.1 = some openedSession ∧ passed r.2 = [] := by
  decide

end CatHub.WinKeyer.ReadPath
