/-
# CatHub.Dialect.HamlibNet — the Hamlib NET endpoint.

A `rigctld`-compatible server: one command a line, with a short and a long name, in the plain
protocol or in the extended one, where a separator in front selects labeled records.  Reads are
answered from the snapshot; writes go through `applyModeled`, always for the VFO that receives, and
only `set_split_vfo` asks for a transmit VFO.
-/
import CatHub.Dialect.Session
import CatHub.Radio.Hamlib

namespace CatHub.Dialect.HamlibNet

open Systems Radio Ptt

open Radio.Ts590 (ascii decimal trim isWhitespace scalar)

/-! ## Text -/

/-- A text as UTF-8. -/
def encode (text : List Char) : List UInt8 := text.flatMap String.utf8EncodeChar

/-- What stands for bytes that are no text. -/
def replacement : Char := '\uFFFD'

def isContinuation (byte : UInt8) : Bool := 0x80 ≤ byte && byte < 0xC0

/-- Whether a byte may follow the first one of a sequence: no overlong form, no surrogate, nothing
beyond Unicode. -/
def follows (lead byte : UInt8) : Bool :=
  if lead = 0xE0 then 0xA0 ≤ byte && byte < 0xC0
  else if lead = 0xED then 0x80 ≤ byte && byte < 0xA0
  else if lead = 0xF0 then 0x90 ≤ byte && byte < 0xC0
  else if lead = 0xF4 then 0x80 ≤ byte && byte < 0x90
  else isContinuation byte

/-- The character of a sequence: the low bits of its lead byte, then six of each further one. -/
def sequenceChar (lead : Nat) (continuation : List UInt8) : Char :=
  Char.ofNat (continuation.foldl (fun value byte => value * 64 + byte.toNat % 64) lead)

/-- Decode UTF-8; the beginning of a sequence that goes on wrongly is replaced as a whole. -/
def fromUtf8Lossy : List UInt8 → List Char
  | [] => []
  | lead :: rest =>
      if lead < 0x80 then Char.ofNat lead.toNat :: fromUtf8Lossy rest
      else if lead < 0xC2 || 0xF5 ≤ lead then replacement :: fromUtf8Lossy rest
      else match rest with
        | [] => [replacement]
        | b₁ :: rest =>
            if !follows lead b₁ then replacement :: fromUtf8Lossy (b₁ :: rest)
            else if lead < 0xE0 then sequenceChar (lead.toNat % 32) [b₁] :: fromUtf8Lossy rest
            else match rest with
              | [] => [replacement]
              | b₂ :: rest =>
                  if !isContinuation b₂ then replacement :: fromUtf8Lossy (b₂ :: rest)
                  else if lead < 0xF0 then
                    sequenceChar (lead.toNat % 16) [b₁, b₂] :: fromUtf8Lossy rest
                  else match rest with
                    | [] => [replacement]
                    | b₃ :: rest =>
                        if !isContinuation b₃ then replacement :: fromUtf8Lossy (b₃ :: rest)
                        else sequenceChar (lead.toNat % 8) [b₁, b₂, b₃] :: fromUtf8Lossy rest

/-- A number as text. -/
def number (n : Nat) : List Char := (decimal 1 n).map (fun byte => Char.ofNat byte.toNat)

def signed (i : Int) : List Char := if i < 0 then '-' :: number i.natAbs else number i.natAbs

def flag (on : Bool) : List Char := [if on then '1' else '0']

/-- Lines, each with its line feed. -/
def lines (texts : List (List Char)) : List UInt8 := encode (texts.flatMap (· ++ ['\n']))

/-! ## Commands -/

/-- The commands of the protocol, but for the one that quits. -/
inductive Command where
  | setFreq
  | setMode
  | setVfo
  | setPtt
  | setSplitVfo
  | setRit
  | setXit
  | getFreq
  | getMode
  | getVfo
  | getPtt
  | getSplitVfo
  | getSplitFreq
  | getSplitMode
  | getLevel
  | power2mW
  | getRit
  | getXit
  | getVfoInfo
  | getPowerstat
  | chkVfo
  | dumpState
  deriving DecidableEq, Repr

namespace Command

/-- The long name, as an extended reply echoes it. -/
def longName : Command → List Char
  | .setFreq => ['s', 'e', 't', '_', 'f', 'r', 'e', 'q']
  | .setMode => ['s', 'e', 't', '_', 'm', 'o', 'd', 'e']
  | .setVfo => ['s', 'e', 't', '_', 'v', 'f', 'o']
  | .setPtt => ['s', 'e', 't', '_', 'p', 't', 't']
  | .setSplitVfo => ['s', 'e', 't', '_', 's', 'p', 'l', 'i', 't', '_', 'v', 'f', 'o']
  | .setRit => ['s', 'e', 't', '_', 'r', 'i', 't']
  | .setXit => ['s', 'e', 't', '_', 'x', 'i', 't']
  | .getFreq => ['g', 'e', 't', '_', 'f', 'r', 'e', 'q']
  | .getMode => ['g', 'e', 't', '_', 'm', 'o', 'd', 'e']
  | .getVfo => ['g', 'e', 't', '_', 'v', 'f', 'o']
  | .getPtt => ['g', 'e', 't', '_', 'p', 't', 't']
  | .getSplitVfo => ['g', 'e', 't', '_', 's', 'p', 'l', 'i', 't', '_', 'v', 'f', 'o']
  | .getSplitFreq => ['g', 'e', 't', '_', 's', 'p', 'l', 'i', 't', '_', 'f', 'r', 'e', 'q']
  | .getSplitMode => ['g', 'e', 't', '_', 's', 'p', 'l', 'i', 't', '_', 'm', 'o', 'd', 'e']
  | .getLevel => ['g', 'e', 't', '_', 'l', 'e', 'v', 'e', 'l']
  | .power2mW => ['p', 'o', 'w', 'e', 'r', '2', 'm', 'W']
  | .getRit => ['g', 'e', 't', '_', 'r', 'i', 't']
  | .getXit => ['g', 'e', 't', '_', 'x', 'i', 't']
  | .getVfoInfo => ['g', 'e', 't', '_', 'v', 'f', 'o', '_', 'i', 'n', 'f', 'o']
  | .getPowerstat => ['g', 'e', 't', '_', 'p', 'o', 'w', 'e', 'r', 's', 't', 'a', 't']
  | .chkVfo => ['c', 'h', 'k', '_', 'v', 'f', 'o']
  | .dumpState => ['d', 'u', 'm', 'p', '_', 's', 't', 'a', 't', 'e']

/-- The one-letter name, for those that have one. -/
def shortName : Command → Option Char
  | .setFreq => some 'F'
  | .setMode => some 'M'
  | .setVfo => some 'V'
  | .setPtt => some 'T'
  | .setSplitVfo => some 'S'
  | .setRit => some 'J'
  | .setXit => some 'Z'
  | .getFreq => some 'f'
  | .getMode => some 'm'
  | .getVfo => some 'v'
  | .getPtt => some 't'
  | .getSplitVfo => some 's'
  | .getSplitFreq => some 'i'
  | .getSplitMode => some 'x'
  | .getLevel => some 'l'
  | .power2mW => some '2'
  | .getRit => some 'j'
  | .getXit => some 'z'
  | _ => none

/-- The commands with a long name. -/
def named : List Command :=
  [.setFreq, .setMode, .setVfo, .setPtt, .setSplitVfo, .setRit, .setXit, .getFreq, .getMode,
   .getVfo, .getPtt, .getSplitVfo, .getSplitFreq, .getSplitMode, .getLevel, .power2mW, .getRit,
   .getXit, .getVfoInfo, .getPowerstat, .chkVfo, .dumpState]

/-- The command that a word names. -/
def parse (word : List Char) : Option Command :=
  named.find? fun command =>
    word == '\\' :: command.longName || command.shortName.any (fun name => word == [name])

end Command

/-- What handling a line comes to. -/
inductive LineResult where
  | reply (bytes : List UInt8)
  | quit
  deriving DecidableEq, Repr

def rprtOk : List UInt8 := ascii ['R', 'P', 'R', 'T', ' ', '0', '\n']
/-- Invalid or not permitted. -/
def rprtEinval : List UInt8 := ascii ['R', 'P', 'R', 'T', ' ', '-', '1', '\n']
/-- Not available on this backend. -/
def rprtEnavail : List UInt8 := ascii ['R', 'P', 'R', 'T', ' ', '-', '1', '1', '\n']

def outcomeRprt : ApplyOutcome → List UInt8
  | .ok => rprtOk
  | _ => rprtEinval

theorem outcomeRprt_ok {outcome : ApplyOutcome} (h : outcomeRprt outcome = rprtOk) :
    outcome = .ok := by
  cases outcome <;> first | rfl | exact absurd h (by decide)

/-! ## What the endpoint presents -/

/-- The VFO shown where `requested` is asked for. -/
def presentedVfo (ctx : Context) (snapshot : Snapshot) (requested : Vfo) : Vfo :=
  if ctx.singleVfo then snapshot.rxVfo else requested

def presentedVfoName (ctx : Context) (real : Vfo) : List Char :=
  if ctx.singleVfo then vfoName .a else vfoName real

def presentedSplit (ctx : Context) (snapshot : Snapshot) : Bool := !ctx.singleVfo && snapshot.split

/-- A requested VFO, VFO A by default. -/
def parseVfoArg (arg : Option (List Char)) : Vfo :=
  if arg.any (fun v => eqIgnoreAsciiCase v (vfoName .b)) then .b else .a

/-- A frequency in whole Hz: an integer, or a decimal whose fraction is dropped. -/
def parseFreqHz (arg : List Char) : Option Nat :=
  (parseUnsigned (2 ^ 64) arg).or do
    let (whole, _) ← splitOnce '.' arg
    parseUnsigned (2 ^ 64) whole

def modeToken (v : VfoSnapshot) : List Char := v.mode.hamlibTokenWithData v.data

/-! ## The plain protocol -/

/-- Answer a read to those who may read. -/
def guardRead (ctx : Context) (answer : List UInt8) : List UInt8 :=
  if ctx.perms.allows .modeledRead then answer else rprtEinval

/-- What the read commands answer, from the snapshot. -/
def readReply (ctx : Context) (snapshot : Snapshot) (args : List (List Char)) :
    Command → Option (List UInt8)
  | .getFreq => some (guardRead ctx (lines [number (snapshot.vfo snapshot.rxVfo).freqHz]))
  | .getMode =>
      let v := snapshot.vfo snapshot.rxVfo
      some (guardRead ctx (lines [modeToken v, number v.passbandHz]))
  | .getVfo => some (guardRead ctx (lines [presentedVfoName ctx snapshot.rxVfo]))
  | .getVfoInfo =>
      let v := snapshot.vfo (presentedVfo ctx snapshot (parseVfoArg args.head?))
      some (guardRead ctx (lines [number v.freqHz, modeToken v, number v.passbandHz,
        flag (presentedSplit ctx snapshot), ['0']]))
  | .getSplitVfo =>
      let split := presentedSplit ctx snapshot
      some (guardRead ctx (lines [flag split,
        presentedVfoName ctx (if split then snapshot.txVfo else snapshot.rxVfo)]))
  | .getSplitFreq =>
      let hz := (snapshot.vfo snapshot.txVfo).freqHz
      some (guardRead ctx
        (if ctx.singleVfo ∨ hz = 0 then rprtEnavail else lines [number hz]))
  | .getSplitMode =>
      let v := snapshot.vfo snapshot.txVfo
      some (guardRead ctx
        (if ctx.singleVfo ∨ v.modeKnown = false then rprtEnavail
        else lines [modeToken v, number v.passbandHz]))
  | .getLevel =>
      some (guardRead ctx
        (if args.head?.any (fun level =>
            eqIgnoreAsciiCase level ['R', 'F', 'P', 'O', 'W', 'E', 'R']) then
          match snapshot.txPower with
          | some power => lines [power.relativeDecimal]
          | none => rprtEnavail
        else rprtEnavail))
  | .power2mW =>
      some (guardRead ctx
        (match snapshot.txPower, args.head?.bind TxPower.parseRelativeMillionths,
            args[1]?, args[2]? with
          | some power, some relative, some _, some _ =>
              match power.milliwattsForRelative relative with
              | some milliwatts => lines [number milliwatts]
              | none => rprtEnavail
          | _, _, _, _ => rprtEnavail))
  | .getPtt => some (guardRead ctx (lines [flag snapshot.ptt]))
  | .getPowerstat => some (guardRead ctx (lines [flag snapshot.powerOn]))
  | .getRit =>
      some (guardRead ctx
        (lines [signed (if snapshot.ritEnabled then snapshot.ritOffsetHz else 0)]))
  | .getXit =>
      some (guardRead ctx
        (lines [signed (if snapshot.xitEnabled then snapshot.xitOffsetHz else 0)]))
  | .dumpState => some ctx.dumpState
  | .chkVfo => some (lines [['0']])
  | .setFreq | .setMode | .setVfo | .setPtt | .setSplitVfo | .setRit | .setXit => none

/-- Apply one modeled write and report its outcome. -/
def write (ctx : Context) (mutation : StateMutation) (cls : CommandClass) :
    Session (List UInt8) := do
  let outcome ← applyModeled ctx mutation cls
  return outcomeRprt outcome

/-- A mode is two writes, the base mode and the DATA flag; an unknown token is rejected. -/
def setMode (ctx : Context) (rxVfo : Vfo) (token : List Char) : Session (List UInt8) :=
  let (base, data) := Mode.decomposeHamlibToken token
  if base = .unknown then return rprtEinval
  else do
    let modeOutcome ← applyModeled ctx (.setMode rxVfo base) .modeledWrite
    if modeOutcome = .ok then write ctx (.setDataMode rxVfo data) .modeledWrite
    else return outcomeRprt modeOutcome

/-- An offset; a zero offset disables the feature. -/
def setOffset (ctx : Context) (available : Bool) (args : List (List Char))
    (mutation : Int → Bool → StateMutation) : Session (List UInt8) :=
  if !available then return rprtEnavail
  else
    match args.head?.bind parseI32 with
    | some offsetHz => write ctx (mutation offsetHz (offsetHz != 0)) .modeledWrite
    | none => return rprtEinval

/-- What the set commands do. -/
def set (ctx : Context) (snapshot : Snapshot) (args : List (List Char)) :
    Command → Session (List UInt8)
  | .setFreq =>
      match args.head?.bind parseFreqHz with
      | some hz => write ctx (.setVfoFreq snapshot.rxVfo hz) .modeledWrite
      | none => return rprtEinval
  | .setMode =>
      match args.head? with
      | some token => setMode ctx snapshot.rxVfo token
      | none => return rprtEinval
  | .setSplitVfo =>
      let enabled := args.head? == some ['1']
      if !ctx.perms.allows .modeledWrite then return rprtEinval
      -- A single-VFO endpoint has no split to turn on, and turning it off is no work.
      else if ctx.singleVfo then return if enabled then rprtEnavail else rprtOk
      else write ctx (.setSplit enabled (some (parseVfoArg args[1]?))) .modeledWrite
  | .setPtt =>
      let (keyed, source) : Bool × PttSource :=
        if args.head? = some ['1'] then (true, .generic)
        else if args.head? = some ['2'] then (true, .mic)
        else if args.head? = some ['3'] then (true, .data)
        else (false, .generic)
      write ctx (.setPtt keyed source) .pttWrite
  -- Selecting the active VFO is accepted, and nothing is done about it.
  | .setVfo => return if ctx.perms.allows .modeledWrite then rprtOk else rprtEinval
  | .setRit => setOffset ctx ctx.hasRit args .setRit
  | .setXit => setOffset ctx ctx.hasXit args .setXit
  | _ => return rprtEnavail

/-- Dispatch one plain command. -/
def dispatchPlain (cmd : List Char) (args : List (List Char)) (ctx : Context) :
    Session LineResult := do
  let snapshot ← Session.snapshot
  if cmd = ['q'] ∨ cmd = ['Q'] then return .quit
  else
    match Command.parse cmd with
    | none => return .reply rprtEnavail
    | some command =>
        match readReply ctx snapshot args command with
        | some bytes => return .reply bytes
        | none => do
            let bytes ← set ctx snapshot args command
            return .reply bytes

/-- A word that names a command does not quit. -/
theorem Command.not_quit {word : List Char} {command : Command} (named : parse word = some command) :
    ¬ (word = ['q'] ∨ word = ['Q']) := by
  have q : parse ['q'] = none := by decide
  have Q : parse ['Q'] = none := by decide
  rintro (rfl | rfl)
  · cases q.symm.trans named
  · cases Q.symm.trans named

/-! ## The extended protocol -/

/-- The separator that a line begins with, and the rest of the line. -/
def splitErp : List Char → Option (Char × List Char)
  | '+' :: rest => some ('\n', rest)
  | ';' :: rest => some (';', rest)
  | '|' :: rest => some ('|', rest)
  | ',' :: rest => some (',', rest)
  | _ => none

/-- Join records with a separator and end the block with a line feed. -/
def erpRecords (sep : Char) (records : List (List Char)) : List UInt8 :=
  encode (List.intercalate [sep] records ++ ['\n'])

/-- The header that echoes a command. -/
def extEcho (cmd : List Char) (args : List (List Char)) : List Char :=
  let name := ((Command.parse cmd).map Command.longName).getD cmd
  if args.isEmpty then name ++ [':'] else name ++ [':', ' '] ++ List.intercalate [' '] args

/-- A record with its label. -/
def labeled (label value : List Char) : List Char := label ++ [':', ' '] ++ value

def erpOk : List Char := ['R', 'P', 'R', 'T', ' ', '0']

/-- The reads that have labels of their own. -/
def labeledReply (ctx : Context) (snapshot : Snapshot) (command : Option Command) :
    Option (List (List Char)) :=
  let v := snapshot.vfo snapshot.rxVfo
  if !ctx.perms.allows .modeledRead then none
  else
    match command with
    | some .getFreq => some
        [Command.getFreq.longName ++ [':'],
          labeled ['F', 'r', 'e', 'q', 'u', 'e', 'n', 'c', 'y'] (number v.freqHz), erpOk]
    | some .getMode => some
        [Command.getMode.longName ++ [':'],
          labeled ['M', 'o', 'd', 'e'] (modeToken v),
          labeled ['P', 'a', 's', 's', 'b', 'a', 'n', 'd'] (number v.passbandHz), erpOk]
    | some .getVfo => some
        [Command.getVfo.longName ++ [':'],
          labeled ['V', 'F', 'O'] (presentedVfoName ctx snapshot.rxVfo), erpOk]
    | some .getPtt => some
        [Command.getPtt.longName ++ [':'],
          labeled ['P', 'T', 'T'] (flag snapshot.ptt), erpOk]
    | _ => none

/-- The extended form of the poll of one VFO. -/
def vfoInfoRecords (ctx : Context) (snapshot : Snapshot) (args : List (List Char)) :
    List (List Char) :=
  let vfo := presentedVfo ctx snapshot (parseVfoArg args.head?)
  let v := snapshot.vfo vfo
  [labeled Command.getVfoInfo.longName (presentedVfoName ctx vfo),
   labeled ['F', 'r', 'e', 'q'] (number v.freqHz),
   labeled ['M', 'o', 'd', 'e'] (modeToken v),
   labeled ['W', 'i', 'd', 't', 'h'] (number v.passbandHz),
   labeled ['S', 'p', 'l', 'i', 't'] (flag (presentedSplit ctx snapshot)),
   labeled ['S', 'a', 't', 'M', 'o', 'd', 'e'] ['0'], erpOk]

/-- The plain reply as records, ended by a status. -/
def plainRecords (echo : List Char) (bytes : List UInt8) : List (List Char) :=
  let records := echo :: words (· == '\n') (fromUtf8Lossy bytes)
  if records.any (['R', 'P', 'R', 'T'].isPrefixOf ·) then records else records ++ [erpOk]

/-- The list of VFOs that `V ?` asks for. -/
def vfoList (ctx : Context) (sep : Char) : List UInt8 :=
  encode (labeled Command.setVfo.longName ['?', sep] ++
    (if ctx.singleVfo then vfoName .a ++ [' '] else vfoName .a ++ [' '] ++ vfoName .b ++ [' ']) ++
    ['\n'] ++ erpOk ++ ['\n'])

/-- Handle one extended command. -/
def handleExt (sep : Char) (rest : List Char) (ctx : Context) : Session (List UInt8) :=
  match words isWhitespace rest with
  | [] => return []
  | cmd :: args => do
      let snapshot ← Session.snapshot
      let command := Command.parse cmd
      if command = some .setVfo ∧ args.head? = some ['?'] then return vfoList ctx sep
      else if command = some .getVfoInfo then
        return erpRecords sep <|
          if ctx.perms.allows .modeledRead then vfoInfoRecords ctx snapshot args
          else [extEcho cmd args, ['R', 'P', 'R', 'T', ' ', '-', '1']]
      else
        match labeledReply ctx snapshot command with
        | some records => return erpRecords sep records
        | none => do
            match ← dispatchPlain cmd args ctx with
            | .quit => return []
            | .reply bytes => return erpRecords sep (plainRecords (extEcho cmd args) bytes)

/-- Handle one protocol line. -/
def handleLine (line : List Char) (ctx : Context) : Session LineResult :=
  match splitErp (trim line) with
  | some (sep, rest) => do
      let bytes ← handleExt sep rest ctx
      return .reply bytes
  | none =>
      match words isWhitespace line with
      | [] => return .reply []
      | cmd :: args => dispatchPlain cmd args ctx

/-! ## Delivery -/

/-- The longest line a listener reads. -/
def maxLineLen : Nat := 4096

/-- The lines that a connection delivers; an overlong line closes it. -/
def requestLines : List UInt8 → List UInt8 → List (List UInt8)
  | [], _ => []
  | byte :: stream, line =>
      if byte = 0x0A then line :: requestLines stream []
      else if maxLineLen ≤ line.length then []
      else requestLines stream (line ++ [byte])

/-- The text of a line, without a carriage return at its end. -/
def requestText (line : List UInt8) : List Char :=
  fromUtf8Lossy (if line.getLast? = some 0x0D then line.dropLast else line)

/-- Handle the bytes of one line. -/
def handle (line : List UInt8) (ctx : Context) : Session LineResult :=
  handleLine (requestText line) ctx

/-- What the client is sent for a result. -/
def sent : LineResult → List UInt8
  | .reply bytes => bytes
  | .quit => []

/-! ## What a line asks for -/

/-- The words of a line, or of what follows its separator. -/
def lineWords (line : List UInt8) : List (List Char) :=
  match splitErp (trim (requestText line)) with
  | some (_, rest) => words isWhitespace rest
  | none => words isWhitespace (requestText line)

/-- A command with these arguments may ask for the mutation. -/
def Requested (args : List (List Char)) : Command → StateMutation → Prop
  | .setFreq, .setVfoFreq _ hz => args.head?.bind parseFreqHz = some hz
  | .setMode, .setMode .. | .setMode, .setDataMode .. | .setSplitVfo, .setSplit ..
  | .setPtt, .setPtt .. | .setRit, .setRit .. | .setXit, .setXit .. => True
  | _, _ => False

/-- The line may ask for the mutation. -/
def AsksFor (line : List UInt8) (mutation : StateMutation) : Prop :=
  ∃ word args command, lineWords line = word :: args ∧ Command.parse word = some command ∧
    Requested args command mutation

section
variable {ctx : Context} {P : Question → Prop}

/-- `P` lets through everything but submissions, and the modeled writes that `R` allows. -/
structure LetsThrough (P : Question → Prop) (R : StateMutation → Prop) : Prop where
  other : ∀ q, (∀ sessionId priority kind, q ≠ .submit sessionId priority kind) → P q
  submits : ∀ mutation, R mutation → ∀ sessionId priority,
    P (.submit sessionId priority (.apply mutation))

namespace LetsThrough

variable {R : StateMutation → Prop} {args : List (List Char)} {snapshot : Snapshot}

theorem write (lets : LetsThrough P R) {mutation : StateMutation} {cls : CommandClass}
    (requested : R mutation) : (write ctx mutation cls).Asks P :=
  (asks_applyModeled_of lets.other (fun _ => lets.submits mutation requested)).bind
    (fun _ => trivial)

theorem setMode (lets : LetsThrough P R) {rxVfo : Vfo} {token : List Char}
    (mode : ∀ base, R (.setMode rxVfo base)) (data : ∀ on, R (.setDataMode rxVfo on)) :
    (setMode ctx rxVfo token).Asks P := by
  unfold HamlibNet.setMode
  dsimp only
  split
  · trivial
  · refine (asks_applyModeled_of lets.other (fun _ => lets.submits _ (mode _))).bind
      (fun outcome => ?_)
    split
    · exact lets.write (data _)
    · trivial

theorem setOffset (lets : LetsThrough P R) {available : Bool} {mutation : Int → Bool → StateMutation}
    (requested : ∀ offsetHz enabled, R (mutation offsetHz enabled)) :
    (setOffset ctx available args mutation).Asks P := by
  unfold HamlibNet.setOffset
  cases available with
  | false => trivial
  | true =>
      cases args.head?.bind parseI32 with
      | none => trivial
      | some offsetHz => exact lets.write (requested _ _)

theorem set {command : Command} (lets : LetsThrough P (Requested args command)) :
    (set ctx snapshot args command).Asks P := by
  cases command with
  | setFreq =>
      unfold HamlibNet.set
      cases parsed : args.head?.bind parseFreqHz with
      | none => trivial
      | some hz => exact lets.write parsed
  | setMode =>
      unfold HamlibNet.set
      cases args.head? with
      | none => trivial
      | some token => exact lets.setMode (fun _ => trivial) (fun _ => trivial)
  | setSplitVfo =>
      unfold HamlibNet.set
      dsimp only
      split
      · trivial
      · split
        · trivial
        · exact lets.write trivial
  | setPtt => exact lets.write trivial
  | setRit => exact lets.setOffset (fun _ _ => trivial)
  | setXit => exact lets.setOffset (fun _ _ => trivial)
  | _ => trivial

theorem dispatchPlain {cmd : List Char}
    (lets : ∀ command, Command.parse cmd = some command → LetsThrough P (Requested args command))
    (look : P .snapshot) : (dispatchPlain cmd args ctx).Asks P := by
  refine ⟨look, fun snapshot => ?_⟩
  dsimp only [Program.bind]
  split
  · trivial
  · cases parsed : Command.parse cmd with
    | none => trivial
    | some command =>
        dsimp only
        cases readReply ctx snapshot args command with
        | some bytes => trivial
        | none => exact (lets command parsed).set.bind (fun _ => trivial)

theorem handleExt {sep : Char} {rest : List Char}
    (lets : ∀ word args command, words isWhitespace rest = word :: args →
      Command.parse word = some command → LetsThrough P (Requested args command))
    (look : P .snapshot) : (handleExt sep rest ctx).Asks P := by
  unfold HamlibNet.handleExt
  cases text : words isWhitespace rest with
  | nil => trivial
  | cons cmd args =>
      refine ⟨look, fun snapshot => ?_⟩
      dsimp only [Program.bind]
      split
      · trivial
      · split
        · trivial
        · split
          · trivial
          · refine (dispatchPlain (fun command => lets cmd args command text) look).bind
              (fun result => ?_)
            cases result <;> trivial

/-- A line submits only what it may ask for. -/
theorem handle {line : List UInt8} (lets : LetsThrough P (AsksFor line)) :
    (handle line ctx).Asks P := by
  have look := lets.other .snapshot (fun _ _ _ same => nomatch same)
  have each : ∀ word args command, lineWords line = word :: args →
      Command.parse word = some command → LetsThrough P (Requested args command) :=
    fun word args command text parsed => ⟨lets.other,
      fun mutation requested => lets.submits mutation ⟨word, args, command, text, parsed, requested⟩⟩
  unfold HamlibNet.handle handleLine
  unfold lineWords at each
  cases extended : splitErp (trim (requestText line)) with
  | some parts =>
      rw [extended] at each
      exact (handleExt each look).bind (fun _ => trivial)
  | none =>
      rw [extended] at each
      cases text : words isWhitespace (requestText line) with
      | nil => trivial
      | cons cmd args => exact dispatchPlain (fun command => each cmd args command text) look

end LetsThrough

end

end CatHub.Dialect.HamlibNet
