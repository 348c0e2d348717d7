/-
# CatHub.Dialect.SingleVfoNet — what a single-VFO Hamlib NET endpoint tells of A and B.

Two snapshots are `ReadAlike` when their operating VFOs hold the same and the transmitters are alike;
which VFO operates, what the other one holds, and where the radio transmits in split are free.  A read
asks for nothing but the snapshot and picks its VFO, its VFO name and its split flag through
`presentedVfo`, `presentedVfoName` and `presentedSplit`, or is refused, so that its reply is the same.
-/
import CatHub.Dialect.Retarget

namespace CatHub.Dialect.HamlibNet

open Systems Radio Ptt

open Radio.Ts590 (ascii trim isWhitespace)

/-! ## Snapshots that read alike -/

/-- The snapshots agree on the operating VFO and on the transmitter. -/
structure ReadAlike (s₁ s₂ : Snapshot) : Prop where
  freq : (s₁.vfo s₁.rxVfo).freqHz = (s₂.vfo s₂.rxVfo).freqHz
  mode : (s₁.vfo s₁.rxVfo).mode = (s₂.vfo s₂.rxVfo).mode
  data : (s₁.vfo s₁.rxVfo).data = (s₂.vfo s₂.rxVfo).data
  passband : (s₁.vfo s₁.rxVfo).passbandHz = (s₂.vfo s₂.rxVfo).passbandHz
  ptt : s₁.ptt = s₂.ptt
  power : s₁.txPower = s₂.txPower
  powerOn : s₁.powerOn = s₂.powerOn
  ritEnabled : s₁.ritEnabled = s₂.ritEnabled
  ritOffset : s₁.ritOffsetHz = s₂.ritOffsetHz
  xitEnabled : s₁.xitEnabled = s₂.xitEnabled
  xitOffset : s₁.xitOffsetHz = s₂.xitOffsetHz

/-- The commands that write nothing; `set_vfo` is accepted without effect, and with `?` lists the
VFOs. -/
def Command.isRead : Command → Bool
  | .setFreq | .setMode | .setPtt | .setSplitVfo | .setRit | .setXit => false
  | _ => true

/-- The line names no command that writes. -/
def IsRead (line : List UInt8) : Prop :=
  ∀ command, (commandWord line).bind Command.parse = some command → command.isRead = true

theorem ReadAlike.refl (s : Snapshot) : ReadAlike s s :=
  ⟨rfl, rfl, rfl, rfl, rfl, rfl, rfl, rfl, rfl, rfl, rfl⟩

/-- Related answers: snapshots that read alike. -/
def AnswersAlike : (q : Question) → q.Answer → q.Answer → Prop
  | .snapshot, s₁, s₂ => ReadAlike s₁ s₂
  | _, _, _ => True

theorem AnswersAlike.refl (q : Question) (answer : q.Answer) : AnswersAlike q answer answer := by
  cases q with
  | snapshot => exact ReadAlike.refl answer
  | _ => trivial

/-- Two sessions that only look, and cannot tell snapshots apart that read alike. -/
abbrev LookAlike {α : Type} (session₁ session₂ : Session α) : Prop :=
  Program.Matching (· = .snapshot) AnswersAlike session₁ session₂

/-! ## The replies -/

section
variable {ctx : Context} {s₁ s₂ : Snapshot}

theorem modeToken_alike (alike : ReadAlike s₁ s₂) :
    modeToken (s₁.vfo s₁.rxVfo) = modeToken (s₂.vfo s₂.rxVfo) := by
  rw [modeToken, modeToken, alike.mode, alike.data]

/-- The records of the plain protocol. -/
theorem readReply_alike (single : ctx.singleVfo = true) (alike : ReadAlike s₁ s₂)
    (args : List (List Char)) (command : Command) :
    readReply ctx s₁ args command = readReply ctx s₂ args command := by
  cases command with
  | getFreq => simp only [readReply, alike.freq]
  | getMode => simp only [readReply, modeToken_alike alike, alike.passband]
  | getVfo => simp only [readReply, presentedVfoName, single, if_true]
  | getVfoInfo =>
      simp only [readReply, presentedVfo, presentedSplit, single, if_true, Bool.not_true,
        Bool.false_and, alike.freq, modeToken_alike alike, alike.passband]
  | getSplitVfo =>
      simp only [readReply, presentedVfoName, presentedSplit, single, if_true, Bool.not_true,
        Bool.false_and]
  | getSplitFreq => simp only [readReply, single, true_or, if_true]
  | getSplitMode => simp only [readReply, single, true_or, if_true]
  | getLevel => simp only [readReply, alike.power]
  | power2mW => simp only [readReply, alike.power]
  | getPtt => simp only [readReply, alike.ptt]
  | getPowerstat => simp only [readReply, alike.powerOn]
  | getRit => simp only [readReply, alike.ritEnabled, alike.ritOffset]
  | getXit => simp only [readReply, alike.xitEnabled, alike.xitOffset]
  | _ => rfl

/-- The labeled records of the extended protocol. -/
theorem labeledReply_alike (single : ctx.singleVfo = true) (alike : ReadAlike s₁ s₂)
    (command : Option Command) :
    labeledReply ctx s₁ command = labeledReply ctx s₂ command := by
  simp only [labeledReply, presentedVfoName, single, if_true, alike.freq, modeToken_alike alike,
    alike.passband, alike.ptt]

theorem vfoInfoRecords_alike (single : ctx.singleVfo = true) (alike : ReadAlike s₁ s₂)
    (args : List (List Char)) :
    vfoInfoRecords ctx s₁ args = vfoInfoRecords ctx s₂ args := by
  simp only [vfoInfoRecords, presentedVfo, presentedVfoName, presentedSplit, single, if_true,
    Bool.not_true, Bool.false_and, alike.freq, modeToken_alike alike, alike.passband]

/-- A command without a reply of its own is a write, but for `set_vfo`. -/
theorem set_of_isRead {s : Snapshot} {args : List (List Char)} {command : Command}
    (read : command.isRead = true) (none : readReply ctx s args command = none) :
    set ctx s args command =
      .done (if ctx.perms.allows .modeledWrite then rprtOk else rprtEinval) := by
  cases command with
  | setVfo => rfl
  | setFreq | setMode | setPtt | setSplitVfo | setRit | setXit => cases read
  | _ => cases none

end

/-! ## Reads -/

section
variable {ctx : Context}

theorem dispatchPlain_alike (single : ctx.singleVfo = true) {cmd : List Char}
    (read : ∀ command, Command.parse cmd = some command → command.isRead = true)
    (args : List (List Char)) :
    LookAlike (dispatchPlain cmd args ctx) (dispatchPlain cmd args ctx) := by
  refine .ask rfl (fun s₁ s₂ alike => ?_)
  dsimp only [Program.bind]
  split
  · exact .done _
  · cases parsed : Command.parse cmd with
    | none => exact .done _
    | some command =>
        dsimp only
        rw [← readReply_alike single alike args command]
        cases reply : readReply ctx s₁ args command with
        | some bytes => exact .done _
        | none =>
            have reply₂ := (readReply_alike single alike args command).symm.trans reply
            rw [set_of_isRead (read command parsed) reply, set_of_isRead (read command parsed) reply₂]
            exact .done _

theorem handleExt_alike (single : ctx.singleVfo = true) {sep : Char} {rest : List Char}
    (read : ∀ command, (words isWhitespace rest).head?.bind Command.parse = some command →
      command.isRead = true) :
    LookAlike (handleExt sep rest ctx) (handleExt sep rest ctx) := by
  unfold handleExt
  cases text : words isWhitespace rest with
  | nil => exact .done _
  | cons cmd args =>
      rw [text] at read
      refine .ask rfl (fun s₁ s₂ alike => ?_)
      dsimp only [Program.bind]
      rw [vfoInfoRecords_alike single alike, labeledReply_alike single alike]
      split
      · exact .done _
      · split
        · exact .done _
        · split
          · exact .done _
          · refine (dispatchPlain_alike single read args).bind (fun result => ?_)
            cases result <;> exact .done _

theorem handle_alike (single : ctx.singleVfo = true) {line : List UInt8} (read : IsRead line) :
    LookAlike (handle line ctx) (handle line ctx) := by
  unfold IsRead commandWord at read
  unfold handle handleLine
  cases extended : splitErp (trim (requestText line)) with
  | some parts =>
      rw [extended] at read
      exact (handleExt_alike single read).bind (fun _ => .done _)
  | none =>
      rw [extended] at read
      cases text : words isWhitespace (requestText line) with
      | nil => exact .done _
      | cons cmd args =>
          simp only [text, List.head?_cons, Option.bind_some] at read
          exact dispatchPlain_alike single read args

end

/-- **A single-VFO endpoint cannot tell A from B.**  A read, of any arguments and in either protocol,
asks for nothing but the snapshot, and two of its runs, whose snapshots agree on the operating VFO and
on the transmitter, end with the same reply. -/
theorem single_vfo_read {ctx : Context} (single : ctx.singleVfo = true) {line : List UInt8}
    (read : IsRead line) :
    (handle line ctx).Asks (· = .snapshot) ∧
      ∀ trace₁ trace₂ result₁ result₂, Runs (handle line ctx) trace₁ result₁ →
        Runs (handle line ctx) trace₂ result₂ →
        (∀ e₁ ∈ trace₁, ∀ e₂ ∈ trace₂, ReadAlike e₁.before.state.snapshot e₂.before.state.snapshot) →
        result₁ = result₂ := by
  refine ⟨(handle_alike single read).asks AnswersAlike.refl,
    fun trace₁ trace₂ result₁ result₂ run₁ run₂ alike => ?_⟩
  refine (handle_alike single read).run
    (fun w₁ w₂ => ReadAlike w₁.state.snapshot w₂.state.snapshot) ?_ run₁ run₂ alike
  rintro q w₁ w₂ answer₁ answer₂ after₁ after₂ rfl here ⟨rfl, -⟩ ⟨rfl, -⟩
  exact here

/-- A logger that is shown one VFO. -/
def oneVfoNet : Context := ⟨0, ⟨true, false, false, false, false⟩, true, true, true, []⟩

/-- A hub that operates on the given VFO, the transmitter on B. -/
def splitOn (vfo : Vfo) : World :=
  ⟨{ snapshot := { rxVfo := vfo, txVfo := .b, split := vfo != .b } }, { maxTx := 0 }, false, 0⟩

/-- The poll that a logger sends for VFO B. -/
def pollOfB : List UInt8 :=
  ascii ['+', '\\', 'g', 'e', 't', '_', 'v', 'f', 'o', '_', 'i', 'n', 'f', 'o', ' ', 'V', 'F', 'O', 'B']

/-- The poll of VFO B is answered alike where A operates in split and where B operates. -/
theorem single_vfo_read_poll : ∃ trace₁ trace₂ result₁ result₂,
    Runs (handle pollOfB oneVfoNet) trace₁ result₁ ∧ Runs (handle pollOfB oneVfoNet) trace₂ result₂ ∧
      trace₁.map (·.before) = [splitOn .a] ∧ trace₂.map (·.before) = [splitOn .b] ∧
      result₁ = result₂ := by
  let look : World → Trace := fun w => [⟨w, .snapshot, w.state.snapshot, w⟩]
  have read : IsRead pollOfB := by
    have command : (commandWord pollOfB).bind Command.parse = some .getVfoInfo := by decide
    intro other named
    rw [command] at named
    obtain rfl := Option.some.inj named
    rfl
  have onA : Runs (handle pollOfB oneVfoNet) (look (splitOn .a)) _ := .ask ⟨rfl, rfl⟩ (.done _)
  have onB : Runs (handle pollOfB oneVfoNet) (look (splitOn .b)) _ := .ask ⟨rfl, rfl⟩ (.done _)
  refine ⟨_, _, _, _, onA, onB, rfl, rfl, (single_vfo_read rfl read).2 _ _ _ _ onA onB ?_⟩
  simp only [look, List.forall_mem_singleton]
  exact ⟨rfl, rfl, rfl, rfl, rfl, rfl, rfl, rfl, rfl, rfl, rfl⟩

end CatHub.Dialect.HamlibNet
