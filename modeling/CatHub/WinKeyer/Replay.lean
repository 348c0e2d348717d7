/-
# CatHub.WinKeyer.Replay — what a replayed profile reproduces of the client's configuration.

A profile keeps the last command with each key, and a replay writes them in the order of the keys.
The keyer ends as after the client's own commands if no command overwrites what another one sets.
Load Defaults does: it sets the registers of all others, and its key `0x0f` lies among theirs.  The
replay is right exactly when the client's last commands stand on the same side of its last Load
Defaults as their keys do.

This file is about the commands and the registers of one keyer.  That the profile is written in front
of a job is the subject of `Freshness`.
-/
import CatHub.WinKeyer.Freshness

namespace CatHub.WinKeyer

open Systems BrokerCore

/-! ## Keyers -/

/-- The opcode of Load Defaults. -/
def loadDefaults : UInt8 := 0x0f

/-- The registers of a keyer: which ones a command overwrites, by its opcode, and with what.  Load
Defaults overwrites every register that another command does.  Any other command has its registers to
itself. -/
structure Keyer (ρ ν : Type) where
  covers : UInt8 → ρ → Bool
  value : List UInt8 → ρ → ν
  single : ∀ a b r, a ≠ loadDefaults → b ≠ loadDefaults → covers a r = true → covers b r = true → a = b
  defaults : ∀ a r, covers a r = true → covers loadDefaults r = true

namespace Keyer

variable {ρ ν : Type} (K : Keyer ρ ν)

/-- What a command writes to a register, if it overwrites it. -/
def sets (command : List UInt8) (r : ρ) : Option ν :=
  if command.head?.any (fun opcode => K.covers opcode r) then some (K.value command r) else none

/-- The state after a sequence of commands. -/
def run (s : ρ → ν) (commands : List (List UInt8)) : ρ → ν := execute K.sets s commands

end Keyer

/-! ## The client's own sequence -/

/-- The commands that `c` has configured since it registered, when those before a call were `log`. -/
def configuredOn (c : ClientId) (log : List (List UInt8)) (e : BrokerCall) : List (List UInt8) :=
  match e.input with
  | .registerClient d primary => if d = c ∧ (e.before.registerClient d primary).2 then [] else log
  | .unregisterClient d _ => if d = c then [] else log
  | .setClientCommand d command =>
      if d = c ∧ (e.before.setClientCommand d command).isSome then log ++ [command] else log
  | _ => log

def configured (c : ClientId) (history : BrokerHistory) : List (List UInt8) :=
  history.foldl (configuredOn c) []

/-- Going on from `core` writes `chunks` as the profile of `c`, whose job starts or who is the
foreground. -/
structure ReplayOf (core : BrokerCore) (clock : Nat) (c : ClientId) (chunks : List (List UInt8)) :
    Prop where
  idle : core.active = none
  unmarked : core.appliedProfileClientId ≠ some c
  next : core.queue.head?.elim (core.foreground.map Prod.fst) (fun job => some job.clientId) = some c
  writes : writes (core.startNextOrRestore clock).2 =
    chunks ++ (core.startNextOrRestore clock).1.closing

/-- Every replay for `c` brings every keyer, from any state, to agree with one that executed
`commands`, on the registers that these set. -/
def Reproduces (c : ClientId) (client : ClientState) (commands : List (List UInt8)) : Prop :=
  ∀ (core : BrokerCore) (clock : Nat) (chunks : List (List UInt8)),
    core.clients[c]? = some client → ReplayOf core clock c chunks →
    ∀ (ρ ν : Type) (K : Keyer ρ ν) (s t : ρ → ν) (r : ρ),
      (∃ x ∈ commands, (K.sets x r).isSome) → K.run s chunks r = K.run t commands r

/-- Behind the last Load Defaults of a sequence stand exactly the commands of the sequence whose
opcodes are greater; each of them may stand in front of it as well. -/
def DefaultsInOrder (commands : List (List UInt8)) : Prop :=
  ∀ before d after, commands = before ++ d :: after → d.head? = some loadDefaults →
    (∀ x ∈ after, x.head? ≠ some loadDefaults) →
    ∀ x ∈ commands, ∀ opcode, x.head? = some opcode → opcode ≠ loadDefaults →
      (loadDefaults < opcode ↔ ∃ y ∈ after, y.head? = some opcode)

/-! ## The profile is the client's sequence -/

theorem opcode_of_transient {command : List UInt8} (transient : commandPolicy command = .transient) :
    ∃ opcode, command.head? = some opcode ∧ profileKey command = some opcode.toNat := by
  cases command with
  | nil => cases transient
  | cons opcode arguments =>
      have other : opcode ≠ 0 := by
        rintro rfl
        simp only [commandPolicy, beq_self_eq_true, if_true] at transient
        split at transient <;> cases transient
      refine ⟨opcode, rfl, ?_⟩
      unfold profileKey
      split <;> simp_all

/-- A command that is accepted is stored under its key. -/
theorem setClientCommand_stores {core core' : BrokerCore} {c : ClientId} {command : List UInt8}
    {actions : List PhysicalAction}
    (set : core.setClientCommand c command = some (core', actions)) :
    ∃ key client, profileKey command = some key ∧ core.clients[c]? = some client ∧
      core'.clients =
        (core.withClient c { client with profile := client.profile.insert key command }).clients := by
  unfold BrokerCore.setClientCommand at set
  split at set
  · cases set
  rename_i key keyed
  split at set
  · cases set
  rename_i client known
  refine ⟨key, client, keyed, known, ?_⟩
  split at set
  · obtain ⟨rfl, _⟩ := Prod.mk.inj (Option.some.inj set)
    cases speedPotMinimum command <;> rfl
  · split at set
    · obtain ⟨rfl, _⟩ := Prod.mk.inj (Option.some.inj set)
      rfl
    · obtain ⟨rfl, _⟩ := Prod.mk.inj (Option.some.inj set)
      rfl

/-- The stored command with a key is the last one that the client configured with it. -/
def Recorded (c : ClientId) (log : List (List UInt8)) (core : BrokerCore) : Prop :=
  ∀ client : ClientState, core.clients[c]? = some client →
    ∀ key : Nat, client.profile[key]? = latest profileKey log key

section Recording

variable {c : ClientId} {log : List (List UInt8)} {core core' : BrokerCore} {answer : Answer}

theorem recorded_registerClient (recorded : Recorded c log core) (d : ClientId) (primary : Bool) :
    Recorded c (configuredOn c log ⟨core, .registerClient d primary, answer, core'⟩)
      (core.registerClient d primary).1 := by
  show Recorded c (if d = c ∧ (core.registerClient d primary).2 then [] else log) _
  by_cases refused : primary && core.clients.toList.any (fun e => e.2.primary)
  · have nothing : core.registerClient d primary = (core, false) := if_pos refused
    simpa [nothing] using recorded
  · have accepted : core.registerClient d primary = (core.withClient d
        { desiredSpeed := .pot, primary, profile := ∅ }, true) := if_neg refused
    rw [accepted]
    intro client known key
    change (core.withClient d { desiredSpeed := .pot, primary, profile := ∅ }).clients[c]? =
      some client at known
    rw [clients_withClient] at known
    by_cases here : d = c
    · rw [if_pos here.symm, Option.some.injEq] at known
      subst known
      simp [here]
    · rw [if_neg (fun same => here same.symm)] at known
      simpa [here] using recorded client known key

theorem recorded_unregisterClient (recorded : Recorded c log core) (d : ClientId) (clock : Nat) :
    Recorded c (configuredOn c log ⟨core, .unregisterClient d clock, answer, core'⟩)
      (core.unregisterClient d clock).1 := by
  intro client known key
  rw [unregisterClient_clients, clients_erase] at known
  by_cases here : d = c
  · rw [if_pos here.symm] at known
    cases known
  · rw [if_neg (fun same => here same.symm)] at known
    simpa [configuredOn, here] using recorded client known key

/-- A command that is accepted is the last of its sequence. -/
theorem recorded_setClientCommand (recorded : Recorded c log core) {d : ClientId}
    {command : List UInt8} {actions : List PhysicalAction}
    (set : core.setClientCommand d command = some (core', actions)) :
    Recorded c (if d = c then log ++ [command] else log) core' := by
  obtain ⟨key, old, keyed, held, clients⟩ := setClientCommand_stores set
  intro client known key'
  rw [clients, clients_withClient] at known
  by_cases here : d = c
  · subst here
    rw [if_pos rfl, Option.some.injEq] at known
    subst known
    rw [if_pos rfl, latest_append, latest_singleton, Std.TreeMap.getElem?_insert, keyed]
    by_cases same : key = key'
    · simp [same]
    · simpa [same] using recorded old held key'
  · rw [if_neg (fun same => here same.symm)] at known
    rw [if_neg here]
    exact recorded client known key'

/-- A call that makes no entry and changes no profile. -/
theorem Recorded.of_profiles (recorded : Recorded c log core)
    (profiles : ∀ client : ClientState, core'.clients[c]? = some client →
      ∃ old, core.clients[c]? = some old ∧ client.profile = old.profile) : Recorded c log core' := by
  intro client known key
  obtain ⟨old, held, profile⟩ := profiles client known
  rw [profile]
  exact recorded old held key

theorem recorded_step (recorded : Recorded c log core) {op : BrokerOp}
    (step : broker.step core op = some (core', answer)) :
    Recorded c (configuredOn c log ⟨core, op, answer, core'⟩) core' := by
  have after : core' = (op.apply core).1 := by
    simp only [broker, Option.ite_none_left_eq_some] at step
    exact congrArg Prod.fst (Option.some.inj step.2).symm
  have entry : op.within = true → ∀ client : ClientState, core'.clients[c]? = some client →
      Entry core c op client := by
    intro within client known
    rw [after] at known
    exact (apply_course core within).entry known
  cases op with
  | registerClient d primary =>
      subst after
      exact recorded_registerClient recorded d primary
  | unregisterClient d clock =>
      subst after
      exact recorded_unregisterClient recorded d clock
  | setClientCommand d command =>
      show Recorded c (if d = c ∧ (core.setClientCommand d command).isSome then log ++ [command]
        else log) core'
      subst after
      simp only [BrokerOp.apply]
      cases set : core.setClientCommand d command with
      | none => simpa using recorded
      | some result =>
          obtain ⟨next, actions⟩ := result
          simpa using recorded_setClientCommand recorded set
  | setClientSpeed d speed =>
      refine recorded.of_profiles (fun client known => ?_)
      cases entry rfl client known with
      | kept held => exact ⟨client, held, rfl⟩
      | paced held => exact ⟨_, held, rfl⟩
  | connectPhysical | physicalError | restoreForeground =>
      subst after
      exact recorded
  | _ =>
      refine recorded.of_profiles (fun client known => ?_)
      cases entry rfl client known with
      | kept held => exact ⟨client, held, rfl⟩

end Recording

/-- **The stored profile of a client is what it configured: for each key its last command.** -/
theorem recorded_of_execution {maxTx : Nat} {history : BrokerHistory} {core : BrokerCore}
    (run : broker.Execution (.new maxTx) history core) (c : ClientId) :
    Recorded c (configured c history) core := by
  refine run.invariant (I := fun history core => Recorded c (configured c history) core) ?_ ?_
  · intro client known
    simp [BrokerCore.new] at known
  · intro history s op answer t _ recorded step
    rw [configured, List.foldl_append]
    exact recorded_step recorded step

/-! ## What a replay is -/

/-- The profile of `c` that going on writes is the one in the table. -/
theorem ReplayOf.chunks_eq {core : BrokerCore} {clock : Nat} {c : ClientId}
    {chunks : List (List UInt8)} (replay : ReplayOf core clock c chunks) {client : ClientState}
    (known : core.clients[c]? = some client) : chunks = storedCommands client.profile := by
  have same : chunks = core.replayed :=
    List.append_cancel_right (replay.writes.symm.trans (closing_startNextOrRestore replay.idle clock))
  have next := replay.next
  rw [same, BrokerCore.replayed]
  cases queue : core.queue with
  | cons job rest =>
      rw [queue] at next
      obtain rfl : job.clientId = c := Option.some.inj next
      simp only [writes_profileReplay]
      rw [if_pos replay.unmarked, known]
      rfl
  | nil =>
      rw [queue] at next
      obtain ⟨e, foreground, rfl⟩ := Option.map_eq_some_iff.mp next
      have entry : core.clients[e.1]? = some e.2 :=
        Std.TreeMap.mem_toList_iff_getElem?_eq_some.mp (List.mem_of_find?_eq_some foreground)
      obtain rfl := Option.some.inj (entry.symm.trans known)
      simp only [foregroundReplay, foreground]
      exact if_pos (fun marked => replay.unmarked marked.symm)

/-- `chunks` holds the last command of `commands` with each opcode, in the order of the opcodes. -/
structure LastByOpcode (commands chunks : List (List UInt8)) : Prop where
  ordered : chunks.Pairwise (fun x y => ∀ a b, x.head? = some a → y.head? = some b → a < b)
  last : ∀ opcode x, x ∈ chunks ∧ x.head? = some opcode ↔ latest List.head? commands opcode = some x

/-- The stored commands of a client that configured only transient commands. -/
theorem storedCommands_last {commands : List (List UInt8)} {profile : Profile}
    (recorded : ∀ key : Nat, profile[key]? = latest profileKey commands key)
    (transient : ∀ x ∈ commands, commandPolicy x = .transient) :
    LastByOpcode commands (storedCommands profile) := by
  -- A transient command has its opcode for a key.
  have same : ∀ opcode : UInt8,
      latest profileKey commands opcode.toNat = latest List.head? commands opcode := by
    intro opcode
    refine latest_congr (fun x mem => ?_)
    obtain ⟨code, head, keyed⟩ := opcode_of_transient (transient x mem)
    rw [head, keyed]
    simp [UInt8.toNat_inj]
  have entry : ∀ e ∈ profile.toList, ∃ opcode : UInt8, e.2.head? = some opcode ∧
      e.1 = opcode.toNat := by
    intro e mem
    have stored := Std.TreeMap.mem_toList_iff_getElem?_eq_some.mp mem
    rw [recorded] at stored
    obtain ⟨configured, keyed⟩ := mem_of_latest stored
    obtain ⟨opcode, head, keyed'⟩ := opcode_of_transient (transient e.2 configured)
    exact ⟨opcode, head, Option.some.inj (keyed.symm.trans keyed')⟩
  refine ⟨?_, fun opcode x => ?_⟩
  · unfold storedCommands
    rw [List.pairwise_map]
    refine (Std.TreeMap.ordered_keys_toList (t := profile)).imp_of_mem ?_
    intro e f he hf less a b ha hb
    obtain ⟨opcode, head, number⟩ := entry e he
    obtain ⟨opcode', head', number'⟩ := entry f hf
    obtain rfl := Option.some.inj (head.symm.trans ha)
    obtain rfl := Option.some.inj (head'.symm.trans hb)
    rw [number, number'] at less
    exact UInt8.lt_iff_toNat_lt.mpr (Nat.compare_eq_lt.mp less)
  · rw [← same, ← recorded]
    constructor
    · rintro ⟨mem, head⟩
      obtain ⟨e, held, rfl⟩ := List.mem_map.mp mem
      obtain ⟨opcode', head', number⟩ := entry e held
      obtain rfl := Option.some.inj (head'.symm.trans head)
      rw [← number]
      exact Std.TreeMap.mem_toList_iff_getElem?_eq_some.mp held
    · intro stored
      have held := Std.TreeMap.mem_toList_iff_getElem?_eq_some.mpr stored
      obtain ⟨opcode', head, number⟩ := entry _ held
      refine ⟨List.mem_map.mpr ⟨_, held, rfl⟩, ?_⟩
      rw [UInt8.toNat_inj.mp number]
      exact head

/-! ## Executing the replay -/

namespace Keyer

variable {ρ ν : Type} (K : Keyer ρ ν)

theorem sets_isSome {command : List UInt8} {r : ρ} :
    (K.sets command r).isSome ↔ ∃ opcode, command.head? = some opcode ∧ K.covers opcode r = true := by
  unfold sets
  cases command with
  | nil => simp
  | cons opcode arguments => cases covers : K.covers opcode r <;> simp [covers]

theorem sets_of_covers {command : List UInt8} {opcode : UInt8} {r : ρ}
    (head : command.head? = some opcode) (covers : K.covers opcode r = true) :
    K.sets command r = some (K.value command r) := by
  simp [sets, head, covers]

/-- A register that the command `x` of a replay covers has what `x` wrote, unless a command with a
greater opcode covers it. -/
theorem run_replay {commands chunks : List (List UInt8)} (kept : LastByOpcode commands chunks)
    {x : List UInt8} {opcode : UInt8} (mem : x ∈ chunks) (head : x.head? = some opcode) {r : ρ}
    (covers : K.covers opcode r = true)
    (greater : ∀ y ∈ chunks, ∀ opcode', y.head? = some opcode' → opcode < opcode' →
      K.covers opcode' r = false) (s : ρ → ν) : K.run s chunks r = K.value x r := by
  obtain ⟨front, back, rfl⟩ := List.append_of_mem mem
  refine execute_last (K.sets_of_covers head covers) (fun y hy => ?_) s
  have behind := (List.pairwise_cons.mp (List.pairwise_append.mp kept.ordered).2.1).1 y hy
  rw [← Option.not_isSome_iff_eq_none, sets_isSome]
  rintro ⟨opcode', head', covers'⟩
  have bare := greater y (by simp [hy]) opcode' head' (behind opcode opcode' head head')
  rw [bare] at covers'
  cases covers'

end Keyer

section Comparison

variable {commands chunks : List (List UInt8)}

/-- If the last command on a register is `x`, no stored command behind `x` may cover it. -/
theorem run_agrees (kept : LastByOpcode commands chunks) (ordered : DefaultsInOrder commands)
    {ρ ν : Type} (K : Keyer ρ ν) (s t : ρ → ν) {r : ρ} (set : ∃ x ∈ commands, (K.sets x r).isSome) :
    K.run s chunks r = K.run t commands r := by
  obtain ⟨front, x, back, split, covering, others⟩ := exists_last set
  obtain ⟨opcode, head, covers⟩ := K.sets_isSome.mp covering
  have own : K.run t commands r = K.value x r := by
    rw [split]
    exact execute_last (K.sets_of_covers head covers)
      (fun y hy => Option.not_isSome_iff_eq_none.mp (others y hy)) t
  have last : latest List.head? commands opcode = some x := by
    rw [split]
    exact latest_append_cons head (fun y hy same => others y hy (K.sets_isSome.mpr ⟨_, same, covers⟩))
  obtain ⟨stored, _⟩ := (kept.last opcode x).mpr last
  rw [own]
  refine K.run_replay kept stored head covers (fun y hy opcode' head' greater => ?_) s
  rw [← Bool.not_eq_true]
  intro covers'
  obtain ⟨mem, _⟩ := mem_of_latest ((kept.last opcode' y).mp ⟨hy, head'⟩)
  by_cases defaults : opcode = loadDefaults
  · -- `x` is the last Load Defaults, so a greater opcode comes again behind it.
    subst defaults
    have again := ordered front x back split head
      (fun z hz same => others z hz (K.sets_isSome.mpr ⟨_, same, covers⟩)) y mem opcode' head'
      (fun same => UInt8.lt_irrefl _ (same ▸ greater))
    obtain ⟨z, hz, same⟩ := again.mp greater
    exact others z hz (K.sets_isSome.mpr ⟨_, same, covers'⟩)
  · -- `y` is a Load Defaults in front of `x`, whose opcode is then the greater one.
    have defaults' : opcode' = loadDefaults := by
      by_contra other
      rw [K.single opcode opcode' r defaults other covers covers'] at greater
      exact UInt8.lt_irrefl _ greater
    subst defaults'
    have before : y ∈ front := by
      rw [split] at mem
      rcases List.mem_append.mp mem with front' | rest
      · exact front'
      rcases List.mem_cons.mp rest with rfl | back'
      · exact absurd (Option.some.inj (head.symm.trans head')) defaults
      · exact absurd (K.sets_isSome.mpr ⟨_, head', covers'⟩) (others y back')
    obtain ⟨first, d, rest, split', head'', others'⟩ :=
      exists_last (P := fun z => z.head? = some loadDefaults) ⟨y, before, head'⟩
    have order := ordered first d (rest ++ x :: back) (by rw [split, split']; simp) head''
      (fun z hz same => by
        rcases List.mem_append.mp hz with rest' | later
        · exact others' z rest' same
        rcases List.mem_cons.mp later with rfl | back'
        · exact defaults (Option.some.inj (head.symm.trans same))
        · exact others z back' (K.sets_isSome.mpr ⟨_, same, covers'⟩))
      x (by rw [split]; simp) opcode head defaults
    exact UInt8.lt_irrefl _ (UInt8.lt_trans greater (order.mpr ⟨x, by simp, head⟩))

/-- The keyer with one register an opcode, which keeps the command. -/
def byOpcode : Keyer UInt8 (List UInt8) where
  covers opcode r := opcode == loadDefaults || opcode == r
  value command _ := command
  single a b r ha hb := by simp_all
  defaults a r _ := by simp

/-- A keyer that keeps the commands tells their order apart. -/
theorem defaultsInOrder_of_run (kept : LastByOpcode commands chunks)
    (agrees : ∀ s t r, (∃ x ∈ commands, (byOpcode.sets x r).isSome) →
      byOpcode.run s chunks r = byOpcode.run t commands r) : DefaultsInOrder commands := by
  intro before d after split head others x mem opcode headx other
  have covers : byOpcode.covers opcode opcode = true := by simp [byOpcode]
  have wipes : byOpcode.covers loadDefaults opcode = true := by simp [byOpcode]
  have bare : ∀ code : UInt8, code ≠ loadDefaults → code ≠ opcode →
      byOpcode.covers code opcode = false := by
    intro code first second
    simp [byOpcode, first, second]
  have unset : ∀ y : List UInt8, y.head? ≠ some loadDefaults → y.head? ≠ some opcode →
      byOpcode.sets y opcode = none := by
    intro y first second
    rw [← Option.not_isSome_iff_eq_none, byOpcode.sets_isSome]
    rintro ⟨code, heady, covers⟩
    rw [bare code (fun same => first (same ▸ heady)) (fun same => second (same ▸ heady))] at covers
    cases covers
  have same := agrees (fun _ => []) (fun _ => []) opcode
    ⟨x, mem, byOpcode.sets_isSome.mpr ⟨opcode, headx, covers⟩⟩
  constructor
  · intro greater
    by_contra missing
    have own : byOpcode.run (fun _ => []) commands opcode = d := by
      rw [split]
      exact execute_last (byOpcode.sets_of_covers head wipes)
        (fun y hy => unset y (others y hy) (fun heady => missing ⟨y, hy, heady⟩)) _
    obtain ⟨z, last⟩ : ∃ z, latest List.head? commands opcode = some z := by
      by_contra none'
      exact latest_eq_none.mp (Option.eq_none_iff_forall_ne_some.mpr (not_exists.mp none')) x mem headx
    obtain ⟨stored, headz⟩ := (kept.last opcode z).mpr last
    have replayed : byOpcode.run (fun _ => []) chunks opcode = z :=
      byOpcode.run_replay kept stored headz covers (fun y _ code _ less =>
        bare code (fun here => UInt8.lt_irrefl _ (UInt8.lt_trans greater (here ▸ less)))
          (fun here => UInt8.lt_irrefl _ (here ▸ less))) _
    obtain rfl : z = d := replayed.symm.trans (same.trans own)
    exact other (Option.some.inj (headz.symm.trans head))
  · rintro ⟨y, hy, heady⟩
    by_contra notGreater
    have less : opcode < loadDefaults :=
      UInt8.lt_of_le_of_ne (UInt8.not_lt.mp notGreater) other
    have last : latest List.head? commands loadDefaults = some d := by
      rw [split]
      exact latest_append_cons head others
    obtain ⟨stored, _⟩ := (kept.last loadDefaults d).mpr last
    have replayed : byOpcode.run (fun _ => []) chunks opcode = d :=
      byOpcode.run_replay kept stored head wipes (fun y _ code _ greater =>
        bare code (fun here => UInt8.lt_irrefl _ (here ▸ greater))
          (fun here => UInt8.lt_irrefl _ (UInt8.lt_trans less (here ▸ greater)))) _
    obtain ⟨front, z, back, split', headz, others'⟩ :=
      exists_last (P := fun z => z.head? = some opcode) ⟨y, hy, heady⟩
    have own : byOpcode.run (fun _ => []) commands opcode = z := by
      rw [split, split', ← List.cons_append, ← List.append_assoc]
      exact execute_last (byOpcode.sets_of_covers headz covers)
        (fun w hw => unset w (others w (by rw [split']; simp [hw])) (others' w hw)) _
    obtain rfl : d = z := replayed.symm.trans (same.trans own)
    exact other (Option.some.inj (headz.symm.trans head))

end Comparison

/-! ## Replays of a run -/

section Runs

variable {maxTx : Nat} {history : BrokerHistory} {core : BrokerCore} {c : ClientId}
  {client : ClientState}

theorem kept_of_execution (run : broker.Execution (.new maxTx) history core)
    (known : core.clients[c]? = some client)
    (transient : ∀ x ∈ configured c history, commandPolicy x = .transient) :
    LastByOpcode (configured c history) (storedCommands client.profile) :=
  storedCommands_last (recorded_of_execution run c client known) transient

/-- The profile is written for instance in front of a job behind a new connection. -/
theorem exists_replay (known : core.clients[c]? = some client) :
    ∃ waiting clock chunks, waiting.clients[c]? = some client ∧ ReplayOf waiting clock c chunks := by
  let job : Job := ⟨0, c, .plainText [], .pot, 0, false⟩
  let waiting : BrokerCore :=
    { core with active := none, appliedProfileClientId := none, queue := [job] }
  exact ⟨waiting, 0, waiting.replayed, known, rfl, by simp [waiting], rfl,
    closing_startNextOrRestore rfl 0⟩

theorem ordered_of_reproduces (run : broker.Execution (.new maxTx) history core)
    (known : core.clients[c]? = some client)
    (transient : ∀ x ∈ configured c history, commandPolicy x = .transient)
    (reproduces : Reproduces c client (configured c history)) :
    DefaultsInOrder (configured c history) := by
  obtain ⟨waiting, clock, chunks, held, replay⟩ := exists_replay known
  obtain rfl := replay.chunks_eq held
  exact defaultsInOrder_of_run (kept_of_execution run known transient)
    (fun s t r set => reproduces waiting clock _ held replay _ _ byOpcode s t r set)

/-- **A replay reproduces the client's configuration exactly when the client's last commands stand on
the same side of its last Load Defaults as their opcodes do.** -/
theorem replay_reproduces (run : broker.Execution (.new maxTx) history core)
    (known : core.clients[c]? = some client)
    (transient : ∀ x ∈ configured c history, commandPolicy x = .transient) :
    Reproduces c client (configured c history) ↔ DefaultsInOrder (configured c history) := by
  refine ⟨ordered_of_reproduces run known transient, fun ordered => ?_⟩
  intro waiting clock chunks held replay ρ ν K s t r set
  rw [replay.chunks_eq held]
  exact run_agrees (kept_of_execution run known transient) ordered K s t set

end Runs

/-- The defaults of fifteen registers. -/
def defaults : List UInt8 := loadDefaults :: List.replicate 15 0

/-- A client that loads defaults and then sets another register. -/
def defaultsThen (command : List UInt8) : List BrokerOp :=
  [.registerClient 1 true, .setClientCommand 1 defaults, .setClientCommand 1 command]

/-- Load Defaults and then Set Key Compensation, whose opcode is greater. -/
theorem replay_reproduces_compensation :
    ∃ history core client, broker.Execution (.new 5) history core ∧ core.clients[1]? = some client ∧
      configured 1 history = [defaults, [0x11, 50]] ∧
      Reproduces 1 client (configured 1 history) := by
  have run := broker.execution_exec (.new 5) (defaultsThen [0x11, 50]) (by decide)
  have ordered : DefaultsInOrder [defaults, [0x11, 50]] := by
    intro before d after split head _ x mem opcode headx other
    rcases before with _ | ⟨_, _ | ⟨_, before⟩⟩
    · obtain ⟨rfl, rfl⟩ := List.cons.inj split
      rcases List.mem_cons.mp mem with rfl | later
      · exact absurd (Option.some.inj headx).symm other
      · obtain rfl := List.mem_singleton.mp later
        obtain rfl := Option.some.inj headx
        decide
    · obtain ⟨_, split⟩ := List.cons.inj split
      obtain ⟨rfl, _⟩ := List.cons.inj split
      exact absurd head (by decide)
    · simp at split
  refine ⟨_, _, _, run, (Option.some_get (by decide)).symm, by decide, ?_⟩
  exact (replay_reproduces run (Option.some_get (by decide)).symm (by decide)).mpr ordered

/-- Load Defaults and then Set Weighting: the replay ends with the default weighting. -/
theorem not_replay_reproduces :
    ¬ ∀ (maxTx : Nat) (history : BrokerHistory) (core : BrokerCore),
      broker.Execution (.new maxTx) history core →
      ∀ (c : ClientId) (client : ClientState), core.clients[c]? = some client →
        (∀ x ∈ configured c history, commandPolicy x = .transient) →
        Reproduces c client (configured c history) := by
  intro always
  have run := broker.execution_exec (.new 5) (defaultsThen [0x03, 32]) (by decide)
  have reproduces := always 5 _ _ run 1 _ (Option.some_get (by decide)).symm (by decide)
  have ordered := ordered_of_reproduces run (Option.some_get (by decide)).symm (by decide) reproduces
  have order := ordered [] defaults [[0x03, 32]] (by decide) rfl (by decide) [0x03, 32] (by decide)
    0x03 rfl (by decide)
  have greater : loadDefaults < 0x03 := order.mpr (by decide)
  exact absurd greater (by decide)

end CatHub.WinKeyer
