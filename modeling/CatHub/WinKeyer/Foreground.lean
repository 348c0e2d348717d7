/-
# CatHub.WinKeyer.Foreground — the speed of an idle keyer is the primary client's.

`lastSpeed` is the last unbuffered speed command in some chunks.  An ownership boundary with nothing
queued ends with the speed of the foreground, and so does every new connection; an idle primary that
changes its speed writes it at once.  So in an idle session outside maintenance the last speed on the
transport is the primary's, or the pot's without a primary.

Two kinds of calls break this.  An idle primary that leaves, or registers again as an ordinary
client, takes its speed out of the table but not out of the keyer.  And a command of the idle primary
is passed on as it is, also when it sets a speed.  `KeepsSpeed` excludes exactly these.
-/
import CatHub.WinKeyer.Freshness
import CatHub.WinKeyer.HostSession

namespace CatHub.WinKeyer

open Systems Ptt BrokerCore

/-! ## Speed commands -/

def speedCommand? : ClientItem → Option (List UInt8)
  | .command [0x02, wpm] => some [0x02, wpm]
  | _ => none

/-- The unbuffered speed commands in a chunk. -/
def speedCommands (chunk : List UInt8) : List (List UInt8) := (items chunk).filterMap speedCommand?

/-- The last unbuffered speed command in some chunks. -/
def lastSpeed (wire : List (List UInt8)) : Option (List UInt8) :=
  (wire.flatMap speedCommands).getLast?

theorem lastSpeed_append (wire more : List (List UInt8)) :
    lastSpeed (wire ++ more) = (lastSpeed more).or (lastSpeed wire) := by
  unfold lastSpeed
  rw [List.flatMap_append, List.getLast?_append]

theorem lastSpeed_speed (speed : SpeedMode) : lastSpeed [speed.command] = some speed.command := by
  cases speed <;> rfl

/-- What ends with a speed command has it for the last one. -/
theorem lastSpeed_concat (wire : List (List UInt8)) (speed : SpeedMode) :
    lastSpeed (wire ++ [speed.command]) = some speed.command := by
  rw [lastSpeed_append, lastSpeed_speed]
  rfl

/-! ## The property and its condition -/

/-- In an idle connection outside maintenance the last speed is the primary's, or the pot's when no
client is primary. -/
def IdleSpeed (history : List ActorStep) (a : Actor) : Prop :=
  a.loop ≠ .stopped → a.core.connected = true → a.core.active = none → a.inMaintenance = false →
    (∀ (c : ClientId) (client : ClientState), a.core.clients[c]? = some client →
      client.primary = true → lastSpeed (transport history) = some client.desiredSpeed.command) ∧
    ((∀ c, a.core.isPrimary c = false) → lastSpeed (transport history) = some SpeedMode.pot.command)

/-- The call takes no speed out of the table that is in the keyer, and puts none into the keyer that
is not in the table. -/
def BrokerOp.keepsSpeed (core : BrokerCore) (op : BrokerOp) : Bool :=
  core.active.isSome ||
    match op with
    | .registerClient c primary =>
        primary || !core.isPrimary c || core.foregroundSpeed.command == SpeedMode.pot.command
    | .unregisterClient c _ =>
        !core.isPrimary c || core.foregroundSpeed.command == SpeedMode.pot.command
    | .setClientCommand c command | .activeOwnerCommand c command =>
        !core.isPrimary c || (lastSpeed [command]).all (· == core.foregroundSpeed.command)
    | _ => true

/-- Every call of a session outside maintenance keeps the speed. -/
def KeepsSpeed (e : ActorStep) : Bool :=
  e.before.loop != .session || e.before.inMaintenance ||
    (coreCalls e).all (fun call => call.input.keepsSpeed call.before)

/-! ## The foreground -/

section Table

variable {core core' : BrokerCore} {c : ClientId} {client : ClientState}

theorem isPrimary_iff :
    core.isPrimary c = true ↔ ∃ client, core.clients[c]? = some client ∧ client.primary = true := by
  unfold isPrimary
  cases core.clients[c]? with
  | none => simp
  | some client => simp

theorem foreground_known {e : ClientId × ClientState} (foreground : core.foreground = some e) :
    core.clients[e.1]? = some e.2 ∧ e.2.primary = true :=
  ⟨Std.TreeMap.mem_toList_iff_getElem?_eq_some.mp (List.mem_of_find?_eq_some foreground),
    by simpa using List.find?_some foreground⟩

/-- The foreground is the one primary. -/
theorem foreground_of_primary (one : OnePrimary core) (leads : core.isPrimary c = true) :
    ∃ client, core.foreground = some (c, client) ∧ core.clients[c]? = some client := by
  cases foreground : core.foreground with
  | none =>
      obtain ⟨client, known, primary⟩ := isPrimary_iff.mp leads
      have entry : (c, client) ∈ core.clients.toList :=
        Std.TreeMap.mem_toList_iff_getElem?_eq_some.mpr known
      exact absurd primary (List.find?_eq_none.mp foreground _ entry)
  | some e =>
      obtain ⟨known, primary⟩ := foreground_known foreground
      have same : e.1 = c := one e.1 c (isPrimary_iff.mpr ⟨e.2, known, primary⟩) leads
      subst same
      exact ⟨e.2, rfl, known⟩

theorem foreground_none (free : ∀ c, core.isPrimary c = false) : core.foreground = none := by
  cases foreground : core.foreground with
  | none => rfl
  | some e =>
      obtain ⟨known, primary⟩ := foreground_known foreground
      have leads := isPrimary_iff.mpr ⟨e.2, known, primary⟩
      rw [free] at leads
      cases leads

/-- The foreground's speed is the primary's. -/
theorem foregroundSpeed_primary (one : OnePrimary core) (known : core.clients[c]? = some client)
    (primary : client.primary = true) : core.foregroundSpeed = client.desiredSpeed := by
  have leads : core.isPrimary c = true := isPrimary_iff.mpr ⟨client, known, primary⟩
  obtain ⟨client', foreground, known'⟩ := foreground_of_primary one leads
  obtain rfl := Option.some.inj (known.symm.trans known')
  unfold foregroundSpeed
  rw [foreground]
  rfl

/-- Without a primary it is the pot's. -/
theorem foregroundSpeed_none (free : ∀ c, core.isPrimary c = false) :
    core.foregroundSpeed = .pot := by
  unfold foregroundSpeed
  rw [foreground_none free]
  rfl

/-- A table with the same primary at the same speed. -/
theorem foregroundSpeed_congr (one : OnePrimary core) (one' : OnePrimary core')
    (same : ∀ (c : ClientId) (client' : ClientState), core'.clients[c]? = some client' →
      client'.primary = true → ∃ client, core.clients[c]? = some client ∧ client.primary = true ∧
        client.desiredSpeed = client'.desiredSpeed)
    (stays : ∀ c, core.isPrimary c = true → core'.isPrimary c = true) :
    core'.foregroundSpeed = core.foregroundSpeed := by
  by_cases primary : ∃ c, core'.isPrimary c = true
  · obtain ⟨c, leads⟩ := primary
    obtain ⟨client', known', leads'⟩ := isPrimary_iff.mp leads
    obtain ⟨client, known, leads, speed⟩ := same c client' known' leads'
    rw [foregroundSpeed_primary one known leads, foregroundSpeed_primary one' known' leads', speed]
  · have free' : ∀ c, core'.isPrimary c = false := by simpa using primary
    have free : ∀ c, core.isPrimary c = false := by
      intro c
      rw [← Bool.not_eq_true]
      exact fun leads => primary ⟨c, stays c leads⟩
    rw [foregroundSpeed_none free, foregroundSpeed_none free']

/-- One client is not primary any more, or still not; the other entries are the same. -/
theorem foregroundSpeed_others (one : OnePrimary core) (one' : OnePrimary core')
    (others : ∀ d, d ≠ c → core'.clients[d]? = core.clients[d]?) (gone : core'.isPrimary c = false)
    (was : core.isPrimary c = true → core.foregroundSpeed.command = SpeedMode.pot.command) :
    core'.foregroundSpeed.command = core.foregroundSpeed.command := by
  have stays : ∀ d, d ≠ c → core'.isPrimary d = core.isPrimary d := by
    intro d apart
    unfold isPrimary
    rw [others d apart]
  cases leads : core.isPrimary c with
  | true =>
      rw [was leads, foregroundSpeed_none]
      intro d
      by_cases here : d = c
      · rw [here]
        exact gone
      · rw [stays d here, ← Bool.not_eq_true]
        exact fun leads' => here (one d c leads' leads)
  | false =>
      refine congrArg SpeedMode.command (foregroundSpeed_congr one one'
        (fun d client' known' leads' => ?_) (fun d leads' => ?_))
      · have apart : d ≠ c := by
          rintro rfl
          rw [isPrimary_of_client known', leads'] at gone
          cases gone
        exact ⟨client', (others d apart).symm.trans known', leads', rfl⟩
      · have apart : d ≠ c := by
          rintro rfl
          rw [leads] at leads'
          cases leads'
        rw [stays d apart, leads']

end Table

/-! ## One call -/

/-- While nothing is active, `last` is the foreground's speed. -/
def Paced (last : Option (List UInt8)) (core : BrokerCore) : Prop :=
  core.active = none → last = some core.foregroundSpeed.command

section Calls

variable {core core' : BrokerCore} {last : Option (List UInt8)}

/-- The foreground's speed stays, and no other is written. -/
theorem Paced.keep (paced : Paced last core) (chunks : List (List UInt8))
    (idle : core'.active = none → core.active = none)
    (speed : core.active = none → core'.foregroundSpeed.command = core.foregroundSpeed.command)
    (written : core.active = none →
      (lastSpeed chunks).all (· == core.foregroundSpeed.command) = true) :
    Paced ((lastSpeed chunks).or last) core' := by
  intro idle'
  have before := idle idle'
  have same := written before
  rw [speed before]
  cases now : lastSpeed chunks with
  | none => exact paced before
  | some command =>
      rw [now, Option.all_some, beq_iff_eq] at same
      rw [same]
      rfl

/-- Nothing is active behind a call that keeps the active client only if nothing was before. -/
theorem BrokerCore.SameSettings.idle (settings : SameSettings core core')
    (idle' : core'.active = none) : core.active = none :=
  activeClientId_none.mp (settings.active.symm.trans (activeClientId_none.mpr idle'))

theorem foregroundSpeed_clients (clients : core'.clients = core.clients) :
    core'.foregroundSpeed = core.foregroundSpeed := by
  simp only [foregroundSpeed, foreground, clients]

/-- An ownership boundary ends with the foreground's speed, or starts a job. -/
theorem paced_boundary (core : BrokerCore) (clock : Nat) (ending : List PhysicalAction) :
    Paced ((lastSpeed (writes (ending ++ (core.startNextOrRestore clock).2))).or last)
      (core.startNextOrRestore clock).1 := by
  intro idle'
  rw [writes_append, lastSpeed_append, writes_startNextOrRestore,
    foregroundSpeed_clients (startNextOrRestore_clients core clock)]
  cases queue : core.queue with
  | cons job rest =>
      unfold startNextOrRestore at idle'
      rw [queue] at idle'
      cases idle'
  | nil =>
      simp only []
      rw [lastSpeed_concat]
      rfl

/-- An entry of a client that is not primary. -/
theorem paced_inserted (paced : Paced last core) (one : OnePrimary core) (one' : OnePrimary core')
    {c : ClientId} {client : ClientState}
    (clients : core'.clients = (core.withClient c client).clients)
    (idle : core'.active = none → core.active = none)
    (ordinary : core.active = none → client.primary = false)
    (was : core.active = none → core.isPrimary c = true →
      core.foregroundSpeed.command = SpeedMode.pot.command) : Paced last core' := by
  refine paced.keep [] idle (fun before => ?_) (fun _ => rfl)
  refine foregroundSpeed_others one one' (c := c) (fun d apart => ?_) ?_ (was before)
  · rw [clients, clients_withClient, if_neg apart]
  · unfold isPrimary
    rw [clients, clients_withClient, if_pos rfl]
    exact ordinary before

/-- **One call.** -/
theorem Course.paces {op : BrokerOp} {actions : List PhysicalAction}
    (course : Course core op actions core') (one : OnePrimary core) (one' : OnePrimary core')
    (paced : Paced last core) (keeps : op.keepsSpeed core = true) :
    Paced ((lastSpeed (writes actions)).or last) core' := by
  cases course with
  | quiet settings chunks =>
      rw [chunks]
      exact paced.keep [] settings.idle
        (fun _ => congrArg SpeedMode.command (foregroundSpeed_clients settings.clients)) (fun _ => rfl)
  | swept _ _ settings chunks =>
      rw [chunks]
      exact paced.keep [] settings.idle
        (fun _ => congrArg SpeedMode.command (foregroundSpeed_clients settings.clients)) (fun _ => rfl)
  | grew active settings =>
      intro idle'
      rw [settings.idle idle'] at active
      cases active
  | commanded primary =>
      refine paced.keep [_] id (fun _ => rfl) (fun before => ?_)
      simpa [BrokerOp.keepsSpeed, before, primary before] using keeps
  | @registered c primary _ free settings =>
      cases primary with
      | false =>
          refine paced_inserted paced one one' settings.clients settings.idle (fun _ => rfl)
            (fun before leads => ?_)
          simpa [BrokerOp.keepsSpeed, before, leads] using keeps
      | true =>
          -- The new primary starts at the pot's speed, and there was none before.
          have free' : ∀ d, core.isPrimary d = false := isPrimary_none (free rfl)
          have known : core'.clients[c]? =
              some { desiredSpeed := .pot, primary := true, profile := ∅ } := by
            rw [settings.clients, clients_withClient, if_pos rfl]
          have speed : core'.foregroundSpeed = core.foregroundSpeed :=
            (foregroundSpeed_primary one' known rfl).trans (foregroundSpeed_none free').symm
          exact paced.keep [] settings.idle (fun _ => congrArg SpeedMode.command speed) (fun _ => rfl)
  | @unregistered c _ _ _ _ settings chunks =>
      rw [chunks]
      refine paced.keep [] settings.idle (fun before => ?_) (fun _ => rfl)
      refine foregroundSpeed_others one one' (c := c) (fun d apart => ?_) ?_ (fun leads => ?_)
      · rw [settings.clients]
        exact (clients_erase core c d).trans (if_neg apart)
      · unfold isPrimary
        rw [settings.clients]
        exact congrArg (Option.any _) ((clients_erase core c c).trans (if_pos rfl))
      · simpa [BrokerOp.keepsSpeed, before, leads] using keeps
  | @paced c speed client _ known settings =>
      have entry : core'.clients[c]? = some { client with desiredSpeed := speed } := by
        rw [settings.clients, clients_withClient, if_pos rfl]
      cases primary : client.primary with
      | true =>
          intro idle'
          have before : core.active = none := settings.idle idle'
          have written : writes (if core.active.isNone && true then [.write speed.command] else []) =
              [speed.command] := by
            rw [before]
            rfl
          rw [written, lastSpeed_speed, foregroundSpeed_primary one' entry primary]
          rfl
      | false =>
          have silent : writes (if core.active.isNone && false then [.write speed.command] else []) =
              [] := by
            simp [writes]
          rw [silent]
          refine paced_inserted paced one one' settings.clients settings.idle (fun _ => primary)
            (fun _ leads => ?_)
          rw [isPrimary_of_client known, primary] at leads
          cases leads
  | @configured c command key client _ keyed known idle primary settings =>
      have entry : core'.clients[c]? =
          some { client with profile := client.profile.insert key command } := by
        rw [settings.clients]
        exact (clients_withClient core c c _).trans (if_pos rfl)
      have speed : core'.foregroundSpeed = core.foregroundSpeed :=
        (foregroundSpeed_primary one' entry primary).trans
          (foregroundSpeed_primary one known primary).symm
      refine paced.keep [_] (fun _ => idle) (fun _ => congrArg SpeedMode.command speed) (fun _ => ?_)
      simpa [BrokerOp.keepsSpeed, idle, isPrimary_of_client known, primary] using keeps
  | @stored c command key client _ keyed known later settings =>
      refine paced_inserted paced one one' settings.clients settings.idle later (fun before leads => ?_)
      rw [isPrimary_of_client known, later before] at leads
      cases leads
  | passed boundary => exact paced_boundary _ _ _

/-! ## The condition is exact

From an idle core at the foreground's speed, a call that does not keep the speed breaks the law. -/

/-- When the primary's entry is gone and the law still holds, the primary was at the pot's speed. -/
theorem Paced.left (paced : Paced last core) (one : OnePrimary core) (idle : core.active = none)
    {c : ClientId} (leads : core.isPrimary c = true) (after : Paced last core')
    (idle' : core'.active = none)
    (others : ∀ d, core'.isPrimary d = true → d ≠ c ∧ core.isPrimary d = true) :
    core.foregroundSpeed.command = SpeedMode.pot.command := by
  have free : ∀ d, core'.isPrimary d = false := by
    intro d
    rw [← Bool.not_eq_true]
    intro leads'
    obtain ⟨apart, leads''⟩ := others d leads'
    exact apart (one d c leads'' leads)
  have pot := after idle'
  rw [foregroundSpeed_none free] at pot
  exact Option.some.inj ((paced idle).symm.trans pot)

/-- When a command is passed on and the law still holds, it sets no other speed. -/
theorem Paced.passed {command : List UInt8}
    (after : Paced ((lastSpeed (writes [.write command])).or last) core')
    (idle' : core'.active = none)
    (same : core'.foregroundSpeed.command = core.foregroundSpeed.command) :
    (lastSpeed [command]).all (· == core.foregroundSpeed.command) = true := by
  have now : (lastSpeed [command]).or last = some core'.foregroundSpeed.command := after idle'
  cases chunk : lastSpeed [command] with
  | none => rfl
  | some speed =>
      rw [chunk, same] at now
      simpa using now

theorem registerClient_keepsSpeed (one : OnePrimary core) (idle : core.active = none)
    (paced : Paced last core) {c : ClientId} {primary : Bool} (leads : core.isPrimary c = true)
    (after : Paced last (core.registerClient c primary).1) :
    (BrokerOp.registerClient c primary).keepsSpeed core = true := by
  cases primary with
  | true => simp [BrokerOp.keepsSpeed]
  | false =>
      have entry : (core.registerClient c false).1 =
          core.withClient c { desiredSpeed := .pot, primary := false, profile := ∅ } := rfl
      rw [entry] at after
      have pot := paced.left one idle leads after idle (fun d leads' => by
        rw [isPrimary_withClient] at leads'
        split at leads'
        · cases leads'
        · exact ⟨‹_›, leads'⟩)
      simp [BrokerOp.keepsSpeed, pot]

theorem unregisterClient_keepsSpeed (one : OnePrimary core) (idle : core.active = none)
    (paced : Paced last core) {c : ClientId} {clock : Nat} (leads : core.isPrimary c = true)
    (after : Paced ((lastSpeed (writes (core.unregisterClient c clock).2)).or last)
      (core.unregisterClient c clock).1) :
    (BrokerOp.unregisterClient c clock).keepsSpeed core = true := by
  have gone : (core.unregisterClient c clock).1.active = none ∧
      writes (core.unregisterClient c clock).2 = [] := by
    simp only [BrokerCore.unregisterClient, idle]
    exact ⟨trivial, writes_cancellations _⟩
  rw [gone.2] at after
  have pot := paced.left one idle leads after gone.1 (fun d leads' => by
    unfold isPrimary at leads'
    rw [unregisterClient_clients, clients_erase] at leads'
    split at leads'
    · cases leads'
    · exact ⟨‹_›, leads'⟩)
  simp [BrokerOp.keepsSpeed, pot]

/-- The command of an idle primary is written and stored. -/
theorem setClientCommand_idle {c : ClientId} {command : List UInt8} {key : Nat} {client : ClientState}
    (keyed : profileKey command = some key) (known : core.clients[c]? = some client)
    (idle : core.active = none) (primary : client.primary = true) :
    ∃ core', core.setClientCommand c command = some (core', [.write command]) ∧
      core'.active = core.active ∧ core'.clients =
        (core.withClient c { client with profile := client.profile.insert key command }).clients := by
  have now : (core.active.isNone && client.primary) = true := by simp [idle, primary]
  unfold BrokerCore.setClientCommand
  simp only [keyed, known, now, if_true]
  refine ⟨_, rfl, ?_, ?_⟩
  · cases speedPotMinimum command <;> rfl
  · cases speedPotMinimum command <;> rfl

/-- A command without a profile key sets no speed. -/
theorem lastSpeed_unkeyed {command : List UInt8} (unkeyed : profileKey command = none) :
    lastSpeed [command] = none := by
  unfold profileKey at unkeyed
  split at unkeyed
  · rfl
  · rfl
  · cases unkeyed
  · cases unkeyed

theorem setClientCommand_keepsSpeed (one : OnePrimary core) (idle : core.active = none)
    {c : ClientId} {command : List UInt8} (leads : core.isPrimary c = true)
    (after : Paced ((lastSpeed (writes
        (BrokerOp.apply core (.setClientCommand c command)).2.actions)).or last)
      (BrokerOp.apply core (.setClientCommand c command)).1) :
    (BrokerOp.setClientCommand c command).keepsSpeed core = true := by
  obtain ⟨client, known, primary⟩ := isPrimary_iff.mp leads
  cases keyed : profileKey command with
  | none => simp [BrokerOp.keepsSpeed, lastSpeed_unkeyed keyed]
  | some key =>
      let stored := { client with profile := client.profile.insert key command }
      obtain ⟨core', set, active, clients⟩ := setClientCommand_idle keyed known idle primary
      have applied : BrokerOp.apply core (.setClientCommand c command) =
          (core', { actions := [.write command] }) := by
        simp only [BrokerOp.apply, set]
      have entry : core'.clients[c]? = some stored := by
        rw [clients, clients_withClient, if_pos rfl]
      have kept : ∀ d, core'.isPrimary d = true → core.isPrimary d = true := by
        intro d leads'
        by_cases here : d = c
        · rw [here]
          exact leads
        · unfold isPrimary at leads' ⊢
          rwa [clients, clients_withClient, if_neg here] at leads'
      have one' : OnePrimary core' := fun d e hd he => one d e (kept d hd) (kept e he)
      have speed : core'.foregroundSpeed = core.foregroundSpeed :=
        (foregroundSpeed_primary one' entry primary).trans
          (foregroundSpeed_primary one known primary).symm
      rw [applied] at after
      have all := after.passed (active.trans idle) (congrArg SpeedMode.command speed)
      simp [BrokerOp.keepsSpeed, all]

theorem activeOwnerCommand_keepsSpeed (idle : core.active = none) {c : ClientId}
    {command : List UInt8} (leads : core.isPrimary c = true)
    (after : Paced ((lastSpeed (writes
        ((core.activeOwnerCommand c command).getD []))).or last) core) :
    (BrokerOp.activeOwnerCommand c command).keepsSpeed core = true := by
  have written : (core.activeOwnerCommand c command).getD [] = [.write command] := by
    simp [BrokerCore.activeOwnerCommand, idle, leads]
  rw [written] at after
  have all := after.passed idle rfl
  simp [BrokerOp.keepsSpeed, all]

/-- **The condition is exact.**  A call from an idle core after which the law holds keeps the speed. -/
theorem keepsSpeed_of_paced {op : BrokerOp} (one : OnePrimary core) (idle : core.active = none)
    (paced : Paced last core)
    (after : Paced ((lastSpeed (writes (op.apply core).2.actions)).or last) (op.apply core).1) :
    op.keepsSpeed core = true := by
  cases op with
  | registerClient c primary =>
      cases leads : core.isPrimary c with
      | false => simp [BrokerOp.keepsSpeed, leads]
      | true => exact registerClient_keepsSpeed one idle paced leads after
  | unregisterClient c clock =>
      cases leads : core.isPrimary c with
      | false => simp [BrokerOp.keepsSpeed, leads]
      | true => exact unregisterClient_keepsSpeed one idle paced leads after
  | setClientCommand c command =>
      cases leads : core.isPrimary c with
      | false => simp [BrokerOp.keepsSpeed, leads]
      | true => exact setClientCommand_keepsSpeed one idle leads after
  | activeOwnerCommand c command =>
      cases leads : core.isPrimary c with
      | false => simp [BrokerOp.keepsSpeed, leads]
      | true => exact activeOwnerCommand_keepsSpeed idle leads after
  | _ => simp [BrokerOp.keepsSpeed]

end Calls

/-! ## The calls of a step -/

/-- What is kept from call to call. -/
structure Steady (last : Option (List UInt8)) (core : BrokerCore) : Prop where
  represented : core.Represented
  paced : Paced last core

namespace Steady

variable {core : BrokerCore} {last : Option (List UInt8)}

theorem calls (steady : Steady last core) {ops : List BrokerOp}
    (within : ∀ op ∈ ops, op.within = true)
    (keeps : ∀ call ∈ core.callsOf ops, call.input.keepsSpeed call.before = true) :
    Steady ((lastSpeed (writes (core.returned ops))).or last) (core.afterCalls ops) := by
  induction ops generalizing core last with
  | nil => exact steady
  | cons op ops ih =>
      have represented := represented_step steady.represented op
      have paced := (apply_course core (within op List.mem_cons_self)).paces
        steady.represented.onePrimary represented.onePrimary steady.paced (keeps _ List.mem_cons_self)
      have rest := ih ⟨represented, paced⟩ (fun o mem => within o (List.mem_cons_of_mem _ mem))
        (fun call mem => keeps call (List.mem_cons_of_mem _ mem))
      rw [returned_cons, writes_append, lastSpeed_append, Option.or_assoc]
      exact rest

end Steady

/-- A new connection, behind which the foreground is restored. -/
theorem lastSpeed_reopening (core : BrokerCore) (firmware : UInt8) :
    lastSpeed (writes (core.returned (reopening firmware))) =
      some (core.afterCalls (reopening firmware)).foregroundSpeed.command := by
  show lastSpeed (writes ([] ++ ((core.connectPhysical firmware).restoreForegroundSpeed.2 ++ []))) = _
  rw [List.nil_append, List.append_nil, writes_restoreForegroundSpeed, lastSpeed_concat]
  rfl

/-- An emergency stop ends with the foreground's speed, whatever was written before. -/
theorem lastSpeed_emergencyStop (core : BrokerCore) (reason : String) :
    lastSpeed (writes (core.emergencyStop reason).2) =
      some (core.emergencyStop reason).1.foregroundSpeed.command := by
  let halted : BrokerCore :=
    { core with active := none, queue := [], lastSafetyAction := some reason }
  show lastSpeed (writes (_ ++ halted.restoreForegroundSpeed.2)) = _
  rw [writes_append, lastSpeed_append, writes_restoreForegroundSpeed, lastSpeed_concat]
  rfl

/-! ## Every step -/

section Steps

variable {a a' : Actor} {wire : List (List UInt8)}

/-- Outside maintenance a decision that stays there adds nothing of its own in front. -/
theorem ownWrites_outside {trigger : Trigger} (outside : a.inMaintenance = false)
    (read : ¬ a.Misread trigger) (stays : a.maintenanceAfter trigger = (none, false)) :
    a.ownWrites trigger = [] := by
  have owner : (a.maintenanceAfter trigger).1 = none := congrArg Prod.fst stays
  have reopens : (a.maintenanceAfter trigger).2 = false := congrArg Prod.snd stays
  rcases ownWrites_unowned read (fun _ _ => outside) owner with ⟨_, awaited⟩ | ⟨_, _, waits, _⟩ |
    ⟨own, _⟩
  · rw [reopens] at awaited
    cases awaited
  · rw [(Bool.or_eq_false_iff.mp outside).2] at waits
    cases waits
  · exact own

/-- Maintenance ends with an emergency stop, or when the keyer answers to Host Open. -/
theorem maintenance_ends {trigger : Trigger} (owned : a.inMaintenance = true)
    (ends : a.maintenanceAfter trigger = (none, false)) (read : ¬ a.Misread trigger) :
    (∃ reason, trigger = .request (.emergencyStop reason)) ∨
      ∃ byte, trigger = .byte byte ∧ a.maintenanceReopenPending = true ∧ byte ≠ 0xff := by
  have kept : (a.maintenanceOwner, a.maintenanceReopenPending) ≠ (none, false) := by
    intro outside
    obtain ⟨owner, pending⟩ := Prod.mk.inj outside
    simp [Actor.inMaintenance, owner, pending] at owned
  cases trigger with
  | tick => exact absurd ends kept
  | byte byte =>
      obtain ⟨owner, _⟩ := Prod.mk.inj ends
      have pending : a.maintenanceReopenPending = true := by
        simpa [Actor.inMaintenance, owner] using owned
      exact Or.inr ⟨byte, rfl, pending, fun misread => read ⟨pending, misread⟩⟩
  | request request =>
      cases request with
      | emergencyStop reason => exact Or.inl ⟨reason, rfl⟩
      | unregister | releaseMaintenance =>
          simp only [Actor.maintenanceAfter] at ends
          split at ends
          · cases ends
          · exact absurd ends kept
      | maintenanceCommand =>
          simp only [Actor.maintenanceAfter] at ends
          split at ends
          · cases ends
          · exact absurd ends kept
      | _ => exact absurd ends kept

theorem lastSpeed_poll (a : Actor) (now later : Nat) (trigger : Trigger) :
    lastSpeed (a.pollWrites now later trigger) = none := by
  cases trigger with
  | tick =>
      simp only [Actor.pollWrites]
      split <;> rfl
  | _ => rfl

/-- A turn whose chunks are all written. -/
theorem paced_turn {mid : Actor} {now later : Nat} {trigger : Trigger} {o : Observation}
    {actions : List PhysicalAction} (decides : a.Decides now later trigger mid o actions)
    (read : ¬ a.Misread trigger) (represented : a.core.Represented)
    (paced : a.inMaintenance = false → Paced (lastSpeed wire) a.core)
    (keeps : a.inMaintenance = false →
      ∀ call ∈ a.core.callsOf (a.decisionOps now later trigger),
        call.input.keepsSpeed call.before = true)
    (outside : mid.inMaintenance = false) : Paced (lastSpeed (wire ++ writes actions)) mid.core := by
  have ends : a.maintenanceAfter trigger = (none, false) := by
    obtain ⟨owner, pending⟩ := Bool.or_eq_false_iff.mp outside
    rw [← decides.maintenance, pending]
    exact congrArg (·, false) (by simpa using owner)
  have chunks : lastSpeed (wire ++ writes actions) =
      (lastSpeed (writes (a.core.returned (a.decisionOps now later trigger)))).or
        (lastSpeed (wire ++ a.ownWrites trigger)) := by
    rw [decides.actions, writes_append, writes_append, writes_map, writes_map, ← List.append_assoc,
      lastSpeed_append, lastSpeed_poll, Option.none_or, ← List.append_assoc, lastSpeed_append]
  rw [chunks, decides.core]
  cases owned : a.inMaintenance with
  | false =>
      rw [ownWrites_outside owned read ends, List.append_nil]
      exact (Steady.calls ⟨represented, paced owned⟩ (decisionOps_within owned now later trigger)
        (keeps owned)).paced
  | true =>
      intro _
      rcases maintenance_ends owned ends read with ⟨reason, rfl⟩ | ⟨byte, rfl, pending, answered⟩
      · show (lastSpeed (writes ((a.core.emergencyStop reason).2 ++ []))).or _ = _
        rw [List.append_nil, lastSpeed_emergencyStop]
        rfl
      · have ops : a.decisionOps now later (.byte byte) = reopening byte := by
          simp [Actor.decisionOps, pending, answered, reopening]
        rw [ops, lastSpeed_reopening]
        rfl

/-- **One step.** -/
theorem paced_step {input : ActorInput} {o : Observation} (represented : a.core.Represented)
    (paced : a.loop = .session → a.inMaintenance = false → Paced (lastSpeed wire) a.core)
    (step : actor.step a input = some (a', o)) (keeps : KeepsSpeed ⟨a, input, o, a'⟩ = true) :
    a'.loop = .session → a'.inMaintenance = false →
      Paced (lastSpeed (onTransport wire ⟨a, input, o, a'⟩)) a'.core := by
  intro live' outside'
  have ended : ∀ {loop : Loop}, a'.loop = loop → loop ≠ .session →
      Paced (lastSpeed (onTransport wire ⟨a, input, o, a'⟩)) a'.core :=
    fun loop other => absurd (loop.symm.trans live') other
  have flags : ∀ {b : Actor}, a'.maintenanceOwner = b.maintenanceOwner →
      a'.maintenanceReopenPending = b.maintenanceReopenPending → b.inMaintenance = false := by
    intro b owner pending
    rw [← Actor.inMaintenance_congr owner pending]
    exact outside'
  cases actor_move step with
  | @turn trigger now later fault _ _ live _ _ turn =>
      cases turn with
      | goesOn decides core owner pending _ _ written _ _ read =>
          rw [onTransport_turn, written, core]
          refine paced_turn decides read represented (paced live) (fun owned call mem => ?_)
            (flags owner pending)
          have owned : a.inMaintenance = false := owned
          have calls : (coreCalls ⟨a, inputOf trigger now later fault, o, a'⟩).all
              (fun call => call.input.keepsSpeed call.before) = true := by
            simpa [KeepsSpeed, live, owned] using keeps
          rw [coreCalls_turn] at calls
          exact List.all_eq_true.mp calls call mem
      | fails | misread => cases live'
      | leaves _ _ _ stopped => exact ended stopped (by decide)
  | sunk _ _ _ _ _ _ _ loop =>
      rcases loop with loop | loop
      · exact ended loop (by decide)
      · exact ended loop (by decide)
  | left | lost => cases live'
  | unopened _ _ _ _ _ _ loop => exact ended loop (by decide)
  | refailed _ _ _ _ _ loop => exact ended loop (by decide)
  | @reopened now firmware _ _ _ _ _ core _ _ _ _ written =>
      intro _
      have chunks : o.written = [hostOpen, safeInitialization] ++
          writes (a.core.returned (reopening firmware)) := written
      show lastSpeed o.written = _
      rw [chunks, core, lastSpeed_append, lastSpeed_reopening]
      rfl
  | foreign _ _ core owner pending loop _ written =>
      show Paced (lastSpeed (wire ++ o.written)) a'.core
      rw [written, List.append_nil, core]
      exact paced (loop.symm.trans live') (flags owner pending)

end Steps

/-! ## Every run -/

section Runs

variable {maxTx : Nat} {ptt : Option PttManager} {reconnect : Bool} {firmware : UInt8} {start : Nat}
  {history : List ActorStep} {a : Actor}

/-- **The speed of an idle keyer is the primary's.**  In every run in which no idle primary with a
speed of its own leaves or registers again, and none passes on a command with another speed, whenever
the core is connected, no job is active, nobody owns the keyer and no reopen is pending, the last
unbuffered speed command written to the current transport carries the speed of the primary client, or
the pot's when there is none. -/
theorem idle_speed (run : actor.Execution (.spawn maxTx ptt reconnect firmware start) history a)
    (keeps : ∀ e ∈ history, KeepsSpeed e = true) : IdleSpeed history a := by
  have paced : a.loop = .session → a.inMaintenance = false →
      Paced (lastSpeed (transport history)) a.core := by
    refine run.guarded (I := fun history a => a.loop = .session → a.inMaintenance = false →
      Paced (lastSpeed (transport history)) a.core) (fun _ _ _ => ?_) ?_ keeps
    · have free : ∀ c, ((BrokerCore.new maxTx).connectPhysical firmware).isPrimary c = false :=
        fun c => by simp [isPrimary, connectPhysical, BrokerCore.new]
      show lastSpeed [hostOpen, safeInitialization] =
        some ((BrokerCore.new maxTx).connectPhysical firmware).foregroundSpeed.command
      rw [foregroundSpeed_none free]
      rfl
    · intro history a input o a' earlier paced step keeps
      rw [transport_concat]
      exact paced_step (represented_of_execution earlier) paced step keeps
  intro running online idle outside
  have live : a.loop = .session := (sound_of_execution run).live running online
  rw [paced live outside idle]
  refine ⟨fun c client known primary => ?_, fun free => ?_⟩
  · rw [foregroundSpeed_primary (represented_of_execution run).onePrimary known primary]
  · rw [foregroundSpeed_none free]

end Runs

/-- The primary sets its speed, another client sends, and the primary's speed is restored. -/
theorem idle_speed_session :
    ∃ history a, actor.Execution leased history a ∧ a.core.isPrimary 1 = true ∧
      lastSpeed (transport history) = some [0x02, 25] := by
  have run := actor.execution_exec leased
    [.request (.register 1 true) 0 0 none, .request (.setSpeed 1 (.fixed 25)) 0 0 none,
      .request (.register 2 false) 0 0 none,
      .request (.enqueue 2 ⟨[69], [69]⟩ (some (.fixed 30)) false) 1 1 none, .byte 0xc4 2 2 none,
      .byte 0xc0 3 3 none] (by decide)
  have speed := (idle_speed run (by decide) (by decide) (by decide) (by decide) (by decide)).1 1 _
    (Option.some_get (by decide)).symm (by decide)
  exact ⟨_, _, run, by decide, speed⟩

/-- The primary sets its speed and leaves: the keyer stays at its speed, and no client is primary. -/
theorem not_idle_speed : ∃ history a, actor.Execution leased history a ∧ ¬ IdleSpeed history a := by
  have run := actor.execution_exec leased
    [.request (.register 1 true) 0 0 none, .request (.setSpeed 1 (.fixed 25)) 0 0 none,
      .request (.unregister 1) 1 1 none] (by decide)
  refine ⟨_, _, run, fun idle => ?_⟩
  have pot := (idle (by decide) (by decide) (by decide) (by decide)).2 (isPrimary_none (by decide))
  exact absurd pot (by decide)

end CatHub.WinKeyer
