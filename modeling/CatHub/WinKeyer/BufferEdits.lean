/-
# CatHub.WinKeyer.BufferEdits — an edit of the keyer's buffer is written once.

Pointer and Backspace edit what the keyer holds of the current text, each time they are received.  A
Pointer goes to the active owner and is kept nowhere.  A Backspace is classed as a setting: it is stored
in the client's profile and comes out again whenever the keyer goes over to that client.

`edits_written_once` traces every edit on the device to the command of a read: it is written while the
very request is served that passes that command on, and no two of them trace to one command.  This holds
as long as the keyer is never handed to a client whose profile is due and holds a Backspace.
-/
import Mathlib.Data.List.Forall2
import CatHub.WinKeyer.Brokerage
import CatHub.WinKeyer.Handover

namespace CatHub.WinKeyer

open Systems Ptt BrokerCore ReadPath

/-! ## The property -/

/-- The chunk begins as a Pointer or as a Backspace. -/
def isEdit (chunk : List UInt8) : Bool := chunk.head? == some 0x16 || chunk.head? == some 0x08

def ClientItem.edit? : ClientItem → Option (List UInt8)
  | .command bytes => if isEdit bytes then some bytes else none
  | .data _ => none

/-- The edits that a client sends in a step. -/
def editsSent (e : BrokerageStep) : List (ClientId × List UInt8) :=
  match e.input with
  | .read clientId bytes =>
      match e.before.waiting clientId with
      | some (_, session) =>
          ((itemsOf session.parser bytes).filterMap ClientItem.edit?).map (Prod.mk clientId)
      | none => []
  | _ => []

/-- The edits that a step writes to the device, a last one perhaps not to its end. -/
def editsWritten (e : BrokerageStep) : List (List UInt8) :=
  (e.output.toList.flatMap (·.output.written)).filter isEdit

/-- The edit that a request carries. -/
def Request.edit? : Request → Option (List UInt8)
  | .configure _ command | .activeOwnerCommand _ command =>
      if isEdit command then some command else none
  | _ => none

def ActorInput.edit? : ActorInput → Option (List UInt8)
  | .request asked _ _ _ => asked.edit?
  | _ => none

/-- The edit that the request carries which is served in a step, and the client whose request it is. -/
def editServed (e : BrokerageStep) : Option (ClientId × List UInt8) :=
  match e.input, e.output with
  | .serve clientId _ _ _ _, some act => act.input.edit?.map (Prod.mk clientId)
  | _, _ => none

/-- The endpoint of a client begins to handle a read. -/
def readsFor (clientId : ClientId) (e : BrokerageStep) : Bool :=
  match e.input with
  | .read c _ => c == clientId
  | _ => false

/-- An edit that a client has sent: the step of the read that brought it, and its place among the edits of
that read. -/
structure Sending where
  step : Nat
  place : Nat

def WritesEdit (history : List BrokerageStep) (i : Nat) : Prop :=
  ∃ e, history[i]? = some e ∧ editsWritten e ≠ []

/-- Step `i` serves a request that carries an edit and writes that one, perhaps not to its end, and no
other.  It is the one that was sent so, by the client whose request it is, in the last read before. -/
def WritesSent (history : List BrokerageStep) (i : Nat) (sending : Sending) : Prop :=
  ∃ e read clientId command chunk, history[i]? = some e ∧ editServed e = some (clientId, command) ∧
    editsWritten e = [chunk] ∧ chunk <+: command ∧ sending.step < i ∧
    history[sending.step]? = some read ∧ (editsSent read)[sending.place]? = some (clientId, command) ∧
    ∀ between later, sending.step < between → between < i → history[between]? = some later →
      readsFor clientId later = false

/-- The edits on the device have come from what was sent, those of one read in its order. -/
structure Traced (history : List BrokerageStep) (origin : Nat → Sending) : Prop where
  sent : ∀ i, WritesEdit history i → WritesSent history i (origin i)
  ordered : ∀ i j, i < j → WritesEdit history i → WritesEdit history j →
    (origin i).step = (origin j).step → (origin i).place < (origin j).place

/-- Every edit on the device is traced to one that was sent, and no two of them to the same. -/
def WrittenOnce (history : List BrokerageStep) : Prop :=
  ∃ origin, Traced history origin ∧
    ∀ i j, WritesEdit history i → WritesEdit history j → origin i = origin j → i = j

/-! ## The condition -/

/-- The profile key of Backspace. -/
def backspaceKey : Nat := 0x08

/-- The call replays no profile that holds a Backspace. -/
def sparesEdits (call : BrokerCall) : Bool :=
  (call.input.replayed call.before).all fun profile => profile[backspaceKey]?.isNone

/-- No profile that holds a Backspace is replayed to the device.  In the reconnect loop there is none. -/
def SparesEdits (e : ActorStep) : Bool :=
  match e.input with
  | .reopen _ _ => (coreCalls e).all sparesEdits
  | _ => e.before.loop == .reconnecting || (coreCalls e).all sparesEdits

/-! ## The core -/

theorem isEdit_speed (speed : SpeedMode) : isEdit speed.command = false := by
  cases speed <;> rfl

/-- What begins an edit is nothing, or looks like one. -/
theorem isEdit_of_begins {chunk command : List UInt8} (front : chunk <+: command)
    (edit : isEdit chunk = true) : isEdit command = true := by
  cases chunk with
  | nil => cases edit
  | cons byte rest =>
      obtain ⟨more, rfl⟩ := front
      exact edit

/-- No payload that waits begins as an edit, and a profile holds none but under the key of Backspace. -/
structure Tame (core : BrokerCore) : Prop where
  queue : ∀ job ∈ core.queue, isEdit job.payload.wireBytes = false
  profile : ∀ (c : ClientId) (client : ClientState), core.clients[c]? = some client →
    ∀ key command, client.profile[key]? = some command → isEdit command = true → key = backspaceKey

/-- A call hands in no payload that begins as an edit, and no edit for a profile but a Backspace. -/
def BrokerOp.Fits : BrokerOp → Prop
  | .enqueue _ payload _ _ _ _ => isEdit payload.wireBytes = false
  | .setClientCommand _ command => isEdit command = true → profileKey command = some backspaceKey
  | _ => True

section
variable {core : BrokerCore} {op : BrokerOp}

theorem Tame.of_same {core' : BrokerCore} (tame : Tame core) (clients : core'.clients = core.clients)
    (queue : ∀ job ∈ core'.queue, job ∈ core.queue) : Tame core' where
  queue := fun job held => tame.queue job (queue job held)
  profile := fun c client known => tame.profile c client (clients ▸ known)

/-- A payload that joins another one does not change how that begins, unless it was empty. -/
theorem isEdit_append {front back : List UInt8} (first : isEdit front = false)
    (second : isEdit back = false) : isEdit (front ++ back) = false := by
  cases front with
  | nil => exact second
  | cons byte rest => exact first

theorem tame_call (tame : Tame core) (fits : op.Fits) : Tame (op.apply core).1 := by
  cases within : op.within with
  | false =>
      cases op with
      | connectPhysical | restoreForeground => exact tame.of_same rfl (fun _ => id)
      | physicalError error => exact tame.of_same rfl (fun _ none_ => by cases none_)
      | _ => cases within
  | true =>
      refine ⟨fun job held => ?_, fun c client known key command stored edit => ?_⟩
      · have effect : Effect core op (op.apply core).2 (op.apply core).1 := effect_within core within
        rcases effect.queue_from job held with earlier | ⟨speed, now, clock, rfl⟩ |
          ⟨tail, payload, speed, now, clock, last, -, rfl, rfl⟩
        · exact tame.queue job earlier
        · exact fits
        · exact isEdit_append (tame.queue tail (List.mem_of_mem_getLast? last)) fits
      · cases (apply_course core within).entry known with
        | kept found | paced found => exact tame.profile c _ found key command stored edit
        | registered => simp at stored
        | @configured before added key' keyed found =>
            have entry : (before.profile.insert key' added)[key]? = some command := stored
            rw [Std.TreeMap.getElem?_insert] at entry
            split at entry
            · rename_i same
              obtain rfl := Option.some.inj entry
              have under : profileKey added = some backspaceKey := fits edit
              rw [keyed] at under
              rw [← Nat.compare_eq_eq.mp same]
              exact Option.some.inj under
            · exact tame.profile c before found key command entry edit

/-- A profile without a Backspace replays no edit. -/
theorem Tame.replayed (tame : Tame core) {profile : Profile} (replayed : op.replayed core = some profile)
    (spared : profile[backspaceKey]? = none) : ∀ chunk ∈ storedCommands profile, isEdit chunk = false := by
  intro chunk held
  obtain ⟨⟨key, command⟩, entry, rfl⟩ := List.mem_map.mp held
  have stored := Std.TreeMap.mem_toList_iff_getElem?_eq_some.mp entry
  unfold BrokerOp.replayed at replayed
  obtain ⟨c, -, due⟩ := Option.bind_eq_some_iff.mp replayed
  unfold BrokerCore.replayFor at due
  split at due
  · cases due
  · obtain ⟨client, known, rfl⟩ := Option.map_eq_some_iff.mp due
    cases edit : isEdit command with
    | false => rfl
    | true =>
        have here := tame.profile c client known key command stored edit
        rw [here, spared] at stored
        cases stored

/-- An edit that a call writes is the command that the call hands in. -/
theorem edit_of_call (tame : Tame core) (fits : op.Fits)
    (spared : ∀ profile, op.replayed core = some profile → profile[backspaceKey]? = none) :
    ∀ chunk ∈ writes (op.apply core).2.actions, isEdit chunk = true →
      ∃ c, op = .setClientCommand c chunk ∨ op = .activeOwnerCommand c chunk := by
  intro chunk held edit
  cases call_source core op chunk held with
  | command same => exact ⟨_, same⟩
  | payload same =>
      subst same
      exact absurd (edit.symm.trans fits) (by decide)
  | waiting queued => exact absurd (edit.symm.trans (tame.queue _ queued)) (by decide)
  | speed speed => exact absurd (edit.symm.trans (isEdit_speed speed)) (by decide)
  | fixed known =>
      have plain : ∀ chunk ∈ ([[0x0a], [0x0a, 0x0b, 0x00], [0x15]] : List (List UInt8)),
          isEdit chunk = false := by decide
      exact absurd (edit.symm.trans (plain chunk known)) (by decide)
  | replayed replayed stored =>
      exact absurd (edit.symm.trans (tame.replayed replayed (spared _ replayed) chunk stored)) (by decide)

/-- A sequence of calls. -/
theorem edit_of_calls {ops : List BrokerOp} (tame : Tame core) (fits : ∀ op ∈ ops, op.Fits)
    (spared : (core.callsOf ops).all sparesEdits = true) :
    ∀ chunk ∈ writes (core.returned ops), isEdit chunk = true →
      ∃ c, .setClientCommand c chunk ∈ ops ∨ .activeOwnerCommand c chunk ∈ ops := by
  induction ops generalizing core with
  | nil => exact fun chunk held => by cases held
  | cons op ops ih =>
      obtain ⟨here, later⟩ := List.forall_mem_cons.mp fits
      have each : (sparesEdits ⟨core, op, (op.apply core).2, (op.apply core).1⟩ &&
          ((op.apply core).1.callsOf ops).all sparesEdits) = true := spared
      obtain ⟨now, behind⟩ := Bool.and_eq_true_iff.mp each
      intro chunk held edit
      rw [returned_cons, writes_append] at held
      rcases List.mem_append.mp held with first | rest
      · have clean : ∀ profile, op.replayed core = some profile → profile[backspaceKey]? = none := by
          intro profile replayed
          have none_ : (op.replayed core).all (fun profile => profile[backspaceKey]?.isNone) = true := now
          rw [replayed] at none_
          exact Option.isNone_iff_eq_none.mp none_
        obtain ⟨c, same | same⟩ := edit_of_call tame here clean chunk first edit
        · exact ⟨c, .inl (same ▸ List.mem_cons_self ..)⟩
        · exact ⟨c, .inr (same ▸ List.mem_cons_self ..)⟩
      · obtain ⟨c, same | same⟩ := ih (tame_call tame here) later behind chunk rest edit
        · exact ⟨c, .inl (List.mem_cons_of_mem _ same)⟩
        · exact ⟨c, .inr (List.mem_cons_of_mem _ same)⟩

theorem tame_calls {ops : List BrokerOp} (tame : Tame core) (fits : ∀ op ∈ ops, op.Fits) :
    Tame (core.afterCalls ops) := by
  induction ops generalizing core with
  | nil => exact tame
  | cons op ops ih =>
      obtain ⟨here, later⟩ := List.forall_mem_cons.mp fits
      exact ih (tame_call tame here) later

end

/-! ## The actor -/

/-- A request hands in no payload that begins as an edit, no edit for maintenance, and for a profile none
but a Backspace. -/
def Request.Fits : Request → Prop
  | .enqueue _ payload _ _ => isEdit payload.wireBytes = false
  | .configure _ command => isEdit command = true → profileKey command = some backspaceKey
  | .maintenanceCommand _ command => isEdit command = false
  | _ => True

def Trigger.Fits : Trigger → Prop
  | .request asked => asked.Fits
  | _ => True

def Trigger.edit? : Trigger → Option (List UInt8)
  | .request asked => asked.edit?
  | _ => none

def ActorInput.Fits : ActorInput → Prop
  | .request asked _ _ _ => asked.Fits
  | _ => True

/-- What a step may have written: no edit, or the beginning of the one that its input carries. -/
def WritesOwn (input : ActorInput) (written : List (List UInt8)) : Prop :=
  written.filter isEdit = [] ∨
    ∃ command chunk, input.edit? = some command ∧ chunk <+: command ∧ written.filter isEdit = [chunk]

/-- A write that fails cuts off its chunk and all that come behind it. -/
theorem applyActions_cut (actions : List PhysicalAction) (fault : Option WriteFault) :
    ∃ front, front <+: writes actions ∧
      List.Forall₂ (· <+: ·) (applyActions actions fault).written front := by
  induction actions generalizing fault with
  | nil => exact ⟨[], List.prefix_refl _, .nil⟩
  | cons action actions ih =>
      cases action with
      | write chunk =>
          have same : writes (.write chunk :: actions) = chunk :: writes actions := rfl
          rw [same]
          match fault with
          | none =>
              obtain ⟨front, begins, cut⟩ := ih none
              exact ⟨chunk :: front, List.cons_prefix_cons.mpr ⟨rfl, begins⟩,
                .cons (List.prefix_refl _) cut⟩
          | some ⟨0, bytes, error⟩ =>
              exact ⟨[chunk], List.cons_prefix_cons.mpr ⟨rfl, List.nil_prefix⟩,
                .cons (List.take_prefix _ _) .nil⟩
          | some ⟨more + 1, bytes, error⟩ =>
              obtain ⟨front, begins, cut⟩ := ih (some ⟨more, bytes, error⟩)
              exact ⟨chunk :: front, List.cons_prefix_cons.mpr ⟨rfl, begins⟩,
                .cons (List.prefix_refl _) cut⟩
      | completed jobId clientId =>
          obtain ⟨front, begins, cut⟩ := ih fault
          exact ⟨front, begins, cut⟩
      | canceled jobId clientId =>
          obtain ⟨front, begins, cut⟩ := ih fault
          exact ⟨front, begins, cut⟩

/-- Cut chunks hold no edit if the whole ones hold none. -/
theorem filter_cut {written front : List (List UInt8)} (cut : List.Forall₂ (· <+: ·) written front)
    (plain : ∀ chunk ∈ front, isEdit chunk = false) : written.filter isEdit = [] := by
  induction cut with
  | nil => rfl
  | cons begins _ ih =>
      obtain ⟨here, later⟩ := List.forall_mem_cons.mp plain
      rw [List.filter_cons_of_neg, ih later]
      exact fun edit => absurd (isEdit_of_begins begins edit) (by rw [here]; decide)

/-- What is written of some actions, none of which writes an edit. -/
theorem plain_applyActions {actions : List PhysicalAction} {fault : Option WriteFault}
    (plain : ∀ chunk ∈ writes actions, isEdit chunk = false) :
    (applyActions actions fault).written.filter isEdit = [] := by
  obtain ⟨front, begins, cut⟩ := applyActions_cut actions fault
  exact filter_cut cut (fun chunk held => plain chunk (begins.subset held))

/-- What is written of an action that writes the edit of a request. -/
theorem own_applyActions {actions : List PhysicalAction} {fault : Option WriteFault}
    {command : List UInt8} (own : writes actions = [command]) :
    (applyActions actions fault).written.filter isEdit = [] ∨
      ∃ chunk, chunk <+: command ∧ (applyActions actions fault).written.filter isEdit = [chunk] := by
  obtain ⟨front, begins, cut⟩ := applyActions_cut actions fault
  rw [own] at begins
  generalize (applyActions actions fault).written = written at cut ⊢
  rcases List.prefix_cons_iff.mp begins with rfl | ⟨rest, rfl, none_⟩
  · rw [List.forall₂_nil_right_iff.mp cut]
    exact .inl rfl
  · obtain rfl := List.prefix_nil.mp none_
    cases cut with
    | @cons chunk _ _ _ front none_ =>
        cases none_
        cases edit : isEdit chunk with
        | false => exact .inl (by simp [edit])
        | true => exact .inr ⟨chunk, front, by simp [edit]⟩

/-- A device byte hands in nothing. -/
theorem handsIn_byte (a : Actor) (now later : Nat) (byte : UInt8) {op : BrokerOp}
    (held : op ∈ a.decisionOps now later (.byte byte)) : op.handsIn = false := by
  simp only [Actor.decisionOps] at held
  split at held
  · split at held
    · cases held
    · rcases List.mem_cons.mp held with rfl | last
      · rfl
      · rw [List.mem_singleton.mp last]
        rfl
  · split at held
    · cases held
    · split at held
      · rw [List.mem_singleton.mp held]
        rfl
      · rcases List.mem_append.mp held with noted | last
        · split at noted
          · rw [List.mem_singleton.mp noted]
            rfl
          · cases noted
        · rw [List.mem_singleton.mp last]
          rfl
      · cases held

theorem fits_decision (a : Actor) (now later : Nat) {trigger : Trigger} (fits : trigger.Fits) :
    ∀ op ∈ a.decisionOps now later trigger, op.Fits := by
  have lone : ∀ (barred : Bool) (op : BrokerOp), op.Fits →
      ∀ other ∈ (if barred then [] else [op]), other.Fits := by
    intro barred op here other held
    cases barred
    · rw [List.mem_singleton.mp held]
      exact here
    · cases held
  intro op held
  cases trigger with
  | tick =>
      rcases List.mem_cons.mp held with rfl | last
      · trivial
      · rw [List.mem_singleton.mp last]
        trivial
  | byte byte =>
      have quiet := handsIn_byte a now later byte held
      cases op with
      | enqueue | setClientCommand => cases quiet
      | _ => trivial
  | request request =>
      cases request with
      | configure clientId command =>
          exact lone (a.maintenanceBars clientId) (.setClientCommand clientId command) fits op held
      | activeOwnerCommand clientId command =>
          exact lone a.inMaintenance (.activeOwnerCommand clientId command) trivial op held
      | setSpeed clientId speed =>
          exact lone (a.maintenanceBars clientId) (.setClientSpeed clientId speed) trivial op held
      | enqueue clientId payload speed stream =>
          simp only [Actor.decisionOps] at held
          split at held
          · rw [List.mem_singleton.mp held]
            exact fits
          · cases held
      | maintenanceCommand | releaseMaintenance => cases held
      | _ =>
          rw [List.mem_singleton.mp held]
          trivial

/-- The actor itself writes no edit, and polls with none. -/
theorem plain_ownWrites (a : Actor) {trigger : Trigger} (fits : trigger.Fits) :
    ∀ chunk ∈ a.ownWrites trigger, isEdit chunk = false := by
  have lone : ∀ (due : Prop) [Decidable due] (chunk : List UInt8), isEdit chunk = false →
      ∀ other ∈ (if due then [chunk] else []), isEdit other = false := by
    intro due _ chunk plain other held
    split at held
    · rw [List.mem_singleton.mp held]
      exact plain
    · cases held
  intro chunk held
  cases trigger with
  | tick => cases held
  | byte byte => exact lone _ safeInitialization rfl chunk held
  | request request =>
      cases request with
      | unregister | releaseMaintenance => exact lone _ hostOpen rfl chunk held
      | maintenanceCommand clientId command =>
          simp only [Actor.ownWrites] at held
          split at held
          · rcases List.mem_append.mp held with entry | last
            · exact lone _ maintenanceEntry rfl chunk entry
            · rw [List.mem_singleton.mp last]
              exact fits
          · cases held
      | _ => cases held

theorem plain_pollWrites (a : Actor) (now later : Nat) (trigger : Trigger) :
    ∀ chunk ∈ a.pollWrites now later trigger, isEdit chunk = false := by
  intro chunk held
  cases trigger with
  | tick =>
      simp only [Actor.pollWrites] at held
      split at held
      · rw [List.mem_singleton.mp held]
        rfl
      · cases held
  | _ => cases held

/-- A command that the core is handed is all that it writes for it. -/
theorem writes_command {core : BrokerCore} {op : BrokerOp} {c : ClientId} {command : List UInt8}
    (hands : op = .setClientCommand c command ∨ op = .activeOwnerCommand c command) :
    writes (core.returned [op]) = [] ∨ writes (core.returned [op]) = [command] := by
  have alone : core.returned [op] = (op.apply core).2.actions := by simp
  rw [alone]
  rcases hands with rfl | rfl
  · simp only [BrokerOp.apply]
    split
    · rename_i set
      rcases setClientCommand_actions set with same | same
      · exact .inr (by rw [same]; rfl)
      · exact .inl (by rw [same]; rfl)
    · exact .inl rfl
  · rcases activeOwnerCommand_actions core c command with same | same
    · exact .inr (congrArg writes same)
    · exact .inl (congrArg writes same)

/-- A decision that hands a command to the core hands in nothing else, and writes nothing else. -/
theorem decision_command {a : Actor} {now later : Nat} {trigger : Trigger} {c : ClientId}
    {command : List UInt8} (called : .setClientCommand c command ∈ a.decisionOps now later trigger ∨
      .activeOwnerCommand c command ∈ a.decisionOps now later trigger) :
    (trigger = .request (.configure c command) ∨ trigger = .request (.activeOwnerCommand c command)) ∧
      ∃ op, (op = .setClientCommand c command ∨ op = .activeOwnerCommand c command) ∧
        a.decisionOps now later trigger = [op] := by
  cases trigger with
  | tick => rcases called with called | called <;> simp [Actor.decisionOps] at called
  | byte byte =>
      rcases called with called | called
      · cases handsIn_byte a now later byte called
      · cases handsIn_byte a now later byte called
  | request request =>
      cases request with
      | configure d other =>
          simp only [Actor.decisionOps] at called ⊢
          split at called
          · simp at called
          · rename_i unbarred
            rcases called with called | called
            · cases List.mem_singleton.mp called
              exact ⟨.inl rfl, _, .inl rfl, if_neg unbarred⟩
            · cases List.mem_singleton.mp called
      | activeOwnerCommand d other =>
          simp only [Actor.decisionOps] at called ⊢
          split at called
          · simp at called
          · rename_i outside
            rcases called with called | called
            · cases List.mem_singleton.mp called
            · cases List.mem_singleton.mp called
              exact ⟨.inr rfl, _, .inr rfl, if_neg outside⟩
      | setSpeed | enqueue =>
          simp only [Actor.decisionOps] at called
          split at called <;> simp at called
      | _ => simp [Actor.decisionOps] at called

/-- The chunks of a decision: the edit that its trigger carries, or no edit. -/
theorem decided_edits {a mid : Actor} {now later : Nat} {trigger : Trigger} {o : Observation}
    {actions : List PhysicalAction} (decides : a.Decides now later trigger mid o actions)
    (tame : Tame a.core) (fits : trigger.Fits)
    (spared : (a.core.callsOf (a.decisionOps now later trigger)).all sparesEdits = true) :
    (∀ chunk ∈ writes actions, isEdit chunk = false) ∨
      ∃ command, trigger.edit? = some command ∧ writes actions = [command] := by
  have all : writes actions = a.ownWrites trigger ++
      writes (a.core.returned (a.decisionOps now later trigger)) ++ a.pollWrites now later trigger := by
    rw [decides.actions, writes_append, writes_append, writes_map, writes_map]
  by_cases edits : ∃ chunk ∈ writes (a.core.returned (a.decisionOps now later trigger)),
      isEdit chunk = true
  · -- an edit among the chunks of the core is the command of the request, and that is all there is
    right
    obtain ⟨chunk, held, edit⟩ := edits
    obtain ⟨c, called⟩ := edit_of_calls tame (fits_decision a now later fits) spared chunk held edit
    obtain ⟨asked, op, hands, ops⟩ := decision_command called
    have quiet : a.ownWrites trigger = [] ∧ a.pollWrites now later trigger = [] := by
      rcases asked with rfl | rfl <;> exact ⟨rfl, rfl⟩
    have carried : trigger.edit? = some chunk := by
      rcases asked with rfl | rfl <;> exact if_pos edit
    refine ⟨chunk, carried, ?_⟩
    rw [all, quiet.1, quiet.2, List.append_nil, List.nil_append, ops]
    rw [ops] at held
    rcases writes_command hands with none_ | one
    · rw [none_] at held
      cases held
    · exact one
  · left
    intro chunk held
    rw [all] at held
    rcases List.mem_append.mp held with front | last
    · rcases List.mem_append.mp front with first | middle
      · exact plain_ownWrites a fits chunk first
      · exact Bool.eq_false_iff.mpr (fun edit => edits ⟨chunk, middle, edit⟩)
    · exact plain_pollWrites a now later trigger chunk last

theorem tame_physicalError {core : BrokerCore} (tame : Tame core) (error : String) :
    Tame (core.physicalError error).1 := tame.of_same rfl (fun _ none_ => by cases none_)

theorem tame_decided {a mid : Actor} {now later : Nat} {trigger : Trigger} {o : Observation}
    {actions : List PhysicalAction} (decides : a.Decides now later trigger mid o actions)
    (tame : Tame a.core) (fits : trigger.Fits) : Tame mid.core := by
  rw [decides.core]
  exact tame_calls tame (fits_decision a now later fits)

/-- What a turn writes. -/
theorem turn_edits {a a' : Actor} {now later : Nat} {trigger : Trigger} {fault : Option WriteFault}
    {o : Observation} (turn : a.TurnEffect now later trigger fault o a') (tame : Tame a.core)
    (fits : trigger.Fits)
    (spared : (a.core.callsOf (a.decisionOps now later trigger)).all sparesEdits = true) :
    Tame a'.core ∧ (o.written.filter isEdit = [] ∨ ∃ command chunk, trigger.edit? = some command ∧
      chunk <+: command ∧ o.written.filter isEdit = [chunk]) := by
  have performed : ∀ {mid : Actor} {o₀ : Observation} {actions : List PhysicalAction}
      {fault : Option WriteFault}, a.Decides now later trigger mid o₀ actions →
      (applyActions actions fault).written.filter isEdit = [] ∨ ∃ command chunk,
        trigger.edit? = some command ∧ chunk <+: command ∧
          (applyActions actions fault).written.filter isEdit = [chunk] := by
    intro mid o₀ actions fault decides
    rcases decided_edits decides tame fits spared with plain | ⟨command, carried, own⟩
    · exact .inl (plain_applyActions plain)
    · rcases own_applyActions own with none_ | ⟨chunk, begins, one⟩
      · exact .inl none_
      · exact .inr ⟨command, chunk, carried, begins, one⟩
  cases turn with
  | goesOn decides core _ _ _ _ written =>
      rw [core, written, ← applyActions_written (applyActions_none _)]
      exact ⟨tame_decided decides tame fits, performed decides⟩
  | fails message decides _ _ written =>
      rw [written]
      exact ⟨tame_physicalError (tame_decided decides tame fits) message, performed decides⟩
  | leaves decides _ core _ written =>
      have closing : [hostClose].filter isEdit = [] := rfl
      rw [core, written, List.filter_append, closing, List.append_nil]
      exact ⟨tame_decided decides tame fits, performed decides⟩
  | misread message _ written =>
      rw [written]
      exact ⟨@tame_physicalError a.core tame message, .inl rfl⟩

/-- The calls behind an opened transport. -/
theorem reopening_edits {core : BrokerCore} {firmware : UInt8} (tame : Tame core)
    (spared : (core.callsOf (reopening firmware)).all sparesEdits = true) :
    Tame (core.afterCalls (reopening firmware)) ∧
      ∀ chunk ∈ writes (core.returned (reopening firmware)), isEdit chunk = false := by
  have fits : ∀ op ∈ reopening firmware, op.Fits := by
    intro op held
    rcases List.mem_cons.mp held with rfl | last
    · trivial
    · rw [List.mem_singleton.mp last]
      trivial
  refine ⟨tame_calls tame fits, fun chunk held => ?_⟩
  cases edit : isEdit chunk with
  | false => rfl
  | true =>
      obtain ⟨c, called | called⟩ := edit_of_calls tame fits spared chunk held edit
      · simp [reopening] at called
      · simp [reopening] at called

/-- What is written to an opened transport. -/
theorem reopen_edits {a a' : Actor} {now : Nat} {firmware : UInt8} {fault : Option WriteFault}
    {o : Observation} (step : actor.step a (.reopen now (.opened firmware fault)) = some (a', o))
    (plain : ∀ chunk ∈ writes (a.core.returned (reopening firmware)), isEdit chunk = false) :
    o.written.filter isEdit = [] := by
  have returned : a.core.returned (reopening firmware) =
      (a.core.connectPhysical firmware).restoreForeground.2 := by
    simp [reopening, BrokerOp.apply]
  have written : o.written = hostOpen :: safeInitialization ::
      (applyActions (a.core.returned (reopening firmware)) fault).written := by
    simp only [actor] at step
    split at step
    · have opened := congrArg (·.2.written) (Option.some.inj step)
      dsimp only at opened
      rw [← opened, returned]
      unfold Actor.reopenTransport
      dsimp only
      split <;> rfl
    · cases step
  rw [written]
  exact plain_applyActions plain

/-- The initialization writes none, as far as it gets. -/
theorem plain_initialization (outcome : Reopening) : outcome.initialization.filter isEdit = [] := by
  have cut : ∀ (chunk : List UInt8) (bytes : Nat), isEdit chunk = false →
      isEdit (chunk.take bytes) = false := by
    intro chunk bytes plain
    cases edit : isEdit (chunk.take bytes) with
    | false => rfl
    | true => exact (isEdit_of_begins (List.take_prefix bytes chunk) edit).symm.trans plain
  rcases outcome with error | ⟨bytes | bytes, error⟩ | ⟨firmware, fault⟩
  · rfl
  · simp [Reopening.initialization, cut hostOpen bytes rfl]
  · simp [Reopening.initialization, cut safeInitialization bytes rfl, show isEdit hostOpen = false from rfl]
  · rfl

/-- **What a step of the actor writes**: no edit, or the one that its request carries. -/
theorem actor_edits {a a' : Actor} {input : ActorInput} {o : Observation} (tame : Tame a.core)
    (fits : input.Fits) (step : actor.step a input = some (a', o))
    (spared : SparesEdits ⟨a, input, o, a'⟩ = true) : Tame a'.core ∧ WritesOwn input o.written := by
  cases actor_move step with
  | @turn trigger now later fault _ _ live _ _ turn =>
      have calls : (a.core.callsOf ((a.atTime later).decisionOps now later trigger)).all sparesEdits =
          true := by
        have online : (a.loop == .reconnecting) = false := by rw [live]; rfl
        cases trigger <;> exact (Bool.or_eq_true_iff.mp spared).resolve_left (by simp [online])
      have fit : trigger.Fits := by cases trigger <;> exact fits
      obtain ⟨tame', wrote⟩ := turn_edits turn tame fit calls
      refine ⟨tame', ?_⟩
      rcases wrote with none_ | ⟨command, chunk, carried, begins, one⟩
      · exact .inl none_
      · refine .inr ⟨command, chunk, ?_, begins, one⟩
        cases trigger <;> exact carried
  | sunk _ _ _ decides core _ _ _ _ written =>
      rw [core, written]
      exact ⟨tame_decided decides tame fits, .inl rfl⟩
  | left running =>
      refine ⟨tame, .inl ?_⟩
      simp only [actor] at step
      split at step <;> cases step <;> rfl
  | lost _ written =>
      rw [written]
      exact ⟨@tame_physicalError a.core tame _, .inl rfl⟩
  | unopened _ _ _ core _ _ _ _ written =>
      rw [core, written]
      exact ⟨tame_physicalError tame _, .inl (plain_initialization _)⟩
  | foreign _ _ core _ _ _ _ written =>
      rw [core, written]
      exact ⟨tame, .inl rfl⟩
  | refailed _ _ core =>
      rw [core]
      obtain ⟨tame', plain⟩ := reopening_edits tame spared
      exact ⟨tame_physicalError tame' _, .inl (reopen_edits step plain)⟩
  | reopened _ _ core =>
      rw [core]
      obtain ⟨tame', plain⟩ := reopening_edits tame spared
      exact ⟨tame', .inl (reopen_edits step plain)⟩

/-! ## The read path -/

namespace ReadPath

/-- Whoever asks it, the request is one that fits. -/
def Ask.Fits (q : Ask) : Prop := ∀ c request, q.request c = some request → request.Fits

/-- The edit that a question carries. -/
def Ask.edit? : Ask → Option (List UInt8)
  | .configure command | .activeOwnerCommand command => if isEdit command then some command else none
  | _ => none

theorem Ask.edit_of_request {q : Ask} {c : ClientId} {request : Request}
    (asked : q.request c = some request) : request.edit? = q.edit? := by
  cases q <;> cases asked <;> rfl

/-- All requests of the program fit, the edits that they carry are among these, in their order, and the
result satisfies `Q`. -/
abbrev Orderly (edits : List (List UInt8)) {α : Type} (Q : α → Prop) (program : Call α) : Prop :=
  program.Draws Ask.Fits Ask.edit? Q edits

/-- The session goes on with this parser, if it goes on. -/
def Kept (parser : ClientParser) (result : Option EndpointSession) : Prop :=
  ∀ s, result = some s → s.parser = parser

theorem kept_some {s : EndpointSession} {parser : ClientParser} (same : s.parser = parser) :
    Kept parser (some s) := fun _ next => Option.some.inj next ▸ same

theorem kept_none {parser : ClientParser} : Kept parser none := nofun

section
variable {edits : List (List UInt8)} {α : Type} {Q : α → Prop}

/-- The only question. -/
theorem orderly_only (q : Ask) {a : α} (fits : q.Fits) (carried : q.edit?.toList = edits) (ends : Q a) :
    Orderly edits Q (.ask q fun _ => pure a) :=
  ⟨fits, [], by simp [carried], fun _ => ends⟩

/-- A question that carries no edit. -/
theorem orderly_quiet (q : Ask) {next : q.Answer → Call α} (fits : q.Fits) (quiet : q.edit? = none)
    (rest : ∀ answer, Orderly edits Q (next answer)) : Orderly edits Q (.ask q next) :=
  ⟨fits, edits, by simp [quiet], rest⟩

end

/-- A data byte lies above the opcodes. -/
theorem isEdit_data {byte : UInt8} (above : 0x1f < byte) : isEdit [byte] = false := by
  have table : ∀ k < 256, 0x1f < k.toUInt8 → isEdit [k.toUInt8] = false := by decide +kernel
  have entry := table byte.toNat byte.toNat_lt
  rw [show byte.toNat.toUInt8 = byte from UInt8.ofNat_toNat] at entry
  exact entry above

/-- What the parser takes for data is no edit. -/
theorem isEdit_of_push {p p' : ClientParser} {byte data : UInt8}
    (pushed : p.push byte = (p', some (.data data))) : isEdit [data] = false := by
  have completes : ∀ q : ClientParser, q.complete ≠ (p', some (.data data)) := by
    intro q
    unfold ClientParser.complete
    split <;> simp
  unfold ClientParser.push at pushed
  split at pushed
  · split at pushed
    · rename_i above
      cases pushed
      exact isEdit_data above
    · exact absurd pushed (completes _)
  · exact absurd pushed (completes _)

theorem isEdit_buffered {command : List UInt8} (buffered : isBuffered command = true) :
    isEdit command = false := by
  cases command with
  | nil => rfl
  | cons opcode args =>
      have table : ∀ k < 256, inRange 0x18 0x1f k.toUInt8 = true → isEdit [k.toUInt8] = false := by
        decide +kernel
      have entry := table opcode.toNat opcode.toNat_lt
      rw [show opcode.toNat.toUInt8 = opcode from UInt8.ofNat_toNat] at entry
      exact entry (by simpa [isBuffered] using buffered)

/-- The settings among the edits are Backspaces. -/
theorem fits_transient {command : List UInt8} (policy : commandPolicy command = .transient) :
    (Ask.configure command).Fits := by
  rintro c request asked
  cases asked
  intro edit
  cases command with
  | nil => cases edit
  | cons opcode args =>
      rcases Bool.or_eq_true_iff.mp edit with pointer | backspace
      · obtain rfl := Option.some.inj (eq_of_beq pointer)
        have owner : commandPolicy (0x16 :: args) = .activeOwner := by cases args <;> rfl
        rw [owner] at policy
        cases policy
      · obtain rfl := Option.some.inj (eq_of_beq backspace)
        cases args <;> rfl

theorem isEdit_maintenance {command : List UInt8} (policy : commandPolicy command = .maintenance) :
    isEdit command = false := by
  cases edit : isEdit command with
  | false => rfl
  | true =>
      exfalso
      cases command with
      | nil => cases edit
      | cons opcode args =>
          rcases Bool.or_eq_true_iff.mp edit with pointer | backspace
          · obtain rfl := Option.some.inj (eq_of_beq pointer)
            cases args <;> cases policy
          · obtain rfl := Option.some.inj (eq_of_beq backspace)
            cases args <;> cases policy

theorem isEdit_admin {command : List UInt8} (admin : command.head? = some 0x00) :
    isEdit command = false := by
  unfold isEdit
  rw [admin]
  rfl

section
variable {parser : ClientParser}

theorem orderly_writeByte (byte : UInt8) {s : EndpointSession} (same : s.parser = parser) :
    Orderly [] (Kept parser) (writeByte byte s) := by
  refine orderly_quiet (.write byte) (fun _ _ asked => (by cases asked)) rfl (fun taken => ?_)
  show Kept parser (if taken = true then some s else none)
  split
  · exact kept_some same
  · exact kept_none

/-- The published snapshot is looked at. -/
theorem orderly_snapshot {next : BrokerSnapshot → Call (Option EndpointSession)}
    (rest : ∀ snapshot, Orderly [] (Kept parser) (next snapshot)) :
    Orderly [] (Kept parser)
      (Program.perform Ask.snapshot >>= next : Call (Option EndpointSession)) :=
  orderly_quiet .snapshot (fun _ _ asked => (by cases asked)) rfl rest

theorem orderly_maintain (permissions : EndpointPermissions) {command : List UInt8}
    {s : EndpointSession} (same : s.parser = parser) (plain : isEdit command = false) :
    Orderly [] (Kept parser) (maintain permissions command s) := by
  unfold maintain
  split
  · exact kept_none
  · refine orderly_quiet (.maintenanceCommand command) ?_ rfl (fun accepted => ?_)
    · intro c request asked
      cases asked
      exact plain
    · show Kept parser (if accepted = true then some { s with maintenanceActive := true } else none)
      split
      · exact kept_some same
      · exact kept_none

theorem orderly_handleAdmin (permissions : EndpointPermissions) {command : List UInt8}
    {s : EndpointSession} (same : s.parser = parser) (admin : command.head? = some 0x00) :
    Orderly [] (Kept parser) (handleAdmin permissions command s) := by
  have plain := isEdit_admin admin
  unfold handleAdmin
  split
  · exact kept_some same
  split
  · exact orderly_snapshot (fun _ => orderly_writeByte _ same)
  split
  · refine orderly_quiet .releaseMaintenance ?_ rfl (fun _ => kept_some same)
    intro c request asked
    cases asked
    trivial
  split
  · split
    · exact orderly_writeByte _ same
    · exact kept_some same
  split
  · exact orderly_writeByte _ same
  split
  · exact orderly_snapshot (fun _ => orderly_writeByte _ same)
  split
  · exact kept_some same
  split
  · exact kept_some same
  split
  · exact kept_some same
  split
  · refine orderly_quiet (.configure command) ?_ ?_ (fun _ => kept_some same)
    · intro c request asked
      cases asked
      exact fun edit => absurd (edit.symm.trans plain) (by decide)
    · exact if_neg (by rw [plain]; decide)
  · exact orderly_maintain permissions same plain

/-- A command is passed on at most once. -/
theorem orderly_handleCommand (permissions : EndpointPermissions) (command : List UInt8)
    {s : EndpointSession} (same : s.parser = parser) :
    Orderly (ClientItem.command command).edit?.toList (Kept parser)
      (handleCommand permissions command s) := by
  unfold handleCommand
  split
  · rename_i admin
    exact (orderly_handleAdmin permissions same admin).mono List.nil_suffix
  split
  · exact kept_some same
  split
  · exact kept_some same
  split
  · split
    · rename_i speed _
      refine orderly_quiet (.setSpeed speed) ?_ rfl (fun _ => kept_some same)
      intro c request asked
      cases asked
      trivial
    · exact kept_some same
  split
  · exact (orderly_snapshot (fun _ => orderly_writeByte _ same)).mono List.nil_suffix
  split
  · exact (orderly_snapshot (fun _ => orderly_writeByte _ same)).mono List.nil_suffix
  split
  · rename_i policy
    split
    · exact orderly_only (.configure command) (fits_transient policy) rfl (kept_some same)
    · exact kept_some same
  · split
    · refine orderly_only (.activeOwnerCommand command) ?_ rfl (kept_some same)
      intro c request asked
      cases asked
      trivial
    · exact kept_some same
  · rename_i policy
    exact (orderly_maintain permissions same (isEdit_maintenance policy)).mono List.nil_suffix
  · exact kept_some same

/-- What was collected is handed over first. -/
theorem orderly_flushStream {α : Type} {Q : α → Prop} {bufferedPrefix intendedText : List UInt8}
    {edits : List (List UInt8)} {next : Bool → Call α} (plain : isEdit bufferedPrefix = false)
    (plain' : isEdit intendedText = false) (rest : ∀ goesOn, Orderly edits Q (next goesOn)) :
    Orderly edits Q (flushStream bufferedPrefix intendedText >>= next) := by
  unfold flushStream
  split
  · exact rest true
  · refine orderly_quiet (.stream bufferedPrefix intendedText) ?_ rfl (fun goesOn => rest goesOn)
    intro c request asked
    cases asked
    exact isEdit_append plain plain'

/-- **A read passes every edit on at most once.** -/
theorem orderly_handleRead (permissions : EndpointPermissions) {bytes : List UInt8}
    {s : EndpointSession} {bufferedPrefix intendedText : List UInt8}
    (plain : isEdit bufferedPrefix = false) (plain' : isEdit intendedText = false) :
    Orderly ((itemsOf s.parser bytes).filterMap ClientItem.edit?) (fun _ => True)
      (handleRead permissions bytes s bufferedPrefix intendedText) := by
  induction bytes generalizing s bufferedPrefix intendedText with
  | nil =>
      unfold handleRead
      exact orderly_flushStream plain plain' (fun _ => trivial)
  | cons byte bytes ih =>
      rcases pushed : s.parser.push byte with ⟨parser, item⟩
      have fed : s.parser.feed (byte :: bytes) =
          ((parser.feed bytes).1, item.toList ++ (parser.feed bytes).2) := by
        rw [ClientParser.feed_cons, pushed]
      unfold itemsOf
      rw [fed]
      unfold handleRead
      rw [pushed]
      dsimp only
      cases item with
      | none => exact ih (s := { s with parser }) plain plain'
      | some item =>
          rw [Option.toList_some, List.singleton_append]
          have single : (item :: (parser.feed bytes).2).filterMap ClientItem.edit? =
              item.edit?.toList ++ (parser.feed bytes).2.filterMap ClientItem.edit? := by
            cases carried : item.edit? <;> simp [carried]
          rw [single]
          have later : ∀ {bufferedPrefix intendedText : List UInt8}, isEdit bufferedPrefix = false →
              isEdit intendedText = false → Orderly (item.edit?.toList ++
                (parser.feed bytes).2.filterMap ClientItem.edit?) (fun _ => True)
                (handleRead permissions bytes { s with parser } bufferedPrefix intendedText) :=
            fun plain plain' => (ih (s := { s with parser }) plain plain').mono (List.suffix_append _ _)
          have empty : isEdit [] = false := rfl
          cases item with
          | data data =>
              dsimp only
              split
              · exact later plain (isEdit_append plain' (isEdit_of_push pushed))
              · exact later plain plain'
          | command command =>
              dsimp only
              split
              · split
                · refine orderly_quiet .cancel ?_ rfl (fun _ => later empty empty)
                  intro c request asked
                  cases asked
                  trivial
                · exact later empty empty
              split
              · rename_i buffered
                split
                · split
                  · -- the text goes first
                    refine orderly_flushStream plain plain' (fun goesOn => ?_)
                    split
                    · exact later (isEdit_buffered buffered) empty
                    · trivial
                  · exact later (isEdit_append plain (isEdit_buffered buffered)) plain'
                · exact later plain plain'
              · refine orderly_flushStream plain plain' (fun goesOn => ?_)
                split
                · refine (orderly_handleCommand permissions command rfl).bind (fun handled kept => ?_)
                  cases handled with
                  | none => trivial
                  | some s' =>
                      have same : s'.parser = parser := kept s' rfl
                      have rest := ih (s := s') empty empty
                      rw [same] at rest
                      exact rest
                · trivial

end

end ReadPath

/-! ## The other requests -/

/-- An accepted text does not begin as an edit: a tab is the only control character in it. -/
theorem isEdit_text {text : List Char} {bytes : List UInt8} (accepted : validateText text = .ok bytes) :
    isEdit bytes = false := by
  obtain ⟨rfl, each⟩ := accepted_text accepted
  cases text with
  | nil => rfl
  | cons c rest =>
      obtain ⟨ascii, printable⟩ := each c (List.mem_cons_self ..)
      obtain ⟨byte, encoded, above⟩ := toUpper_ascii ascii
      have first : textBytes ((c :: rest).map Char.toUpper) =
          byte :: textBytes (rest.map Char.toUpper) := by
        rw [textBytes, List.map_cons, List.flatMap_cons, encoded]
        rfl
      rw [first]
      rcases printable with rfl | printable
      · have tab : byte = 0x09 := by
          have known : String.utf8EncodeChar ('\t' : Char).toUpper = [0x09] := by decide
          exact List.singleton_inj.mp (encoded.symm.trans known)
        rw [tab]
        rfl
      · have least : ¬ c.toNat < 32 := by simpa using (Bool.or_eq_false_iff.mp printable).1
        exact isEdit_data (above.mpr (Nat.not_lt.mp least))

/-- What comes from outside fits, and carries no edit. -/
theorem fits_fromOutside {input : ActorInput} (outside : input.fromOutside = true) :
    input.Fits ∧ input.edit? = none := by
  cases input with
  | request request now later fault =>
      cases request with
      | enqueue | configure | activeOwnerCommand | maintenanceCommand => cases outside
      | _ => exact ⟨trivial, rfl⟩
  | _ => exact ⟨trivial, rfl⟩

/-! ## Traces -/

/-- A read is one client's. -/
theorem readsFor_unique {c d : ClientId} {e : BrokerageStep} (here : readsFor c e = true)
    (there : readsFor d e = true) : c = d := by
  revert here there
  unfold readsFor
  split
  · exact fun here there => (eq_of_beq here).symm.trans (eq_of_beq there)
  · exact fun here => by cases here

section
variable {history more : List BrokerageStep} {e : BrokerageStep} {origin : Nat → Sending}
  {sending : Sending} {c : ClientId} {i : Nat}

theorem WritesEdit.before (writes : WritesEdit history i) : i < history.length := by
  obtain ⟨e, here, -⟩ := writes
  exact (List.getElem?_eq_some_iff.mp here).1

/-- A step of a run that goes on by one is an earlier one or the new one. -/
theorem step_of_concat {e' : BrokerageStep} (found : (history ++ [e])[i]? = some e') :
    history[i]? = some e' ∨ (i = history.length ∧ e = e') := by
  rcases Nat.lt_trichotomy i history.length with before | rfl | behind
  · rw [List.getElem?_append_left before] at found
    exact .inl found
  · rw [List.getElem?_concat_length] at found
    exact .inr ⟨rfl, Option.some.inj found⟩
  · rw [List.getElem?_eq_none (by simpa using Nat.succ_le_of_lt behind)] at found
    cases found

/-- A run that goes on by one step writes an edit where it did, or in that step. -/
theorem WritesEdit.of_append (writes : WritesEdit (history ++ [e]) i) :
    WritesEdit history i ∨ (i = history.length ∧ editsWritten e ≠ []) := by
  obtain ⟨e', here, wrote⟩ := writes
  rcases step_of_concat here with earlier | ⟨last, rfl⟩
  · exact .inl ⟨e', earlier, wrote⟩
  · exact .inr ⟨last, wrote⟩

theorem WritesSent.append (writes : WritesSent history i sending) :
    WritesSent (history ++ more) i sending := by
  obtain ⟨e, read, c, command, chunk, here, served, one, begins, earlier, there, sent, last⟩ := writes
  have before : i < history.length := (List.getElem?_eq_some_iff.mp here).1
  refine ⟨e, read, c, command, chunk, ?_, served, one, begins, earlier, ?_, sent, ?_⟩
  · rw [List.getElem?_append_left before]
    exact here
  · rw [List.getElem?_append_left (Nat.lt_trans earlier before)]
    exact there
  · intro between later behind ahead found
    rw [List.getElem?_append_left (Nat.lt_trans ahead before)] at found
    exact last between later behind ahead found

/-- A run goes on, and the edit that it writes then, if any, has an origin behind those of its read. -/
theorem Traced.append (traced : Traced history origin)
    (sent : editsWritten e ≠ [] → WritesSent (history ++ [e]) history.length sending)
    (behind : editsWritten e ≠ [] → ∀ i, WritesEdit history i → (origin i).step = sending.step →
      (origin i).place < sending.place) :
    Traced (history ++ [e]) (Function.update origin history.length sending) := by
  have old : ∀ {i}, WritesEdit history i →
      Function.update origin history.length sending i = origin i := fun writes =>
    Function.update_of_ne (Nat.ne_of_lt writes.before) _ _
  refine ⟨fun i writes => ?_, fun i j less here there same => ?_⟩
  · rcases writes.of_append with earlier | ⟨rfl, wrote⟩
    · rw [old earlier]
      exact (traced.sent i earlier).append
    · rw [Function.update_self]
      exact sent wrote
  · rcases here.of_append with earlier | ⟨rfl, wrote⟩
    · rw [old earlier] at same ⊢
      rcases there.of_append with earlier' | ⟨rfl, wrote⟩
      · rw [old earlier'] at same ⊢
        exact traced.ordered i j less earlier earlier' same
      · rw [Function.update_self] at same ⊢
        exact behind wrote i earlier same
    · rcases there.of_append with earlier' | ⟨rfl, -⟩
      · exact absurd earlier'.before (Nat.not_lt.mpr (Nat.le_of_lt less))
      · exact absurd less (Nat.lt_irrefl _)

/-- No two edits have one origin. -/
theorem Traced.once (traced : Traced history origin) :
    ∀ i j, WritesEdit history i → WritesEdit history j → origin i = origin j → i = j := by
  have apart : ∀ i j, i < j → WritesEdit history i → WritesEdit history j → origin i ≠ origin j := by
    intro i j less here there same
    have order := traced.ordered i j less here there (congrArg Sending.step same)
    rw [same] at order
    exact Nat.lt_irrefl _ order
  intro i j here there same
  rcases Nat.lt_trichotomy i j with less | equal | more
  · exact absurd same (apart i j less here there)
  · exact equal
  · exact absurd same.symm (apart j i more there here)

/-- The last read of a client's endpoint was step `next.step`, and its edits from `next.place` on are these.
The ones that are on the device stand before them. -/
structure InHand (history : List BrokerageStep) (origin : Nat → Sending) (c : ClientId)
    (next : Sending) (edits : List (List UInt8)) : Prop where
  read : ∃ read, history[next.step]? = some read ∧ readsFor c read = true ∧
    (editsSent read).drop next.place = edits.map (Prod.mk c)
  last : ∀ between later, next.step < between → history[between]? = some later →
    readsFor c later = false
  behind : ∀ i, WritesEdit history i → (origin i).step = next.step → (origin i).place < next.place

namespace InHand

variable {next : Sending} {edits rest skipped : List (List UInt8)} {command : List UInt8}

theorem before (h : InHand history origin c next edits) : next.step < history.length := by
  obtain ⟨read, found, -⟩ := h.read
  exact (List.getElem?_eq_some_iff.mp found).1

/-- The run goes on, without a read of this client. -/
theorem append (h : InHand history origin c next edits) (quiet : readsFor c e = false)
    (behind : editsWritten e ≠ [] → sending.step = next.step → sending.place < next.place) :
    InHand (history ++ [e]) (Function.update origin history.length sending) c next edits where
  read := by
    obtain ⟨read, found, reads, left⟩ := h.read
    exact ⟨read, (List.getElem?_append_left h.before).trans found, reads, left⟩
  last := by
    intro between later after found
    rcases step_of_concat found with earlier | ⟨-, rfl⟩
    · exact h.last between later after earlier
    · exact quiet
  behind := by
    intro i writes same
    rcases writes.of_append with earlier | ⟨rfl, wrote⟩
    · rw [Function.update_of_ne (Nat.ne_of_lt earlier.before)] at same ⊢
      exact h.behind i earlier same
    · rw [Function.update_self] at same ⊢
      exact behind wrote same

/-- An edit is passed on, and those before it are given up. -/
theorem advance (h : InHand history origin c next (skipped ++ command :: rest)) :
    InHand history origin c ⟨next.step, next.place + skipped.length + 1⟩ rest where
  read := by
    obtain ⟨read, found, reads, left⟩ := h.read
    refine ⟨read, found, reads, ?_⟩
    have split : skipped ++ command :: rest = (skipped ++ [command]) ++ rest := by simp
    have length : (skipped ++ [command]).length = skipped.length + 1 := by simp
    rw [Nat.add_assoc, ← List.drop_drop, left, split, ← List.map_drop, List.drop_left' length]
  last := h.last
  behind := by
    intro i writes same
    have order := h.behind i writes same
    show (origin i).place < next.place + skipped.length + 1
    omega

/-- The edit that is passed on, and where it was sent. -/
theorem sent (h : InHand history origin c next (skipped ++ command :: rest)) :
    ∃ read, history[next.step]? = some read ∧ readsFor c read = true ∧
      (editsSent read)[next.place + skipped.length]? = some (c, command) := by
  obtain ⟨read, found, reads, left⟩ := h.read
  refine ⟨read, found, reads, ?_⟩
  rw [← List.getElem?_drop, left]
  simp

end InHand

end

/-! ## Runs -/

/-- An endpoint has done with its read, or it passes on no edits but those that it has in hand. -/
def Holds (history : List BrokerageStep) (origin : Nat → Sending) (c : ClientId)
    (task : Call (Option EndpointSession)) : Prop :=
  (∃ result, task = .done result) ∨
    ∃ next edits, InHand history origin c next edits ∧ Orderly edits (fun _ => True) task

/-- The endpoint of a client rests, waits as before, or has been answered. -/
inductive GoesOn (s : Brokerage) (c : ClientId) : Call (Option EndpointSession) → Prop
  | rests (result : Option EndpointSession) : GoesOn s c (.done result)
  | waits {endpoint : VirtualEndpoint} : s.endpoints c = some endpoint → GoesOn s c endpoint.task
  | answered {permissions : EndpointPermissions} {q : Ask}
      {next : q.Answer → Call (Option EndpointSession)} (answer : q.Answer) :
      s.endpoints c = some ⟨permissions, .ask q next⟩ → GoesOn s c (next answer)

/-- The edits on the device are traced, and every endpoint holds what it may still pass on. -/
structure Matched (history : List BrokerageStep) (s : Brokerage) : Prop where
  tame : Tame s.keyer.core
  traced : ∃ origin, Traced history origin ∧
    ∀ c endpoint, s.endpoints c = some endpoint → Holds history origin c endpoint.task

section
variable {history : List BrokerageStep} {s t : Brokerage} {input : BrokerageInput}
  {output : Option ActorStep} {origin : Nat → Sending} {sending : Sending} {c : ClientId}
  {task : Call (Option EndpointSession)}

theorem editsWritten_some {e : ActorStep} :
    editsWritten ⟨s, input, some e, t⟩ = e.output.written.filter isEdit := by simp [editsWritten]

theorem endpoints_withEndpoint {next : Option VirtualEndpoint} {d : ClientId}
    {endpoint : VirtualEndpoint} (here : (s.withEndpoint c next).endpoints d = some endpoint) :
    (d = c ∧ next = some endpoint) ∨ (d ≠ c ∧ s.endpoints d = some endpoint) := by
  have found : (if d = c then next else s.endpoints d) = some endpoint := here
  split at found
  · rename_i same
    exact .inl ⟨same, found⟩
  · rename_i other
    exact .inr ⟨other, found⟩

theorem Holds.append {e : BrokerageStep} (holds : Holds history origin c task)
    (quiet : readsFor c e = false) (written : editsWritten e = []) :
    Holds (history ++ [e]) (Function.update origin history.length sending) c task := by
  rcases holds with done | ⟨next, edits, inHand, orderly⟩
  · exact .inl done
  · exact .inr ⟨next, edits, inHand.append quiet (fun wrote => absurd written wrote), orderly⟩

/-- Who asks has a read in hand. -/
theorem Holds.asking {q : Ask} {next : q.Answer → Call (Option EndpointSession)}
    (holds : Holds history origin c (.ask q next)) : ∃ reading edits,
      InHand history origin c reading edits ∧ Orderly edits (fun _ => True) (.ask q next) := by
  rcases holds with ⟨result, ends⟩ | held
  · cases ends
  · exact held

/-- An endpoint that goes on holds no more than before. -/
theorem GoesOn.holds (goesOn : GoesOn s c task)
    (held : ∀ c endpoint, s.endpoints c = some endpoint → Holds history origin c endpoint.task) :
    Holds history origin c task := by
  cases goesOn with
  | rests result => exact .inl ⟨result, rfl⟩
  | waits found => exact held c _ found
  | answered answer found =>
      obtain ⟨next, edits, inHand, -, rest, taken, later⟩ := (held c _ found).asking
      exact .inr ⟨next, edits, inHand, (later answer).mono ((List.suffix_append _ _).trans taken)⟩

/-- A step that neither brings nor writes an edit. -/
theorem Matched.quiet (matched : Matched history s) (tame : Tame t.keyer.core)
    (reads : ∀ c, readsFor c ⟨s, input, output, t⟩ = false)
    (written : editsWritten ⟨s, input, output, t⟩ = [])
    (tasks : ∀ c endpoint, t.endpoints c = some endpoint → GoesOn s c endpoint.task) :
    Matched (history ++ [⟨s, input, output, t⟩]) t := by
  obtain ⟨origin, traced, held⟩ := matched.traced
  refine ⟨tame, Function.update origin history.length ⟨0, 0⟩, ?_, fun c endpoint here => ?_⟩
  · exact traced.append (fun wrote => absurd written wrote) (fun wrote => absurd written wrote)
  · exact ((tasks c endpoint here).holds held).append (reads c) written

/-- One endpoint goes on. -/
theorem goesOn_withEndpoint {next : Option VirtualEndpoint}
    (goesOn : ∀ endpoint, next = some endpoint → GoesOn s c endpoint.task) (d : ClientId)
    (endpoint : VirtualEndpoint) (here : (s.withEndpoint c next).endpoints d = some endpoint) :
    GoesOn s d endpoint.task := by
  rcases endpoints_withEndpoint here with ⟨rfl, same⟩ | ⟨-, found⟩
  · exact goesOn endpoint same
  · exact .waits found

/-- An endpoint begins to handle a read. -/
theorem Matched.read (matched : Matched history s) {bytes : List UInt8}
    {permissions : EndpointPermissions} {session : EndpointSession}
    (waiting : s.waiting c = some (permissions, session))
    (next : t = s.withEndpoint c (some ⟨permissions, handleRead permissions bytes session [] []⟩)) :
    Matched (history ++ [⟨s, .read c bytes, none, t⟩]) t := by
  obtain ⟨origin, traced, held⟩ := matched.traced
  have written : editsWritten ⟨s, .read c bytes, none, t⟩ = [] := rfl
  have sent : editsSent ⟨s, .read c bytes, none, t⟩ =
      ((itemsOf session.parser bytes).filterMap ClientItem.edit?).map (Prod.mk c) := by
    simp only [editsSent, waiting]
  have traced' : Traced (history ++ [⟨s, .read c bytes, none, t⟩])
      (Function.update origin history.length ⟨0, 0⟩) :=
    traced.append (fun wrote => absurd written wrote) (fun wrote => absurd written wrote)
  subst next
  refine ⟨matched.tame, _, traced', fun d endpoint here => ?_⟩
  rcases endpoints_withEndpoint here with ⟨rfl, same⟩ | ⟨other, found⟩
  · -- all of the read is in hand, and nothing of it written
    cases same
    refine .inr ⟨⟨history.length, 0⟩, _, ⟨⟨_, List.getElem?_concat_length, ?_, sent⟩, ?_, ?_⟩,
      orderly_handleRead permissions rfl rfl⟩
    · exact beq_self_eq_true d
    · intro between later behind here
      have within := (List.getElem?_eq_some_iff.mp here).1
      rw [List.length_append, List.length_singleton] at within
      have behind : history.length < between := behind
      omega
    · intro i writes same
      obtain ⟨_, _, _, _, _, _, _, _, _, earlier, -⟩ := traced'.sent i writes
      rw [same] at earlier
      rcases writes.of_append with before | ⟨-, wrote⟩
      · exact absurd before.before (Nat.lt_asymm earlier)
      · exact absurd written wrote
  · exact (held d endpoint found).append (beq_eq_false_iff_ne.mpr (Ne.symm other)) written

/-- A step of the actor that no endpoint has asked for. -/
theorem Matched.act (matched : Matched history s) {asked : ActorInput} (fits : asked.Fits)
    (quiet : asked.edit? = none) (acts : s.act asked = some (t, output))
    (reads : ∀ c, readsFor c ⟨s, input, output, t⟩ = false) (spared : output.all SparesEdits = true) :
    Matched (history ++ [⟨s, input, output, t⟩]) t := by
  unfold Brokerage.act at acts
  obtain ⟨⟨a, o⟩, step, same⟩ := Option.map_eq_some_iff.mp acts
  cases same
  obtain ⟨tame, wrote⟩ := actor_edits matched.tame fits step spared
  refine matched.quiet tame reads ?_ (fun c endpoint found => .waits found)
  rw [editsWritten_some]
  rcases wrote with none_ | ⟨command, chunk, carried, -⟩
  · exact none_
  · rw [quiet] at carried
    cases carried

/-- An endpoint's request carries an edit, and that is written. -/
theorem Matched.passedOn (matched : Matched history s) {permissions : EndpointPermissions} {q : Ask}
    {next : q.Answer → Call (Option EndpointSession)} {answer : q.Answer} {request : Request}
    {taken : Bool} {now later : Nat} {fault : Option WriteFault} {a : Actor} {o : Observation}
    {command chunk : List UInt8} (found : s.endpoints c = some ⟨permissions, .ask q next⟩)
    (asked : q.request c = some request)
    (carried : (ActorInput.request request now later fault).edit? = some command)
    (begins : chunk <+: command) (one : o.written.filter isEdit = [chunk]) (tame : Tame a.core)
    (next' : t = { s with keyer := a }.withEndpoint c (some ⟨permissions, next answer⟩)) :
    Matched (history ++ [⟨s, .serve c taken now later fault,
      some ⟨s.keyer, .request request now later fault, o, a⟩, t⟩]) t := by
  obtain ⟨origin, traced, held⟩ := matched.traced
  obtain ⟨reading, edits, inHand, -, rest, ⟨skipped, split⟩, onward⟩ := (held c _ found).asking
  have mine : q.edit? = some command := (Ask.edit_of_request asked).symm.trans carried
  rw [mine] at split
  have split : skipped ++ command :: rest = edits := split
  subst split next'
  obtain ⟨read, there, reads, sent⟩ := inHand.sent
  refine ⟨tame, Function.update origin history.length ⟨reading.step, reading.place + skipped.length⟩,
    traced.append (fun _ => ?_) (fun _ i writes same => ?_), fun d endpoint here => ?_⟩
  · refine ⟨_, read, c, command, chunk, List.getElem?_concat_length, ?_, ?_, begins, inHand.before, ?_,
      sent, ?_⟩
    · exact congrArg (Option.map (Prod.mk c)) carried
    · rw [editsWritten_some]
      exact one
    · exact (List.getElem?_append_left inHand.before).trans there
    · intro between later behind ahead found
      rw [List.getElem?_append_left ahead] at found
      exact inHand.last between later behind found
  · exact Nat.lt_add_right _ (inHand.behind i writes same)
  · rcases endpoints_withEndpoint here with ⟨rfl, same⟩ | ⟨other, elsewhere⟩
    · cases same
      refine .inr ⟨_, rest, inHand.advance.append rfl (fun _ _ => ?_), onward answer⟩
      exact Nat.lt_succ_self _
    · rcases held d endpoint elsewhere with done | ⟨next, edits, theirs, orderly⟩
      · exact .inl done
      · refine .inr ⟨next, edits, theirs.append rfl (fun _ same => ?_), orderly⟩
        -- a read is one client's
        obtain ⟨read', there', reads', -⟩ := theirs.read
        have same : reading.step = next.step := same
        rw [← same, there] at there'
        cases there'
        exact absurd (readsFor_unique reads' reads) other

/-- An endpoint's question is answered. -/
theorem Matched.serve (matched : Matched history s) {taken : Bool} {now later : Nat}
    {fault : Option WriteFault} (serves : s.serve c taken now later fault = some (t, output))
    (spared : output.all SparesEdits = true) :
    Matched (history ++ [⟨s, .serve c taken now later fault, output, t⟩]) t := by
  unfold Brokerage.serve at serves
  split at serves
  · rename_i permissions q next found
    -- an endpoint that is answered goes on
    have onward : ∀ (a : Actor) (answer : q.Answer) (d : ClientId) (endpoint : VirtualEndpoint),
        ({ s with keyer := a }.withEndpoint c (some ⟨permissions, next answer⟩)).endpoints d =
          some endpoint → GoesOn s d endpoint.task := by
      intro a answer d endpoint here
      rcases endpoints_withEndpoint here with ⟨rfl, same⟩ | ⟨-, elsewhere⟩
      · cases same
        exact .answered answer found
      · exact .waits elsewhere
    split at serves
    · cases serves
      exact matched.quiet matched.tame (fun _ => rfl) rfl (onward s.keyer _)
    · rename_i request asked
      split at serves
      · cases serves
        exact matched.quiet matched.tame (fun _ => rfl) rfl (onward s.keyer _)
      · split at serves
        · cases serves
        · rename_i a o step
          cases serves
          have asks : (ActorInput.request request now later fault).Fits := by
            obtain ⟨_, _, held⟩ := matched.traced
            obtain ⟨_, _, _, fits, -⟩ := (held c _ found).asking
            exact fits c request asked
          obtain ⟨tame, wrote⟩ := actor_edits matched.tame asks step spared
          rcases wrote with none_ | ⟨command, chunk, carried, begins, one⟩
          · refine matched.quiet tame (fun _ => rfl) ?_ (onward a _)
            rw [editsWritten_some]
            exact none_
          · exact matched.passedOn found asked carried begins one tame rfl
  · cases serves

/-- **Every step keeps the edits matched.** -/
theorem Matched.step (matched : Matched history s)
    (step : brokerage.step s input = some (t, output)) (spared : output.all SparesEdits = true) :
    Matched (history ++ [⟨s, input, output, t⟩]) t := by
  cases input with
  | attach c permissions =>
      simp only [brokerage] at step
      split at step
      · cases step
        refine matched.quiet matched.tame (fun _ => rfl) rfl (goesOn_withEndpoint ?_)
        rintro endpoint same
        cases same
        exact .rests _
      · cases step
  | read c bytes =>
      simp only [brokerage] at step
      obtain ⟨⟨permissions, session⟩, waiting, same⟩ := Option.map_eq_some_iff.mp step
      cases same
      exact matched.read waiting rfl
  | timeout c =>
      simp only [brokerage] at step
      obtain ⟨⟨permissions, session⟩, waiting, same⟩ := Option.map_eq_some_iff.mp step
      cases same
      refine matched.quiet matched.tame (fun _ => rfl) rfl (goesOn_withEndpoint ?_)
      rintro endpoint same
      cases same
      exact .rests _
  | serve c taken now later fault => exact matched.serve step spared
  | detach c =>
      simp only [brokerage] at step
      cases step
      refine matched.quiet matched.tame (fun _ => rfl) rfl (goesOn_withEndpoint ?_)
      rintro endpoint same
      cases same
  | typed c text speed now later fault =>
      simp only [brokerage] at step
      split at step
      · rename_i bytes accepted
        have fits : (ActorInput.request (.enqueue c (.plainText bytes) speed false) now later
            fault).Fits := isEdit_text accepted
        exact matched.act fits rfl step (fun _ => rfl) spared
      · cases step
  | outside asked =>
      simp only [brokerage] at step
      split at step
      · rename_i outside
        obtain ⟨fits, quiet⟩ := fits_fromOutside outside
        exact matched.act fits quiet step (fun _ => rfl) spared
      · cases step

end

/-- Every edit of the keyer's buffer that is written to the device is one that a client has sent, written
as its request is served, and no two of them are the same one, in every run in which the keyer never goes
over to a client whose profile is due and holds a Backspace. -/
theorem edits_written_once {maxTx firmware start} {ptt : Option PttManager} {reconnect : Bool}
    {history : List BrokerageStep} {s : Brokerage}
    (run : brokerage.Execution { keyer := .spawn maxTx ptt reconnect firmware start } history s)
    (spared : ∀ e ∈ history, e.output.all SparesEdits = true) : WrittenOnce history := by
  have matched : Matched history s := by
    refine run.guarded (I := Matched) ?_ ?_ spared
    · refine ⟨⟨fun job held => (by cases held), fun c client known => ?_⟩, fun _ => ⟨0, 0⟩, ?_, ?_⟩
      · simp [Actor.spawn, BrokerCore.new, connectPhysical] at known
      · constructor
        · rintro i ⟨e, here, wrote⟩
          cases here
        · rintro i j less ⟨e, here, wrote⟩
          cases here
      · intro c endpoint here
        cases here
    · intro history s input output t _ matched step spared
      exact matched.step step spared
  obtain ⟨origin, traced, -⟩ := matched.traced
  exact ⟨origin, traced, traced.once⟩

/-- A primary opens its session and sends a Backspace. -/
def backspaceSent : List BrokerageInput :=
  [.outside (.request (.register 1 true) 0 0 none), .attach 1 allPermissions, .read 1 [0x00, 0x02],
    .serve 1 true 0 0 none, .serve 1 true 0 0 none, .read 1 [0x08], .serve 1 true 0 0 none]

def atRest : Brokerage := { keyer := .spawn 60 none true 31 0 }

/-- The Backspace is written, and nothing hands the keyer over. -/
theorem edits_written_once_sent : ∃ history s, brokerage.Execution atRest history s ∧
    history.flatMap editsWritten = [[0x08]] ∧ WrittenOnce history := by
  have run := brokerage.execution_exec atRest backspaceSent (by decide)
  exact ⟨_, _, run, by decide, edits_written_once run (by decide)⟩

/-- An edit that is written while no request is served that carries one is traced to none, whatever comes
after it. -/
theorem not_writtenOnce {history : List BrokerageStep}
    (unasked : ∃ e ∈ history, editsWritten e ≠ [] ∧ editServed e = none) (more : List BrokerageStep) :
    ¬ WrittenOnce (history ++ more) := by
  rintro ⟨origin, traced, -⟩
  obtain ⟨e, mem, wrote, unasked⟩ := unasked
  obtain ⟨i, here⟩ := List.mem_iff_getElem?.mp mem
  have there : (history ++ more)[i]? = some e :=
    (List.getElem?_append_left (List.getElem?_eq_some_iff.mp here).1).trans here
  obtain ⟨e', _, _, _, _, found, served, -⟩ := traced.sent i ⟨e, there, wrote⟩
  rw [there] at found
  cases found
  rw [unasked] at served
  cases served

/-- When the transport is lost and reopened behind it, the Backspace is written again, and nothing that
comes later mends it. -/
theorem backspace_replayed : ∃ history s, brokerage.Execution atRest history s ∧
    history.flatMap editsSent = [(1, [0x08])] ∧ history.flatMap editsWritten = [[0x08], [0x08]] ∧
      ∀ more, ¬ WrittenOnce (history ++ more) := by
  have run := brokerage.execution_exec atRest
    (backspaceSent ++ [.outside (.readError "gone"), .outside (.reopen 1 (.opened 31 none))]) (by decide)
  exact ⟨_, _, run, by decide, by decide, not_writtenOnce (by decide)⟩

end CatHub.WinKeyer
