/-
# CatHub.WinKeyer.Privacy — who sees the keyer's answer to a maintenance command.

The keyer is the other end of the transport: a FIFO of the chunks it was sent, each remembered with
the client whose maintenance command it is, and a FIFO of bytes on their way back.  It answers a
chunk with any number of bytes, delivered any time later, and sends others of its own accord.  What
is in flight ends with the transport.

The actor attributes a byte by its present flags only.  `replies_private` says when that is right:
no client's lease ends while an answer to one of its commands is outstanding, and no such answer
comes in before the keyer has answered the Host Open of an earlier release.  Every byte of such an
answer is then published for that client, its endpoint alone passes it on, and the core does not see
it.
-/
import CatHub.WinKeyer.Endpoint
import CatHub.WinKeyer.Maintenance

namespace CatHub.WinKeyer

open Systems Ptt BrokerCore

/-! ## The actor and the keyer -/

/-- The actor with the chunks that the keyer has not answered yet and the bytes on their way to the
actor, the oldest first.  What belongs to a client's maintenance command is marked with the client. -/
structure Coupled where
  actor : Actor
  commands : List (Option ClientId)
  replies : List (UInt8 × Option ClientId)

inductive CoupledInput where
  /-- A step of the actor that reads no byte. -/
  | act (input : ActorInput)
  /-- The keyer answers the oldest chunk. -/
  | answer (bytes : List UInt8)
  /-- The keyer sends a byte of its own accord. -/
  | volunteer (byte : UInt8)
  /-- The actor reads the oldest byte. -/
  | deliver (now later : Nat) (fault : Option WriteFault)
  deriving DecidableEq, Repr

/-- Whose maintenance command each written chunk is.  The command itself comes last, behind the
maintenance entry. -/
def originOf (input : ActorInput) (written : List (List UInt8)) : List (Option ClientId) :=
  match input, written with
  | .request (.maintenanceCommand clientId _) _ _ _, _ :: rest =>
      rest.map (fun _ => none) ++ [some clientId]
  | _, written => written.map (fun _ => none)

/-- What is in flight ends with the session. -/
def Coupled.sent (a : Actor) (commands : List (Option ClientId))
    (replies : List (UInt8 × Option ClientId)) : Coupled :=
  if a.loop = .session then ⟨a, commands, replies⟩ else ⟨a, [], []⟩

def coupled : Machine Coupled CoupledInput Observation where
  step s
  | .act (.byte _ _ _ _) => none
  | .act input =>
      match actor.step s.actor input with
      | some (a, o) => some (.sent a (s.commands ++ originOf input o.written) s.replies, o)
      | none => none
  | .answer bytes =>
      match s.commands with
      | [] => none
      | origin :: rest =>
          some ({ s with commands := rest
                         replies := s.replies ++ bytes.map (fun byte => (byte, origin)) }, {})
  | .volunteer byte => some ({ s with replies := s.replies ++ [(byte, none)] }, {})
  | .deliver now later fault =>
      match s.replies with
      | [] => none
      | (byte, _) :: rest =>
          match actor.step s.actor (.byte byte now later fault) with
          | some (a, o) => some (.sent a (s.commands ++ o.written.map (fun _ => none)) rest, o)
          | none => none

/-- One recorded step. -/
abbrev CoupledStep := Transition Coupled CoupledInput Observation

/-- The actor at its start; the keyer has been sent the safe initialization. -/
def Coupled.spawn (a : Actor) : Coupled := ⟨a, [none], []⟩

/-! ## The property and the condition -/

/-- A byte that answers a maintenance command of a client is dropped or published for that client.
No other client's endpoint passes it on, nothing is written, and the core stays as it is: the byte
is neither a firmware revision nor classified. -/
def Private (e : CoupledStep) : Prop :=
  ∀ now later fault byte clientId rest, e.input = .deliver now later fault →
    e.before.replies = (byte, some clientId) :: rest →
    (e.output.events = [] ∨ e.output.events = [.maintenanceByte clientId byte]) ∧
    (∀ event ∈ e.output.events, ∀ other, other ≠ clientId → ∀ snapshot primary sessionMode,
      eventByte event snapshot other primary sessionMode = none) ∧
    e.output.written = [] ∧ e.after.actor.core = e.before.actor.core

/-- The origin of everything in flight. -/
def Coupled.outstanding (s : Coupled) : List (Option ClientId) :=
  s.commands ++ s.replies.map Prod.snd

/-- A client's lease ends while an answer to its commands is outstanding, or such an answer comes in
while a reopen is pending. -/
def Misattributes (e : CoupledStep) : Bool :=
  match e.input with
  | .act (.request (.unregister clientId) _ _ _) => e.before.outstanding.contains (some clientId)
  | .act (.request (.releaseMaintenance clientId) _ _ _) =>
      e.before.outstanding.contains (some clientId)
  | .act (.request (.emergencyStop _) _ _ _) => e.before.outstanding.any (·.isSome)
  | .deliver _ _ _ =>
      e.before.actor.maintenanceReopenPending && e.before.replies.head?.any (·.2.isSome)
  | _ => false

/-! ## What is outstanding belongs to the owner -/

/-- Only an owner of the keyer has answers outstanding. -/
def Attributed (s : Coupled) : Prop :=
  ∀ c, some c ∈ s.outstanding → s.actor.loop = .session ∧ s.actor.maintenanceOwner = some c

theorem mem_originOf {input : ActorInput} {written : List (List UInt8)} {c : ClientId}
    (h : some c ∈ originOf input written) :
    ∃ command now later fault, input = .request (.maintenanceCommand c command) now later fault ∧
      written ≠ [] := by
  unfold originOf at h
  split at h
  · rcases List.mem_append.mp h with earlier | last
    · simp at earlier
    · obtain rfl := Option.some.inj (List.mem_singleton.mp last)
      exact ⟨_, _, _, _, rfl, List.cons_ne_nil _ _⟩
  · simp at h

/-- A turn that goes on leaves the lease to the client whose answers are outstanding. -/
theorem owner_kept {a : Actor} {c : ClientId} {trigger : Trigger} (owner : a.maintenanceOwner = some c)
    (stays : ∀ d, trigger = .request (.unregister d) ∨ trigger = .request (.releaseMaintenance d) →
      d ≠ c)
    (calm : ∀ reason, trigger ≠ .request (.emergencyStop reason)) :
    (a.maintenanceAfter trigger).1 = some c := by
  cases trigger with
  | byte | tick => exact owner
  | request request =>
      cases request with
      | unregister d =>
          have other : d ≠ c := stays d (Or.inl rfl)
          simp [Actor.maintenanceAfter, owner, Ne.symm other]
      | releaseMaintenance d =>
          have other : d ≠ c := stays d (Or.inr rfl)
          simp [Actor.maintenanceAfter, owner, Ne.symm other]
      | emergencyStop reason => exact absurd rfl (calm reason)
      | maintenanceCommand d command =>
          simp only [Actor.maintenanceAfter]
          split
          · rename_i admitted
            simp only [Actor.admitsMaintenance, owner, Bool.and_eq_true] at admitted
            have same : c = d := by simpa using admitted.1.1.1
            rw [same]
          · exact owner
      | _ => exact owner

/-- A maintenance command that is refused writes nothing. -/
theorem refused_silent {a : Actor} {c : ClientId} {command : List UInt8} (now later : Nat)
    (refused : a.admitsMaintenance c = false) :
    a.chunksOf now later (.request (.maintenanceCommand c command)) = [] := by
  simp [Actor.chunksOf, Actor.ownWrites, refused, Actor.decisionOps, Actor.pollWrites]
  rfl

/-- A turn that goes on, for what was outstanding and for what it sends. -/
theorem attributed_turn {a mid a' : Actor} {now later : Nat} {trigger : Trigger} {o₀ : Observation}
    {actions : List PhysicalAction} {input : ActorInput} {outstanding : List (Option ClientId)}
    (decides : a.Decides now later trigger mid o₀ actions)
    (owner : a'.maintenanceOwner = mid.maintenanceOwner)
    (owned : ∀ c, some c ∈ outstanding → a.maintenanceOwner = some c)
    (stays : ∀ d, trigger = .request (.unregister d) ∨ trigger = .request (.releaseMaintenance d) →
      some d ∉ outstanding)
    (calm : ∀ reason, trigger = .request (.emergencyStop reason) → ∀ c, some c ∉ outstanding)
    (asked : ∀ c command now' later' fault,
      input = .request (.maintenanceCommand c command) now' later' fault →
        trigger = .request (.maintenanceCommand c command)) :
    ∀ c, some c ∈ outstanding ++ originOf input (writes actions) → a'.maintenanceOwner = some c := by
  have after : a'.maintenanceOwner = (a.maintenanceAfter trigger).1 :=
    owner.trans (congrArg Prod.fst decides.maintenance)
  intro c h
  rw [after]
  rcases List.mem_append.mp h with before | now'
  · refine owner_kept (owned c before) ?_ ?_
    · rintro d leaves rfl
      exact stays d leaves before
    · rintro reason stops
      exact calm reason stops c before
  · obtain ⟨command, now₁, later₁, fault, rfl, wrote⟩ := mem_originOf now'
    obtain rfl := asked c command now₁ later₁ fault rfl
    cases admitted : a.admitsMaintenance c with
    | true => simp [Actor.maintenanceAfter, admitted]
    | false =>
        rw [decides.chunks, refused_silent now later admitted] at wrote
        exact absurd rfl wrote

/-- A step of the actor that reads no byte. -/
theorem attributed_act {s : Coupled} {a' : Actor} {input : ActorInput} {o : Observation}
    (h : Attributed s) (step : actor.step s.actor input = some (a', o))
    (keeps : ∀ s', Misattributes ⟨s, .act input, o, s'⟩ = false) (live' : a'.loop = .session) :
    ∀ c, some c ∈ s.outstanding ++ originOf input o.written → a'.maintenanceOwner = some c := by
  have owned : ∀ c, some c ∈ s.outstanding → s.actor.maintenanceOwner = some c :=
    fun c held => (h c held).2
  have keeps := keeps s
  cases actor_move step with
  | @turn trigger now later fault _ _ live onward timed turn =>
      cases turn with
      | fails | misread => cases live'
      | leaves _ _ _ stopped =>
          rw [stopped] at live'
          cases live'
      | goesOn decides _ owner _ _ _ written =>
          rw [written]
          refine attributed_turn decides owner owned ?_ ?_ ?_
          · rintro d (rfl | rfl) held
            · have free : s.outstanding.contains (some d) = false := keeps
              rw [List.contains_iff_mem.mpr held] at free
              cases free
            · have free : s.outstanding.contains (some d) = false := keeps
              rw [List.contains_iff_mem.mpr held] at free
              cases free
          · rintro reason rfl c held
            have none' : s.outstanding.any (·.isSome) = false := keeps
            have := List.any_eq_false.mp none' _ held
            simp at this
          · intro c command now' later' fault' same
            cases trigger with
            | request request =>
                cases same
                rfl
            | byte | tick => cases same
  | sunk off _ _ _ _ _ _ loop =>
      rcases loop with loop | loop
      · rw [loop] at live'
        cases live'
      · rw [loop] at live'
        cases live'
  | left | lost => cases live'
  | unopened _ _ _ _ _ _ off | refailed _ _ _ _ _ off =>
      rw [off] at live'
      cases live'
  | reopened off =>
      intro c held
      rcases List.mem_append.mp held with before | now
      · -- nothing of an earlier session is left
        rw [(h c before).1] at off
        cases off
      · obtain ⟨_, _, _, _, same, _⟩ := mem_originOf now
        cases same
  | foreign _ _ _ owner _ _ _ written =>
      intro c held
      rw [owner]
      rcases List.mem_append.mp held with before | now
      · exact owned c before
      · obtain ⟨_, _, _, _, same, _⟩ := mem_originOf now
        cases same

/-- A byte changes no lease. -/
theorem attributed_byte {a a' : Actor} {byte : UInt8} {now later : Nat} {fault : Option WriteFault}
    {o : Observation} (step : actor.step a (.byte byte now later fault) = some (a', o))
    (live' : a'.loop = .session) : a'.maintenanceOwner = a.maintenanceOwner := by
  have turn := (a.atTime later).turn_effect now later fault (.byte byte)
  have same : ((a.atTime later).turn now later fault (.byte byte)).1 = a' := by
    simp only [actor] at step
    split at step
    · exact congrArg Prod.fst (Option.some.inj step)
    · cases step
  rw [same] at turn
  cases turn with
  | fails | misread => cases live'
  | leaves _ shutdown => cases shutdown
  | goesOn decides _ owner => exact owner.trans (congrArg Prod.fst decides.maintenance)

theorem attributed_sent {a : Actor} {commands : List (Option ClientId)}
    {replies : List (UInt8 × Option ClientId)}
    (owned : a.loop = .session → ∀ c, some c ∈ commands ++ replies.map Prod.snd →
      a.maintenanceOwner = some c) : Attributed (.sent a commands replies) := by
  intro c held
  unfold Coupled.sent at held ⊢
  split at held
  · rename_i live
    rw [if_pos live]
    exact ⟨live, owned live c held⟩
  · cases held

/-- **One step.** -/
theorem attributed_step {s s' : Coupled} {input : CoupledInput} {o : Observation} (h : Attributed s)
    (step : coupled.step s input = some (s', o))
    (keeps : Misattributes ⟨s, input, o, s'⟩ = false) : Attributed s' := by
  cases input with
  | answer bytes =>
      simp only [coupled] at step
      split at step
      · cases step
      · rename_i origin rest commands
        cases step
        intro c held
        refine h c ?_
        show some c ∈ s.commands ++ s.replies.map Prod.snd
        rw [commands]
        simp only [Coupled.outstanding, List.map_append, List.mem_append, List.mem_map,
          Prod.exists, List.mem_cons] at held ⊢
        grind
  | volunteer byte =>
      simp only [coupled] at step
      cases step
      intro c held
      refine h c ?_
      simpa [Coupled.outstanding] using held
  | deliver now later fault =>
      simp only [coupled] at step
      split at step
      · cases step
      · rename_i byte origin rest replies
        split at step
        · rename_i a' o' stepped
          cases step
          refine attributed_sent (fun live' c held => ?_)
          rw [attributed_byte stepped live']
          refine (h c ?_).2
          show some c ∈ s.commands ++ s.replies.map Prod.snd
          rw [replies]
          simp only [List.mem_append, List.mem_map, Prod.exists, List.map_cons, List.mem_cons] at held ⊢
          grind
        · cases step
  | act input =>
      have acted : ∃ a', actor.step s.actor input = some (a', o) ∧
          s' = .sent a' (s.commands ++ originOf input o.written) s.replies := by
        cases input with
        | byte => cases step
        | _ =>
            simp only [coupled] at step
            split at step
            · rename_i a' o' stepped
              cases step
              exact ⟨a', stepped, rfl⟩
            · cases step
      obtain ⟨a', stepped, rfl⟩ := acted
      refine attributed_sent (fun live' c held => ?_)
      have owned := attributed_act h stepped (fun _ => keeps) live' c
      refine owned ?_
      simp only [Coupled.outstanding, List.mem_append] at held ⊢
      rcases held with (before | now) | replies
      · exact Or.inl (Or.inl before)
      · exact Or.inr now
      · exact Or.inl (Or.inr replies)

/-- The owner reads its answer. -/
theorem private_step {s s' : Coupled} {input : CoupledInput} {o : Observation} (h : Attributed s)
    (step : coupled.step s input = some (s', o))
    (keeps : Misattributes ⟨s, input, o, s'⟩ = false) : Private ⟨s, input, o, s'⟩ := by
  rintro now later fault byte c rest rfl replies
  have replies : s.replies = (byte, some c) :: rest := replies
  have owner : s.actor.maintenanceOwner = some c := by
    refine (h c ?_).2
    simp [Coupled.outstanding, replies]
  have free : s.actor.maintenanceReopenPending = false := by
    simpa [Misattributes, replies] using keeps
  have turn : ∀ b : Actor, b.maintenanceOwner = some c → b.maintenanceReopenPending = false →
      b.byteTurn byte now later fault = (b, { events := [.maintenanceByte c byte] }) := by
    intro b owner free
    simp [Actor.byteTurn, free, owner]
  simp only [coupled, replies] at step
  split at step
  · rename_i a' o' stepped
    simp only [actor] at stepped
    split at stepped
    · have turned := turn (s.actor.atTime later) owner free
      unfold Actor.atTime at turned
      rw [turned] at stepped
      cases stepped
      cases step
      refine ⟨Or.inr rfl, ?_, rfl, ?_⟩
      · intro event shown other another snapshot primary sessionMode
        rw [List.mem_singleton.mp shown, eventByte_maintenance, if_neg (Ne.symm another)]
      · show (Coupled.sent _ _ _).actor.core = _
        unfold Coupled.sent
        split <;> rfl
    · cases stepped
  · cases step

/-! ## Every run -/

section Runs

variable {maxTx : Nat} {ptt : Option PttManager} {reconnect : Bool} {firmware : UInt8} {start : Nat}
  {history : List CoupledStep} {s : Coupled}

/-- **Maintenance answers are private.**  In every interleaving of the actor and the keyer in which
no client's lease ends while an answer to its commands is outstanding and no such answer comes in
while a reopen is pending, each byte that answers a maintenance command of a client is dropped or
published for that client; no other endpoint passes it on, and the core never sees it. -/
theorem replies_private
    (run : coupled.Execution (.spawn (.spawn maxTx ptt reconnect firmware start)) history s)
    (keeps : ∀ e ∈ history, Misattributes e = false) : ∀ e ∈ history, Private e := by
  refine (run.always (I := Attributed) (G := fun e => Misattributes e = false) ?_ ?_ keeps).2
  · intro c held
    simp [Coupled.spawn, Coupled.outstanding] at held
  · intro s input o s' h step keeps
    exact ⟨attributed_step h step keeps, private_step h step keeps⟩

end Runs

/-- A client asks, reads the whole answer, and releases the keyer. -/
theorem replies_private_session :
    ∃ history s, coupled.Execution (.spawn leased) history s ∧ (∀ e ∈ history, Private e) ∧
      history.flatMap (·.output.events) = [.maintenanceByte 1 0x31, .connected 31] := by
  have run := coupled.execution_exec (.spawn leased)
    [.act (.request (.maintenanceCommand 1 [0x00, 0x09]) 1 1 none), .answer [], .answer [],
      .answer [0x31], .deliver 2 2 none, .act (.request (.releaseMaintenance 1) 3 3 none),
      .answer [31], .deliver 4 4 none] (by decide)
  exact ⟨_, _, run, replies_private run (by decide), by decide⟩

/-- The owner leaves before its answer has come in: the answer is taken as the firmware revision. -/
theorem not_private : ∃ history s, coupled.Execution (.spawn leased) history s ∧
    ¬ ∀ e ∈ history, Private e := by
  have run := coupled.execution_exec (.spawn leased)
    [.act (.request (.maintenanceCommand 1 [0x00, 0x09]) 1 1 none), .answer [], .answer [],
      .act (.request (.releaseMaintenance 1) 2 2 none), .answer [0x31], .deliver 3 3 none] (by decide)
  refine ⟨_, _, run, fun shown => ?_⟩
  have last := shown _ (List.getLast_mem (by decide)) 3 3 none 0x31 1 [] (by decide) (by decide)
  exact absurd last.1 (by decide)

end CatHub.WinKeyer
