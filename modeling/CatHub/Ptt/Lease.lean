/-
# CatHub.Ptt.Lease — the lease is not freed while the radio is still keyed.

A transmitter is to be unkeyed at the radio first and released afterwards, so that the lease is
never freed while the radio is keyed.  Every release path sends the unkey first, but none looks at
the reply: the lease is given up whether the radio was reached or not, and a key request of the
owner may slip in between the reply and the release.  `Undisturbed` names the steps that matter:

* a PTT submission fails only while the radio is not keyed on behalf of its session;
* no key of a session is applied between the reply to the watchdog's unkey of it and the release;
* the watchdog does not release a session while a key request of that session is under way.

`transmitter_leased` is the property for every run of such steps; `transmitter_unleased` is a run
in which a re-assertion of the key fails and leaves the radio keyed with a free lease.
-/
import CatHub.Ptt.Sessions

namespace CatHub.Ptt

open Radio Systems

/-- One recorded step of the hub. -/
abbrev HubStep := Transition Hub HubInput HubAnswer

/-! ## The condition on the steps -/

/-- The reply to the call is there. -/
def RadioCall.hasReply (call : RadioCall) : Bool := call.stage matches .replied _

def setsPtt (kind : OpKind) : Bool := keys kind || unkeys kind

/-- The step neither loses a PTT operation of the transmitting session nor crosses a key request
with the watchdog's release. -/
def Undisturbed (e : HubStep) : Bool :=
  match e.input with
  | .fail _ =>
      e.before.executing.all fun op =>
        !setsPtt op.kind || e.before.transmitting != some op.sessionId
  | .refuse who =>
      (e.before.call who).all fun call =>
        !setsPtt call.kind || e.before.transmitting != some call.sessionId
  | .apply =>
      e.before.executing.all fun op =>
        !keys op.kind || (e.before.call .watchdog).all fun call =>
          call.sessionId != op.sessionId || !call.hasReply
  | .finish .watchdog =>
      (e.before.call .watchdog).all fun call =>
        (e.before.call (.session call.sessionId)).all fun own =>
          !keys own.kind || own.hasReply
  | _ => true

/-! ## The invariant -/

/-- The lease follows the transmitter. -/
structure Leased (h : Hub) : Prop where
  sound : InFlightSound h
  /-- A call belongs to its session, or is the watchdog's and does not key. -/
  party : ∀ who call, h.call who = some call →
    who = .session call.sessionId ∨ (who = .watchdog ∧ keys call.kind = false)
  owned : ∀ s, h.transmitting = some s → h.ptt.owner = some s
  /-- A key request under way holds the lease. -/
  keying : ∀ who call, h.call who = some call → keys call.kind = true → call.hasReply = false →
    h.ptt.owner = some call.sessionId
  /-- A session about to give up the lease is not keyed. -/
  giving : ∀ who call fault, h.call who = some call → call.stage = .replied fault →
    releases call.kind fault = true → h.transmitting ≠ some call.sessionId

theorem setsPtt_of_releases {kind : OpKind} {fault : Option BackendFault}
    (h : releases kind fault = true) : setsPtt kind = true := by
  cases k : keys kind <;> cases u : unkeys kind <;> simp_all [releases, setsPtt]

theorem keys_unkeys (kind : OpKind) : ¬ (keys kind = true ∧ unkeys kind = true) := by
  rintro ⟨k, u⟩
  cases kind with
  | apply mutation => cases mutation <;> simp_all [keys, unkeys]
  | poll => cases k
  | passthrough raw => cases k

/-- What a party that begins a call is. -/
theorem Begun.party {h : Hub} {input : HubInput} {who : Requester} {call : RadioCall}
    {ptt : PttManager} (b : Begun h input who call ptt) :
    who = .session call.sessionId ∨ (who = .watchdog ∧ keys call.kind = false) := by
  cases b with
  | key => exact Or.inl rfl
  | unkey => exact Or.inl rfl
  | other => exact Or.inl rfl
  | force sessionId _ who =>
      rcases who with rfl | rfl
      · exact Or.inl rfl
      · exact Or.inr ⟨rfl, rfl⟩

theorem Begun.sending {h : Hub} {input : HubInput} {who : Requester} {call : RadioCall}
    {ptt : PttManager} (b : Begun h input who call ptt) : call.stage = .sending := by
  cases b <;> rfl

/-- Beginning a call never takes the lease from its owner. -/
theorem Begun.owner_kept {h : Hub} {input : HubInput} {who : Requester} {call : RadioCall}
    {ptt : PttManager} (b : Begun h input who call ptt) {s : Nat} (owner : h.ptt.owner = some s) :
    ptt.owner = some s := by
  cases b with
  | key sessionId _ granted =>
      rcases granted with free | own
      · rw [free] at owner
        cases owner
      · show some sessionId = some s
        rw [← own, owner]
  | unkey => exact owner
  | other => exact owner
  | force => exact owner

/-- A call that begins to key has got the lease. -/
theorem Begun.keyed {h : Hub} {input : HubInput} {who : Requester} {call : RadioCall}
    {ptt : PttManager} (b : Begun h input who call ptt) (k : keys call.kind = true) :
    ptt.owner = some call.sessionId := by
  cases b with
  | key => rfl
  | unkey => cases k
  | other _ none' => exact absurd (none'.symm.trans k) (by decide)
  | force => cases k

namespace Leased

variable {h h' : Hub} {input : HubInput} {answer : HubAnswer}

/-- The party and the call behind a call of the hub after one party's call changed. -/
theorem call_cases {who : Requester} {new : Option RadioCall}
    (calls : h'.call = Function.update h.call who new) {other : Requester} {call : RadioCall}
    (current : h'.call other = some call) :
    (other = who ∧ new = some call) ∨ (other ≠ who ∧ h.call other = some call) := by
  rw [calls] at current
  by_cases same : other = who
  · subst same
    rw [Function.update_self] at current
    exact Or.inl ⟨rfl, current⟩
  · rw [Function.update_of_ne same] at current
    exact Or.inr ⟨same, current⟩

/-- A party that gets further in its call is still that party. -/
theorem party_update {who : Requester} {old new : RadioCall} (l : Leased h)
    (was : h.call who = some old) (calls : h'.call = Function.update h.call who (some new))
    (session : new.sessionId = old.sessionId) (kind : new.kind = old.kind) :
    ∀ other call, h'.call other = some call →
      other = .session call.sessionId ∨ (other = .watchdog ∧ keys call.kind = false) := by
  intro other call current
  rcases call_cases calls current with ⟨rfl, same⟩ | ⟨_, current⟩
  · obtain rfl := Option.some.inj same
    rw [session, kind]
    exact l.party _ _ was
  · exact l.party _ _ current

/-- A step that changes neither the lease, nor the calls, nor the transmitter. -/
theorem unmoved (l : Leased h) (sound : InFlightSound h') (ptt : h'.ptt = h.ptt)
    (calls : h'.call = h.call) (transmitting : h'.transmitting = h.transmitting) : Leased h' := by
  refine ⟨sound, ?_, ?_, ?_, ?_⟩
  · rw [calls]; exact l.party
  · rw [transmitting, ptt]; exact l.owned
  · rw [calls, ptt]; exact l.keying
  · rw [calls, transmitting]; exact l.giving

/-- A party gets further in its call, and neither the lease nor the transmitter moves. -/
theorem advance {who : Requester} {old new : RadioCall} (l : Leased h) (sound : InFlightSound h')
    (was : h.call who = some old) (calls : h'.call = Function.update h.call who (some new))
    (session : new.sessionId = old.sessionId) (kind : new.kind = old.kind)
    (ptt : h'.ptt = h.ptt) (transmitting : h'.transmitting = h.transmitting)
    (running : new.hasReply = false → old.hasReply = false)
    (giving : ∀ fault, new.stage = .replied fault → releases old.kind fault = true →
      h.transmitting ≠ some old.sessionId) : Leased h' := by
  refine ⟨sound, l.party_update was calls session kind, ?_, ?_, ?_⟩
  · rw [transmitting, ptt]; exact l.owned
  · intro other call current k open'
    rw [ptt]
    rcases call_cases calls current with ⟨rfl, same⟩ | ⟨_, current⟩
    · obtain rfl := Option.some.inj same
      rw [session]
      exact l.keying _ old was (kind ▸ k) (running open')
    · exact l.keying _ _ current k open'
  · intro other call fault current replied gives
    rw [transmitting]
    rcases call_cases calls current with ⟨rfl, same⟩ | ⟨_, current⟩
    · obtain rfl := Option.some.inj same
      rw [session]
      exact giving fault replied (kind ▸ gives)
    · exact l.giving _ _ _ current replied gives

/-- A call begins, and takes the lease if it keys. -/
theorem began {who : Requester} {new : RadioCall} (l : Leased h) (sound : InFlightSound h')
    (begun : Begun h input who new h'.ptt) (calls : h'.call = Function.update h.call who (some new))
    (transmitting : h'.transmitting = h.transmitting) : Leased h' := by
  refine ⟨sound, ?_, ?_, ?_, ?_⟩
  · intro other call current
    rcases call_cases calls current with ⟨rfl, same⟩ | ⟨_, current⟩
    · obtain rfl := Option.some.inj same
      exact begun.party
    · exact l.party _ _ current
  · intro s keyed
    rw [transmitting] at keyed
    exact begun.owner_kept (l.owned s keyed)
  · intro other call current k running
    rcases call_cases calls current with ⟨rfl, same⟩ | ⟨_, current⟩
    · obtain rfl := Option.some.inj same
      exact begun.keyed k
    · exact begun.owner_kept (l.keying _ _ current k running)
  · intro other call fault current replied gives
    rw [transmitting]
    rcases call_cases calls current with ⟨rfl, same⟩ | ⟨_, current⟩
    · obtain rfl := Option.some.inj same
      rw [begun.sending] at replied
      cases replied
    · exact l.giving _ _ _ current replied gives

/-- The backend applies the operation of a call that still holds the lease. -/
theorem applied {op : Operation Requester} (l : Leased h) (sound : InFlightSound h')
    (busy : h.executing = some op) (ptt : h'.ptt = h.ptt)
    (calls : h'.call = Function.update h.call op.reply
      ((h.call op.reply).map (fun call => { call with stage := .replied none })))
    (taken : h.inFlight.Perm (op :: h'.inFlight))
    (transmitting : h'.transmitting = h.transmittingAfter op)
    (undisturbed : Undisturbed ⟨h, .apply, answer, h'⟩ = true) : Leased h' := by
  have awaited := l.sound.awaited op (taken.mem_iff.mpr List.mem_cons_self)
  rw [awaited, Option.map_some] at calls
  have mine := l.party _ _ awaited
  refine ⟨sound, l.party_update awaited calls rfl rfl, ?_, ?_, ?_⟩
  -- A key that is applied was under way until now, so it still holds the lease.
  · intro s keyed
    rw [transmitting, Hub.transmittingAfter] at keyed
    rw [ptt]
    split at keyed
    · rename_i k
      obtain rfl := Option.some.inj keyed
      exact l.keying _ _ awaited k rfl
    · split at keyed
      · cases keyed
      · exact l.owned s keyed
  · intro other new current k running
    rw [ptt]
    rcases call_cases calls current with ⟨rfl, same⟩ | ⟨_, current⟩
    · obtain rfl := Option.some.inj same
      cases running
    · exact l.keying _ _ current k running
  · intro other new fault current replied gives
    rw [transmitting, Hub.transmittingAfter]
    rcases call_cases calls current with ⟨rfl, same⟩ | ⟨ne, current⟩
    · obtain rfl := Option.some.inj same
      cases replied
      have u : unkeys op.kind = true := by simpa [releases] using gives
      have k : keys op.kind = false := by
        cases k : keys op.kind
        · rfl
        · exact absurd ⟨k, u⟩ (keys_unkeys op.kind)
      simp [k, u]
    · split
      · rename_i k
        -- Only the owner itself keys, and it is not the party that gives the lease up.
        intro same
        have session : op.sessionId = new.sessionId := Option.some.inj same
        have keyer : op.reply = .session op.sessionId := by
          rcases mine with mine | ⟨_, mine⟩
          · exact mine
          · exact absurd (mine.symm.trans k) (by decide)
        rcases l.party _ _ current with rfl | ⟨rfl, _⟩
        -- The session awaits one reply at a time, so this would be the same call.
        · exact ne (by rw [keyer, session])
        · have replied' : new.hasReply = true := by simp [RadioCall.hasReply, replied]
          simp [Undisturbed, busy, k, current, session, replied'] at undisturbed
      · split
        · simp
        · exact l.giving _ _ _ current replied gives

/-- A call ends, and gives up its own session's lease at most. -/
theorem finished {who : Requester} {call : RadioCall} {fault : Option BackendFault} (l : Leased h)
    (sound : InFlightSound h') (was : h.call who = some call) (replied : call.stage = .replied fault)
    (ptt : h'.ptt = if releases call.kind fault then h.ptt.unkey call.sessionId else h.ptt)
    (calls : h'.call = Function.update h.call who none)
    (transmitting : h'.transmitting = h.transmitting)
    (undisturbed : Undisturbed ⟨h, .finish who, answer, h'⟩ = true) : Leased h' := by
  -- The release touches the lease of the call's own session only.
  have kept : ∀ s, h.ptt.owner = some s → (releases call.kind fault = true → s ≠ call.sessionId) →
      h'.ptt.owner = some s := by
    intro s owner ne
    rw [ptt]
    split
    · rename_i gives
      have other : h.ptt.owner ≠ some call.sessionId := by
        rw [owner]
        exact fun same => ne gives (Option.some.inj same)
      rw [PttManager.unkey_owner, if_neg other, owner]
    · exact owner
  refine ⟨sound, ?_, ?_, ?_, ?_⟩
  · intro other new current
    rcases call_cases calls current with ⟨_, same⟩ | ⟨_, current⟩
    · cases same
    · exact l.party _ _ current
  · intro s keyed
    rw [transmitting] at keyed
    refine kept s (l.owned s keyed) ?_
    rintro gives rfl
    exact l.giving _ _ _ was replied gives keyed
  · intro other new current k running
    rcases call_cases calls current with ⟨_, same⟩ | ⟨ne, current⟩
    · cases same
    · refine kept _ (l.keying _ _ current k running) ?_
      rintro _ session
      have keyer : other = .session call.sessionId := by
        rcases l.party _ _ current with mine | ⟨_, mine⟩
        · rw [mine, session]
        · exact absurd (mine.symm.trans k) (by decide)
      rcases l.party _ _ was with rfl | ⟨rfl, _⟩
      · exact ne keyer
      · rw [keyer] at current
        simp [Undisturbed, was, current, k, running] at undisturbed
  · intro other new fault current replied gives
    rw [transmitting]
    rcases call_cases calls current with ⟨_, same⟩ | ⟨_, current⟩
    · cases same
    · exact l.giving _ _ _ current replied gives

theorem step (l : Leased h) (effect : HubEffect h input h')
    (undisturbed : Undisturbed ⟨h, input, answer, h'⟩ = true) : Leased h' := by
  have sound := l.sound.step effect
  cases effect with
  | quiet ptt calls _ transmitting => exact l.unmoved sound ptt calls transmitting
  | turned ptt calls _ transmitting => exact l.unmoved sound ptt calls transmitting
  | began _ begun calls _ transmitting => exact l.began sound begun calls transmitting
  | @sent _ who call was sending ptt calls _ transmitting =>
      refine l.advance sound was calls rfl rfl ptt transmitting ?_ ?_
      · intro _
        simp [RadioCall.hasReply, sending]
      · intro fault replied
        cases replied
  | @refused _ who call was sending ptt calls _ transmitting =>
      have lost : setsPtt call.kind = false ∨ h.transmitting ≠ some call.sessionId := by
        simpa [Undisturbed, was] using undisturbed
      refine l.advance sound was calls rfl rfl ptt transmitting ?_ ?_
      · intro open'
        cases open'
      · intro fault _ gives
        exact lost.resolve_left (by simp [setsPtt_of_releases gives])
  | applied busy ptt calls taken transmitting =>
      exact l.applied sound busy ptt calls taken transmitting undisturbed
  | @failed _ op fault busy ptt calls taken transmitting =>
      have awaited := l.sound.awaited op (taken.mem_iff.mpr List.mem_cons_self)
      rw [awaited, Option.map_some] at calls
      have lost : setsPtt op.kind = false ∨ h.transmitting ≠ some op.sessionId := by
        simpa [Undisturbed, busy] using undisturbed
      refine l.advance sound awaited calls rfl rfl ptt transmitting ?_ ?_
      · intro open'
        cases open'
      · intro fault _ gives
        exact lost.resolve_left (by simp [setsPtt_of_releases gives])
  | finished was replied ptt calls _ transmitting =>
      exact l.finished sound was replied ptt calls transmitting undisturbed

end Leased

/-! ## Every run -/

/-- **The transmitter is leased.**  In every run of undisturbed steps, when the last applied
`SetPtt` keyed the transmitter on behalf of a session, that session owns the lease. -/
theorem transmitter_leased {perms : Nat → EndpointPermissions} {maxTx : Nat}
    {history : List HubStep} {h : Hub} (run : (hub perms).Execution (.new maxTx) history h)
    (undisturbed : ∀ e ∈ history, Undisturbed e = true) :
    ∀ s, h.transmitting = some s → h.ptt.owner = some s := by
  have leased : Leased h := by
    refine run.guarded (G := fun e => Undisturbed e = true) (I := fun _ h => Leased h) ?_ ?_
      undisturbed
    · have sound : InFlightSound (.new maxTx) := @inFlight_sound perms maxTx _ _ .start
      exact ⟨sound, by simp [Hub.new], by simp [Hub.new], by simp [Hub.new], by simp [Hub.new]⟩
    · intro history h input answer h' _ l step quiet
      exact l.step (hub_effect step) quiet
  exact leased.owned

/-- Every session has full rights. -/
def fullRights : Nat → EndpointPermissions := fun _ => ⟨true, true, false, true, false⟩

/-- A session's PTT call from the request to the reply, with `result` in place of the radio. -/
def pttCall (sessionId : Nat) (keyed : Bool) (result : HubInput) : List HubInput :=
  [.applyModeled sessionId (.setPtt keyed .generic) .pttWrite, .send (.session sessionId), .turn,
    result, .finish (.session sessionId)]

/-- Session 1 keys past the ceiling while session 2 is refused; the watchdog unkeys and releases
it; session 2 keys. -/
theorem transmitter_leased_watchdog :
    ∃ history h, (hub fullRights).Execution (.new 10) history h ∧ h.transmitting = some 2 ∧
      ∀ s, h.transmitting = some s → h.ptt.owner = some s := by
  have run := (hub fullRights).execution_exec (.new 10)
    (pttCall 1 true .apply ++ [.applyModeled 2 (.setPtt true .data) .pttWrite, .pass 10,
      .checkCeiling, .send .watchdog, .turn, .apply, .finish .watchdog] ++ pttCall 2 true .apply)
    (by decide)
  exact ⟨_, _, run, by decide, transmitter_leased run (by decide)⟩

/-- Session 1 keys, and its re-assertion of the key fails before it reaches the radio: the radio is
keyed on its behalf and the lease is free. -/
theorem transmitter_unleased :
    ∃ history h, (hub fullRights).Execution (.new 10) history h ∧
      ¬ ∀ s, h.transmitting = some s → h.ptt.owner = some s := by
  have run := (hub fullRights).execution_exec (.new 10)
    (pttCall 1 true .apply ++ pttCall 1 true (.fail .other)) (by decide)
  refine ⟨_, _, run, fun leased => ?_⟩
  exact absurd (leased 1 (by decide)) (by decide)

end CatHub.Ptt
