/-
# CatHub.Ptt.Sessions — client sessions, the radio scheduler and the PTT watchdog, interleaved.

A `Hub` is the shared lease, the state handle, the scheduler with the channel in front of it, and
one program counter for each party: every client session and the safety watchdog.  A party's call
to the radio is taken in its atomic parts: the decision that begins it, putting the operation into
the channel, waiting for the reply, and what is done with the lease once the reply is there.
Between any two of them every other party may move; `hub` is the machine of all such interleavings.

One scheduler turn drains the channel and selects the next operation.  The channel is not bounded
here: a full channel only delays the party that sends.  An operation is either applied by the radio
or fails before it reaches it, and a submission fails outright when the scheduler is gone.

`hub_effect` says once what a step can do to the lease, the calls and the operations in flight, and
`inFlight_sound` that every operation in flight is awaited by exactly the call it came from.
-/
import CatHub.Ptt.Manager
import CatHub.Radio.Scheduler
import CatHub.Radio.State
import CatHub.Systems.Execution
import Mathlib.Logic.Function.Basic

namespace CatHub.Ptt

open Radio Systems

/-! ## What a session may ask -/

/-- The result of an `applyModeled` call. -/
inductive ApplyOutcome where
  | ok
  | denied
  | busy
  | unsupported
  | error
  deriving DecidableEq, Repr

/-- Why a submission failed. -/
inductive BackendFault where
  | unsupported
  | other
  deriving DecidableEq, Repr

/-- The submission an admitted write leads to, or the outcome of one that is not submitted. -/
inductive Admission where
  | answered (outcome : ApplyOutcome)
  | submit (priority : Priority) (kind : OpKind)
  deriving DecidableEq, Repr

/-- The first part of `applyModeled`: permissions, suppression and the lease, up to the
submission. -/
def admitModeled (perms : EndpointPermissions) (state : StateHandle) (ptt : PttManager)
    (sessionId now : Nat) (mutation : StateMutation) (cls : CommandClass) :
    PttManager × Admission :=
  if !perms.allowsMutation cls mutation then (ptt, .answered .denied)
  else if state.isRedundant mutation then (ptt, .answered .ok)
  else
    match cls, mutation with
    | .pttWrite, .setPtt true _ =>
        match ptt.tryKey sessionId perms.ptt now with
        | (ptt, .error .busy) => (ptt, .answered .busy)
        | (ptt, .error .notPermitted) => (ptt, .answered .denied)
        | (ptt, .ok ()) => (ptt, .submit .ptt (.apply mutation))
    -- An unkey is submitted without a look at the lease.
    | .pttWrite, _ => (ptt, .submit .ptt (.apply mutation))
    | _, _ => (ptt, .submit .write (.apply mutation))

def mapOutcome : Option BackendFault → ApplyOutcome
  | none => .ok
  | some .unsupported => .unsupported
  | some .other => .error

/-- Whether an operation keys or unkeys the transmitter. -/
def keys : OpKind → Bool
  | .apply (.setPtt keyed _) => keyed
  | _ => false

def unkeys : OpKind → Bool
  | .apply (.setPtt keyed _) => !keyed
  | _ => false

/-- Whether the reply to an operation makes its party give up the lease: to any unkey, and to a key
request that failed. -/
def releases (kind : OpKind) (fault : Option BackendFault) : Bool :=
  unkeys kind || (keys kind && fault.isSome)

/-- The second part of `applyModeled`, once the reply is there. -/
def settleModeled (ptt : PttManager) (sessionId : Nat) (kind : OpKind)
    (fault : Option BackendFault) : PttManager × ApplyOutcome :=
  -- An unkey gives the lease up whether or not it reached the radio.
  (if releases kind fault then ptt.unkey sessionId else ptt,
    if keys kind && fault.isSome then .error else mapOutcome fault)

/-- The unkey that a disconnect and the watchdog submit. -/
def forceReceive : OpKind := .apply (.setPtt false .generic)

/-! ## The hub -/

/-- Where the reply to an operation goes. -/
inductive Requester where
  | session (sessionId : Nat)
  | watchdog
  deriving DecidableEq, Repr

/-- How far a call to the radio has come. -/
inductive Stage where
  | sending
  | awaiting
  | replied (fault : Option BackendFault)
  deriving DecidableEq, Repr

/-- A call to the radio on behalf of a session. -/
structure RadioCall where
  sessionId : Nat
  priority : Priority
  kind : OpKind
  stage : Stage
  deriving DecidableEq, Repr

/-- The operation a call submits. -/
def RadioCall.operation (call : RadioCall) (reply : Requester) : Operation Requester :=
  ⟨call.sessionId, call.priority, call.kind, reply⟩

structure Hub where
  clock : Nat
  ptt : PttManager
  state : StateHandle
  /-- The call each party is in. -/
  call : Requester → Option RadioCall
  /-- The sessions whose transport has closed. -/
  closed : Nat → Bool
  channel : List (Operation Requester)
  queues : Queues Requester
  executing : Option (Operation Requester)
  /-- The session on whose behalf the transmitter was keyed, if the last applied `SetPtt` keyed
  it. -/
  transmitting : Option Nat

namespace Hub

def new (maxTx : Nat) : Hub where
  clock := 0
  ptt := { maxTx }
  state := {}
  call := fun _ => none
  closed := fun _ => false
  channel := []
  queues := []
  executing := none
  transmitting := none

/-- The session waits for its client's next request. -/
def ready (hub : Hub) (sessionId : Nat) : Bool :=
  (hub.call (.session sessionId)).isNone && !hub.closed sessionId

def setCall (hub : Hub) (who : Requester) (call : Option RadioCall) : Hub :=
  { hub with call := Function.update hub.call who call }

def begin (hub : Hub) (who : Requester) (sessionId : Nat) (priority : Priority) (kind : OpKind) :
    Hub :=
  hub.setCall who (some ⟨sessionId, priority, kind, .sending⟩)

/-- The reply to a call reaches its party. -/
def deliver (hub : Hub) (who : Requester) (fault : Option BackendFault) : Hub :=
  hub.setCall who ((hub.call who).map (fun call => { call with stage := .replied fault }))

/-- Who is keyed after the radio applied an operation. -/
def transmittingAfter (hub : Hub) (op : Operation Requester) : Option Nat :=
  if keys op.kind then some op.sessionId else if unkeys op.kind then none else hub.transmitting

/-- The operations that were sent and not answered. -/
def inFlight (hub : Hub) : List (Operation Requester) :=
  hub.channel ++ (pending hub.queues ++ hub.executing.toList)

end Hub

/-- One step of one party. -/
inductive HubInput where
  | pass (elapsed : Nat)
  | observe (change : StateChange) (source : RadioEventSource)
  | applyModeled (sessionId : Nat) (mutation : StateMutation) (cls : CommandClass)
  | passthrough (sessionId : Nat) (raw : List UInt8) (cls : CommandClass)
  | poll (sessionId : Nat)
  | releasePttOnDisconnect (sessionId : Nat)
  | checkCeiling
  | send (who : Requester)
  | refuse (who : Requester)
  | turn
  | apply
  | fail (fault : BackendFault)
  | finish (who : Requester)
  deriving DecidableEq, Repr

/-- Dialects pass `SetPtt`, and nothing else, with the PTT class. -/
def wellClassed (mutation : StateMutation) (cls : CommandClass) : Bool :=
  (cls == .pttWrite) == (mutation matches .setPtt _ _)

/-- The session an `applyModeled` call answers, and the answer. -/
abbrev HubAnswer := Option (Nat × ApplyOutcome)

/-- The answer at the end of a call: none for the watchdog, after a disconnect, and for the calls
that are not modeled writes. -/
def Hub.answerTo (h : Hub) (who : Requester) (kind : OpKind) (outcome : ApplyOutcome) : HubAnswer :=
  match who, kind with
  | .session sessionId, .apply _ =>
      if h.closed sessionId then none else some (sessionId, outcome)
  | _, _ => none

open Hub in
/-- The hub with the endpoint permissions of each session. -/
def hub (perms : Nat → EndpointPermissions) : Machine Hub HubInput HubAnswer where
  step h
  | .pass elapsed => some ({ h with clock := h.clock + elapsed }, none)
  | .observe change source => some ({ h with state := h.state.record change source }, none)
  | .applyModeled sessionId mutation cls =>
      if h.ready sessionId && wellClassed mutation cls then
        match admitModeled (perms sessionId) h.state h.ptt sessionId h.clock mutation cls with
        | (ptt, .answered outcome) => some ({ h with ptt }, some (sessionId, outcome))
        | (ptt, .submit priority kind) =>
            some ({ h with ptt }.begin (.session sessionId) sessionId priority kind, none)
      else none
  | .passthrough sessionId raw cls =>
      if h.ready sessionId then
        if (perms sessionId).allows cls then
          some (h.begin (.session sessionId) sessionId .read (.passthrough raw), none)
        else some (h, none)
      else none
  | .poll sessionId =>
      if h.ready sessionId then
        some (h.begin (.session sessionId) sessionId .poll .poll, none)
      else none
  | .releasePttOnDisconnect sessionId =>
      if h.ready sessionId then
        let closed := { h with closed := Function.update h.closed sessionId true }
        -- Only the owner's disconnect forces receive.
        if h.ptt.owner ≠ some sessionId then some (closed, none)
        else some (closed.begin (.session sessionId) sessionId .ptt forceReceive, none)
      else none
  | .checkCeiling =>
      if (h.call .watchdog).isSome then none
      else
        match h.ptt.expiredOwner h.clock with
        | some owner => some (h.begin .watchdog owner .ptt forceReceive, none)
        | none => some (h, none)
  | .send who =>
      match h.call who with
      | some call =>
          if call.stage = .sending then
            some ({ h with channel := h.channel ++ [call.operation who] }.setCall who
              (some { call with stage := .awaiting }), none)
          else none
      | none => none
  | .refuse who =>
      match h.call who with
      | some call => if call.stage = .sending then some (h.deliver who (some .other), none) else none
      | none => none
  | .turn =>
      if h.executing.isSome then none
      else
        -- The scheduler drains the channel before it selects.
        match selectNext (h.channel.foldl Radio.enqueue h.queues) with
        | some (op, queues) =>
            some ({ h with channel := [], queues, executing := some op }, none)
        | none => none
  | .apply =>
      match h.executing with
      | some op =>
          some ({ h with executing := none, transmitting := h.transmittingAfter op }.deliver
            op.reply none, none)
      | none => none
  | .fail fault =>
      match h.executing with
      | some op => some ({ h with executing := none }.deliver op.reply (some fault), none)
      | none => none
  | .finish who =>
      match h.call who with
      | some call =>
          match call.stage with
          | .replied fault =>
              let (ptt, outcome) := settleModeled h.ptt call.sessionId call.kind fault
              some ({ h with ptt }.setCall who none, h.answerTo who call.kind outcome)
          | _ => none
      | none => none

/-! ## What a step can do -/

/-- How a call begins: what it does to the lease, and which input begins it. -/
inductive Begun (h : Hub) : HubInput → Requester → RadioCall → PttManager → Prop
  /-- A session keys: it is granted the lease. -/
  | key (sessionId : Nat) (source : PttSource) : h.ptt.grants sessionId →
      Begun h (.applyModeled sessionId (.setPtt true source) .pttWrite) (.session sessionId)
        ⟨sessionId, .ptt, .apply (.setPtt true source), .sending⟩
        { h.ptt with owner := some sessionId, keyedAt := some h.clock }
  /-- A session unkeys. -/
  | unkey (sessionId : Nat) (source : PttSource) :
      Begun h (.applyModeled sessionId (.setPtt false source) .pttWrite) (.session sessionId)
        ⟨sessionId, .ptt, .apply (.setPtt false source), .sending⟩ h.ptt
  /-- A session asks for something that is not PTT. -/
  | other {input : HubInput} (sessionId : Nat) {priority : Priority} {kind : OpKind} :
      keys kind = false → unkeys kind = false →
      Begun h input (.session sessionId) ⟨sessionId, priority, kind, .sending⟩ h.ptt
  /-- A disconnect of the owner, or the watchdog, forces receive. -/
  | force {input : HubInput} {who : Requester} (sessionId : Nat) : h.ptt.owner = some sessionId →
      who = .session sessionId ∨ who = .watchdog →
      Begun h input who ⟨sessionId, .ptt, forceReceive, .sending⟩ h.ptt

/-- What a step can do to the lease, the calls, the operations in flight and the transmitter. -/
inductive HubEffect (h : Hub) : HubInput → Hub → Prop
  | quiet {input : HubInput} {h' : Hub} :
      h'.ptt = h.ptt → h'.call = h.call → h'.inFlight = h.inFlight →
      h'.transmitting = h.transmitting → HubEffect h input h'
  | began {input : HubInput} {h' : Hub} {who : Requester} {call : RadioCall} :
      h.call who = none → Begun h input who call h'.ptt →
      h'.call = Function.update h.call who (some call) → h'.inFlight = h.inFlight →
      h'.transmitting = h.transmitting → HubEffect h input h'
  | sent {h' : Hub} {who : Requester} {call : RadioCall} :
      h.call who = some call → call.stage = .sending → h'.ptt = h.ptt →
      h'.call = Function.update h.call who (some { call with stage := .awaiting }) →
      h'.inFlight.Perm (call.operation who :: h.inFlight) →
      h'.transmitting = h.transmitting → HubEffect h (.send who) h'
  | refused {h' : Hub} {who : Requester} {call : RadioCall} :
      h.call who = some call → call.stage = .sending → h'.ptt = h.ptt →
      h'.call = Function.update h.call who (some { call with stage := .replied (some .other) }) →
      h'.inFlight = h.inFlight → h'.transmitting = h.transmitting → HubEffect h (.refuse who) h'
  | turned {h' : Hub} :
      h'.ptt = h.ptt → h'.call = h.call → h'.inFlight.Perm h.inFlight →
      h'.transmitting = h.transmitting → HubEffect h .turn h'
  | applied {h' : Hub} {op : Operation Requester} :
      h.executing = some op → h'.ptt = h.ptt →
      h'.call = Function.update h.call op.reply
        ((h.call op.reply).map (fun call => { call with stage := .replied none })) →
      h.inFlight.Perm (op :: h'.inFlight) → h'.transmitting = h.transmittingAfter op →
      HubEffect h .apply h'
  | failed {h' : Hub} {op : Operation Requester} {fault : BackendFault} :
      h.executing = some op → h'.ptt = h.ptt →
      h'.call = Function.update h.call op.reply
        ((h.call op.reply).map (fun call => { call with stage := .replied (some fault) })) →
      h.inFlight.Perm (op :: h'.inFlight) → h'.transmitting = h.transmitting →
      HubEffect h (.fail fault) h'
  | finished {h' : Hub} {who : Requester} {call : RadioCall} {fault : Option BackendFault} :
      h.call who = some call → call.stage = .replied fault →
      h'.ptt = (if releases call.kind fault then h.ptt.unkey call.sessionId else h.ptt) →
      h'.call = Function.update h.call who none → h'.inFlight = h.inFlight →
      h'.transmitting = h.transmitting → HubEffect h (.finish who) h'

namespace Hub

@[simp] theorem ready_iff (h : Hub) (sessionId : Nat) :
    h.ready sessionId = true ↔ h.call (.session sessionId) = none ∧ h.closed sessionId = false := by
  simp [ready]

/-- The executing operation is in flight. -/
theorem inFlight_executing {h h' : Hub} {op : Operation Requester} (busy : h.executing = some op)
    (channel : h'.channel = h.channel) (queues : h'.queues = h.queues) (idle : h'.executing = none) :
    h.inFlight.Perm (op :: h'.inFlight) := by
  simp only [inFlight, busy, channel, queues, idle, Option.toList_some, Option.toList_none,
    List.append_nil]
  rw [← List.append_assoc]
  exact List.perm_append_singleton op _

end Hub

/-- What `admitModeled` submits: a granted key, an unkey, or no PTT at all. -/
theorem admit_begun {perms : EndpointPermissions} {h : Hub} {sessionId : Nat}
    {mutation : StateMutation} {cls : CommandClass} {ptt : PttManager} {priority : Priority}
    {kind : OpKind} (classed : wellClassed mutation cls = true)
    (submits : admitModeled perms h.state h.ptt sessionId h.clock mutation cls =
      (ptt, .submit priority kind)) :
    Begun h (.applyModeled sessionId mutation cls) (.session sessionId)
      ⟨sessionId, priority, kind, .sending⟩ ptt := by
  unfold admitModeled at submits
  split at submits
  · cases submits
  split at submits
  · cases submits
  split at submits
  · split at submits
    · cases submits
    · cases submits
    · rename_i keyed
      obtain ⟨_, granted, rfl⟩ := PttManager.tryKey_ok keyed
      cases submits
      exact .key sessionId _ granted
  · rename_i unkeyed
    cases submits
    cases mutation with
    | setPtt keyed source =>
        cases keyed with
        | true => exact absurd rfl (unkeyed source)
        | false => exact .unkey sessionId source
    | _ => simp [wellClassed] at classed
  · rename_i notPtt _
    cases submits
    have plain : keys (.apply mutation) = false ∧ unkeys (.apply mutation) = false := by
      cases mutation with
      | setPtt keyed source =>
          simp only [wellClassed, beq_true, beq_iff_eq] at classed
          exact absurd classed notPtt
      | _ => exact ⟨rfl, rfl⟩
    exact .other sessionId plain.1 plain.2

/-- An answered request leaves the lease alone. -/
theorem admit_answered {perms : EndpointPermissions} {h : Hub} {sessionId : Nat}
    {mutation : StateMutation} {cls : CommandClass} {ptt : PttManager} {outcome : ApplyOutcome}
    (answered : admitModeled perms h.state h.ptt sessionId h.clock mutation cls =
      (ptt, .answered outcome)) : ptt = h.ptt := by
  unfold admitModeled at answered
  split at answered
  · cases answered; rfl
  split at answered
  · cases answered; rfl
  split at answered
  · split at answered
    · rename_i keyed
      cases answered
      exact PttManager.tryKey_error keyed
    · rename_i keyed
      cases answered
      exact PttManager.tryKey_error keyed
    · cases answered
  · cases answered
  · cases answered

/-- **Every step has one of the effects.** -/
theorem hub_effect {perms : Nat → EndpointPermissions} {h h' : Hub} {input : HubInput}
    {answer : HubAnswer} (step : (hub perms).step h input = some (h', answer)) :
    HubEffect h input h' := by
  cases input with
  | pass elapsed => cases step; exact .quiet rfl rfl rfl rfl
  | observe change source => cases step; exact .quiet rfl rfl rfl rfl
  | applyModeled sessionId mutation cls =>
      simp only [hub] at step
      split at step
      · rename_i enabled
        obtain ⟨ready, classed⟩ := Bool.and_eq_true_iff.mp enabled
        split at step
        · rename_i answered
          cases step
          exact .quiet (admit_answered answered) rfl rfl rfl
        · rename_i submits
          cases step
          exact .began ((Hub.ready_iff h sessionId).mp ready).1 (admit_begun classed submits) rfl rfl
            rfl
      · cases step
  | passthrough sessionId raw cls =>
      simp only [hub] at step
      split at step
      · rename_i ready
        split at step
        · cases step
          exact .began ((Hub.ready_iff h sessionId).mp ready).1 (.other sessionId rfl rfl) rfl rfl rfl
        · cases step
          exact .quiet rfl rfl rfl rfl
      · cases step
  | poll sessionId =>
      simp only [hub, Option.ite_none_right_eq_some] at step
      obtain ⟨ready, step⟩ := step
      cases step
      exact .began ((Hub.ready_iff h sessionId).mp ready).1 (.other sessionId rfl rfl) rfl rfl rfl
  | releasePttOnDisconnect sessionId =>
      simp only [hub] at step
      split at step
      · rename_i ready
        split at step
        · cases step
          exact .quiet rfl rfl rfl rfl
        · rename_i owner
          cases step
          exact .began ((Hub.ready_iff h sessionId).mp ready).1
            (.force sessionId (not_not.mp owner) (Or.inl rfl)) rfl rfl rfl
      · cases step
  | checkCeiling =>
      simp only [hub] at step
      split at step
      · cases step
      · rename_i asleep
        split at step
        · rename_i owner expired
          cases step
          exact .began (Option.not_isSome_iff_eq_none.mp asleep)
            (.force owner (PttManager.expiredOwner_owner expired) (Or.inr rfl)) rfl rfl rfl
        · cases step
          exact .quiet rfl rfl rfl rfl
  | send who =>
      simp only [hub] at step
      split at step
      · rename_i call current
        simp only [Option.ite_none_right_eq_some] at step
        obtain ⟨sending, step⟩ := step
        cases step
        refine .sent current sending rfl rfl ?_ rfl
        show List.Perm (h.channel ++ [call.operation who] ++ _) _
        rw [List.append_assoc]
        exact List.perm_middle
      · cases step
  | refuse who =>
      simp only [hub] at step
      split at step
      · rename_i call current
        simp only [Option.ite_none_right_eq_some] at step
        obtain ⟨sending, step⟩ := step
        cases step
        refine .refused current sending rfl ?_ rfl rfl
        simp [Hub.deliver, Hub.setCall, current]
      · cases step
  | turn =>
      simp only [hub] at step
      split at step
      · cases step
      · rename_i idle
        split at step
        · rename_i op queues selected
          cases step
          refine .turned rfl rfl ?_ rfl
          have taken := (pending_foldl_enqueue h.channel h.queues).symm.trans
            (pending_selectNext selected)
          simp only [Hub.inFlight, Option.not_isSome_iff_eq_none.mp idle, Option.toList_some,
            Option.toList_none, List.append_nil, List.nil_append]
          exact (List.perm_append_singleton op _).trans taken.symm
        · cases step
  | apply =>
      simp only [hub] at step
      split at step
      · rename_i op busy
        cases step
        exact .applied busy rfl rfl (Hub.inFlight_executing busy rfl rfl rfl) rfl
      · cases step
  | fail fault =>
      simp only [hub] at step
      split at step
      · rename_i op busy
        cases step
        exact .failed busy rfl rfl (Hub.inFlight_executing busy rfl rfl rfl) rfl
      · cases step
  | finish who =>
      simp only [hub] at step
      split at step
      · rename_i call current
        split at step
        · rename_i fault replied
          cases step
          exact .finished current replied rfl rfl rfl rfl
        · cases step
      · cases step

/-! ## The operations in flight -/

/-- Every operation in flight is awaited by the call it came from, and no call has two. -/
structure InFlightSound (h : Hub) : Prop where
  awaited : ∀ op ∈ h.inFlight,
    h.call op.reply = some ⟨op.sessionId, op.priority, op.kind, .awaiting⟩
  distinct : (h.inFlight.map Operation.reply).Nodup

namespace InFlightSound

variable {h h' : Hub} {input : HubInput}

/-- Changing the call of a party that awaits nothing keeps the operations awaited. -/
theorem update {who : Requester} {call : Option RadioCall} (s : InFlightSound h)
    (calls : h'.call = Function.update h.call who call) (same : h'.inFlight = h.inFlight)
    (idle : ∀ c, h.call who = some c → c.stage ≠ .awaiting) : InFlightSound h' := by
  constructor
  -- The party awaits nothing, so none of the operations in flight is its own.
  · intro op hop
    rw [same] at hop
    have awaiting := s.awaited op hop
    have ne : op.reply ≠ who := by
      intro eq
      exact idle _ (eq ▸ awaiting) rfl
    rw [calls, Function.update_of_ne ne, awaiting]
  · rw [same]
    exact s.distinct

/-- Answering an operation takes it out of the flight and its call on. -/
theorem answer {op : Operation Requester} {call : Option RadioCall} (s : InFlightSound h)
    (calls : h'.call = Function.update h.call op.reply call)
    (taken : h.inFlight.Perm (op :: h'.inFlight)) : InFlightSound h' := by
  have distinct := ((taken.map Operation.reply).nodup_iff).mp s.distinct
  rw [List.map_cons, List.nodup_cons] at distinct
  constructor
  · intro other hother
    -- No call has two operations in flight.
    have ne : other.reply ≠ op.reply := by
      intro eq
      exact distinct.1 (eq ▸ List.mem_map_of_mem hother)
    rw [calls, Function.update_of_ne ne]
    exact s.awaited other (taken.mem_iff.mpr (List.mem_cons_of_mem _ hother))
  · exact distinct.2

theorem step (s : InFlightSound h) (effect : HubEffect h input h') : InFlightSound h' := by
  cases effect with
  | quiet _ calls same _ => exact ⟨by rw [calls, same]; exact s.awaited, by rw [same]; exact s.distinct⟩
  | began none' _ calls same _ => exact s.update calls same (by simp [none'])
  | refused current sending _ calls same _ =>
      refine s.update calls same ?_
      rintro c hc
      obtain rfl := Option.some.inj (current.symm.trans hc)
      simp [sending]
  | finished current replied _ calls same _ =>
      refine s.update calls same ?_
      rintro c hc
      obtain rfl := Option.some.inj (current.symm.trans hc)
      simp [replied]
  | @sent _ who call current sending _ calls added _ =>
      -- A party that is still sending has nothing in flight.
      have new : ∀ op ∈ h.inFlight, op.reply ≠ who := by
        intro op hop eq
        have awaiting := s.awaited op hop
        rw [eq, current] at awaiting
        simp [Option.some.inj awaiting] at sending
      constructor
      · intro op hop
        rcases List.mem_cons.mp (added.mem_iff.mp hop) with rfl | hop
        · rw [calls]
          exact Function.update_self _ _ _
        · rw [calls, Function.update_of_ne (new op hop)]
          exact s.awaited op hop
      · refine ((added.map Operation.reply).nodup_iff).mpr ?_
        rw [List.map_cons, List.nodup_cons]
        refine ⟨?_, s.distinct⟩
        intro mem
        obtain ⟨op, hop, eq⟩ := List.mem_map.mp mem
        exact new op hop eq
  | turned _ calls perm _ =>
      exact ⟨fun op hop => by rw [calls]; exact s.awaited op (perm.mem_iff.mp hop),
        ((perm.map Operation.reply).nodup_iff).mpr s.distinct⟩
  | applied _ _ calls taken _ => exact s.answer calls taken
  | failed _ _ calls taken _ => exact s.answer calls taken

end InFlightSound

theorem inFlight_sound {perms : Nat → EndpointPermissions} {maxTx : Nat}
    {history : List (Transition Hub HubInput HubAnswer)} {h : Hub}
    (run : (hub perms).Execution (.new maxTx) history h) : InFlightSound h := by
  refine run.invariant (I := fun _ h => InFlightSound h) ⟨by simp [Hub.inFlight, Hub.new, pending],
    by simp [Hub.inFlight, Hub.new, pending]⟩ ?_
  rintro history h input answer h' _ s step
  exact s.step (hub_effect step)

end CatHub.Ptt
