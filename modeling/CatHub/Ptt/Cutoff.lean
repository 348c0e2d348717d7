/-
# CatHub.Ptt.Cutoff — when an unkey of one session cuts off the transmission of another.

An unkey is queued and applied later than it was decided.  The watchdog and a disconnect look at the
lease before they submit it; an unkey request of a client does not, and nothing keeps a session from
acquiring a free lease while an unkey of another session is still under way.  `Considerate` excludes
these two steps.  In the runs without them no applied unkey meets the lease of another session
(`receive_never_cuts_off`); `receive_cuts_off` is a run with the first of them.
-/
import CatHub.Ptt.Lease

namespace CatHub.Ptt

open Radio Systems

/-! ## The property and the condition -/

/-- The step applies an unkey for a session while another one owns the lease. -/
def CutsOff (e : HubStep) : Prop :=
  e.input = .apply ∧ ∃ op t, e.before.executing = some op ∧ unkeys op.kind = true ∧
    e.before.ptt.owner = some t ∧ t ≠ op.sessionId

/-- A client begins an unkey only when no other session owns the lease, and a session acquires the
free lease only when no unkey of another session is under way. -/
def Considerate (e : HubStep) : Prop :=
  match e.input with
  | .applyModeled sessionId (.setPtt false _) _ => e.before.ptt.grants sessionId
  | .applyModeled sessionId (.setPtt true _) _ =>
      e.before.ptt.owner = none → ∀ who call, e.before.call who = some call →
        unkeys call.kind = true → call.hasReply = false → call.sessionId = sessionId
  | _ => True

/-- Where the lease is not acquired, the condition is a check of the lease. -/
def keepsLease (e : HubStep) : Bool :=
  match e.input with
  | .applyModeled sessionId (.setPtt false _) _ => e.before.ptt.grants sessionId
  | .applyModeled _ (.setPtt true _) _ => e.before.ptt.owner.isSome
  | _ => true

theorem considerate_of_keepsLease {e : HubStep} (h : keepsLease e = true) : Considerate e := by
  unfold keepsLease at h
  unfold Considerate
  split
  · rename_i input
    simpa only [input, decide_eq_true_eq] using h
  · rename_i input
    intro free
    simp [input, free] at h
  · trivial

/-! ## The invariant -/

/-- An unkey under way belongs to the owner of the lease, or the lease is free. -/
structure Unopposed (h : Hub) : Prop where
  sound : InFlightSound h
  unkeying : ∀ who call, h.call who = some call → unkeys call.kind = true →
    call.hasReply = false → h.ptt.grants call.sessionId

namespace Unopposed

variable {h h' : Hub} {input : HubInput} {answer : HubAnswer}

/-- A party gets further in its call while the lease stays. -/
theorem advance {who : Requester} {old : RadioCall} {new : Option RadioCall} (u : Unopposed h)
    (sound : InFlightSound h') (was : h.call who = some old)
    (calls : h'.call = Function.update h.call who new) (ptt : h'.ptt = h.ptt)
    (running : ∀ call, new = some call → call.hasReply = false →
      old.hasReply = false ∧ call.kind = old.kind ∧ call.sessionId = old.sessionId) :
    Unopposed h' := by
  refine ⟨sound, ?_⟩
  intro other call current k open'
  rw [ptt]
  rcases Leased.call_cases calls current with ⟨rfl, same⟩ | ⟨_, current⟩
  · obtain ⟨was_open, kind, session⟩ := running call same open'
    rw [session]
    exact u.unkeying _ old was (kind ▸ k) was_open
  · exact u.unkeying _ _ current k open'

theorem step (u : Unopposed h) (effect : HubEffect h input h')
    (considerate : Considerate ⟨h, input, answer, h'⟩) : Unopposed h' := by
  have sound := u.sound.step effect
  cases effect with
  | quiet ptt calls _ _ => exact ⟨sound, by rw [calls, ptt]; exact u.unkeying⟩
  | turned ptt calls _ _ => exact ⟨sound, by rw [calls, ptt]; exact u.unkeying⟩
  | @began _ _ who new vacant begun calls _ _ =>
      refine ⟨sound, ?_⟩
      intro other call current k open'
      rcases Leased.call_cases calls current with ⟨rfl, same⟩ | ⟨_, current⟩
      · obtain rfl := Option.some.inj same
        generalize h'.ptt = ptt at begun
        cases begun with
        | key => cases k
        | unkey => exact considerate
        | other _ _ none' => exact absurd (none'.symm.trans k) (by decide)
        | force sessionId owner _ => exact Or.inr owner
      -- An unkey of another party: only a key request may have moved the lease.
      · have before := u.unkeying _ _ current k open'
        generalize h'.ptt = ptt at begun
        cases begun with
        | key sessionId _ granted =>
            show some sessionId = none ∨ some sessionId = some call.sessionId
            rcases granted with free | own
            · rw [considerate free _ _ current k open']
              exact Or.inr rfl
            · rcases before with free | owner
              · rw [free] at own
                cases own
              · exact Or.inr (own.symm.trans owner)
        | unkey => exact before
        | other => exact before
        | force => exact before
  | @sent _ who call was sending ptt calls _ _ =>
      refine u.advance sound was calls ptt ?_
      rintro new same _
      obtain rfl := Option.some.inj same
      exact ⟨by simp [RadioCall.hasReply, sending], rfl, rfl⟩
  | @refused _ who call was sending ptt calls _ _ =>
      refine u.advance sound was calls ptt ?_
      rintro new same open'
      obtain rfl := Option.some.inj same
      cases open'
  | @applied _ op busy ptt calls taken _ =>
      have awaited := u.sound.awaited op (taken.mem_iff.mpr List.mem_cons_self)
      rw [awaited, Option.map_some] at calls
      refine u.advance sound awaited calls ptt ?_
      rintro new same open'
      obtain rfl := Option.some.inj same
      cases open'
  | @failed _ op fault busy ptt calls taken _ =>
      have awaited := u.sound.awaited op (taken.mem_iff.mpr List.mem_cons_self)
      rw [awaited, Option.map_some] at calls
      refine u.advance sound awaited calls ptt ?_
      rintro new same open'
      obtain rfl := Option.some.inj same
      cases open'
  | @finished _ who call fault was replied ptt calls _ _ =>
      refine ⟨sound, ?_⟩
      intro other new current k open'
      rcases Leased.call_cases calls current with ⟨_, same⟩ | ⟨_, current⟩
      · cases same
      · have before := u.unkeying _ _ current k open'
        rw [ptt]
        split
        · unfold PttManager.grants
          rw [PttManager.unkey_owner]
          split
          · exact Or.inl rfl
          · exact before
        · exact before

end Unopposed

/-! ## Every run -/

/-- **No cut-off.**  In every run of considerate steps, no unkey is applied while a session other
than its own owns the lease. -/
theorem receive_never_cuts_off {perms : Nat → EndpointPermissions} {maxTx : Nat}
    {history : List HubStep} {h : Hub} (run : (hub perms).Execution (.new maxTx) history h)
    (considerate : ∀ e ∈ history, Considerate e) : ∀ e ∈ history, ¬ CutsOff e := by
  refine (run.always (I := Unopposed) (G := Considerate) ?_ ?_ considerate).2
  · have sound : InFlightSound (.new maxTx) := @inFlight_sound perms maxTx _ _ .start
    exact ⟨sound, by simp [Hub.new]⟩
  · intro h input answer h' u step polite
    refine ⟨u.step (hub_effect step) polite, ?_⟩
    rintro ⟨_, op, t, busy, k, owner, ne⟩
    have flying : op ∈ h.inFlight := by
      have busy' : h.executing = some op := busy
      simp [Hub.inFlight, busy']
    have granted := u.unkeying _ _ (u.sound.awaited op flying) k rfl
    have owner' : h.ptt.owner = some t := owner
    rcases granted with free | own
    · rw [owner'] at free
      cases free
    · exact ne (Option.some.inj (owner'.symm.trans own))

/-- Session 1 keys, session 2 is refused, session 1 unkeys. -/
theorem receive_never_cuts_off_refused :
    ∃ history h, (hub fullRights).Execution (.new 10) history h ∧ h.transmitting = none ∧
      ∀ e ∈ history, ¬ CutsOff e := by
  have run := (hub fullRights).execution_exec (.new 10)
    (pttCall 1 true .apply ++ [.applyModeled 2 (.setPtt true .data) .pttWrite] ++
      pttCall 1 false .apply) (by decide)
  refine ⟨_, _, run, by decide, receive_never_cuts_off run ?_⟩
  refine List.forall_mem_cons.mpr ⟨?_, ?_⟩
  · intro _ who call current
    cases current
  · suffices kept : ∀ e ∈ _, keepsLease e = true from
      fun e he => considerate_of_keepsLease (kept e he)
    decide

/-- Session 1 keys, and session 2 unkeys while session 1 owns the lease. -/
theorem receive_cuts_off :
    ∃ history h, (hub fullRights).Execution (.new 10) history h ∧ ∃ e ∈ history, CutsOff e := by
  have run := (hub fullRights).execution_exec (.new 10)
    (pttCall 1 true .apply ++ pttCall 2 false .apply) (by decide)
  refine ⟨_, _, run, _, @List.mem_of_getElem? _ _ 8 _ rfl, rfl, _, 1, rfl, rfl, rfl, ?_⟩
  decide

end CatHub.Ptt
