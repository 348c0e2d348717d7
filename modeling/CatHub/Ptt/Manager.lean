/-
# CatHub.Ptt.Manager — the single-owner transmit lease and its safety ceiling.

`PttManager` arbitrates one transmitter between sessions.  `expiredOwner` is documented as a hard
transmit-length ceiling, so this module asks for which timed sequences of calls it is one.  The
lease keeps a single timestamp, and `tryKey` sets it again whenever the owner re-asserts the key.
`ceiling_hard_iff` says exactly what that costs: the ceiling is hard for the sequences in which no
owner re-asserts the key later than the instant it holds.

Instants and durations are natural numbers.
-/
import Mathlib.Data.List.Induction

namespace CatHub.Ptt

/-! ## The lease -/

/-- Why a key request was refused. -/
inductive PttDenied where
  | busy
  | notPermitted
  deriving DecidableEq, Repr

/-- The lease of the one physical transmitter. -/
structure PttManager where
  owner : Option Nat := none
  keyedAt : Option Nat := none
  maxTx : Nat
  deriving DecidableEq, Repr

namespace PttManager

/-- Acquire or re-assert the lease for `sessionId` at the instant `now`.  While another session
holds it, the request is refused. -/
def tryKey (m : PttManager) (sessionId : Nat) (hasPtt : Bool) (now : Nat) :
    PttManager × Except PttDenied Unit :=
  if !hasPtt then (m, .error .notPermitted)
  else
    match m.owner with
    | some owner =>
        if owner ≠ sessionId then (m, .error .busy)
        else ({ m with owner := some sessionId, keyedAt := some now }, .ok ())
    | none => ({ m with owner := some sessionId, keyedAt := some now }, .ok ())

/-- Release the lease if `sessionId` owns it. -/
def unkey (m : PttManager) (sessionId : Nat) : PttManager :=
  if m.owner = some sessionId then { m with owner := none, keyedAt := none } else m

/-- The owner once the ceiling has elapsed, without releasing the lease. -/
def expiredOwner (m : PttManager) (now : Nat) : Option Nat :=
  if m.keyedAt.any (fun t => now - t ≥ m.maxTx) then m.owner else none

/-- Whether a key request of `sessionId` is granted. -/
def grants (m : PttManager) (sessionId : Nat) : Prop := m.owner = none ∨ m.owner = some sessionId

instance (m : PttManager) (sessionId : Nat) : Decidable (m.grants sessionId) :=
  inferInstanceAs (Decidable (_ ∨ _))

theorem tryKey_granted {m : PttManager} {sessionId now : Nat} (h : m.grants sessionId) :
    m.tryKey sessionId true now =
      ({ m with owner := some sessionId, keyedAt := some now }, .ok ()) := by
  rcases h with h | h <;> simp [tryKey, h]

theorem tryKey_refused {m : PttManager} {sessionId now : Nat} {hasPtt : Bool}
    (h : ¬ (hasPtt = true ∧ m.grants sessionId)) : (m.tryKey sessionId hasPtt now).1 = m := by
  unfold tryKey
  cases hasPtt with
  | false => rfl
  | true =>
      cases owner : m.owner with
      | none => exact absurd ⟨rfl, Or.inl owner⟩ h
      | some other =>
          have ne : other ≠ sessionId := fun same => h ⟨rfl, Or.inr (same ▸ owner)⟩
          simp [ne]

/-- A granted request was permitted, and found the lease free or its own. -/
theorem tryKey_ok {m m' : PttManager} {sessionId now : Nat} {hasPtt : Bool}
    (h : m.tryKey sessionId hasPtt now = (m', .ok ())) :
    hasPtt = true ∧ m.grants sessionId ∧
      m' = { m with owner := some sessionId, keyedAt := some now } := by
  cases hasPtt with
  | false => simp [tryKey] at h
  | true =>
      by_cases granted : m.grants sessionId
      · rw [tryKey_granted granted] at h
        exact ⟨rfl, granted, (congrArg Prod.fst h).symm⟩
      · cases owner : m.owner with
        | none => exact absurd (Or.inl owner) granted
        | some other =>
            have ne : other ≠ sessionId := fun same => granted (Or.inr (same ▸ owner))
            simp [tryKey, owner, ne] at h

/-- A refused request leaves the lease alone. -/
theorem tryKey_error {m m' : PttManager} {sessionId now : Nat} {hasPtt : Bool} {denied : PttDenied}
    (h : m.tryKey sessionId hasPtt now = (m', .error denied)) : m' = m := by
  by_cases granted : hasPtt = true ∧ m.grants sessionId
  · rw [granted.1, tryKey_granted granted.2] at h
    cases h
  · have same := @tryKey_refused m sessionId now hasPtt granted
    rwa [h] at same

@[simp] theorem tryKey_maxTx (m : PttManager) (sessionId : Nat) (hasPtt : Bool) (now : Nat) :
    (m.tryKey sessionId hasPtt now).1.maxTx = m.maxTx := by
  by_cases h : hasPtt = true ∧ m.grants sessionId
  · rw [h.1, tryKey_granted h.2]
  · rw [tryKey_refused h]

@[simp] theorem unkey_maxTx (m : PttManager) (sessionId : Nat) :
    (m.unkey sessionId).maxTx = m.maxTx := by
  unfold unkey
  split <;> rfl

theorem unkey_owner (m : PttManager) (sessionId : Nat) :
    (m.unkey sessionId).owner = if m.owner = some sessionId then none else m.owner := by
  unfold unkey
  split <;> simp_all

theorem expiredOwner_owner {m : PttManager} {now sessionId : Nat}
    (h : m.expiredOwner now = some sessionId) : m.owner = some sessionId := by
  unfold expiredOwner at h
  split at h
  · exact h
  · cases h

end PttManager

/-! ## Timed sequences of calls -/

/-- One call on the lease. -/
inductive LeaseCall where
  | tryKey (sessionId : Nat) (hasPtt : Bool)
  | unkey (sessionId : Nat)
  deriving DecidableEq, Repr

/-- A call and the instant of the call. -/
structure TimedCall where
  time : Nat
  call : LeaseCall
  deriving DecidableEq, Repr

/-- The lease after one call. -/
def PttManager.apply (m : PttManager) (c : TimedCall) : PttManager :=
  match c.call with
  | .tryKey sessionId hasPtt => (m.tryKey sessionId hasPtt c.time).1
  | .unkey sessionId => m.unkey sessionId

/-- The lease after a sequence of calls on a new manager. -/
def leaseAfter (maxTx : Nat) (calls : List TimedCall) : PttManager :=
  calls.foldl PttManager.apply { maxTx }

/-- `sessionId` owns the lease without interruption from `since` to the end of `calls`: after the
calls up to some instant not later than `since`, and after every later call. -/
def OwnedSince (maxTx sessionId since : Nat) (calls : List TimedCall) : Prop :=
  ∃ before after, calls = before ++ after ∧ (∀ c ∈ before, c.time ≤ since) ∧
    ∀ front, front <+: after → (leaseAfter maxTx (before ++ front)).owner = some sessionId

/-- The ceiling is hard over `calls`: at every point of the sequence and every instant `now` from
then on, a session that has owned the lease since `since` is reported from `since + maxTx` on. -/
def HardCeiling (maxTx : Nat) (calls : List TimedCall) : Prop :=
  ∀ front, front <+: calls → ∀ sessionId since now, (∀ c ∈ front, c.time ≤ now) →
    OwnedSince maxTx sessionId since front → since + maxTx ≤ now →
    (leaseAfter maxTx front).expiredOwner now = some sessionId

/-- The call re-asserts the key: its session is permitted and already owns the lease. -/
def Reasserts (m : PttManager) (c : TimedCall) : Prop :=
  ∃ sessionId, c.call = .tryKey sessionId true ∧ m.owner = some sessionId

/-- Some owner re-asserts the key later than the instant the lease holds. -/
def ReassertsLate (maxTx : Nat) (calls : List TimedCall) : Prop :=
  ∃ front c, front ++ [c] <+: calls ∧ Reasserts (leaseAfter maxTx front) c ∧
    (leaseAfter maxTx front).keyedAt ≠ some c.time

/-! ## One call -/

variable {maxTx : Nat} {calls : List TimedCall}

theorem leaseAfter_concat (maxTx : Nat) (calls : List TimedCall) (c : TimedCall) :
    leaseAfter maxTx (calls ++ [c]) = (leaseAfter maxTx calls).apply c := by
  simp [leaseAfter]

theorem leaseAfter_maxTx (maxTx : Nat) (calls : List TimedCall) :
    (leaseAfter maxTx calls).maxTx = maxTx := by
  induction calls using List.reverseRecOn with
  | nil => rfl
  | append_singleton calls c ih =>
      rw [leaseAfter_concat, PttManager.apply]
      cases c.call with
      | tryKey sessionId hasPtt => exact (PttManager.tryKey_maxTx _ _ _ _).trans ih
      | unkey sessionId => exact (PttManager.unkey_maxTx _ _).trans ih

/-- A call after which `sessionId` owns the lease keyed it, or left the lease alone. -/
theorem apply_owner {m : PttManager} {c : TimedCall} {sessionId : Nat}
    (h : (m.apply c).owner = some sessionId) :
    (c.call = .tryKey sessionId true ∧ (m.apply c).keyedAt = some c.time) ∨ m.apply c = m := by
  unfold PttManager.apply at h ⊢
  cases call : c.call with
  | tryKey other hasPtt =>
      by_cases granted : hasPtt = true ∧ m.grants other
      · obtain ⟨rfl, granted⟩ := granted
        rw [call] at h
        simp only [PttManager.tryKey_granted granted, Option.some.injEq] at h ⊢
        subst h
        exact Or.inl ⟨rfl, trivial⟩
      · exact Or.inr (PttManager.tryKey_refused granted)
  | unkey other =>
      right
      simp only [call, PttManager.unkey] at h ⊢
      by_cases owner : m.owner = some other
      · simp [owner] at h
      · rw [if_neg owner]

/-! ## The timestamp and the start of the ownership -/

/-- The owner's timestamp is the instant of one of the calls, and it has owned the lease since. -/
theorem owner_since (sorted : calls.Pairwise (fun c d => c.time ≤ d.time)) {sessionId : Nat}
    (owner : (leaseAfter maxTx calls).owner = some sessionId) :
    ∃ k, (leaseAfter maxTx calls).keyedAt = some k ∧ (∃ c ∈ calls, c.time = k) ∧
      OwnedSince maxTx sessionId k calls := by
  induction calls using List.reverseRecOn with
  | nil => simp [leaseAfter] at owner
  | append_singleton calls c ih =>
      obtain ⟨sorted, _, latest⟩ := List.pairwise_append.mp sorted
      rw [leaseAfter_concat] at owner ⊢
      rcases apply_owner owner with ⟨_, keyed⟩ | same
      · -- the ownership is counted from this call on
        refine ⟨c.time, keyed, ⟨c, by simp, rfl⟩, calls ++ [c], [], by simp, ?_, ?_⟩
        · intro d hd
          rcases List.mem_append.mp hd with hd | hd
          · exact latest d hd c (List.mem_singleton_self c)
          · obtain rfl := List.mem_singleton.mp hd
            exact Nat.le_refl _
        · intro front h
          rw [List.prefix_nil.mp h, List.append_nil, leaseAfter_concat]
          exact owner
      · rw [same] at owner ⊢
        obtain ⟨k, keyed, ⟨d, hd, time⟩, before, after, rfl, early, owned⟩ := ih sorted owner
        refine ⟨k, keyed, ⟨d, List.mem_append_left _ hd, time⟩, before, after ++ [c],
          List.append_assoc _ _ _, early, ?_⟩
        intro front h
        rcases List.prefix_concat_iff.mp h with rfl | h
        · rw [← List.append_assoc, leaseAfter_concat, same]
          exact owner
        · exact owned front h

/-- The timestamp of an owner does not move while no re-assertion is late. -/
theorem keyedAt_stays {before after : List TimedCall} {sessionId : Nat}
    (onTime : ¬ ReassertsLate maxTx (before ++ after))
    (owned : ∀ front, front <+: after → (leaseAfter maxTx (before ++ front)).owner = some sessionId) :
    (leaseAfter maxTx (before ++ after)).keyedAt = (leaseAfter maxTx before).keyedAt := by
  induction after using List.reverseRecOn with
  | nil => simp
  | append_singleton after c ih =>
      have owner := owned after (List.prefix_append _ _)
      have owner' := owned (after ++ [c]) List.prefix_rfl
      have earlier : ¬ ReassertsLate maxTx (before ++ after) := by
        rintro ⟨front, d, h, late⟩
        exact onTime ⟨front, d, h.trans (by rw [← List.append_assoc]; exact List.prefix_append _ _),
          late⟩
      rw [← ih earlier (fun front h => owned front (h.trans (List.prefix_append _ _)))]
      rw [← List.append_assoc, leaseAfter_concat] at owner' ⊢
      rcases apply_owner owner' with ⟨call, keyed⟩ | same
      · rw [keyed]
        by_contra moved
        have whole : (before ++ after) ++ [c] <+: before ++ (after ++ [c]) := by simp
        exact onTime ⟨before ++ after, c, whole, ⟨sessionId, call, owner⟩, fun h => moved h.symm⟩
      · rw [same]

/-! ## When the ceiling is hard -/

/-- **The ceiling.**  Over a sequence of calls in order of time, the ceiling is hard if and only if
no owner re-asserts the key later than the instant the lease holds (or the ceiling is zero). -/
theorem ceiling_hard_iff (maxTx : Nat) (calls : List TimedCall)
    (sorted : calls.Pairwise (fun c d => c.time ≤ d.time)) :
    HardCeiling maxTx calls ↔ maxTx = 0 ∨ ¬ ReassertsLate maxTx calls := by
  constructor
  · intro hard
    by_contra h
    simp only [not_or, not_not] at h
    obtain ⟨positive, front, c, whole, ⟨sessionId, call, owner⟩, moved⟩ := h
    have sorted' := sorted.sublist whole.sublist
    obtain ⟨sorted', _, latest⟩ := List.pairwise_append.mp sorted'
    obtain ⟨k, keyed, ⟨d, hd, rfl⟩, before, after, rfl, early, owned⟩ := owner_since sorted' owner
    have before_c : d.time ≤ c.time := latest d hd c (List.mem_singleton_self c)
    have ne : d.time ≠ c.time := fun same => moved (by rw [keyed, same])
    have rekeyed : leaseAfter maxTx ((before ++ after) ++ [c]) =
        { leaseAfter maxTx (before ++ after) with owner := some sessionId, keyedAt := some c.time } := by
      rw [leaseAfter_concat, PttManager.apply, call]
      exact congrArg Prod.fst (PttManager.tryKey_granted (Or.inr owner))
    -- At this instant the first `maxTx` since the first key are over, those since the last are not.
    have reported := hard _ whole sessionId d.time (max c.time (d.time + maxTx)) ?_ ?_ (by omega)
    · have running : ¬ max c.time (d.time + maxTx) - c.time ≥ maxTx := by omega
      rw [rekeyed] at reported
      simp [PttManager.expiredOwner, leaseAfter_maxTx, running] at reported
    · intro e he
      have : e.time ≤ c.time := by
        rcases List.mem_append.mp he with he | he
        · exact latest e he c (List.mem_singleton_self c)
        · obtain rfl := List.mem_singleton.mp he
          exact Nat.le_refl _
      omega
    · refine ⟨before, after ++ [c], List.append_assoc _ _ _, early, ?_⟩
      intro front h
      rcases List.prefix_concat_iff.mp h with rfl | h
      · rw [← List.append_assoc, rekeyed]
      · exact owned front h
  · rintro onTime front whole sessionId since now current ⟨before, after, rfl, early, owned⟩ due
    have owner := owned after List.prefix_rfl
    have first := owned [] (List.nil_prefix)
    rw [List.append_nil] at first
    have sorted' := sorted.sublist whole.sublist
    have elapsed : (leaseAfter maxTx (before ++ after)).keyedAt.any (fun t => now - t ≥ maxTx) := by
      rcases onTime with zero | onTime
      · obtain ⟨k, keyed, _⟩ := owner_since sorted' owner
        subst zero
        simp [keyed]
      · have onTime' : ¬ ReassertsLate maxTx (before ++ after) :=
          fun ⟨front, c, h, late⟩ => onTime ⟨front, c, h.trans whole, late⟩
        obtain ⟨k, keyed, ⟨c, hc, rfl⟩, _⟩ := owner_since (List.pairwise_append.mp sorted').1 first
        rw [keyedAt_stays onTime' owned, keyed]
        have := early c hc
        simp only [Option.any_some, decide_eq_true_eq]
        omega
    unfold PttManager.expiredOwner
    rw [leaseAfter_maxTx, if_pos elapsed, owner]

/-- A session that keys at 0 with a ceiling of 10, while another is refused at 6. -/
theorem ceiling_hard_iff_contended :
    HardCeiling 10 [⟨0, .tryKey 1 true⟩, ⟨6, .tryKey 2 true⟩] ↔
      10 = 0 ∨ ¬ ReassertsLate 10 [⟨0, .tryKey 1 true⟩, ⟨6, .tryKey 2 true⟩] :=
  ceiling_hard_iff 10 [⟨0, .tryKey 1 true⟩, ⟨6, .tryKey 2 true⟩] (by decide)

/-- A session that keys at 0 and re-asserts the key at 6 is not reported at 10. -/
theorem ceiling_not_hard :
    ¬ HardCeiling 10 [⟨0, .tryKey 1 true⟩, ⟨6, .tryKey 1 true⟩] := by
  intro hard
  have owned : OwnedSince 10 1 0 [⟨0, .tryKey 1 true⟩, ⟨6, .tryKey 1 true⟩] := by
    refine ⟨[⟨0, .tryKey 1 true⟩], [⟨6, .tryKey 1 true⟩], rfl, by decide, ?_⟩
    intro front h
    rcases List.prefix_cons_iff.mp h with rfl | ⟨rest, rfl, none'⟩
    · rfl
    · rw [List.prefix_nil.mp none']
      rfl
  have reported := hard _ List.prefix_rfl 1 0 10 (by decide) owned (by decide)
  exact absurd reported (by decide)

end CatHub.Ptt
