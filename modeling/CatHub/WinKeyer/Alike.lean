/-
# CatHub.WinKeyer.Alike — two cores that differ in the profiles of some clients only.

Two cores are alike for a client when they have the same schedule, and tables that differ at most in
what the other clients have stored under certain keys.  What counts as applied may differ as well, and
with it what is replayed.

No decision of the core looks at a profile, so alike cores go the same way.  `Beside` says how: a call
returns the same actions on both, or it passes an ownership boundary on both, from alike cores.
-/
import CatHub.WinKeyer.Foreground

namespace CatHub.WinKeyer

open BrokerCore

/-! ## Alike tables -/

/-- The same settings, and the same profile as far as it is visible. -/
structure AlikeClients (visible : Nat → Prop) (x y : ClientState) : Prop where
  speed : y.desiredSpeed = x.desiredSpeed
  primary : y.primary = x.primary
  profile : ∀ key, visible key → y.profile[key]? = x.profile[key]?

/-- The keys at which the profiles of `d` agree: for `c` all of them, for others those not touched. -/
def Visible (c : ClientId) (touched : Nat → Prop) (d : ClientId) (key : Nat) : Prop :=
  d = c ∨ ¬ touched key

def AlikeTables (c : ClientId) (touched : Nat → Prop) (t u : Std.TreeMap ClientId ClientState) : Prop :=
  ∀ d : ClientId, Option.Rel (AlikeClients (Visible c touched d)) t[d]? u[d]?

variable {c : ClientId} {touched : Nat → Prop}

theorem AlikeClients.rfl {visible : Nat → Prop} {x : ClientState} : AlikeClients visible x x :=
  ⟨Eq.refl _, Eq.refl _, fun _ _ => Eq.refl _⟩

namespace AlikeTables

variable {t u : Std.TreeMap ClientId ClientState}

theorem rfl : AlikeTables c touched t t := by
  intro d
  cases t[d]? with
  | none => exact .none
  | some client => exact .some .rfl

theorem symm (alike : AlikeTables c touched t u) : AlikeTables c touched u t := by
  intro d
  have here := alike d
  revert here
  generalize t[d]? = left
  generalize u[d]? = right
  intro here
  cases here with
  | none => exact .none
  | some same =>
      exact .some ⟨same.speed.symm, same.primary.symm, fun key visible =>
        (same.profile key visible).symm⟩

theorem cases (alike : AlikeTables c touched t u) (d : ClientId) :
    (t[d]? = none ∧ u[d]? = none) ∨
      ∃ x y, t[d]? = some x ∧ u[d]? = some y ∧ AlikeClients (Visible c touched d) x y := by
  have here := alike d
  cases left : t[d]? with
  | none =>
      cases right : u[d]? with
      | none => exact Or.inl ⟨Eq.refl _, Eq.refl _⟩
      | some y =>
          rw [left, right] at here
          cases here
  | some x =>
      cases right : u[d]? with
      | none =>
          rw [left, right] at here
          cases here
      | some y =>
          rw [left, right] at here
          cases here with
          | some same => exact Or.inr ⟨x, y, Eq.refl _, Eq.refl _, same⟩

theorem insert (alike : AlikeTables c touched t u) {d : ClientId} {x y : ClientState}
    (same : AlikeClients (Visible c touched d) x y) :
    AlikeTables c touched (t.insert d x) (u.insert d y) := by
  intro e
  rw [Std.TreeMap.getElem?_insert, Std.TreeMap.getElem?_insert]
  split
  · rename_i here
    rw [← Nat.compare_eq_eq.mp here]
    exact .some same
  · exact alike e

theorem erase (alike : AlikeTables c touched t u) (d : ClientId) :
    AlikeTables c touched (t.erase d) (u.erase d) := by
  intro e
  rw [Std.TreeMap.getElem?_erase, Std.TreeMap.getElem?_erase]
  split
  · exact .none
  · exact alike e

/-- A command of another client changes nothing that is visible. -/
theorem hidden (alike : AlikeTables c touched t u) {d : ClientId} (other : d ≠ c) {client : ClientState}
    (known : t[d]? = some client) {key : Nat} (hidden : touched key) (command : List UInt8) :
    AlikeTables c touched
      (t.insert d { client with profile := client.profile.insert key command }) u := by
  intro e
  rw [Std.TreeMap.getElem?_insert]
  split
  · rename_i here
    obtain rfl := Nat.compare_eq_eq.mp here
    rcases alike.cases d with ⟨unknown, _⟩ | ⟨x, y, found, found', same⟩
    · rw [known] at unknown
      cases unknown
    · obtain rfl := Option.some.inj (known.symm.trans found)
      rw [found']
      refine .some ⟨same.speed, same.primary, fun key' visible => ?_⟩
      have apart : key ≠ key' := by
        rintro rfl
        exact visible.elim other (fun shown => shown hidden)
      rw [same.profile key' visible, Std.TreeMap.getElem?_insert, if_neg]
      rwa [Nat.compare_eq_eq]
  · exact alike e

end AlikeTables

/-! ## Alike cores -/

namespace BrokerCore

/-- The core without the table, the marker and the pot's speed. -/
def bare (core : BrokerCore) : BrokerCore :=
  { core with clients := ∅, appliedProfileClientId := none, potWpm := none, physicalPotMinWpm := 5 }

end BrokerCore

theorem anyPrimary_iff {core : BrokerCore} :
    core.clients.toList.any (fun e => e.2.primary) = true ↔ ∃ d, core.isPrimary d = true := by
  rw [List.any_eq_true]
  constructor
  · rintro ⟨⟨d, client⟩, mem, primary⟩
    refine ⟨d, isPrimary_iff.mpr ⟨client, ?_, primary⟩⟩
    exact Std.TreeMap.mem_toList_iff_getElem?_eq_some.mp mem
  · rintro ⟨d, leads⟩
    obtain ⟨client, known, primary⟩ := isPrimary_iff.mp leads
    exact ⟨(d, client), Std.TreeMap.mem_toList_iff_getElem?_eq_some.mpr known, primary⟩

/-- The cores differ at most in what is hidden of the profiles, and in what follows from it. -/
structure AlikeCores (c : ClientId) (touched : Nat → Prop) (x y : BrokerCore) : Prop where
  bare : y.bare = x.bare
  table : AlikeTables c touched x.clients y.clients

namespace AlikeCores

variable {x y : BrokerCore}

theorem rfl : AlikeCores c touched x x := ⟨Eq.refl _, .rfl⟩

theorem symm (alike : AlikeCores c touched x y) : AlikeCores c touched y x :=
  ⟨alike.bare.symm, alike.table.symm⟩

theorem isPrimary (alike : AlikeCores c touched x y) (d : ClientId) :
    y.isPrimary d = x.isPrimary d := by
  unfold BrokerCore.isPrimary
  rcases alike.table.cases d with ⟨unknown, unknown'⟩ | ⟨client, client', known, known', same⟩
  · rw [unknown, unknown']
  · rw [known, known']
    exact same.primary

theorem anyPrimary (alike : AlikeCores c touched x y) :
    y.clients.toList.any (fun e => e.2.primary) = x.clients.toList.any (fun e => e.2.primary) := by
  rw [Bool.eq_iff_iff, anyPrimary_iff, anyPrimary_iff]
  exact exists_congr (fun d => by rw [alike.isPrimary d])

theorem onePrimary (alike : AlikeCores c touched x y) (one : OnePrimary x) : OnePrimary y := by
  intro d e leads leads'
  rw [alike.isPrimary] at leads leads'
  exact one d e leads leads'

/-- The foreground is the same client. -/
theorem foreground (alike : AlikeCores c touched x y) (one : OnePrimary x) :
    (x.foreground = none ∧ y.foreground = none) ∨
      ∃ d client client', x.foreground = some (d, client) ∧ y.foreground = some (d, client') ∧
        AlikeClients (Visible c touched d) client client' := by
  by_cases leads : ∃ d, x.isPrimary d = true
  · obtain ⟨d, leads⟩ := leads
    obtain ⟨client, foreground, known⟩ := foreground_of_primary one leads
    obtain ⟨client', foreground', known'⟩ :=
      foreground_of_primary (alike.onePrimary one) ((alike.isPrimary d).trans leads)
    refine Or.inr ⟨d, client, client', foreground, foreground', ?_⟩
    rcases alike.table.cases d with ⟨unknown, _⟩ | ⟨before, before', found, found', same⟩
    · rw [known] at unknown
      cases unknown
    · obtain rfl := Option.some.inj (known.symm.trans found)
      obtain rfl := Option.some.inj (known'.symm.trans found')
      exact same
  · have free : ∀ d, x.isPrimary d = false := by simpa using leads
    refine Or.inl ⟨foreground_none free, foreground_none (fun d => ?_)⟩
    rw [alike.isPrimary d, free d]

theorem foregroundSpeed (alike : AlikeCores c touched x y) (one : OnePrimary x) :
    y.foregroundSpeed = x.foregroundSpeed := by
  unfold BrokerCore.foregroundSpeed
  rcases alike.foreground one with ⟨none', none''⟩ | ⟨d, client, client', some', some'', same⟩
  · rw [none', none'']
  · rw [some', some'']
    exact same.speed

end AlikeCores

/-! ## Going on -/

namespace BrokerCore

/-- The client that going on loads: the one of the next job, or the foreground. -/
def successor (core : BrokerCore) : Option ClientId :=
  match core.queue with
  | job :: _ => some job.clientId
  | [] => core.foreground.map Prod.fst

/-- What a client has stored under a key. -/
def storedAt (core : BrokerCore) (d : ClientId) (key : Nat) : Option (List UInt8) :=
  core.clients[d]?.bind (fun client => client.profile[key]?)

theorem bare_applyProfileOf (core : BrokerCore) (d : ClientId) :
    (core.applyProfileOf d).bare = core.bare := by
  unfold applyProfileOf
  split <;> rfl

/-- What going on does to the schedule. -/
theorem bare_startNextOrRestore (core : BrokerCore) (clock : Nat) :
    (core.startNextOrRestore clock).1.bare =
      match core.bare.queue with
      | job :: rest => { core.bare with
          queue := rest
          active := some { job, sawBusy := false, observedStatus := false, startedAt := clock } }
      | [] => core.bare := by
  have same : core.bare.queue = core.queue := rfl
  rw [same]
  unfold startNextOrRestore
  cases core.queue with
  | nil => rfl
  | cons job rest =>
      simp only []
      split
      · have loaded := bare_applyProfileOf { core with queue := rest } job.clientId
        exact congrArg (fun b : BrokerCore => { b with
          active := some { job, sawBusy := false, observedStatus := false, startedAt := clock } })
          loaded
      · rfl

end BrokerCore

namespace AlikeCores

variable {x y : BrokerCore}

theorem storedAt (alike : AlikeCores c touched x y) {d : ClientId} {key : Nat}
    (visible : Visible c touched d key) : y.storedAt d key = x.storedAt d key := by
  unfold BrokerCore.storedAt
  rcases alike.table.cases d with ⟨unknown, unknown'⟩ | ⟨client, client', known, known', same⟩
  · rw [unknown, unknown']
  · rw [known, known']
    exact same.profile key visible

/-- What depends on the schedule alone is the same. -/
theorem read {α : Type} (alike : AlikeCores c touched x y) (f : BrokerCore → α)
    (bare : ∀ core, f core.bare = f core) : f y = f x := by
  rw [← bare, alike.bare, bare]

theorem queue (alike : AlikeCores c touched x y) : y.queue = x.queue :=
  alike.read BrokerCore.queue (fun _ => Eq.refl _)

theorem active (alike : AlikeCores c touched x y) : y.active = x.active :=
  alike.read BrokerCore.active (fun _ => Eq.refl _)

theorem connected (alike : AlikeCores c touched x y) : y.connected = x.connected :=
  alike.read BrokerCore.connected (fun _ => Eq.refl _)

/-- The same update of both that leaves the settings alone. -/
theorem update (alike : AlikeCores c touched x y) (f : BrokerCore → BrokerCore)
    (bare : ∀ core, (f core).bare = (f core.bare).bare)
    (table : ∀ core, (f core).clients = core.clients) : AlikeCores c touched (f x) (f y) where
  bare := by rw [bare, bare x, alike.bare]
  table := by
    rw [table, table]
    exact alike.table

/-- The same new schedule. -/
theorem rescheduled (alike : AlikeCores c touched x y) (queue : List Job)
    (active : Option ActiveJob) :
    AlikeCores c touched { x with queue, active } { y with queue, active } :=
  alike.update (fun core => { core with queue, active }) (fun _ => Eq.refl _) (fun _ => Eq.refl _)

/-- The same safety action is recorded. -/
theorem noted (alike : AlikeCores c touched x y) (lastSafetyAction : Option String) :
    AlikeCores c touched { x with lastSafetyAction } { y with lastSafetyAction } :=
  alike.update (fun core => { core with lastSafetyAction }) (fun _ => Eq.refl _) (fun _ => Eq.refl _)

/-- Other tables that are alike, and any markers. -/
theorem retabled (alike : AlikeCores c touched x y) {t u : Std.TreeMap ClientId ClientState}
    (table : AlikeTables c touched t u) (applied applied' : Option ClientId) :
    AlikeCores c touched { x with clients := t, appliedProfileClientId := applied }
      { y with clients := u, appliedProfileClientId := applied' } :=
  ⟨alike.bare, table⟩

theorem successor (alike : AlikeCores c touched x y) (one : OnePrimary x) :
    y.successor = x.successor := by
  unfold BrokerCore.successor
  rw [alike.queue]
  rcases alike.foreground one with ⟨none', none''⟩ | ⟨d, client, client', some', some'', _⟩
  · rw [none', none'']
  · rw [some', some'']
    rfl

theorem goesOn (alike : AlikeCores c touched x y) (clock : Nat) :
    AlikeCores c touched (x.startNextOrRestore clock).1 (y.startNextOrRestore clock).1 where
  bare := by rw [bare_startNextOrRestore, bare_startNextOrRestore, alike.bare]
  table := by
    rw [startNextOrRestore_clients, startNextOrRestore_clients]
    exact alike.table

end AlikeCores

/-! ## Configuring -/

section Configuring

variable {core : BrokerCore} {d : ClientId} {command : List UInt8}

/-- A command without a key, or of an unknown client, is refused. -/
theorem apply_unconfigured (refused : profileKey command = none ∨ core.clients[d]? = none) :
    BrokerOp.apply core (.setClientCommand d command) = (core, {}) := by
  have none' : core.setClientCommand d command = none := by
    unfold BrokerCore.setClientCommand
    rcases refused with keyless | unknown
    · rw [keyless]
    · rw [unknown]
      split <;> rfl
  simp only [BrokerOp.apply, none']

/-- Any other one is stored, and written when its client is the idle primary. -/
theorem apply_configured {key : Nat} {client : ClientState} (keyed : profileKey command = some key)
    (known : core.clients[d]? = some client) :
    (BrokerOp.apply core (.setClientCommand d command)).1.clients =
        core.clients.insert d { client with profile := client.profile.insert key command } ∧
      (BrokerOp.apply core (.setClientCommand d command)).1.bare = core.bare ∧
      (BrokerOp.apply core (.setClientCommand d command)).2.actions =
        if core.active.isNone && client.primary then [.write command] else [] := by
  simp only [BrokerOp.apply, BrokerCore.setClientCommand, keyed, known]
  by_cases now : (core.active.isNone && client.primary) = true
  · simp only [now, if_true]
    cases speedPotMinimum command <;> exact ⟨rfl, rfl, trivial⟩
  · rw [Bool.not_eq_true] at now
    simp only [now, Bool.false_eq_true, if_false]
    by_cases marked : core.appliedProfileClientId = some d
    · simp only [marked, if_true]
      exact ⟨trivial, rfl, trivial⟩
    · simp only [marked, if_false]
      exact ⟨trivial, rfl, trivial⟩

end Configuring

/-- A command of another client, under a touched key, is not noticed. -/
theorem AlikeCores.configured {x y : BrokerCore} (alike : AlikeCores c touched x y) {d : ClientId}
    (other : d ≠ c) {command : List UInt8}
    (hidden : ∀ key, profileKey command = some key → touched key) :
    AlikeCores c touched (BrokerOp.apply x (.setClientCommand d command)).1 y := by
  cases keyed : profileKey command with
  | none =>
      rw [apply_unconfigured (Or.inl keyed)]
      exact alike
  | some key =>
      cases known : x.clients[d]? with
      | none =>
          rw [apply_unconfigured (Or.inr known)]
          exact alike
      | some client =>
          obtain ⟨clients, bare, _⟩ := apply_configured keyed known
          refine ⟨by rw [bare, alike.bare], ?_⟩
          rw [clients]
          exact alike.table.hidden other known (hidden key keyed) command

/-! ## One call on both -/

/-- What a call does on alike cores: the same actions, or an ownership boundary on both. -/
inductive Beside (c : ClientId) (touched : Nat → Prop) (op : BrokerOp) (x y : BrokerCore) :
    BrokerCore → List PhysicalAction → BrokerCore → List PhysicalAction → Prop
  | level {x' y' : BrokerCore} {actions : List PhysicalAction} :
      AlikeCores c touched x' y' → Beside c touched op x y x' actions y' actions
  | passed {mid mid' : BrokerCore} {clock : Nat} {ending : List PhysicalAction} :
      AlikeCores c touched mid mid' → Boundary x op mid → Boundary y op mid' → Clearing op ending →
      Beside c touched op x y
        (mid.startNextOrRestore clock).1 (ending ++ (mid.startNextOrRestore clock).2)
        (mid'.startNextOrRestore clock).1 (ending ++ (mid'.startNextOrRestore clock).2)

namespace Beside

variable {x y : BrokerCore}

/-- Both cores stay as they are. -/
theorem aside {op : BrokerOp} (alike : AlikeCores c touched x y) :
    Beside c touched op x y x [] y [] := .level alike

theorem alike {op : BrokerOp} {x' y' : BrokerCore} {actions actions' : List PhysicalAction}
    (beside : Beside c touched op x y x' actions y' actions') : AlikeCores c touched x' y' := by
  cases beside with
  | level alike => exact alike
  | passed alike => exact alike.goesOn _

/-- The boundary of a call that leaves the table alone. -/
theorem passing {op : BrokerOp} {mid mid' : BrokerCore} {ending : List PhysicalAction} (clock : Nat)
    (alike : AlikeCores c touched mid mid') (boundary : Boundary x op mid)
    (clients : mid'.clients = y.clients)
    (applied : mid'.appliedProfileClientId = y.appliedProfileClientId)
    (chunks : Clearing op ending) (connected : y.connected = x.connected) (queue : y.queue = x.queue) :
    Beside c touched op x y
      (mid.startNextOrRestore clock).1 (ending ++ (mid.startNextOrRestore clock).2)
      (mid'.startNextOrRestore clock).1 (ending ++ (mid'.startNextOrRestore clock).2) := by
  refine .passed alike boundary ⟨?_, ?_, ?_, Or.inl ⟨clients, applied⟩⟩ chunks
  · rw [alike.active, boundary.idle]
  · rw [alike.connected, boundary.connected, connected]
  · rw [alike.queue, queue]
    exact boundary.queue

theorem registerClient (alike : AlikeCores c touched x y) (d : ClientId) (primary : Bool) :
    Beside c touched (.registerClient d primary) x y
      (x.registerClient d primary).1 [] (y.registerClient d primary).1 [] := by
  unfold BrokerCore.registerClient
  rw [alike.anyPrimary]
  split
  · exact .aside alike
  · exact .level (alike.retabled (alike.table.insert .rfl) _ _)

theorem unregisterClient (alike : AlikeCores c touched x y) (d : ClientId) (clock : Nat) :
    Beside c touched (.unregisterClient d clock) x y
      (x.unregisterClient d clock).1 (x.unregisterClient d clock).2
      (y.unregisterClient d clock).1 (y.unregisterClient d clock).2 := by
  have erased := alike.retabled (alike.table.erase d) (x.unmarked d) (y.unmarked d)
  unfold BrokerCore.unregisterClient
  rw [alike.active, alike.queue]
  rcases active : x.active with _ | a
  · exact .level (erased.rescheduled _ _)
  by_cases owner : a.job.clientId = d
  · have leaves : x.activeClientId = some d := by simp [activeClientId, active, owner]
    have leaves' : y.activeClientId = some d := by simp [activeClientId, alike.active, active, owner]
    have chunks : Clearing (.unregisterClient d clock)
        ((jobsOf x.queue d).map cancellation ++ [.write [0x0a], cancellation a.job]) := by
      refine ⟨rfl, Or.inr ⟨rfl, Or.inl ?_⟩⟩
      rw [writes_append, writes_cancellations]
      rfl
    have kept : ∀ job ∈ jobsNotOf x.queue d, job ∈ x.queue :=
      fun job kept => List.mem_of_mem_filter kept
    simp only [owner, if_true]
    refine .passed ?_ ?_ ?_ chunks
    · exact (erased.rescheduled _ none).noted _
    · exact ⟨rfl, rfl, fun job mem => Or.inl (kept job mem),
        Or.inr ⟨d, clock, rfl, leaves, rfl, rfl⟩⟩
    · exact ⟨rfl, rfl, fun job mem => Or.inl (alike.queue ▸ kept job mem),
        Or.inr ⟨d, clock, rfl, leaves', rfl, rfl⟩⟩
  · simp only [owner, if_false]
    exact .level (erased.rescheduled _ _)

theorem setClientSpeed (alike : AlikeCores c touched x y) (d : ClientId) (speed : SpeedMode) :
    Beside c touched (.setClientSpeed d speed) x y
      (x.setClientSpeed d speed).1 (x.setClientSpeed d speed).2
      (y.setClientSpeed d speed).1 (y.setClientSpeed d speed).2 := by
  unfold BrokerCore.setClientSpeed
  rcases alike.table.cases d with ⟨unknown, unknown'⟩ | ⟨client, client', known, known', same⟩
  · rw [unknown, unknown']
    exact .aside alike
  · have written : (y.active.isNone && client'.primary) = (x.active.isNone && client.primary) := by
      rw [alike.active, same.primary]
    have table : AlikeTables c touched
        (x.clients.insert d { client with desiredSpeed := speed })
        (y.clients.insert d { client' with desiredSpeed := speed }) :=
      alike.table.insert ⟨rfl, same.primary, same.profile⟩
    rw [known, known']
    simp only [written]
    exact .level (alike.retabled table _ _)

theorem setClientCommand (alike : AlikeCores c touched x y) (d : ClientId) (command : List UInt8) :
    Beside c touched (.setClientCommand d command) x y
      (BrokerOp.apply x (.setClientCommand d command)).1
      (BrokerOp.apply x (.setClientCommand d command)).2.actions
      (BrokerOp.apply y (.setClientCommand d command)).1
      (BrokerOp.apply y (.setClientCommand d command)).2.actions := by
  rcases alike.table.cases d with ⟨unknown, unknown'⟩ | ⟨client, client', known, known', same⟩
  · rw [apply_unconfigured (Or.inr unknown), apply_unconfigured (Or.inr unknown')]
    exact .aside alike
  cases keyed : profileKey command with
  | none =>
      rw [apply_unconfigured (Or.inl keyed), apply_unconfigured (Or.inl keyed)]
      exact .aside alike
  | some key =>
      obtain ⟨clients, bare, actions⟩ := apply_configured keyed known
      obtain ⟨clients', bare', actions'⟩ := apply_configured keyed known'
      rw [actions, actions', alike.active, same.primary]
      refine .level ⟨by rw [bare, bare', alike.bare], ?_⟩
      rw [clients, clients']
      refine alike.table.insert ⟨same.speed, same.primary, fun key' visible => ?_⟩
      rw [Std.TreeMap.getElem?_insert, Std.TreeMap.getElem?_insert, same.profile key' visible]

theorem cancelClient (alike : AlikeCores c touched x y) (d : ClientId) (includeActive : Bool)
    (clock : Nat) :
    Beside c touched (.cancelClient d includeActive clock) x y
      (x.cancelClient d includeActive clock).1 (x.cancelClient d includeActive clock).2
      (y.cancelClient d includeActive clock).1 (y.cancelClient d includeActive clock).2 := by
  unfold BrokerCore.cancelClient
  rw [alike.active, alike.queue, alike.isPrimary d]
  rcases active : x.active with _ | a
  · simp only []
    split
    · exact .level (alike.rescheduled _ _)
    · exact .level (alike.rescheduled _ _)
  · simp only []
    split
    · refine .passing clock ?_ ?_ rfl rfl ⟨rfl, Or.inr ⟨rfl, Or.inl ?_⟩⟩ alike.connected alike.queue
      · exact alike.rescheduled _ none
      · exact ⟨rfl, rfl, fun job kept => Or.inl (List.mem_of_mem_filter kept), Or.inl ⟨rfl, rfl⟩⟩
      · rw [writes_append]
        exact congrArg ([0x0a] :: · ++ []) (writes_cancellations _)
    · exact .level (alike.rescheduled _ _)

theorem cancelJob (alike : AlikeCores c touched x y) (d : ClientId) (jobId clock : Nat) :
    Beside c touched (.cancelJob d jobId clock) x y
      (x.cancelJob d jobId clock).1 (x.cancelJob d jobId clock).2.2
      (y.cancelJob d jobId clock).1 (y.cancelJob d jobId clock).2.2 := by
  unfold BrokerCore.cancelJob
  rw [alike.active, alike.queue]
  split
  · refine .passing clock ?_ ?_ rfl rfl ⟨rfl, Or.inr ⟨rfl, Or.inl rfl⟩⟩ alike.connected alike.queue
    · exact alike.rescheduled _ none
    · exact ⟨rfl, rfl, fun _ => Or.inl, Or.inl ⟨rfl, rfl⟩⟩
  · exact .level (alike.rescheduled _ _)

theorem emergencyStop (alike : AlikeCores c touched x y) (op : BrokerOp) (passes : op.passes = true)
    (clears : op.clears = true) (reason : String) :
    Beside c touched op x y (x.emergencyStop reason).1 (x.emergencyStop reason).2
      (y.emergencyStop reason).1 (y.emergencyStop reason).2 := by
  let ending : List PhysicalAction := .write [0x0a, 0x0b, 0x00] ::
    (x.active.toList.map (fun active => cancellation active.job) ++ x.queue.map cancellation)
  have chunks : writes ending = [[0x0a, 0x0b, 0x00]] := by
    have jobs : writes (x.active.toList.map (fun active => cancellation active.job)) = [] := by
      cases x.active <;> rfl
    show [0x0a, 0x0b, 0x00] :: writes (_ ++ _) = _
    rw [writes_append, writes_cancellations, jobs]
    rfl
  let halted (core : BrokerCore) : BrokerCore :=
    { core with active := none, queue := [], lastSafetyAction := some reason }
  -- With an empty queue, going on is restoring the foreground.
  have passed := @passing c touched x y op (halted x) (halted y) ending 0
    ⟨congrArg halted alike.bare, alike.table⟩
    ⟨rfl, rfl, fun _ queued => (List.not_mem_nil queued).elim, Or.inl ⟨rfl, rfl⟩⟩ rfl rfl
    ⟨passes, Or.inr ⟨clears, Or.inr chunks⟩⟩ alike.connected alike.queue
  unfold BrokerCore.emergencyStop
  rw [alike.active, alike.queue]
  exact passed

/-- The active job ends, from cores that have the settings of those before the call. -/
theorem completeActive {x' y' : BrokerCore} (op : BrokerOp) (passes : op.passes = true)
    (silent : op.clears = false) (clock : Nat) (alike' : AlikeCores c touched x' y')
    (same : SameSettings x x') (same' : SameSettings y y') (queue : x'.queue = x.queue)
    (queue' : y.queue = x.queue) (link : y.connected = x.connected) :
    Beside c touched op x y (x'.completeActive clock).1 (x'.completeActive clock).2
      (y'.completeActive clock).1 (y'.completeActive clock).2 := by
  unfold BrokerCore.completeActive
  rw [alike'.active]
  rcases x'.active with _ | a
  · exact .level alike'
  · have chunks : Clearing op [.completed a.job.id a.job.clientId] := ⟨passes, Or.inl ⟨silent, rfl⟩⟩
    have ended := alike'.update (fun core => { core with active := none }) (fun _ => rfl) (fun _ => rfl)
    have boundary : Boundary x op { x' with active := none } :=
      ⟨rfl, same.connected, fun job queued => Or.inl (queue ▸ queued),
        Or.inl ⟨same.clients, same.applied⟩⟩
    exact passing clock ended boundary same'.clients same'.applied chunks link queue'

theorem observeStatus (alike : AlikeCores c touched x y) (status : DeviceStatus) (clock : Nat) :
    Beside c touched (.observeStatus status clock) x y
      (x.observeStatus status clock).1 (x.observeStatus status clock).2
      (y.observeStatus status clock).1 (y.observeStatus status clock).2 := by
  have seen : ∀ active, AlikeCores c touched { x with status, active } { y with status, active } :=
    fun active => ⟨congrArg (fun b : BrokerCore => { b with status, active }) alike.bare, alike.table⟩
  unfold BrokerCore.observeStatus
  rw [alike.active]
  rcases active : x.active with _ | a
  · exact .level (seen _)
  · simp only []
    split
    · exact .level (seen _)
    · split
      · refine completeActive _ rfl rfl clock (seen _) ?_ ?_ rfl alike.queue alike.connected
        · exact ⟨rfl, rfl, rfl, by simp [activeClientId, active]⟩
        · exact ⟨rfl, rfl, rfl, by simp [activeClientId, alike.active, active]⟩
      · exact .level (seen _)

theorem confirmIdleAfterSettle (alike : AlikeCores c touched x y) (now settle clock : Nat) :
    Beside c touched (.confirmIdleAfterSettle now settle clock) x y
      (x.confirmIdleAfterSettle now settle clock).1 (x.confirmIdleAfterSettle now settle clock).2
      (y.confirmIdleAfterSettle now settle clock).1
      (y.confirmIdleAfterSettle now settle clock).2 := by
  have status : y.status = x.status := alike.read BrokerCore.status (fun _ => rfl)
  unfold BrokerCore.confirmIdleAfterSettle
  rw [alike.active, status]
  split
  · exact completeActive _ rfl rfl clock alike .rfl .rfl rfl alike.queue alike.connected
  · exact .aside alike

theorem watchdog (alike : AlikeCores c touched x y) (now : Nat) :
    Beside c touched (.watchdog now) x y (x.watchdog now).1 (x.watchdog now).2
      (y.watchdog now).1 (y.watchdog now).2 := by
  have maxTx : y.maxTx = x.maxTx := alike.read BrokerCore.maxTx (fun _ => rfl)
  unfold BrokerCore.watchdog
  rw [alike.active, maxTx]
  split
  · exact emergencyStop alike _ rfl rfl _
  · exact .aside alike

theorem activeOwnerCommand (alike : AlikeCores c touched x y) (d : ClientId) (command : List UInt8) :
    Beside c touched (.activeOwnerCommand d command) x y
      x ((x.activeOwnerCommand d command).getD []) y ((y.activeOwnerCommand d command).getD []) := by
  unfold BrokerCore.activeOwnerCommand
  rw [alike.active, alike.isPrimary d]
  exact .level alike

end Beside

/-- What becomes of a payload on alike cores: both refuse it, or both take it. -/
inductive Taken (c : ClientId) (touched : Nat → Prop) (op : BrokerOp) (x y : BrokerCore) :
    Option (BrokerCore × Nat × List PhysicalAction) →
    Option (BrokerCore × Nat × List PhysicalAction) → Prop
  | refused : Taken c touched op x y none none
  | accepted {x' y' : BrokerCore} {jobId : Nat} {actions actions' : List PhysicalAction} :
      Beside c touched op x y x' actions y' actions' →
      Taken c touched op x y (some (x', jobId, actions)) (some (y', jobId, actions'))

namespace Taken

variable {x y : BrokerCore}

theorem growActive (alike : AlikeCores c touched x y) (op : BrokerOp) (a : ActiveJob)
    (payload : TransmitPayload) :
    Taken c touched op x y (x.growActive a payload) (y.growActive a payload) := by
  unfold BrokerCore.growActive
  by_cases long : a.job.payload.wireBytes.length + payload.wireBytes.length > maxJobBytes
  · rw [if_pos long, if_pos long]
    exact .refused
  · rw [if_neg long, if_neg long]
    let grown : ActiveJob := { a with job := a.job.grow payload }
    exact .accepted (.level (alike.update (fun core => { core with active := some grown })
      (fun _ => rfl) (fun _ => rfl)))

theorem growTail (alike : AlikeCores c touched x y) (op : BrokerOp) (queued : Job)
    (payload : TransmitPayload) :
    Taken c touched op x y (x.growTail queued payload) (y.growTail queued payload) := by
  unfold BrokerCore.growTail
  by_cases long : queued.payload.wireBytes.length + payload.wireBytes.length > maxJobBytes
  · rw [if_pos long, if_pos long]
    exact .refused
  · rw [if_neg long, if_neg long]
    exact .accepted (.level (alike.update
      (fun core => { core with queue := core.queue.dropLast ++ [queued.grow payload] })
      (fun _ => rfl) (fun _ => rfl)))

theorem openJob (alike : AlikeCores c touched x y) (d : ClientId) (payload : TransmitPayload)
    (speed : Option SpeedMode) (pace : SpeedMode) (stream : Bool) (now clock : Nat) :
    Taken c touched (.enqueue d payload speed stream now clock) x y
      (x.openJob d payload pace stream now clock) (y.openJob d payload pace stream now clock) := by
  have next : y.nextJobId = x.nextJobId := alike.read BrokerCore.nextJobId (fun _ => rfl)
  unfold BrokerCore.openJob
  rw [alike.queue, alike.active, next]
  by_cases full : x.queue.length ≥ maxQueuedJobs
  · rw [if_pos full, if_pos full]
    exact .refused
  rw [if_neg full, if_neg full]
  let job : Job := { id := x.nextJobId, clientId := d, payload, speed := pace, queuedAt := now, stream }
  let nextJobId := min (x.nextJobId + 1) u64Max
  let queue := x.queue ++ [job]
  have queued := alike.update (fun core => { core with active := x.active, nextJobId, queue })
    (fun _ => rfl) (fun _ => rfl)
  by_cases idle : x.active.isNone = true
  · have boundary : Boundary x (.enqueue d payload speed stream now clock)
        { x with nextJobId, queue } := by
      refine ⟨Option.isNone_iff_eq_none.mp idle, rfl, ?_, Or.inl ⟨rfl, rfl⟩⟩
      intro job mem
      rcases List.mem_append.mp mem with waiting | last
      · exact Or.inl waiting
      · obtain rfl := List.mem_singleton.mp last
        exact Or.inr ⟨speed, now, clock, rfl⟩
    have chunks : Clearing (.enqueue d payload speed stream now clock) [] :=
      ⟨rfl, Or.inl ⟨rfl, rfl⟩⟩
    rw [if_pos idle, if_pos idle]
    exact .accepted (@Beside.passing c touched x y _ _ _ [] clock queued boundary rfl rfl chunks
      alike.connected alike.queue)
  · rw [if_neg idle, if_neg idle]
    exact .accepted (.level queued)

theorem enqueue (alike : AlikeCores c touched x y) (d : ClientId) (payload : TransmitPayload)
    (speed : Option SpeedMode) (stream : Bool) (now clock : Nat) :
    Taken c touched (.enqueue d payload speed stream now clock) x y
      (x.enqueue d payload speed stream now clock) (y.enqueue d payload speed stream now clock) := by
  have active : y.activeStream? d = x.activeStream? d := by
    unfold activeStream?
    rw [alike.active]
  have tail : y.tailStream? d = x.tailStream? d := by
    unfold tailStream?
    rw [alike.queue]
  unfold BrokerCore.enqueue
  rw [alike.connected, active, tail]
  by_cases refused : (payload.wireBytes.isEmpty || decide (payload.wireBytes.length > maxJobBytes) ||
      !x.connected) = true
  · rw [if_pos refused, if_pos refused]
    exact .refused
  rw [if_neg refused, if_neg refused]
  rcases alike.table.cases d with ⟨unknown, unknown'⟩ | ⟨client, client', known, known', same⟩
  · rw [unknown, unknown']
    exact .refused
  rw [known, known']
  simp only [same.speed]
  rcases (if stream = true then x.activeStream? d else none) with _ | joined
  · rcases (if stream = true then x.tailStream? d else none) with _ | queued
    · exact openJob alike d payload speed _ stream now clock
    · exact growTail alike _ queued payload
  · exact growActive alike _ joined payload

end Taken

/-- **Alike cores go the same way.** -/
theorem apply_beside {x y : BrokerCore} (alike : AlikeCores c touched x y) {op : BrokerOp}
    (within : op.within = true) :
    Beside c touched op x y (op.apply x).1 (op.apply x).2.actions
      (op.apply y).1 (op.apply y).2.actions := by
  cases op with
  | connectPhysical | physicalError | restoreForeground => cases within
  | recordSafetyAction action => exact .level (alike.noted _)
  | observePot value =>
      exact .level ⟨congrArg (fun b : BrokerCore => { b with potValue := some value }) alike.bare,
        alike.table⟩
  | registerClient d primary => exact .registerClient alike d primary
  | unregisterClient d clock => exact .unregisterClient alike d clock
  | setClientSpeed d speed => exact .setClientSpeed alike d speed
  | setClientCommand d command => exact .setClientCommand alike d command
  | activeOwnerCommand d command => exact .activeOwnerCommand alike d command
  | enqueue d payload speed stream now clock =>
      have taken := Taken.enqueue alike d payload speed stream now clock
      simp only [BrokerOp.apply]
      revert taken
      generalize x.enqueue d payload speed stream now clock = left
      generalize y.enqueue d payload speed stream now clock = right
      intro taken
      cases taken with
      | refused => exact .aside alike
      | accepted beside => exact beside
  | cancelClient d includeActive clock => exact .cancelClient alike d includeActive clock
  | cancelJob d jobId clock => exact .cancelJob alike d jobId clock
  | emergencyStop reason => exact .emergencyStop alike _ rfl rfl reason
  | observeStatus status clock => exact .observeStatus alike status clock
  | confirmIdleAfterSettle now settle clock => exact .confirmIdleAfterSettle alike now settle clock
  | watchdog now => exact .watchdog alike now

theorem apply_alike {x y : BrokerCore} (alike : AlikeCores c touched x y) (op : BrokerOp) :
    AlikeCores c touched (op.apply x).1 (op.apply y).1 := by
  cases within : op.within with
  | true => exact (apply_beside alike within).alike
  | false =>
      cases op with
      | connectPhysical firmware =>
          exact alike.update (·.connectPhysical firmware) (fun _ => rfl) (fun _ => rfl)
      | physicalError message =>
          exact alike.update (fun core => (core.physicalError message).1) (fun _ => rfl) (fun _ => rfl)
      | restoreForeground => exact ⟨alike.bare, alike.table⟩
      | _ => cases within

theorem AlikeCores.afterCalls {x y : BrokerCore} (alike : AlikeCores c touched x y)
    (ops : List BrokerOp) : AlikeCores c touched (x.afterCalls ops) (y.afterCalls ops) := by
  induction ops generalizing x y with
  | nil => exact alike
  | cons op ops ih => exact ih (apply_alike alike op)

end CatHub.WinKeyer
