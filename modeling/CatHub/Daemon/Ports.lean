/-
# CatHub.Daemon.Ports — which ports of an accepted configuration may coincide.

The hub opens the radio's port, the keyer's port and the hub side of every virtual pair.  Validation
compares two families of these pairs, the keyer's port with the radio's and the WinKeyer transports with
each other, and both without trimming.  The other families are not compared at all.

`ports_distinct_iff` is exact: an accepted configuration opens no port twice if and only if it is
`Unshared`, which speaks of the pairs that validation leaves out and of those that it would tell apart
by white space alone.
-/
import Mathlib
import CatHub.Daemon.Config

namespace CatHub.Daemon

/-! ## Opened ports -/

namespace Config

/-- The serial port of the radio, where the backend opens one. -/
def radioPort (config : Config) : Option String :=
  if config.radio.backend ≠ "loopback" ∧ config.radio.transport = "serial" then
    some config.radio.port
  else none

/-- Every port that the hub opens. -/
def openedPorts (config : Config) : List String :=
  config.radioPort.toList ++ (config.winkeyer.toList.map (·.port) ++
    (config.serialEndpoint.map (·.transport) ++ config.winkeyerEndpoint.map (·.transport)))

/-- No two of the ports are one as Windows names them. -/
def PortsDistinct (config : Config) : Prop :=
  config.openedPorts.Pairwise (fun a b => samePort a b = false)

end Config

/-- Two spellings of one port that differ in white space around it. -/
def padded (a b : String) : Bool := samePort a b && !eqIgnoreAsciiCase a.toList b.toList

/-- The condition on the ports that validation does not check. -/
structure Config.Unshared (config : Config) : Prop where
  serialSerial : config.serialEndpoint.Pairwise (fun a b => samePort a.transport b.transport = false)
  radioSerial : ∀ p ∈ config.radioPort, ∀ e ∈ config.serialEndpoint, samePort p e.transport = false
  radioVirtual : ∀ p ∈ config.radioPort, ∀ v ∈ config.winkeyerEndpoint,
    samePort p v.transport = false
  keyerSerial : ∀ w ∈ config.winkeyer, ∀ e ∈ config.serialEndpoint,
    samePort w.port e.transport = false
  keyerVirtual : ∀ w ∈ config.winkeyer, ∀ v ∈ config.winkeyerEndpoint,
    samePort w.port v.transport = false
  serialVirtual : ∀ e ∈ config.serialEndpoint, ∀ v ∈ config.winkeyerEndpoint,
    samePort e.transport v.transport = false
  radioKeyer : ∀ p ∈ config.radioPort, ∀ w ∈ config.winkeyer, padded p w.port = false
  virtualVirtual : config.winkeyerEndpoint.Pairwise (fun a b =>
    padded a.transport b.transport = false)

/-! ## The pairs that validation compares -/

theorem eqIgnoreAsciiCase_comm (a b : List Char) :
    eqIgnoreAsciiCase a b = eqIgnoreAsciiCase b a := BEq.comm

/-- Equal but for case is equal in upper case. -/
theorem upper_of_eqIgnoreAsciiCase {a b : List Char} (same : eqIgnoreAsciiCase a b = true) :
    a.map Char.toUpper = b.map Char.toUpper := by
  have lower : a.map Char.toLower = b.map Char.toLower := by
    simpa [eqIgnoreAsciiCase] using same
  have upper := congrArg (List.map Char.toUpper) lower
  simpa only [List.map_map, Function.comp_def, Char.toUpper_toLower_eq_toUpper] using upper

/-- A pair that differs by more than case is one port only when it is padded. -/
theorem padded_iff {a b : String} (different : eqIgnoreAsciiCase a.toList b.toList = false) :
    padded a b = samePort a b := by
  rw [padded, different, Bool.not_false, Bool.and_true]

namespace Config

variable {config : Config}

theorem Compared.radioKeyer (compared : config.Compared) :
    ∀ p ∈ config.radioPort, ∀ w ∈ config.winkeyer, padded p w.port = samePort p w.port := by
  intro p here w mem
  unfold radioPort at here
  split at here
  · cases here
    refine padded_iff ?_
    rw [eqIgnoreAsciiCase_comm]
    exact compared.radio w mem
  · cases here

theorem Compared.virtualVirtual (compared : config.Compared) :
    config.winkeyerEndpoint.Pairwise (fun a b =>
      padded a.transport b.transport = samePort a.transport b.transport) := by
  refine compared.endpoints.imp (fun different => padded_iff ?_)
  exact Bool.eq_false_iff.mpr (fun same => different (upper_of_eqIgnoreAsciiCase same))

/-! ## The exact condition -/

/-- Distinct ports, one family of pairs at a time. -/
theorem portsDistinct_iff : config.PortsDistinct ↔
    (∀ p ∈ config.radioPort, ∀ w ∈ config.winkeyer, samePort p w.port = false) ∧
    (∀ p ∈ config.radioPort, ∀ e ∈ config.serialEndpoint, samePort p e.transport = false) ∧
    (∀ p ∈ config.radioPort, ∀ v ∈ config.winkeyerEndpoint, samePort p v.transport = false) ∧
    (∀ w ∈ config.winkeyer, ∀ e ∈ config.serialEndpoint, samePort w.port e.transport = false) ∧
    (∀ w ∈ config.winkeyer, ∀ v ∈ config.winkeyerEndpoint, samePort w.port v.transport = false) ∧
    (∀ e ∈ config.serialEndpoint, ∀ v ∈ config.winkeyerEndpoint,
      samePort e.transport v.transport = false) ∧
    config.serialEndpoint.Pairwise (fun a b => samePort a.transport b.transport = false) ∧
    config.winkeyerEndpoint.Pairwise (fun a b => samePort a.transport b.transport = false) := by
  have single {α : Type} (r : α → α → Prop) (o : Option α) : o.toList.Pairwise r := by
    cases o <;> simp
  unfold PortsDistinct openedPorts
  simp only [List.pairwise_append, List.pairwise_map, List.mem_append, List.mem_map,
    Option.mem_toList, single, true_and]
  constructor
  · rintro ⟨⟨⟨serial, virtual, cross⟩, keyer⟩, radio⟩
    exact ⟨fun p here w mem => radio p here _ (.inl ⟨w, mem, rfl⟩),
      fun p here e mem => radio p here _ (.inr (.inl ⟨e, mem, rfl⟩)),
      fun p here v mem => radio p here _ (.inr (.inr ⟨v, mem, rfl⟩)),
      fun w here e mem => keyer _ ⟨w, here, rfl⟩ _ (.inl ⟨e, mem, rfl⟩),
      fun w here v mem => keyer _ ⟨w, here, rfl⟩ _ (.inr ⟨v, mem, rfl⟩),
      fun e here v mem => cross _ ⟨e, here, rfl⟩ _ ⟨v, mem, rfl⟩, serial, virtual⟩
  · rintro ⟨rw_, rs, rv, ks, kv, sv, serial, virtual⟩
    refine ⟨⟨⟨serial, virtual, ?_⟩, ?_⟩, ?_⟩
    · rintro _ ⟨e, here, rfl⟩ _ ⟨v, mem, rfl⟩
      exact sv e here v mem
    · rintro _ ⟨w, here, rfl⟩ _ (⟨e, mem, rfl⟩ | ⟨v, mem, rfl⟩)
      · exact ks w here e mem
      · exact kv w here v mem
    · rintro p here _ (⟨w, mem, rfl⟩ | ⟨e, mem, rfl⟩ | ⟨v, mem, rfl⟩)
      · exact rw_ p here w mem
      · exact rs p here e mem
      · exact rv p here v mem

/-- An accepted configuration opens no port twice exactly when it is unshared. -/
theorem ports_distinct_iff (parseBind : String → Option Bool) (config : Config)
    (accepted : config.validate parseBind = .ok ()) : config.PortsDistinct ↔ config.Unshared := by
  have compared := compared_of_validate accepted
  have radioKeyer := compared.radioKeyer
  have virtual := compared.virtualVirtual
  rw [portsDistinct_iff]
  constructor
  · rintro ⟨keyer, rs, rv, ks, kv, sv, serial, distinct⟩
    exact ⟨serial, rs, rv, ks, kv, sv,
      fun p here w mem => (radioKeyer p here w mem).trans (keyer p here w mem),
      virtual.imp₂ (fun _ _ same apart => same.trans apart) distinct⟩
  · rintro ⟨serial, rs, rv, ks, kv, sv, keyer, distinct⟩
    exact ⟨fun p here w mem => (radioKeyer p here w mem).symm.trans (keyer p here w mem),
      rs, rv, ks, kv, sv, serial, virtual.imp₂ (fun _ _ same apart => same.symm.trans apart) distinct⟩

/-! ## A shared port -/

/-- The socket address of the examples, which is a loopback one. -/
def exampleBind (bind : String) : Option Bool :=
  if bind = "127.0.0.1:50071" then some true else none

/-- A station whose ports are all different. -/
def station : Config where
  radio := { backend := "ts590", port := "COM4" }
  serialEndpoint := [{ name := "n1mm", transport := "COM20", dialect := "ts590" }]
  winkeyer := some { port := "COM3" }
  winkeyerEndpoint := [{ name := "wktools", transport := "COM40" },
    { name := "n1mm", transport := "COM42" }]

theorem ports_distinct_iff_station :
    station.validate exampleBind = .ok () ∧ station.PortsDistinct := by
  have accepted : station.validate exampleBind = .ok () := by decide
  have unshared : station.Unshared :=
    ⟨by decide, by decide, by decide, by decide, by decide, by decide, by decide, by decide⟩
  exact ⟨accepted, (ports_distinct_iff exampleBind station accepted).mpr unshared⟩

/-- A station that serves a virtual WinKeyer on the keyer's own port. -/
def sharedKeyer : Config where
  radio := { backend := "loopback" }
  hamlibNet := [{ name := "engine", bind := "127.0.0.1:4532" }]
  winkeyer := some { port := "COM3" }
  winkeyerEndpoint := [{ name := "wktools", transport := "COM3" }]

theorem ports_not_distinct :
    sharedKeyer.validate exampleBind = .ok () ∧ ¬ sharedKeyer.PortsDistinct := by
  refine ⟨by decide, ?_⟩
  rw [portsDistinct_iff]
  decide

end Config

end CatHub.Daemon
