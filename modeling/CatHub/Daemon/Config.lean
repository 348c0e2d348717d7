/-
# CatHub.Daemon.Config — the configuration of the daemon and its validation.

The sections that `Config.validate` looks at, with the checks in the source's order and the texts of
their errors.  The parser of `api_bind` is the standard library's; it enters as a parameter that says
whether the text is a socket address and, if so, whether the address is a loopback one.

`compared_of_validate` collects what an accepted configuration is known to have as far as its ports go.
-/
import CatHub.Systems.Results
import CatHub.Radio.Ts590

namespace CatHub.Daemon

open CatHub.Systems
open CatHub.Radio.Ts590 (trim)

/-! ## Sections -/

structure RadioConfig where
  backend : String
  transport : String := "serial"
  port : String := ""

structure SerialEndpointConfig where
  name : String
  transport : String
  applicationTransport : Option String := none
  dialect : String
  singleVfo : Bool := false

structure HamlibNetConfig where
  name : String
  bind : String

structure WinkeyerConfig where
  port : String
  baud : Nat := 1200
  maxTxMs : Nat := 30000
  apiBind : String := "127.0.0.1:50071"

structure WinkeyerEndpointConfig where
  name : String
  transport : String
  applicationTransport : Option String := none
  baud : Nat := 1200
  primary : Bool := false
  perms : List String := []

structure Config where
  radio : RadioConfig
  serialEndpoint : List SerialEndpointConfig := []
  hamlibNet : List HamlibNetConfig := []
  winkeyer : Option WinkeyerConfig := none
  winkeyerEndpoint : List WinkeyerEndpointConfig := []

inductive ConfigError where
  | io
  | parse
  | serialize
  | invalid (message : String)
  deriving DecidableEq, Repr

/-! ## Names -/

/-- `eq_ignore_ascii_case`. -/
def eqIgnoreAsciiCase (a b : List Char) : Bool := a.map Char.toLower == b.map Char.toLower

/-- Two texts that name one Windows port: equal but for ASCII case and surrounding white space. -/
def samePort (a b : String) : Bool := eqIgnoreAsciiCase (trim a.toList) (trim b.toList)

/-! ## Validation -/

/-- The application side of a pair is the hub side. -/
def applicationIsHub (application : Option String) (transport : String) : Bool :=
  application.any (fun application => samePort application transport)

def validateSerialEndpoint (endpoint : SerialEndpointConfig) : Except ConfigError Unit := do
  reject (applicationIsHub endpoint.applicationTransport endpoint.transport)
    (.invalid ("endpoint '" ++ endpoint.name ++
      "' application_transport must differ from transport"))
  reject (endpoint.dialect ∉ ["ts590", "ts590-transparent", "ts2000"])
    (.invalid ("endpoint '" ++ endpoint.name ++ "' has unknown dialect '" ++ endpoint.dialect ++
      "' (expected ts590, ts590-transparent, or ts2000)"))
  reject (endpoint.dialect == "ts590-transparent" && endpoint.singleVfo)
    (.invalid ("endpoint '" ++ endpoint.name ++
      "' combines dialect 'ts590-transparent' with single_vfo = true; a transparent mirror " ++
      "endpoint relays the radio's real dual-VFO stream verbatim and cannot virtualize the " ++
      "operating VFO"))

def validateWinkeyerEndpoint (endpoint : WinkeyerEndpointConfig) : Except ConfigError Unit := do
  let has := fun permission : String => endpoint.perms.contains permission
  let subject := "winkeyer endpoint '" ++ endpoint.name ++ "'"
  reject (trim endpoint.transport.toList).isEmpty (.invalid (subject ++ " requires transport"))
  reject (endpoint.baud != 1200) (.invalid (subject ++ " baud must be 1200"))
  reject (applicationIsHub endpoint.applicationTransport endpoint.transport)
    (.invalid (subject ++ " application_transport must differ from transport"))
  forM endpoint.perms (fun permission =>
    reject (permission ∉ ["status", "send", "control", "ptt", "config_write"])
      (.invalid (subject ++ " has unknown permission '" ++ permission ++ "'")))
  reject (has "send" && !has "status")
    (.invalid (subject ++ " permission 'send' requires 'status'"))
  reject (has "ptt" && (!has "send" || !has "control"))
    (.invalid (subject ++ " permission 'ptt' requires 'send' and 'control'"))
  reject (has "config_write" && (!has "status" || !has "control"))
    (.invalid (subject ++ " permission 'config_write' requires 'status' and 'control'"))

/-- The loop over the WinKeyer endpoints, with the set of the transports so far. -/
def validateTransports (transports : List (List Char)) :
    List WinkeyerEndpointConfig → Except ConfigError Unit
  | [] => .ok ()
  | endpoint :: rest => do
      validateWinkeyerEndpoint endpoint
      let normalized := endpoint.transport.toList.map Char.toUpper
      reject (transports.contains normalized)
        (.invalid "winkeyer endpoint transports must be distinct")
      validateTransports (normalized :: transports) rest

namespace Config

section Bind

-- The standard library's parse of a socket address: is the address a loopback one?
variable (parseBind : String → Option Bool)

def validateWinkeyer (config : Config) : Except ConfigError Unit :=
  match config.winkeyer with
  | none =>
      reject (!config.winkeyerEndpoint.isEmpty)
        (.invalid "[[winkeyer_endpoint]] requires a [winkeyer] physical device section")
  | some winkeyer => do
      reject (trim winkeyer.port.toList).isEmpty (.invalid "winkeyer.port must not be empty")
      reject (winkeyer.baud != 1200)
        (.invalid "winkeyer.baud must be 1200; high-baud session switching is not broker-safe")
      reject (!(1000 ≤ winkeyer.maxTxMs && winkeyer.maxTxMs ≤ 300000))
        (.invalid "winkeyer.max_tx_ms must be between 1000 and 300000")
      reject (parseBind winkeyer.apiBind).isNone
        (.invalid "winkeyer.api_bind must be a host:port socket address")
      reject (parseBind winkeyer.apiBind == some false)
        (.invalid "winkeyer.api_bind must use a loopback address")
      reject (eqIgnoreAsciiCase winkeyer.port.toList config.radio.port.toList)
        (.invalid "winkeyer.port must be distinct from radio.port")
      reject (1 < config.winkeyerEndpoint.countP (fun endpoint => endpoint.primary))
        (.invalid "at most one [[winkeyer_endpoint]] may set primary = true")
      validateTransports [] config.winkeyerEndpoint

def validate (config : Config) : Except ConfigError Unit := do
  reject (config.radio.backend ∉ ["ts590", "rigctld", "loopback"])
    (.invalid ("unknown radio.backend '" ++ config.radio.backend ++
      "' (expected ts590, rigctld, or loopback)"))
  (if config.radio.backend = "loopback" then .ok ()
    else if config.radio.transport = "serial" then
      reject config.radio.port.isEmpty
        (.invalid "radio.transport = \"serial\" requires radio.port")
    else
      reject (config.radio.transport ≠ "tcp")
        (.invalid ("unknown radio.transport '" ++ config.radio.transport ++
          "' (expected serial or tcp)")))
  forM config.serialEndpoint validateSerialEndpoint
  reject (config.serialEndpoint.isEmpty && config.hamlibNet.isEmpty)
    (.invalid "at least one [[serial_endpoint]] or [[hamlib_net]] endpoint is required")
  config.validateWinkeyer parseBind

end Bind

/-! ## What validation says of the ports -/

/-- The pairs of ports that validation compares differ by more than ASCII case. -/
structure Compared (config : Config) : Prop where
  radio : ∀ winkeyer ∈ config.winkeyer,
    eqIgnoreAsciiCase winkeyer.port.toList config.radio.port.toList = false
  endpoints : config.winkeyerEndpoint.Pairwise (fun a b =>
    a.transport.toList.map Char.toUpper ≠ b.transport.toList.map Char.toUpper)
  orphans : config.winkeyer = none → config.winkeyerEndpoint = []

end Config

theorem distinct_of_validateTransports {transports : List (List Char)}
    {endpoints : List WinkeyerEndpointConfig}
    (accepted : validateTransports transports endpoints = .ok ()) :
    (∀ e ∈ endpoints, e.transport.toList.map Char.toUpper ∉ transports) ∧
      endpoints.Pairwise (fun a b =>
        a.transport.toList.map Char.toUpper ≠ b.transport.toList.map Char.toUpper) := by
  induction endpoints generalizing transports with
  | nil => exact ⟨List.forall_mem_nil _, .nil⟩
  | cons endpoint rest ih =>
      rw [validateTransports, seq_eq_ok, seq_eq_ok, reject_eq_ok] at accepted
      obtain ⟨-, new, later⟩ := accepted
      obtain ⟨fresh, distinct⟩ := ih later
      have absent : endpoint.transport.toList.map Char.toUpper ∉ transports := by
        simpa using new
      refine ⟨List.forall_mem_cons.mpr ⟨absent, fun e mem => ?_⟩, .cons (fun e mem => ?_) distinct⟩
      · exact fun here => fresh e mem (List.mem_cons_of_mem _ here)
      · exact fun same => fresh e mem (same ▸ List.mem_cons_self)

theorem Config.compared_of_validate {parseBind : String → Option Bool} {config : Config}
    (accepted : config.validate parseBind = .ok ()) : config.Compared := by
  simp only [validate, seq_eq_ok] at accepted
  have keyer : config.validateWinkeyer parseBind = .ok () := accepted.2.2.2.2
  unfold validateWinkeyer at keyer
  split at keyer
  · rename_i none_
    have orphans : config.winkeyerEndpoint = [] := by
      simpa using reject_eq_ok.mp keyer
    refine ⟨?_, orphans ▸ .nil, fun _ => orphans⟩
    rw [none_]
    exact nofun
  · rename_i winkeyer some_
    simp only [seq_eq_ok, reject_eq_ok] at keyer
    refine ⟨?_, (distinct_of_validateTransports keyer.2.2.2.2.2.2.2).2, ?_⟩
    · rintro _ mem
      cases some_.symm.trans mem
      exact keyer.2.2.2.2.2.1
    · rw [some_]
      exact nofun

end CatHub.Daemon
