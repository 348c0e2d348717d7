/-
# CatHub.WinKeyer.Brokerage — the endpoints and the actor together.

Every endpoint handles its reads one after another, as the program of `ReadPath`, and the actor serves
one request at a time.  In between anything else may happen: other endpoints go on, typed jobs come in,
the device answers, the transport is lost and reopened.  An endpoint waits for the answer to a request
before it goes on, so that sending, serving and answering are one step here.

Registering, leaving and the requests of the typed interface other than its texts come from outside.
-/
import CatHub.WinKeyer.Freshness
import CatHub.WinKeyer.ReadPath
import CatHub.WinKeyer.TypedText

namespace CatHub.WinKeyer

open Systems ReadPath

/-! ## Requests of an endpoint -/

/-- What an endpoint sends to the actor. -/
def ReadPath.Ask.request (clientId : ClientId) : Ask → Option Request
  | .stream controlPrefix text =>
      some (.enqueue clientId (.legacyStream controlPrefix text) none true)
  | .cancel => some (.cancel clientId true)
  | .setSpeed speed => some (.setSpeed clientId speed)
  | .configure command => some (.configure clientId command)
  | .activeOwnerCommand command => some (.activeOwnerCommand clientId command)
  | .maintenanceCommand command => some (.maintenanceCommand clientId command)
  | .releaseMaintenance => some (.releaseMaintenance clientId)
  | .snapshot | .write _ => none

/-- The answer to a question, when a request is accepted or a byte taken, and when this is the published
snapshot. -/
def ReadPath.Ask.answer (accepted : Bool) (published : BrokerSnapshot) : (q : Ask) → q.Answer
  | .snapshot => published
  | .stream _ _ | .cancel | .setSpeed _ | .configure _ | .activeOwnerCommand _ | .maintenanceCommand _
  | .releaseMaintenance | .write _ => accepted

/-- A request that is answered and not refused. -/
def Observation.grants (o : Observation) : Bool :=
  match o.reply with
  | none | some (.refused _) => false
  | some _ => true

/-! ## The machine -/

/-- A virtual endpoint, and what it has left to do of the read that it handles. -/
structure VirtualEndpoint where
  permissions : EndpointPermissions
  task : Call (Option EndpointSession)

structure Brokerage where
  keyer : Actor
  endpoints : ClientId → Option VirtualEndpoint := fun _ => none

inductive BrokerageInput where
  /-- An endpoint begins its session. -/
  | attach (clientId : ClientId) (permissions : EndpointPermissions)
  | read (clientId : ClientId) (bytes : List UInt8)
  /-- A command that stays incomplete is discarded. -/
  | timeout (clientId : ClientId)
  /-- The next question of an endpoint is answered; `taken` is for a byte to its client. -/
  | serve (clientId : ClientId) (taken : Bool) (now later : Nat) (fault : Option WriteFault)
  | detach (clientId : ClientId)
  | typed (clientId : ClientId) (text : List Char) (speed : Option SpeedMode) (now later : Nat)
      (fault : Option WriteFault)
  | outside (input : ActorInput)
  deriving DecidableEq, Repr

/-- The input is none of the requests that endpoints and typed texts make. -/
def ActorInput.fromOutside : ActorInput → Bool
  | .request (.enqueue _ _ _ _) _ _ _ | .request (.configure _ _) _ _ _
  | .request (.activeOwnerCommand _ _) _ _ _ | .request (.maintenanceCommand _ _) _ _ _ => false
  | _ => true

namespace Brokerage

def withEndpoint (s : Brokerage) (clientId : ClientId) (endpoint : Option VirtualEndpoint) :
    Brokerage :=
  { s with endpoints := fun c => if c = clientId then endpoint else s.endpoints c }

/-- The endpoint of a client when it waits for the next read. -/
def waiting (s : Brokerage) (clientId : ClientId) : Option (EndpointPermissions × EndpointSession) :=
  match s.endpoints clientId with
  | some ⟨permissions, .done (some session)⟩ => some (permissions, session)
  | _ => none

/-- A step of the actor. -/
def act (s : Brokerage) (input : ActorInput) : Option (Brokerage × Option ActorStep) :=
  (actor.step s.keyer input).map fun (a, o) => ({ s with keyer := a }, some ⟨s.keyer, input, o, a⟩)

/-- The next question of an endpoint is answered. -/
def serve (s : Brokerage) (clientId : ClientId) (taken : Bool) (now later : Nat)
    (fault : Option WriteFault) : Option (Brokerage × Option ActorStep) :=
  match s.endpoints clientId with
  | some ⟨permissions, .ask q next⟩ =>
      let goOn := fun (s : Brokerage) accepted => s.withEndpoint clientId
        (some ⟨permissions, next (q.answer accepted s.keyer.published)⟩)
      match q.request clientId with
      | none => some (goOn s taken, none)
      | some request =>
          -- without an actor the channel is closed
          if s.keyer.loop = .stopped then some (goOn s false, none)
          else
            match actor.step s.keyer (.request request now later fault) with
            | none => none
            | some (a, o) =>
                some (goOn { s with keyer := a } o.grants,
                  some ⟨s.keyer, .request request now later fault, o, a⟩)
  | _ => none

end Brokerage

open Brokerage in
/-- Endpoints and actor.  A step shows the step of the actor in it, if there is one. -/
def brokerage : Machine Brokerage BrokerageInput (Option ActorStep) where
  step s
  | .attach clientId permissions =>
      if (s.endpoints clientId).isNone then
        some (s.withEndpoint clientId (some ⟨permissions, .done (some {})⟩), none)
      else none
  | .read clientId bytes =>
      (s.waiting clientId).map fun (permissions, session) =>
        (s.withEndpoint clientId (some ⟨permissions, handleRead permissions bytes session [] []⟩), none)
  | .timeout clientId =>
      (s.waiting clientId).map fun (permissions, session) =>
        (s.withEndpoint clientId (some ⟨permissions, .done (some { session with parser := {} })⟩), none)
  | .serve clientId taken now later fault => s.serve clientId taken now later fault
  | .detach clientId => some (s.withEndpoint clientId none, none)
  | .typed clientId text speed now later fault =>
      match validateText text with
      | .ok bytes => s.act (.request (.enqueue clientId (.plainText bytes) speed false) now later fault)
      | .error _ => none
  | .outside input => if input.fromOutside then s.act input else none

/-- One recorded step. -/
abbrev BrokerageStep := Transition Brokerage BrokerageInput (Option ActorStep)

end CatHub.WinKeyer
