import Chassis.Directory.Json
import Chassis.Envelope
import Chassis.Net.Url
import Chassis.Peer.Settings

/-!
# Calling a peer

A call is one request to another instance. What comes back and when is decided by the network, which
is a parameter here; the client decides how long it is waited for. A response that tells a failure
becomes a failure with the peer's code, message and records. A call that fails itself is a failure
under the same operation: one that reaches nobody is unavailable, and one that takes too long was
interrupted.
-/

set_option autoImplicit false

namespace Chassis.Peer

structure Call where
  method : String
  url : Net.Url
  requestId : String
  body : Option String := none
deriving DecidableEq, Repr

/-- What is known of a call that fails: a text, and whether there was no connection and whether it
took too long, which may both be so. -/
structure CallError where
  message : String
  isConnect : Bool := false
  isTimeout : Bool := false
deriving DecidableEq, Repr

/-- What a failed call is the cause of. -/
def CallError.cause (e : CallError) : Cause :=
  if e.isTimeout then .interrupted .deadlineExceeded else .other e.message

/-- Something that comes over the network after some milliseconds, or fails then. -/
structure Arrival (α : Type) where
  result : Except CallError α
  after : Nat := 0

/-- A response: the status and the address, which is not that of the call after a redirection, and
then the body, some time after them. -/
structure Response where
  status : Nat
  url : String
  body : Arrival (List UInt8)

abbrev Reply := Arrival Response

abbrev Network := Call → Reply

/-! ## Waiting -/

/-- The error of what is not there in time. -/
def CallError.timedOut : CallError := { message := "operation timed out", isTimeout := true }

/-- What comes within some milliseconds. What would come right at their end comes too late. -/
def Arrival.within {α : Type} (limit : Nat) (a : Arrival α) : Arrival α :=
  if limit ≤ a.after then ⟨.error .timedOut, limit⟩ else a

/-- A reply that is waited for, its body included. -/
def Reply.within (limit : Nat) (reply : Reply) : Reply :=
  let head := Arrival.within limit reply
  { head with
    result := head.result.map fun r => { r with body := r.body.within (limit - head.after) } }

/-- The milliseconds until all of a reply is there. -/
def Reply.time (reply : Reply) : Nat :=
  reply.after + match reply.result with
    | .ok r => r.body.after
    | .error _ => 0

/-! ## Messages -/

/-- The message of an address that cannot be read. -/
def invalidUrlMessage : String := "builder error"

/-- The message of a call that cannot be sent. -/
def unsentMessage (url : Net.Url) : String := s!"error sending request for url ({url.render})"

/-- The message of a body that is cut off, or is not what it should be. -/
def undecodableMessage : String := "error decoding response body"

/-- The network in which nobody listens. -/
def Network.silent : Network := fun call =>
  { result := .error { message := unsentMessage call.url, isConnect := true } }

/-- Passes a response on if it tells success. -/
def checkResponse (method : String) (r : Response) : Except Failure Response :=
  if r.status < 400 then .ok r
  else
    match r.body.result with
    | .error e => .error (.ofCause e.cause ⟨none, some .internal⟩)
    | .ok bytes =>
      match Failure.ofResponse method r.url r.status bytes with
      | some f => .error f
      | none => .error (.ofCause (.other s!"unexpected status {r.status}") ⟨none, some .unknown⟩)

end Chassis.Peer

namespace Chassis

namespace PeerClient

open Peer

variable [Net.HostNames]

/-- The call for a path, unless its address cannot be read. -/
def call? (c : PeerClient) (path requestId : String) : Option Call :=
  (Net.Url.ofText? (c.url path)).map fun url => { method := "GET", url, requestId }

/-- The milliseconds that a reply is waited for; no client gives up at once. -/
def patience (c : PeerClient) : Nat := max c.settings.timeoutSeconds 1 * 1000

/-- The reply to a call, as far as it is waited for. -/
def receive (c : PeerClient) (network : Network) (call : Call) : Reply :=
  Reply.within c.patience (network call)

/-- Asks for a path: the response, or a failure. -/
def get (c : PeerClient) (network : Network) (path requestId : String) :
    Except Failure Response :=
  let op := some (callOperation "GET" (c.url path))
  match c.call? path requestId with
  | none => .error (.ofCause (.other invalidUrlMessage) ⟨op, none⟩)
  | some call =>
    match (c.receive network call).result with
    | .error e => .error (.ofCause e.cause ⟨op, if e.isConnect then some .unavailable else none⟩)
    | .ok response => checkResponse call.method response

/-- How long it takes to ask for a path and to read what comes back. -/
def time (c : PeerClient) (network : Network) (path requestId : String) : Nat :=
  match c.call? path requestId with
  | none => 0
  | some call => (c.receive network call).time

/-- The failure of a body that is no user. -/
def undecodable (cause : Cause) : Failure :=
  .ofCause cause ⟨some "http_client.decode", some .internal⟩

/-- The user in the body of a response. -/
def readUser (r : Response) : Except Failure User :=
  match r.body.result with
  | .error e => .error (undecodable e.cause)
  | .ok bytes =>
    match User.layout.decode bytes with
    | .ok u => .ok u
    | .error _ => .error (undecodable (.other undecodableMessage))

def getUser (c : PeerClient) (network : Network) (id requestId : String) : Except Failure User := do
  readUser (← c.get network ("/users/" ++ id) requestId)

end PeerClient

end Chassis
