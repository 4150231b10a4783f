import Chassis.Net.SocketAddress

/-!
# Endpoints that listen

An endpoint serves one front end on one address until it is stopped. It can be started several
times: once it was stopped every start ends as closed, and because what it serves is handed over
when it starts to listen, a second start finds nothing to serve and ends as closed, too.
-/

set_option autoImplicit false

namespace Chassis

/-- How an endpoint ended when it did not end well. `closed` is a clean stop. -/
inductive EndpointError
  | closed
  | address (text : String)
  | bind (text reason : String)
  | serve (reason : String)
  | transport
  | panicked (name : String)
deriving DecidableEq, Repr

abbrev EndpointResult := Except EndpointError Unit

namespace EndpointError

def message : EndpointError → String
  | closed => "endpoint closed"
  | address text => s!"invalid listen address {Text.quote text}: invalid socket address syntax"
  | bind text reason => s!"bind {text}: {reason}"
  | serve reason => "serve: " ++ reason
  | transport => "transport: transport error"
  | panicked name => s!"endpoint {name} panicked"

/-- The endpoint was stopped, which is no failure. -/
def isClosed (e : EndpointError) : Bool := e == closed

end EndpointError

/-- The result counts as a failure: it is neither success nor a clean stop. -/
def isFailedExit : EndpointResult → Bool
  | .ok () => false
  | .error e => !e.isClosed

inductive FrontEnd
  | http
  | rpc
deriving DecidableEq, Repr, Inhabited

/-- An endpoint that listens on an address. `handedOver` tells that nothing is left to serve. -/
structure ListeningEndpoint where
  frontEnd : FrontEnd
  label : String
  address : String
  handedOver : Bool := false
  stopped : Bool := false
deriving DecidableEq, Repr, Inhabited

/-- What a start comes to: a result, or service until the endpoint is stopped. -/
inductive Started
  | ended (r : EndpointResult)
  | serving
deriving Repr

namespace ListeningEndpoint

def name (e : ListeningEndpoint) : String :=
  match e.frontEnd with
  | .http => s!"Http ({e.address}), {e.label}"
  | .rpc => s!"GRPC ({e.address}), {e.label}"

def stop (e : ListeningEndpoint) : ListeningEndpoint := { e with stopped := true }

/-- Starts the endpoint. `bind` tells why an address cannot be listened on, if it cannot. -/
def start (bind : Net.SocketAddress → Option String) (e : ListeningEndpoint) :
    ListeningEndpoint × Started :=
  let ended (e : ListeningEndpoint) (error : EndpointError) := (e, Started.ended (.error error))
  if e.stopped then ended e .closed
  else
    match e.frontEnd with
    | .http =>
      if e.handedOver then ended e .closed
      else
        let e := { e with handedOver := true }
        match Net.SocketAddress.ofText? e.address with
        | none => ended e (.address e.address)
        | some a =>
          match bind a with
          | some reason => ended e (.bind e.address reason)
          | none => (e, .serving)
    | .rpc =>
      match Net.SocketAddress.ofText? e.address with
      | none => ended e (.address e.address)
      | some a =>
        if e.handedOver then ended e .closed
        else
          let e := { e with handedOver := true }
          match bind a with
          | some _ => ended e .transport
          | none => (e, .serving)

end ListeningEndpoint

end Chassis
