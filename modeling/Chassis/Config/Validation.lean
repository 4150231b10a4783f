import Chassis.Config.Schema
import Chassis.Net.SocketAddress
import Chassis.Text.Blank

/-!
# Problems with settings

Settings of the right types may still make no sense: a name without a visible character, a limit of
no time, an address that is none, or two places to listen that are one. `Config.problems` lists all
of them in a fixed order. A place that is not enabled is never looked at, and port zero, which asks
for any free port, never clashes.
-/

set_option autoImplicit false

namespace Chassis

open Net

inductive Problem
  | emptyName
  | zeroLimit (field : String)
  | invalidAddress (endpoint address : String)
  | addressConflict (first second : String) (address : SocketAddress)
deriving DecidableEq, Repr

def Problem.message : Problem → String
  | emptyName => "app.name must not be empty"
  | zeroLimit field => field ++ " must be greater than zero"
  | invalidAddress endpoint address =>
    s!"endpoints.{endpoint}.address: invalid socket address " ++ Text.quote address
  | addressConflict first second address =>
    s!"endpoints.{first} and endpoints.{second} both bind {address.render}"

namespace Config

/-- The places to listen with their names, in the order in which they are looked at. -/
def listeners (c : Config) : List (String × Listener) :=
  [("rest", c.endpoints.rest), ("metrics", c.endpoints.metrics), ("rpc", c.endpoints.rpc)]

/-- The problems of places to listen. `bound` holds the addresses of the earlier ones, the nearest
first. -/
def listenerProblems (bound : List (SocketAddress × String)) :
    List (String × Listener) → List Problem
  | [] => []
  | (name, listener) :: rest =>
    if !listener.enabled then listenerProblems bound rest
    else
      match SocketAddress.ofText? listener.address with
      | none => .invalidAddress name listener.address :: listenerProblems bound rest
      | some address =>
        if address.port = 0 then listenerProblems bound rest
        else
          let later := listenerProblems ((address, name) :: bound) rest
          match bound.lookup address with
          | some first => .addressConflict first name address :: later
          | none => later

def problems (c : Config) : List Problem :=
  (if Text.isBlank c.app.name then [.emptyName] else []) ++
    (if c.shutdown.seconds = 0 then [.zeroLimit "shutdown.timeout_secs"] else []) ++
    (if c.http.seconds = 0 then [.zeroLimit "http.request_timeout_secs"] else []) ++
    listenerProblems [] c.listeners

end Config

end Chassis
