import Chassis.Endpoint.Listener
import Chassis.Metrics
import Chassis.Session.Shutdown

/-!
# Endpoints side by side

The supervisor starts endpoints in order, adds a shutdown hook that stops each, and takes the result
of the one that ends first as its own. The end of one endpoint stops no other; a trigger stops all
of them, the last one first.
-/

set_option autoImplicit false

namespace Chassis

open Session

inductive Behaviour
  | ends (r : EndpointResult)
  | panics
  | serves
deriving Repr

/-- An endpoint under supervision: how long it takes until it acts, and what it then does. `isNoted`
tells whether its run and its stop leave a note. -/
structure Supervised where
  name : String
  delay : Nat := 0
  behaviour : Behaviour
  isNoted : Bool := true
deriving Repr

/-- The result of an endpoint that ends, or is stopped while it serves. -/
def Supervised.result (e : Supervised) : EndpointResult :=
  match e.behaviour with
  | .ends r => r
  | .panics => .error (.panicked e.name)
  | .serves => .error .closed

/-- A listening endpoint as the supervisor starts it. -/
def Supervised.ofListening (bind : Net.SocketAddress → Option String) (e : ListeningEndpoint) :
    Supervised :=
  let behaviour := match (e.start bind).2 with
    | .ended r => Behaviour.ends r
    | .serving => .serves
  { name := e.name, behaviour, isNoted := false }

inductive EndpointNote
  | run (name : String)
  | stop (name : String)
deriving DecidableEq, Repr

def EndpointNote.render : EndpointNote → String
  | run name => "run " ++ name
  | stop name => "stop " ++ name

/-- Endpoints that were started: the hooks are their positions, `stopped` the positions of those
that were stopped, in that order, and `ended` the positions of those that ended, in that order. -/
structure Supervisor where
  endpoints : List Supervised
  shutdown : Shutdown Nat := {}
  stopped : List Nat := []
  ended : List Nat := []
deriving Repr

namespace Supervisor

/-- The note of an endpoint, if it leaves notes. -/
def noteOf (make : String → EndpointNote) (e : Supervised) : List EndpointNote :=
  if e.isNoted then [make e.name] else []

/-- Starts endpoints in order, each with a hook. -/
def start (endpoints : List Supervised) (shutdown : Shutdown Nat) :
    Supervisor × List EndpointNote :=
  ({ endpoints, shutdown := (List.range endpoints.length).foldl (·.addHook ·) shutdown },
    endpoints.flatMap (noteOf .run))

/-- Triggers shutdown: tells whether it is the first time, and if it is, stops every endpoint with a
hook. -/
def trigger (s : Supervisor) : Supervisor × Bool × List EndpointNote :=
  match s.shutdown.begin with
  | (false, _, _) => (s, false, [])
  | (true, hooks, shutdown) =>
    let notes := hooks.flatMap fun i => (s.endpoints[i]?.map (noteOf .stop)).getD []
    ({ s with shutdown := shutdown.finish, stopped := s.stopped ++ hooks }, true, notes)

def finish (s : Supervisor) (i : Nat) : Supervisor := { s with ended := s.ended ++ [i] }

/-- The result of the endpoint that ended first; nothing to supervise is a success. -/
def result (s : Supervisor) : Option EndpointResult :=
  if s.endpoints.isEmpty then some (.ok ())
  else s.ended.head?.bind fun i => s.endpoints[i]?.map Supervised.result

/-- What is counted: each endpoint that ended, once. -/
def exits (s : Supervisor) : List Metrics.Event :=
  s.ended.filterMap fun i =>
    s.endpoints[i]?.map fun e => .endpointExit e.name (isFailedExit e.result)

end Supervisor

/-! ## Time -/

/-- When an endpoint ends, given when it was stopped. -/
def Supervised.endTime (e : Supervised) (stoppedAt : Option Nat) : Option Nat :=
  match e.behaviour with
  | .serves => stoppedAt.map (max e.delay)
  | _ => some e.delay

/-- The earliest of some times with its position, the first of several. -/
def earliest : Nat → List (Option Nat) → Option (Nat × Nat)
  | _, [] => none
  | i, none :: rest => earliest (i + 1) rest
  | i, some t :: rest =>
    match earliest (i + 1) rest with
    | some (u, j) => if u < t then some (u, j) else some (t, i)
    | none => some (t, i)

/-- What came of a run: its result unless nothing ended in time, the notes up to then, and the
supervisor as it was then. -/
structure RunReport where
  result : Option EndpointResult
  notes : List EndpointNote
  supervisor : Supervisor

/-- How long a run is watched, in milliseconds. -/
def watchedTime : Nat := 3600000

namespace Supervisor

/-- The endpoint that ends first within the watched time. -/
def firstEnd (s : Supervisor) (stoppedAt : Option Nat) : Option (Nat × Nat) :=
  let times := s.endpoints.zipIdx.map fun (e, i) =>
    e.endTime (if s.stopped.contains i then stoppedAt else none)
  (earliest 0 times).filter (·.1 ≤ watchedTime)

/-- Runs endpoints until the first one ends; shutdown is triggered at a time, if one is given. -/
def run (endpoints : List Supervised) (shutdown : Shutdown Nat) (triggerAt : Option Nat) :
    RunReport :=
  let (s, notes) := start endpoints shutdown
  let report (s : Supervisor) (notes : List EndpointNote) (e : Option (Nat × Nat)) : RunReport :=
    let s := match e with
      | some (_, i) => s.finish i
      | none => s
    ⟨s.result, notes, s⟩
  if endpoints.isEmpty then ⟨s.result, notes, s⟩
  else
    let before := s.firstEnd none
    match triggerAt with
    | none => report s notes before
    | some t =>
      if watchedTime < t || before.any (·.1 ≤ t) then report s notes before
      else
        let (s, _, stops) := s.trigger
        report s (notes ++ stops) (s.firstEnd (some t))

end Supervisor

end Chassis
