import Chassis.Config.Loader
import Chassis.Endpoint.Listener
import Chassis.Service.Log
import Chassis.Session.Registry

/-!
# Running the service

The service loads its settings, makes the client of its peer if there is a section for one, starts
its endpoints, and waits until it is told to stop. A run stops early if the settings cannot be used,
the client cannot be made, or an endpoint does not come up.
-/

set_option autoImplicit false

namespace Chassis

open Text

/-! ## Errors as a report shows them -/

def Problem.debug : Problem → String
  | emptyName => "EmptyAppName"
  | zeroLimit field => s!"ZeroTimeout \x7b field: {quote field} \x7d"
  | invalidAddress endpoint address =>
    s!"InvalidAddress \x7b endpoint: {quote endpoint}, address: {quote address} \x7d"
  | addressConflict first second address =>
    s!"AddressConflict \x7b first: {quote first}, second: {quote second}, " ++
      s!"address: {address.render} \x7d"

/-- The error with its parts by name. Why a text is not a document is left out. -/
def LoadError.debug : LoadError → String
  | unreadable reason => s!"Io({reason})"
  | malformed | mistyped _ => "Parse(...)"
  | invalid problems => "Validation([" ++ ", ".intercalate (problems.map Problem.debug) ++ "])"

def EndpointError.debug : EndpointError → String
  | closed => "Closed"
  | address text => s!"Address \x7b address: {quote text} \x7d"
  | bind text reason => s!"Bind \x7b address: {quote text}, source: {reason} \x7d"
  | serve reason => s!"Serve({reason})"
  | transport => "Transport"
  | panicked name => s!"Panicked({quote name})"

namespace Service

/-! ## What a run comes to -/

inductive Ending
  | refused (e : LoadError)
  | componentFailed
  | endpointFailed (e : EndpointError)
  | stopped
deriving Repr

namespace Ending

def exitStatus : Ending → Nat
  | stopped => 0
  | _ => 1

def errorText : Ending → String
  | refused e => "Error: " ++ e.debug ++ "\n"
  | endpointFailed e => "Error: " ++ e.debug ++ "\n"
  | componentFailed | stopped => ""

end Ending

/-- A run: how its log looks, the lines up to the beginning of shutdown, and how it ends. -/
structure Run where
  format : LogFormat := .pretty
  lines : List LogLine := []
  ending : Ending

/-! ## The parts of a run -/

def peerSection : String := "peer"

def startLine (c : Config) : LogLine :=
  ⟨.info, "service-skeleton v0.1.0 starting",
    [("app", .text c.app.name), ("profile", .text c.app.profile)]⟩

/-- The lines about a component that cannot be made: what happened, and what that means. -/
def componentLines (e : Session.RegistryError) : List LogLine :=
  let message := "Failed to load component"
  let first := match e with
    | .construction fullName reason =>
      [⟨.error, message, [("component", .text fullName), ("error", .text reason)]⟩]
    | _ => []
  first ++ [⟨.error, message, [("error", .text e.message), ("fatal", .boolean e.isFatal)]⟩]

/-- Makes the client of the peer, if there is a section for one. -/
def makePeer (c : Config) : Session.State × Except Session.RegistryError Unit :=
  let s : Session.State := {}
  if c.components.any (·.1 == peerSection) then
    let source := Source.ofSettings c.components peerSection
    let (s, r, _) := s.register peerSection .client source false
    (s, r.map fun _ => ())
  else (s, .ok ())

def endpointsOf (c : Config) : List ListeningEndpoint :=
  let e := c.endpoints
  let some? (l : Listener) (frontEnd : FrontEnd) (label : String) : List ListeningEndpoint :=
    if l.enabled then [{ frontEnd, label, address := l.address }] else []
  some? e.rest .http "rest" ++ some? e.metrics .http "metrics" ++ some? e.rpc .rpc "app"

def quoteAll (names : List String) : String :=
  "[" ++ ", ".intercalate (names.map quote) ++ "]"

def endpointsLine (names : List String) (count : Nat) : LogLine :=
  ⟨.info, "Starting endpoints",
    [("components", .text (quoteAll names)), ("endpoints", .number (.integer count))]⟩

def listeningLine (e : ListeningEndpoint) : LogLine :=
  let message := match e.frontEnd with
    | .http => "HTTP endpoint listening"
    | .rpc => "gRPC endpoint listening"
  ⟨.info, message, [("address", .text e.address), ("endpoint", .text e.name)]⟩

/-- The lines of an endpoint that starts, and its error if it does not come up. One for RPC says
that it listens before it does. -/
def startEndpoint (bind : Net.SocketAddress → Option String) (e : ListeningEndpoint) :
    List LogLine × Option EndpointError :=
  let failed (error : EndpointError) : LogLine :=
    ⟨.error, "Endpoint failed", [("endpoint", .text e.name), ("error", .text error.message)]⟩
  match (e.start bind).2 with
  | .serving | .ended (.ok ()) => ([listeningLine e], none)
  | .ended (.error .transport) => ([listeningLine e, failed .transport], some .transport)
  | .ended (.error error) => ([failed error], some error)

/-- The lines of endpoints that start side by side, and how the run ends. -/
def startEndpoints (bind : Net.SocketAddress → Option String) (es : List ListeningEndpoint) :
    List LogLine × Ending :=
  let started := es.map (startEndpoint bind)
  let lines := started.flatMap (·.1)
  if es.isEmpty then ([⟨.info, "No endpoint enabled, waiting for shutdown signal", []⟩], .stopped)
  else
    match started.findSome? (·.2) with
    | none => (lines, .stopped)
    | some error =>
      (lines ++ [⟨.error, "Endpoint failed, shutting down", [("error", .text error.message)]⟩],
        .endpointFailed error)

/-- Runs the service with the settings in a file, until it is told to stop. `bind` tells why an
address cannot be listened on, if it cannot. -/
def run (bind : Net.SocketAddress → Option String) (content : Option (List UInt8))
    (profile : Option String := none) : Run :=
  match Config.load content profile with
  | .error e => { ending := .refused e }
  | .ok c =>
    let written (lines : List LogLine) :=
      lines.filter (·.isWritten (Directive.listOfText c.logging.level))
    match makePeer c with
    | (_, .error e) =>
      { format := c.logging.format, lines := written (startLine c :: componentLines e)
        ending := .componentFailed }
    | (s, .ok ()) =>
      let endpoints := endpointsOf c
      let (lines, ending) := startEndpoints bind endpoints
      { format := c.logging.format, ending
        lines := written (startLine c :: endpointsLine s.names endpoints.length :: lines) }

end Service

end Chassis
