import Chassis.Config.Schema
import Chassis.Http.Message
import Chassis.Peer.Call

/-!
# The directory over HTTP

A request is matched to a resource, answered within a limit of time, and gets its id back. Every
handler that fails tells its failure under its own operation; so do a path that leads nowhere and a
handler that takes too long.
-/

set_option autoImplicit false

namespace Chassis.Rest

open Http

/-! ## Resources -/

/-- What a resource can be asked for. `get` is also asked by `HEAD`. -/
inductive Verb
  | get
  | post
deriving DecidableEq, Repr

def Verb.methods : Verb → List String
  | get => ["GET", "HEAD"]
  | post => ["POST"]

/-- What is done for a resource. A segment of the path is still in its written form. -/
inductive Action
  | health
  | createUser
  | getUser (segment : String)
  | getPeerUser (segment : String)
  | late (delay : Nat)
deriving DecidableEq, Repr

/-- A resource: the verb that it has and what is then done. -/
structure Resource where
  verb : Verb
  action : Action
deriving DecidableEq, Repr

/-- A path that is answered late, after some milliseconds. -/
structure LatePath where
  path : String
  delay : Nat
deriving DecidableEq, Repr

/-- The service: a peer if there is one, the limit of time in seconds, and paths that are late. -/
structure Service where
  peer : Option PeerClient := none
  limit : Limit := {}
  late : List LatePath := []
deriving DecidableEq, Repr

namespace Service

def fixed (s : Service) : List (String × Resource) :=
  ("/healthz", ⟨.get, .health⟩) :: ("/users", ⟨.post, .createUser⟩) ::
    s.late.map fun l => (l.path, ⟨.get, .late l.delay⟩)

/-- The resource whose path ends in a segment that may be anything but empty. -/
def withSegment : List String → List Resource
  | ["", "users", id] => if id = "" then [] else [⟨.get, .getUser id⟩]
  | ["", "peer", "users", id] => if id = "" then [] else [⟨.get, .getPeerUser id⟩]
  | _ => []

/-- The resources of a path. A fixed path goes first. -/
def resources (s : Service) (path : String) : List Resource :=
  match s.fixed.filter (·.1 == path) with
  | [] => withSegment (Text.splitText '/' path)
  | found => found.map (·.2)

end Service

/-! ## Handlers -/

/-- What a handler comes to. `malformedSegment` is a segment that is not UTF-8. -/
inductive Outcome
  | healthy
  | late
  | found (u : User)
  | created (u : User)
  | failed (f : Failure)
  | malformedSegment
deriving DecidableEq, Repr

/-- A handler's outcome is a user, or a failure under the operation of the handler. -/
def Outcome.ofResult (op : String) : Except Failure User → Outcome
  | .ok u => .found u
  | .error f => .failed (f.under op)

/-- The largest body that is read, in bytes. -/
def bodyLimit : Nat := 2 * 1024 * 1024

/-- Reads the body of a request to create a user. -/
def readNewUser (r : Request) : Except String NewUser :=
  if !r.isJson then .error "Expected request with `Content-Type: application/json`"
  else if bodyLimit < r.body.length then
    .error "Failed to buffer the request body: length limit exceeded"
  else
    match NewUser.layout.decode r.body with
    | .ok u => .ok u
    | .error fault =>
      let start := if fault.reason.isAboutData then
          "Failed to deserialize the JSON body into the target type: "
        else "Failed to parse the request body as JSON: "
      .error (start ++ fault.messageWithPath)

/-- The failure of a body that is not a new user. -/
def malformedBody (reason : String) : Failure :=
  .ofKind (.badRequest [⟨"body", reason⟩])

/-- The failure of a service without a peer. -/
def noPeer : Failure :=
  .ofKind (.failedPrecondition "CONFIG" "components.peer" "no peer configured")

/-- The failure of a path that leads nowhere. -/
def noRoute (path : String) : Failure :=
  (Failure.ofKind (.notFound "route" path)).under "http.route"

/-- The failure of a handler that takes too long. -/
def tooLate : Failure := .ofCause (.interrupted .deadlineExceeded) ⟨some "http.timeout", none⟩

def relay [Net.HostNames] (peer : Option PeerClient) (network : Peer.Network)
    (id requestId : String) : Except Failure User :=
  match peer with
  | none => .error noPeer
  | some client => client.getUser network id requestId

def create (d : Directory) (r : Request) : Outcome × Directory :=
  let op := "rest.create_user"
  match readNewUser r with
  | .error reason => (.failed ((malformedBody reason).under op), d)
  | .ok new =>
    match d.create new with
    | .ok (u, d) => (.created u, d)
    | .error f => (.failed (f.under op), d)

def withText (segment : String) (k : String → Outcome) : Outcome :=
  match Net.Percent.decodeText? segment with
  | some id => k id
  | none => .malformedSegment

def Action.run [Net.HostNames] (action : Action) (peer : Option PeerClient)
    (network : Peer.Network) (d : Directory) (r : Request) (requestId : String) :
    Outcome × Directory :=
  match action with
  | health => (.healthy, d)
  | createUser => create d r
  | getUser segment =>
    (withText segment fun id => .ofResult "rest.get_user" (d.get id), d)
  | getPeerUser segment =>
    (withText segment fun id => .ofResult "rest.get_peer_user" (relay peer network id requestId), d)
  | late _ => (.late, d)

/-- How long it takes to ask the peer, in milliseconds. -/
def relayTime [Net.HostNames] (peer : Option PeerClient) (network : Peer.Network)
    (id requestId : String) : Nat :=
  match peer with
  | none => 0
  | some client => client.time network ("/users/" ++ id) requestId

/-- How long an action takes. Only a late path and a call take any time. -/
def Action.time [Net.HostNames] (action : Action) (peer : Option PeerClient)
    (network : Peer.Network) (requestId : String) : Nat :=
  match action with
  | health | createUser | getUser _ => 0
  | getPeerUser segment =>
    match Net.Percent.decodeText? segment with
    | some id => relayTime peer network id requestId
    | none => 0
  | late delay => delay

/-! ## Responses -/

def Outcome.respond (o : Outcome) (requestId : String) : Response :=
  match o with
  | healthy => .ofText 200 "ok"
  | late => .ofText 200 "late"
  | found u => .ofJson 200 (User.layout.encode u)
  | created u => .ofJson 201 (User.layout.encode u)
  | failed f => .ofFailure (f.toResponse requestId)
  | malformedSegment => .ofText 400 "Invalid URL: Invalid UTF-8 in `id`"

namespace Service

def answer [Net.HostNames] (s : Service) (network : Peer.Network) (fresh : String) (d : Directory)
    (r : Request) : Response × Directory :=
  let requestId := r.id fresh
  match s.resources r.path with
  | [] => ((Outcome.failed (noRoute r.path)).respond requestId, d)
  | resources =>
    match resources.find? (·.verb.methods.contains r.method) with
    | none => (.notAllowed (resources.flatMap (·.verb.methods)), d)
    | some resource =>
      if s.limit.seconds * 1000 < resource.action.time s.peer network requestId then
        ((Outcome.failed tooLate).respond requestId, d)
      else
        let (outcome, d) := resource.action.run s.peer network d r requestId
        (outcome.respond requestId, d)

/-- Handles a request: the response and the directory after it. `fresh` is the id of a request that
has none that can be told. -/
def handle [Net.HostNames] (s : Service) (network : Peer.Network) (fresh : String) (d : Directory)
    (r : Request) : Response × Directory :=
  let (response, d) := s.answer network fresh d r
  let response := response.withHeader ⟨"x-request-id", r.idValue fresh⟩
  (if r.method = "HEAD" then response.withoutBody else response, d)

end Service

end Chassis.Rest
