import Chassis.Directory
import Chassis.Http.Message
import Chassis.Rpc.Frame

/-!
# The directory over RPC

Two methods of the user service and one of the health service take one message each and answer with
one message or with a status. A failure is told under the operation of its method. Any other method
is not implemented.
-/

set_option autoImplicit false

namespace Chassis.Rpc

/-! ## Messages -/

abbrev OneText := String × Unit

def getRequest : Wire.Message := .cons 1 "id" .text .nil

def createRequest : Wire.Message := .cons 1 "name" .text (.cons 2 "email" .text .nil)

def checkRequest : Wire.Message := .cons 1 "service" .text .nil

def userMessage : Wire.Message :=
  .cons 1 "id" .text (.cons 2 "name" .text (.cons 3 "email" .text .nil))

def checkResponse : Wire.Message := .cons 1 "status" .integer .nil

def serving : Int := 1

def writeUser (u : User) : List UInt8 :=
  userMessage.write .ascending
    (show String × String × String × Unit from (u.id, u.name, u.email, ()))

def readUser (bytes : List UInt8) : Except Wire.Fault User := do
  let v ← userMessage.readAll "User" bytes
  let (id, name, email, ()) := show String × String × String × Unit from v
  .ok ⟨id, name, email⟩

def readGet (bytes : List UInt8) : Except Wire.Fault String := do
  let v ← getRequest.readAll "GetUserRequest" bytes
  .ok (show OneText from v).1

/-- The user that a request wants to create. -/
def readCreate (bytes : List UInt8) : Except Wire.Fault NewUser := do
  let v ← createRequest.readAll "CreateUserRequest" bytes
  let (name, email, ()) := show String × String × Unit from v
  .ok ⟨name, email⟩

def readCheck (bytes : List UInt8) : Except Wire.Fault String := do
  let v ← checkRequest.readAll "HealthCheckRequest" bytes
  .ok (show OneText from v).1

def writeGet (id : String) : List UInt8 := getRequest.write .ascending (show OneText from (id, ()))

/-- The bytes of a request to create a user. -/
def writeCreate (u : NewUser) : List UInt8 :=
  createRequest.write .ascending (show String × String × Unit from (u.name, u.email, ()))

/-! ## Methods -/

inductive Method
  | getUser
  | createUser
  | check
deriving DecidableEq, Repr

def Method.path : Method → String
  | getUser => "/demo.v1.Users/GetUser"
  | createUser => "/demo.v1.Users/CreateUser"
  | check => "/grpc.health.v1.Health/Check"

def Method.ofPath? (path : String) : Option Method :=
  [getUser, createUser, check].find? (·.path == path)

/-- A request: the path, the value of the id if it has one, and the frames. -/
structure Request where
  target : String
  idValue : Option (List UInt8) := none
  body : List UInt8
deriving DecidableEq, Repr

/-- The id that failures tell; `fresh` is used if the request has none that can be told. -/
def Request.id (r : Request) (fresh : String) : String :=
  (r.idValue.bind Http.visibleText?).getD fresh

def Request.method? (r : Request) : Option Method :=
  Method.ofPath? (String.ofList (Http.pathOf r.target.toList))

/-- A response: a status, and the frame of a message if it tells success. -/
structure Response where
  status : RpcStatus
  body : List UInt8 := []
deriving DecidableEq, Repr

namespace Response

def okStatus : RpcStatus := ⟨.ok, "", []⟩

def ofMessage (bytes : List UInt8) : Response := ⟨okStatus, writeFrame bytes⟩

/-- The response with nothing but a status. -/
def ofStatus (s : RpcStatus) : Response := ⟨s, []⟩

/-- The response to a method that is not implemented. -/
def unimplemented : Response := ofStatus ⟨.unimplemented, "", []⟩

/-- The response of a method under its operation: a user, or a failure. -/
def ofResult (op requestId : String) : Except Failure User → Response
  | .ok u => ofMessage (writeUser u)
  | .error f => ofStatus ((f.under op).toStatus requestId)

end Response

/-! ## Calls -/

def answerGet (d : Directory) (id requestId : String) : Response :=
  .ofResult "rpc.get_user" requestId (d.get id)

/-- The answer to a request to create a user, and the directory after it. -/
def answerCreate (d : Directory) (new : NewUser) (requestId : String) : Response × Directory :=
  let result := d.create new
  let after := match result with
    | .ok (_, d) => d
    | .error _ => d
  (.ofResult "rpc.create_user" requestId (result.map (·.1)), after)

/-- The answer whether a service is up. Only the server as a whole is known: it has no name. -/
def answerCheck (service : String) : Response :=
  if service = "" then
    .ofMessage (checkResponse.write .ascending (show Int × Unit from (serving, ())))
  else .ofStatus ⟨.notFound, "service not registered", []⟩

/-- Goes on with the message of a body, if it is well formed. -/
def withMessage {α : Type} (decode : List UInt8 → Except Wire.Fault α) (body : List UInt8)
    (d : Directory) (k : α → Response × Directory) : Response × Directory :=
  match readMessage decode body with
  | .ok a => k a
  | .error fault => (.ofStatus fault.status, d)

/-- Handles a request: the response and the directory after it. `fresh` is the id of a request that
has none that can be told. -/
def handle (fresh : String) (d : Directory) (r : Request) : Response × Directory :=
  let requestId := r.id fresh
  match r.method? with
  | none => (.unimplemented, d)
  | some .getUser => withMessage readGet r.body d fun id => (answerGet d id requestId, d)
  | some .createUser => withMessage readCreate r.body d fun new => answerCreate d new requestId
  | some .check => withMessage readCheck r.body d fun service => (answerCheck service, d)

/-! ## Clients -/

/-- What a client makes of a response: a user, or a failure with the code of the status. -/
def Response.toResult (r : Response) : Except Failure User :=
  if r.status.code = .ok then
    match readMessage readUser r.body with
    | .ok u => .ok u
    | .error fault => .error (.ofStatus fault.status)
  else .error (.ofStatus r.status)

/-- The request for a user as a client sends it. -/
def Request.forGet (id requestId : String) : Request :=
  ⟨Method.getUser.path, some (Text.Utf8.encode requestId), writeFrame (writeGet id)⟩

/-- The request to create a user as a client sends it. -/
def Request.forCreate (new : NewUser) (requestId : String) : Request :=
  ⟨Method.createUser.path, some (Text.Utf8.encode requestId), writeFrame (writeCreate new)⟩

end Chassis.Rpc
