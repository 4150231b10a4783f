import Chassis.Json.Tree
import Chassis.Peer.Call
import Chassis.Probe.Options

/-!
# Probing an instance

The probe makes one call and shows what comes back, however long it takes: the body, on several
lines if it is JSON, or the failure that the response tells with its records.
-/

set_option autoImplicit false

namespace Chassis.Probe

open Peer

/-- What a probe shows. Without an error text its wording is not fixed. -/
structure Report where
  exitStatus : Nat
  output : String := ""
  errorText : Option String := some ""
deriving DecidableEq, Repr

def Command.method : Command → String
  | create _ => "POST"
  | _ => "GET"

def Command.path : Command → String
  | health => "/healthz"
  | get id => "/users/" ++ id
  | create _ => "/users"
  | peer id => "/peer/users/" ++ id

/-- The JSON text that a command sends: the keys ascend. -/
def Command.body : Command → Option String
  | create u =>
    some (String.ofList (Json.Tree.writeLine (.object
      [("email", .text u.email), ("name", .text u.name)])))
  | _ => none

/-- The call of a command, unless its address cannot be read. -/
def Options.call? [Net.HostNames] (o : Options) (fresh : String) : Option Call :=
  let base := String.ofList (PeerClient.dropLastSlashes o.url)
  (Net.Url.ofText? (base ++ o.command.path)).map fun url =>
    { method := o.command.method, url, requestId := o.requestId.getD fresh, body := o.command.body }

def recordLine : Detail → String
  | .request info => "  request id: " ++ info.requestId
  | .debug info => "  operations: " ++ " > ".intercalate info.stackEntries
  | d => "  " ++ d.typeName ++ ": " ++ d.valueJson

def failureText (f : Failure) : String :=
  let lines := ("Error: " ++ f.code.token) :: ("  message: " ++ f.description) ::
    f.details.map recordLine
  String.join (lines.map (· ++ "\n"))

/-- The text of a body. A byte order mark is left out. -/
def bodyText (bytes : List UInt8) : String :=
  Text.Utf8.decodeLossy (if bytes.take 3 == [0xEF, 0xBB, 0xBF] then bytes.drop 3 else bytes)

def shownBody (bytes : List UInt8) : String :=
  let text := bodyText bytes
  match Json.Tree.ofBytes (Text.Utf8.encode text) with
  | .ok t => t.render ++ "\n"
  | .error _ => text ++ "\n"

/-- The report of a probe that does not get an answer. -/
def Report.noAnswer : Report := ⟨1, "", none⟩

def Report.ofReply (call : Call) (reply : Reply) : Report :=
  match reply.result with
  | .error _ => noAnswer
  | .ok response =>
    match checkResponse call.method response with
    | .error f => ⟨1, "", some (failureText f)⟩
    | .ok response =>
      match response.body.result with
      | .error _ => noAnswer
      | .ok bytes => ⟨0, shownBody bytes, some ""⟩

/-- Runs the probe with a command line. `fresh` is the id of the request if none is given. -/
def run [Net.HostNames] (network : Network) (fresh : String) (arguments : List String) : Report :=
  match Options.ofArguments? arguments with
  | none => ⟨2, "", none⟩
  | some o =>
    match o.call? fresh with
    | none => .noAnswer
    | some call => .ofReply call (network call)

end Chassis.Probe
