import Chassis.Envelope
import Chassis.Http.MediaType

/-!
# Requests and responses

A request names a resource by an address, of which only the path counts here. Every request has an
id: the value of its `x-request-id` header, or a fresh one. An id that is not visible ASCII can be
sent back but not be told inside a failure, which then has a fresh id.
-/

set_option autoImplicit false

namespace Chassis.Http

/-- A header. Its value is a sequence of bytes. -/
structure Header where
  name : String
  value : List UInt8
deriving DecidableEq, Repr

def Header.ofText (name value : String) : Header := ⟨name, Text.Utf8.encode value⟩

/-- The text of a value that consists of visible ASCII characters, spaces and tabs. -/
def visibleText? (value : List UInt8) : Option String :=
  if value.all fun b => (0x20 ≤ b && b < 0x7F) || b == 9 then
    some (String.ofList (value.map fun b => Char.ofNat b.toNat))
  else none

/-! ## Requests -/

structure Request where
  method : String := "GET"
  target : String
  headers : List Header := []
  body : List UInt8 := []
deriving DecidableEq, Repr

/-- The path of an address: what stands before a query or a fragment, without scheme and host. -/
def pathOf (target : List Char) : List Char :=
  let cs := target.takeWhile fun c => c != '?' && c != '#'
  if cs.head? == some '/' || cs == ['*'] then cs
  else
    let rest := cs.dropWhile (· != ':')
    if rest.take 3 == [':', '/', '/'] then
      let path := (rest.drop 3).dropWhile (· != '/')
      if path.isEmpty then ['/'] else path
    else []

namespace Request

def path (r : Request) : String := String.ofList (pathOf r.target.toList)

/-- The value of the first header with a name, in any case. -/
def header? (r : Request) (name : String) : Option (List UInt8) :=
  (r.headers.find? fun h => h.name.toLower == name).map Header.value

/-- The value of the id of the request; `fresh` is used if it has none. -/
def idValue (r : Request) (fresh : String) : List UInt8 :=
  (r.header? "x-request-id").getD (Text.Utf8.encode fresh)

def id (r : Request) (fresh : String) : String :=
  (visibleText? (r.idValue fresh)).getD fresh

def isJson (r : Request) : Bool :=
  ((r.header? "content-type").bind visibleText?).bind MediaType.ofText? |>.any MediaType.isJson

end Request

/-! ## Responses -/

/-- A response. The summary is for the access log and is not sent. -/
structure Response where
  status : Nat
  headers : List Header := []
  summary : Option Summary := none
  body : List UInt8 := []
deriving DecidableEq, Repr

namespace Response

def ofText (status : Nat) (text : String) : Response :=
  { status, headers := [.ofText "content-type" "text/plain; charset=utf-8"]
    body := Text.Utf8.encode text }

def ofJson (status : Nat) (json : String) : Response :=
  { status, headers := [.ofText "content-type" "application/json"], body := Text.Utf8.encode json }

def ofFailure (r : FailureResponse) : Response :=
  { ofJson r.status r.envelope.encode with summary := some r.summary }

/-- The response to a method that the resource does not have. -/
def notAllowed (allowed : List String) : Response :=
  { status := 405, headers := [.ofText "allow" (",".intercalate allowed)] }

def withHeader (r : Response) (h : Header) : Response := { r with headers := r.headers ++ [h] }

/-- The response as the method `HEAD` asks for it: nothing but the body is missing. -/
def withoutBody (r : Response) : Response := { r with body := [] }

end Response

end Chassis.Http
