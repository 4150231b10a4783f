import Chassis.Detail.Json
import Chassis.RpcStatus

/-!
# Failures over HTTP

Over HTTP a failure is a JSON object with one member `error`: the HTTP status, the message, the
token of the code, and the detail records, the request and the way of the failure first. Rendering
depends on the failure and the request id alone. A peer's envelope is read back as a failure with
the peer's code, message and records under the operation that called the peer.
-/

set_option autoImplicit false

namespace Chassis

open Json

/-- The body of a response that tells a failure. -/
structure Envelope where
  code : UInt16
  message : String
  status : String
  details : List Detail
deriving DecidableEq, Repr

namespace Envelope

/-- The shape of the member `error`. -/
def bodyShape : Shape :=
  .record "ErrorBody" (.cons "code" .required .word16 (.cons "message" .required .text
    (.cons "status" .required .text (.cons "details" .defaulted (.list Detail.shape) .nil))))

def shape : Shape := .record "HttpResponse" (.cons "error" .required bodyShape .nil)

abbrev Parts := (UInt16 × String × String × List (String × String × Unit) × Unit) × Unit

def toParts (e : Envelope) : Parts :=
  ((e.code, e.message, e.status, e.details.map Detail.toTexts, ()), ())

def ofParts (v : Parts) : Envelope :=
  ⟨v.1.1, v.1.2.1, v.1.2.2.1, v.1.2.2.2.1.map Detail.ofTexts⟩

def encode (e : Envelope) : String :=
  String.ofList (shape.write e.toParts)

def decode (bytes : List UInt8) : Except Fault Envelope :=
  (shape.readDocument bytes).map ofParts

/-- The envelope of a failure for a request. -/
def ofFailure (requestId : String) (f : Failure) : Envelope :=
  ⟨f.canonicalCode.httpStatus.toUInt16, f.description, f.canonicalCode.token, f.rendered requestId⟩

def canonicalCode (e : Envelope) : Code := .ofToken e.status

end Envelope

/-- What a response leaves for the access log when it tells a failure. -/
structure Summary where
  status : String
  message : String
deriving DecidableEq, Repr

structure FailureResponse where
  status : Nat
  summary : Summary
  envelope : Envelope
deriving DecidableEq, Repr

/-- The response that tells a failure for a request. -/
def Failure.toResponse (f : Failure) (requestId : String) : FailureResponse :=
  let envelope := Envelope.ofFailure requestId f
  ⟨envelope.code.toNat, ⟨f.canonicalCode.token, envelope.message⟩, envelope⟩

def callOperation (method url : String) : String := method ++ " " ++ url

/-- The failure that a peer's response tells; none below status 400. A body that is not an envelope
is an internal failure, an envelope without a code an unknown one with the body as its message. -/
def Failure.ofResponse (method url : String) (status : Nat) (body : List UInt8) :
    Option Failure :=
  if status < 400 then none
  else
    match Envelope.decode body with
    | .error fault => some (ofCause (.other fault.message) ⟨none, some .internal⟩)
    | .ok e =>
      if e.code = 0 then
        some (ofCause (.other (Text.Utf8.decodeLossy body)) ⟨none, some .unknown⟩)
      else
        some (ofCause (.remote ⟨e.message, e.details⟩)
          ⟨some (callOperation method url), some e.canonicalCode⟩)

end Chassis
