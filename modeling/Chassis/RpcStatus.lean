import Chassis.Failure
import Chassis.Wire.Reader

/-!
# Failures over RPC

The RPC protocol tells a failure as a code, a message and, in binary form, a status message that
repeats both and packs detail records. Packing keeps one record of each type: violations of the same
type are collected, of other records the last one counts, and a record of unknown type is dropped.
The packed records always come in the same order.
-/

set_option autoImplicit false

namespace Chassis

open Wire

namespace RpcStatus

/-! ## Messages -/

def debugMessage : Message := .cons 1 "stack_entries" .texts (.cons 2 "detail" .text .nil)

def requestMessage : Message := .cons 1 "request_id" .text (.cons 2 "serving_data" .text .nil)

def resourceMessage : Message :=
  .cons 1 "resource_type" .text (.cons 2 "resource_name" .text
    (.cons 3 "owner" .text (.cons 4 "description" .text .nil)))

/-- The message of one violated quota or field. -/
def pairMessage (first : String) : Message :=
  .cons 1 first .text (.cons 2 "description" .text .nil)

def conditionMessage : Message :=
  .cons 1 "type" .text (.cons 2 "subject" .text (.cons 3 "description" .text .nil))

def quotaMessage : Message :=
  .cons 1 "violations" (.messages "Violation" (pairMessage "subject")) .nil

def preconditionMessage : Message :=
  .cons 1 "violations" (.messages "Violation" conditionMessage) .nil

def badRequestMessage : Message :=
  .cons 1 "field_violations" (.messages "FieldViolation" (pairMessage "field")) .nil

def errorMessage : Message :=
  .cons 1 "reason" .text (.cons 2 "domain" .text (.cons 3 "metadata" .table .nil))

/-- The message that tells when to try again; read only to see that it is well formed. -/
def retryMessage : Message :=
  .cons 1 "retry_delay"
    (.messages "Duration" (.cons 1 "seconds" .integer (.cons 2 "nanos" .integer .nil))) .nil

/-- The message with links to help; read only to see that it is well formed. -/
def helpMessage : Message :=
  .cons 1 "links" (.messages "Link" (.cons 1 "description" .text (.cons 2 "url" .text .nil))) .nil

/-- The message in the language of the user; read only to see that it is well formed. -/
def localizedMessage : Message := .cons 1 "locale" .text (.cons 2 "message" .text .nil)

/-- A packed record: the address of its type and its bytes. -/
def packedMessage : Message := .cons 1 "type_url" .text (.cons 2 "value" .bytes .nil)

/-- A status: code, message and packed records. -/
def statusMessage : Message :=
  .cons 1 "code" .integer (.cons 2 "message" .text
    (.cons 3 "details" (.messages "Any" packedMessage) .nil))

/-! ## Packing -/

/-- One record of each type that can be packed. -/
structure Packed where
  debug : Option DebugInfo := none
  quota : List QuotaViolation := []
  error : Option ErrorInfo := none
  precondition : List PreconditionViolation := []
  badRequest : List FieldViolation := []
  request : Option RequestInfo := none
  resource : Option ResourceInfo := none
deriving DecidableEq, Repr, Inhabited

namespace Packed

def add (p : Packed) : Detail → Packed
  | .debug info => { p with debug := some info }
  | .request info => { p with request := some info }
  | .resource info => { p with resource := some info }
  | .quota violations => { p with quota := p.quota ++ violations }
  | .precondition violations => { p with precondition := p.precondition ++ violations }
  | .badRequest violations => { p with badRequest := p.badRequest ++ violations }
  | .error info => { p with error := some info }
  | .other _ _ => p

def ofDetails (records : List Detail) : Packed :=
  records.foldl add {}

/-- A list of violations as a record, unless it is empty. -/
def violations {α : Type} (make : List α → Detail) : List α → Option Detail
  | [] => none
  | vs => some (make vs)

/-- The records in the order in which they are packed. -/
def toDetails (p : Packed) : List Detail :=
  [p.debug.map .debug, violations .quota p.quota, p.error.map .error,
    violations .precondition p.precondition, violations .badRequest p.badRequest,
    p.request.map .request, p.resource.map .resource].filterMap id

end Packed

/-- The bytes of a record, if its type is known. -/
def payload (order : EntryOrder) : Detail → Option (List UInt8)
  | .debug i => some (debugMessage.write order
      (show List String × String × Unit from (i.stackEntries, i.detail, ())))
  | .request i => some (requestMessage.write order
      (show String × String × Unit from (i.requestId, i.servingData, ())))
  | .resource i => some (resourceMessage.write order
      (show String × String × String × String × Unit from
        (i.resourceType, i.resourceName, i.owner, i.description, ())))
  | .quota vs => some (quotaMessage.write order
      (show List (String × String × Unit) × Unit from
        (vs.map fun v => (v.subject, v.description, ()), ())))
  | .precondition vs => some (preconditionMessage.write order
      (show List (String × String × String × Unit) × Unit from
        (vs.map fun v => (v.type, v.subject, v.description, ()), ())))
  | .badRequest vs => some (badRequestMessage.write order
      (show List (String × String × Unit) × Unit from
        (vs.map fun v => (v.field, v.description, ()), ())))
  | .error i => some (errorMessage.write order
      (show String × String × Table × Unit from (i.reason, i.domain, i.metadata, ())))
  | .other _ _ => none

def typeUrl (typeName : String) : String := "type.googleapis.com/" ++ typeName

/-- The packed form of a record, if its type is known. -/
def pack (order : EntryOrder) (d : Detail) : Option (String × List UInt8 × Unit) :=
  (payload order d).map fun bytes => (typeUrl d.typeName, bytes, ())

/-- The bytes of a status with a code, a message and records. -/
def statusBytes (order : EntryOrder) (code : Code) (message : String) (records : List Detail) :
    List UInt8 :=
  statusMessage.write order
    (show Int × String × List (String × List UInt8 × Unit) × Unit from
      ((code.number : Int), message, records.filterMap (pack order), ()))

/-! ## Unpacking -/

/-- Reads a message and makes a record of it. -/
def unpackAs (m : Message) (name : String) (make : m.Value → Option Detail) (bytes : List UInt8) :
    Except Wire.Fault (Option Detail) :=
  (m.readAll name bytes).map make

/-- The record that was packed under an address, nothing for a type that is passed over. -/
def unpack (url : String) (bytes : List UInt8) : Except Wire.Fault (Option Detail) :=
  match url with
  | "type.googleapis.com/google.rpc.DebugInfo" =>
    unpackAs debugMessage "DebugInfo"
      (fun (v : List String × String × Unit) => some (.debug ⟨v.1, v.2.1⟩)) bytes
  | "type.googleapis.com/google.rpc.RequestInfo" =>
    unpackAs requestMessage "RequestInfo"
      (fun (v : String × String × Unit) => some (.request ⟨v.1, v.2.1⟩)) bytes
  | "type.googleapis.com/google.rpc.ResourceInfo" =>
    unpackAs resourceMessage "ResourceInfo"
      (fun (v : String × String × String × String × Unit) =>
        some (.resource ⟨v.1, v.2.1, v.2.2.1, v.2.2.2.1⟩)) bytes
  | "type.googleapis.com/google.rpc.QuotaFailure" =>
    unpackAs quotaMessage "QuotaFailure"
      (fun (v : List (String × String × Unit) × Unit) =>
        some (.quota (v.1.map fun x => ⟨x.1, x.2.1⟩))) bytes
  | "type.googleapis.com/google.rpc.PreconditionFailure" =>
    unpackAs preconditionMessage "PreconditionFailure"
      (fun (v : List (String × String × String × Unit) × Unit) =>
        some (.precondition (v.1.map fun x => ⟨x.1, x.2.1, x.2.2.1⟩))) bytes
  | "type.googleapis.com/google.rpc.BadRequest" =>
    unpackAs badRequestMessage "BadRequest"
      (fun (v : List (String × String × Unit) × Unit) =>
        some (.badRequest (v.1.map fun x => ⟨x.1, x.2.1⟩))) bytes
  | "type.googleapis.com/google.rpc.ErrorInfo" =>
    unpackAs errorMessage "ErrorInfo"
      (fun (v : String × String × Table × Unit) => some (.error ⟨v.1, v.2.1, v.2.2.1⟩)) bytes
  | "type.googleapis.com/google.rpc.RetryInfo" =>
    unpackAs retryMessage "RetryInfo" (fun _ => none) bytes
  | "type.googleapis.com/google.rpc.Help" => unpackAs helpMessage "Help" (fun _ => none) bytes
  | "type.googleapis.com/google.rpc.LocalizedMessage" =>
    unpackAs localizedMessage "LocalizedMessage" (fun _ => none) bytes
  | _ => .ok none

/-- The records that were packed, in order. -/
def unpackAll : List (String × List UInt8 × Unit) → Except Wire.Fault (List Detail)
  | [] => .ok []
  | (url, bytes, ()) :: rest => do
    let d ← unpack url bytes
    .ok (d.toList ++ (← unpackAll rest))

def readDetails (bytes : List UInt8) : Except Wire.Fault (List Detail) := do
  let v ← statusMessage.readAll "Status" bytes
  unpackAll (show Int × String × List (String × List UInt8 × Unit) × Unit from v).2.2.1

/-- The detail records of a status; bytes that cannot be read carry none. -/
def detailRecords (s : RpcStatus) : List Detail :=
  match readDetails s.details with
  | .ok records => records
  | .error _ => []

end RpcStatus

/-! ## Details of a failure -/

def Cause.details : Cause → List Detail
  | kind k => [k.detail]
  | status s => s.detailRecords
  | remote r => r.details
  | interrupted i => [.ofReason i.message]
  | other text => [.ofReason text]

namespace Failure

def details (f : Failure) : List Detail := f.root.details

/-- The records that are told to a caller: the way of the failure, its request, and the records of
the root cause, merged. -/
def rendered (f : Failure) (requestId : String) : List Detail :=
  Detail.merge (.debug ⟨f.ops, ""⟩ :: .request ⟨requestId, ""⟩ :: f.details)

/-- The failure as an RPC status for a request. -/
def toStatus (f : Failure) (requestId : String) (order : EntryOrder := .ascending) : RpcStatus :=
  let records := (RpcStatus.Packed.ofDetails (f.rendered requestId)).toDetails
  ⟨f.canonicalCode, f.description,
    RpcStatus.statusBytes order f.canonicalCode f.description records⟩

end Failure

end Chassis
