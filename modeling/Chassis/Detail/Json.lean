import Chassis.Detail.Basic
import Chassis.Json.Reader
import Chassis.Json.Writer
import Chassis.Text.Utf8

/-!
# Detail records in JSON

In an envelope a record is an object with two texts: the name of its type and, under `value`, the
JSON text of its payload. The payload of a known type is a record whose blank fields are left out.
A payload that does not read as its type is kept verbatim, so no record is ever lost on the way.
-/

set_option autoImplicit false

namespace Chassis

open Json

/-! ## Payloads -/

def DebugInfo.layout : Layout DebugInfo where
  shape := .record "DebugInfo"
    (.cons "stack_entries" .omitted (.list .text) (.cons "detail" .omitted .text .nil))
  toValue d := (show List String × String × Unit from (d.stackEntries, d.detail, ()))
  ofValue := fun (v : List String × String × Unit) => ⟨v.1, v.2.1⟩
  ofValue_toValue _ := rfl

def RequestInfo.layout : Layout RequestInfo where
  shape := .record "RequestInfo"
    (.cons "request_id" .omitted .text (.cons "serving_data" .omitted .text .nil))
  toValue d := (show String × String × Unit from (d.requestId, d.servingData, ()))
  ofValue := fun (v : String × String × Unit) => ⟨v.1, v.2.1⟩
  ofValue_toValue _ := rfl

def ResourceInfo.layout : Layout ResourceInfo where
  shape := .record "ResourceInfo"
    (.cons "resource_type" .omitted .text (.cons "resource_name" .omitted .text
      (.cons "owner" .omitted .text (.cons "description" .omitted .text .nil))))
  toValue d := (show String × String × String × String × Unit from
    (d.resourceType, d.resourceName, d.owner, d.description, ()))
  ofValue := fun (v : String × String × String × String × Unit) =>
    ⟨v.1, v.2.1, v.2.2.1, v.2.2.2.1⟩
  ofValue_toValue _ := rfl

def QuotaViolation.shape : Shape :=
  .record "QuotaViolation"
    (.cons "subject" .omitted .text (.cons "description" .omitted .text .nil))

def PreconditionViolation.shape : Shape :=
  .record "PreconditionViolation"
    (.cons "type" .omitted .text (.cons "subject" .omitted .text
      (.cons "description" .omitted .text .nil)))

def FieldViolation.shape : Shape :=
  .record "FieldViolationInfo"
    (.cons "field" .omitted .text (.cons "description" .omitted .text .nil))

def QuotaViolation.listLayout : Layout (List QuotaViolation) where
  shape := .record "QuotaFailure" (.cons "violations" .omitted (.list QuotaViolation.shape) .nil)
  toValue vs := (show List (String × String × Unit) × Unit from
    (vs.map fun v => (v.subject, v.description, ()), ()))
  ofValue := fun (v : List (String × String × Unit) × Unit) => v.1.map fun x => ⟨x.1, x.2.1⟩
  ofValue_toValue vs := by
    show List.map _ (List.map _ vs) = vs
    rw [List.map_map]
    exact List.map_id _

def PreconditionViolation.listLayout : Layout (List PreconditionViolation) where
  shape := .record "PreconditionFailure"
    (.cons "violations" .omitted (.list PreconditionViolation.shape) .nil)
  toValue vs := (show List (String × String × String × Unit) × Unit from
    (vs.map fun v => (v.type, v.subject, v.description, ()), ()))
  ofValue := fun (v : List (String × String × String × Unit) × Unit) =>
    v.1.map fun x => ⟨x.1, x.2.1, x.2.2.1⟩
  ofValue_toValue vs := by
    show List.map _ (List.map _ vs) = vs
    rw [List.map_map]
    exact List.map_id _

def FieldViolation.listLayout : Layout (List FieldViolation) where
  shape := .record "BadRequestInfo"
    (.cons "field_violations" .omitted (.list FieldViolation.shape) .nil)
  toValue vs := (show List (String × String × Unit) × Unit from
    (vs.map fun v => (v.field, v.description, ()), ()))
  ofValue := fun (v : List (String × String × Unit) × Unit) => v.1.map fun x => ⟨x.1, x.2.1⟩
  ofValue_toValue vs := by
    show List.map _ (List.map _ vs) = vs
    rw [List.map_map]
    exact List.map_id _

def ErrorInfo.layout : Layout ErrorInfo where
  shape := .record "ErrorInfo"
    (.cons "reason" .omitted .text (.cons "domain" .omitted .text
      (.cons "metadata" .omitted .table .nil)))
  toValue d := (show String × String × Table × Unit from (d.reason, d.domain, d.metadata, ()))
  ofValue := fun (v : String × String × Table × Unit) => ⟨v.1, v.2.1, v.2.2.1⟩
  ofValue_toValue _ := rfl

/-! ## Records -/

namespace Detail

def valueJson : Detail → String
  | debug info => DebugInfo.layout.encode info
  | request info => RequestInfo.layout.encode info
  | resource info => ResourceInfo.layout.encode info
  | quota violations => QuotaViolation.listLayout.encode violations
  | precondition violations => PreconditionViolation.listLayout.encode violations
  | badRequest violations => FieldViolation.listLayout.encode violations
  | error info => ErrorInfo.layout.encode info
  | other _ value => value

/-- The record of a known type with a payload that reads as that type. -/
def decodeKnown? (typeName value : String) : Option Detail :=
  let bytes := Text.Utf8.encode value
  let read {α : Type} (l : Layout α) (make : α → Detail) : Option Detail :=
    (l.decode bytes).toOption.map make
  match typeName with
  | "google.rpc.DebugInfo" => read DebugInfo.layout debug
  | "google.rpc.RequestInfo" => read RequestInfo.layout request
  | "google.rpc.ResourceInfo" => read ResourceInfo.layout resource
  | "google.rpc.QuotaFailure" => read QuotaViolation.listLayout quota
  | "google.rpc.PreconditionFailure" => read PreconditionViolation.listLayout precondition
  | "google.rpc.BadRequest" => read FieldViolation.listLayout badRequest
  | "google.rpc.ErrorInfo" => read ErrorInfo.layout error
  | _ => none

/-- The record with a type name and the JSON text of a payload. -/
def decode (typeName value : String) : Detail :=
  (decodeKnown? typeName value).getD (other typeName value)

/-- The shape of a record in an envelope: the name of its type and its payload as text. -/
def shape : Shape :=
  .record "RawDetail" (.cons "@type" .required .text (.cons "value" .defaulted .text .nil))

def toTexts (d : Detail) : String × String × Unit := (d.typeName, d.valueJson, ())

def ofTexts (v : String × String × Unit) : Detail := decode v.1 v.2.1

def encode (d : Detail) : String :=
  String.ofList (shape.write d.toTexts)

def ofJson (bytes : List UInt8) : Except Fault Detail :=
  (shape.readDocument bytes).map ofTexts

end Detail

end Chassis
