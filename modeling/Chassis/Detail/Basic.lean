import Chassis.Table

/-!
# Detail records

A failure carries records that a machine can read beside its message: where it passed, which request
it belongs to, what resource, quota, condition or field is at fault. Seven types are known by name;
a record of any other type is kept as the text it came in.
-/

set_option autoImplicit false

namespace Chassis

/-- The operations a failing request went through, outermost first. -/
structure DebugInfo where
  stackEntries : List String := []
  detail : String := ""
deriving DecidableEq, Repr, Inhabited

structure RequestInfo where
  requestId : String := ""
  servingData : String := ""
deriving DecidableEq, Repr, Inhabited

structure ResourceInfo where
  resourceType : String := ""
  resourceName : String := ""
  owner : String := ""
  description : String := ""
deriving DecidableEq, Repr, Inhabited

structure QuotaViolation where
  subject : String := ""
  description : String := ""
deriving DecidableEq, Repr, Inhabited

structure PreconditionViolation where
  type : String := ""
  subject : String := ""
  description : String := ""
deriving DecidableEq, Repr, Inhabited

/-- A field of a request that is not acceptable. -/
structure FieldViolation where
  field : String := ""
  description : String := ""
deriving DecidableEq, Repr, Inhabited

/-- A reason for a failure that fits no other record. -/
structure ErrorInfo where
  reason : String := ""
  domain : String := ""
  metadata : Table := Table.empty
deriving DecidableEq, Repr, Inhabited

inductive Detail
  | debug (info : DebugInfo)
  | request (info : RequestInfo)
  | resource (info : ResourceInfo)
  | quota (violations : List QuotaViolation)
  | precondition (violations : List PreconditionViolation)
  | badRequest (violations : List FieldViolation)
  | error (info : ErrorInfo)
  | other (typeName : String) (value : String)
deriving DecidableEq, Repr, Inhabited

namespace Detail

def typeName : Detail → String
  | debug _ => "google.rpc.DebugInfo"
  | request _ => "google.rpc.RequestInfo"
  | resource _ => "google.rpc.ResourceInfo"
  | quota _ => "google.rpc.QuotaFailure"
  | precondition _ => "google.rpc.PreconditionFailure"
  | badRequest _ => "google.rpc.BadRequest"
  | error _ => "google.rpc.ErrorInfo"
  | other name _ => name

/-- The record that tells a reason in words only. -/
def ofReason (reason : String) : Detail :=
  .error ⟨reason, "", Table.empty⟩

/-! ## Merging -/

/-- A new text replaces an old one unless it is empty. -/
def overwrite (old new : String) : String :=
  if new = "" then old else new

/-- One request record after another: each field takes its last non-empty text. -/
def mergeRequest (a b : RequestInfo) : RequestInfo :=
  ⟨overwrite a.requestId b.requestId, overwrite a.servingData b.servingData⟩

/-- One debug record after another: the stacks follow each other, the detail is the last non-empty
one. -/
def mergeDebug (a b : DebugInfo) : DebugInfo :=
  ⟨a.stackEntries ++ b.stackEntries, overwrite a.detail b.detail⟩

def request? : Detail → Option RequestInfo
  | request info => some info
  | _ => none

def debug? : Detail → Option DebugInfo
  | debug info => some info
  | _ => none

/-- The record is neither about the request nor about the path of the failure. -/
def isOwn (d : Detail) : Bool :=
  d.request?.isNone && d.debug?.isNone

/-- All request records as one, all debug records as one, and the others in their order. -/
def merge (records : List Detail) : List Detail :=
  request ((records.filterMap request?).foldl mergeRequest {}) ::
    debug ((records.filterMap debug?).foldl mergeDebug {}) ::
    records.filter isOwn

end Detail

end Chassis
