import Chassis.Text.Quoted

/-!
# Canonical codes

Every failure falls into one of seventeen categories, whatever protocol it travels by. A code has a
number on the RPC wire, a token in the JSON envelope and a status in HTTP. The first two tables are
injective, so a code can be read back from either (`ofNumber?_number`, `ofToken?_token`); several
codes share an HTTP status.
-/

set_option autoImplicit false

namespace Chassis

inductive Code
  | ok
  | canceled
  | unknown
  | invalidArgument
  | deadlineExceeded
  | notFound
  | alreadyExists
  | permissionDenied
  | resourceExhausted
  | failedPrecondition
  | aborted
  | outOfRange
  | unimplemented
  | internal
  | unavailable
  | dataLoss
  | unauthenticated
deriving DecidableEq, Repr, Inhabited

namespace Code

/-- Every code, in the order of the wire numbers. -/
def all : List Code :=
  [ok, canceled, unknown, invalidArgument, deadlineExceeded, notFound, alreadyExists,
    permissionDenied, resourceExhausted, failedPrecondition, aborted, outOfRange, unimplemented,
    internal, unavailable, dataLoss, unauthenticated]

def number : Code → Nat
  | ok => 0
  | canceled => 1
  | unknown => 2
  | invalidArgument => 3
  | deadlineExceeded => 4
  | notFound => 5
  | alreadyExists => 6
  | permissionDenied => 7
  | resourceExhausted => 8
  | failedPrecondition => 9
  | aborted => 10
  | outOfRange => 11
  | unimplemented => 12
  | internal => 13
  | unavailable => 14
  | dataLoss => 15
  | unauthenticated => 16

def token : Code → String
  | ok => "OK"
  | canceled => "CANCELLED"
  | unknown => "UNKNOWN"
  | invalidArgument => "INVALID_ARGUMENT"
  | deadlineExceeded => "DEADLINE_EXCEEDED"
  | notFound => "NOT_FOUND"
  | alreadyExists => "ALREADY_EXISTS"
  | permissionDenied => "PERMISSION_DENIED"
  | resourceExhausted => "RESOURCE_EXHAUSTED"
  | failedPrecondition => "FAILED_PRECONDITION"
  | aborted => "ABORTED"
  | outOfRange => "OUT_OF_RANGE"
  | unimplemented => "UNIMPLEMENTED"
  | internal => "INTERNAL"
  | unavailable => "UNAVAILABLE"
  | dataLoss => "DATA_LOSS"
  | unauthenticated => "UNAUTHENTICATED"

/-- The HTTP status of a response with this outcome. -/
def httpStatus : Code → Nat
  | ok => 200
  | canceled => 499
  | unknown => 500
  | invalidArgument => 400
  | deadlineExceeded => 504
  | notFound => 404
  | alreadyExists => 409
  | permissionDenied => 403
  | resourceExhausted => 429
  | failedPrecondition => 400
  | aborted => 409
  | outOfRange => 400
  | unimplemented => 501
  | internal => 500
  | unavailable => 503
  | dataLoss => 500
  | unauthenticated => 401

def ofToken? (token : String) : Option Code :=
  all.find? (·.token == token)

/-- The message about a token outside the table. -/
def unknownMessage (token : String) : String := "unknown status token: " ++ Text.quote token

/-- The code of any token; one outside the table means `unknown`. -/
def ofToken (token : String) : Code :=
  (ofToken? token).getD unknown

def ofNumber? (n : Nat) : Option Code :=
  all.find? (·.number == n)

/-- The code of any wire number; one outside the table means `unknown`. -/
def ofNumber (n : Int) : Code :=
  match n with
  | .ofNat n => (ofNumber? n).getD unknown
  | .negSucc _ => unknown

/-- The token of a code leads back to it. -/
theorem ofToken?_token (c : Code) : ofToken? c.token = some c := by
  cases c <;> decide

/-- The token of a code leads back to it, also where any text is taken. -/
theorem ofToken_token (c : Code) : ofToken c.token = c := by
  rw [ofToken, ofToken?_token]
  rfl

/-- The number of a code leads back to it. -/
theorem ofNumber?_number (c : Code) : ofNumber? c.number = some c := by
  cases c <;> rfl

/-- The number of a code leads back to it, also where any number is taken. -/
theorem ofNumber_number (c : Code) : ofNumber c.number = c := by
  cases c <;> rfl

end Code

end Chassis
