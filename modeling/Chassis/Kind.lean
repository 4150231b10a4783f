import Chassis.Code
import Chassis.Detail.Basic
import Chassis.Text.Quoted

/-!
# Kinds of failure

The failures that a service raises on purpose: each has a message in which every field is quoted, a
detail record with the same fields, a code that goes with it, and a short name for its base.
-/

set_option autoImplicit false

namespace Chassis

inductive Kind
  | notFound (resourceType id : String)
  | resourceExhausted (subject description : String)
  | failedPrecondition (type subject description : String)
  | badRequest (violations : List FieldViolation)
deriving DecidableEq, Repr

namespace Kind

/-- What every failure of a kind has in common, in words. -/
def base : Kind → String
  | notFound .. => "not found"
  | resourceExhausted .. => "resource exhausted"
  | failedPrecondition .. => "failed precondition"
  | badRequest .. => "bad request"

def code : Kind → Code
  | notFound .. => .notFound
  | resourceExhausted .. => .resourceExhausted
  | failedPrecondition .. => .failedPrecondition
  | badRequest .. => .invalidArgument

/-- The detail record with the fields of a failure. -/
def detail : Kind → Detail
  | notFound resourceType id => .resource ⟨resourceType, id, "", ""⟩
  | resourceExhausted subject description => .quota [⟨subject, description⟩]
  | failedPrecondition type subject description => .precondition [⟨type, subject, description⟩]
  | badRequest violations => .badRequest violations

def item (name value : String) : String :=
  name ++ " = " ++ Text.quote value

/-- The part of a message that tells one violation. -/
def violationText (v : FieldViolation) : String :=
  " " ++ item "field" v.field ++ ", " ++ item "desc" v.description ++ ";"

/-- The message: the base and every field, quoted. -/
def message (k : Kind) : String :=
  match k with
  | notFound resourceType id => k.base ++ ", " ++ item "type" resourceType ++ ", " ++ item "id" id
  | resourceExhausted subject description =>
    k.base ++ ", " ++ item "subject" subject ++ ", " ++ item "desc" description
  | failedPrecondition type subject description =>
    k.base ++ ", " ++ item "type" type ++ ", " ++ item "subject" subject ++ ", " ++
      item "desc" description
  | badRequest violations => k.base ++ ";" ++ String.join (violations.map violationText)

end Kind

end Chassis
