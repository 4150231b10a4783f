import Chassis.Table

/-!
# Shapes of JSON values

What the service sends as JSON has one of a few shapes: texts, small numbers, lists, tables of
texts, and records whose fields have a fixed order. A `Shape` describes such a value, and
`Shape.Value` is the type of the values it describes, so that one writer and one reader serve all of
them and neither can meet a value of the wrong form.
-/

set_option autoImplicit false

namespace Chassis.Json

/-- Whether a field has to be there, and whether it is written. A `defaulted` field may be missing
and is always written; an `omitted` field is left out when it is blank. -/
inductive Presence
  | required
  | defaulted
  | omitted
deriving DecidableEq, Repr

mutual

inductive Shape
  | text
  | word16
  | table
  | list (item : Shape)
  | record (name : String) (fields : Fields)

inductive Fields
  | nil
  | cons (key : String) (presence : Presence) (shape : Shape) (rest : Fields)

end

mutual

def Shape.Value : Shape → Type
  | .text => String
  | .word16 => UInt16
  | .table => Table
  | .list item => List item.Value
  | .record _ fields => fields.Value

def Fields.Value : Fields → Type
  | .nil => Unit
  | .cons _ _ shape rest => shape.Value × rest.Value

end

mutual

/-- The blank value of a shape: empty, zero, or a record of such. -/
def Shape.blank : (s : Shape) → s.Value
  | .text => ""
  | .word16 => (0 : UInt16)
  | .table => Table.empty
  | .list _ => []
  | .record _ fields => fields.blank

def Fields.blank : (fs : Fields) → fs.Value
  | .nil => ()
  | .cons _ _ shape rest => (shape.blank, rest.blank)

end

/-- The value is an empty text, list or table. -/
def Shape.isBlank : (s : Shape) → s.Value → Bool
  | .text => fun (v : String) => v == ""
  | .word16 => fun _ => false
  | .table => fun (v : Table) => v.isEmpty
  | .list item => fun (v : List item.Value) => v.isEmpty
  | .record _ _ => fun _ => false

def Fields.count : Fields → Nat
  | .nil => 0
  | .cons _ _ _ rest => rest.count + 1

/-- What messages say about the shape that is expected. -/
def Shape.expected : Shape → String
  | .text => "a string"
  | .word16 => "u16"
  | .table => "a map"
  | .list _ => "a sequence"
  | .record name _ => "struct " ++ name

/-- What messages say about a record with a given number of fields. -/
def expectedRecord (name : String) (count : Nat) : String :=
  if count = 1 then s!"struct {name} with 1 element" else s!"struct {name} with {count} elements"

/-- A type together with the shape of its JSON form. Reading the form back gives the same value. -/
structure Layout (α : Type) where
  shape : Shape
  toValue : α → shape.Value
  ofValue : shape.Value → α
  ofValue_toValue : ∀ a, ofValue (toValue a) = a

end Chassis.Json
