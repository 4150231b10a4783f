import Chassis.Json.Shape
import Chassis.Json.Text

/-!
# Writing JSON

Compact text: no white space, fields in the order of the record, the keys of a table ascending.
-/

set_option autoImplicit false

namespace Chassis.Json

def commaSeparated : List (List Char) → List Char
  | [] => []
  | [item] => item
  | item :: rest => item ++ ',' :: commaSeparated rest

def writeMember (key : String) (value : List Char) : List Char :=
  writeText key ++ ':' :: value

mutual

def Shape.write : (s : Shape) → s.Value → List Char
  | .text => fun (v : String) => writeText v
  | .word16 => fun (v : UInt16) => (toString v.toNat).toList
  | .table => fun (v : Table) =>
    '\x7b' :: (commaSeparated (v.entries.map fun e => writeMember e.1 (writeText e.2)) ++ ['\x7d'])
  | .list item => fun (v : List item.Value) => '[' :: (commaSeparated (v.map item.write) ++ [']'])
  | .record _ fields => fun v => '\x7b' :: (commaSeparated (fields.write v) ++ ['\x7d'])

/-- The members of a record that are written. -/
def Fields.write : (fs : Fields) → fs.Value → List (List Char)
  | .nil => fun _ => []
  | .cons key presence shape rest => fun (v : shape.Value × rest.Value) =>
    if presence = .omitted ∧ shape.isBlank v.1 = true then rest.write v.2
    else writeMember key (shape.write v.1) :: rest.write v.2

end

def Layout.encode {α : Type} (l : Layout α) (a : α) : String :=
  String.ofList (l.shape.write (l.toValue a))

end Chassis.Json
