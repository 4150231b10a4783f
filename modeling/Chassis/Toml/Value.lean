import Chassis.Decimal.Format
import Chassis.Table
import Chassis.Text.Quoted
import Chassis.Toml.Datetime

/-!
# Settings as values

What a settings file holds, once nothing is left of how it was written: plain values, lists, and
tables with their keys in ascending order.
-/

set_option autoImplicit false

namespace Chassis.Toml

/-- A value without parts. Floating point numbers are kept as their bits. -/
inductive Scalar
  | text (s : String)
  | integer (n : Int)
  | floating (bits : UInt64)
  | boolean (b : Bool)
  | datetime (d : Datetime)
deriving DecidableEq, Repr, Inhabited

inductive Value
  | scalar (s : Scalar)
  | array (items : List Value)
  | table (entries : List (String × Value))
deriving Repr, Inhabited

abbrev Settings := List (String × Value)

def Settings.get? (t : Settings) (key : String) : Option Value :=
  (t.find? (·.1 == key)).map (·.2)

/-- The value under a key, if the value is a table that has it. -/
def Value.get? (v : Value) (key : String) : Option Value :=
  match v with
  | .table entries => Settings.get? entries key
  | _ => none

/-- How a scalar is named in messages. A date counts as the text of it. -/
def Scalar.found : Scalar → String
  | .text s => "string " ++ Text.quote s
  | .integer n => s!"integer `{n}`"
  | .floating bits => s!"floating point `{Decimal.renderBits .message bits.toNat}`"
  | .boolean b => s!"boolean `{b}`"
  | .datetime d => "string " ++ Text.quote d.render

def Value.found : Value → String
  | .scalar s => s.found
  | .array _ => "sequence"
  | .table _ => "map"

end Chassis.Toml
