import Chassis.Text.Quoted
import Chassis.Text.Split
import Chassis.Toml.Reader

/-!
# Sections of settings by name

A component takes its settings from the section with its name. Dots in a name lead from table to
table; a name that leads nowhere stands for an empty section, and one that leads to something other
than a table is refused. The result depends on nothing but what the name leads to.
-/

set_option autoImplicit false

namespace Chassis

open Toml

/-- A section of settings: its name and what the name leads to. -/
structure Source where
  name : String
  value : Option Value
deriving Repr, Inhabited

inductive ScanError
  | notATable (name : String)
  | mistyped (name reason : String)
deriving DecidableEq, Repr

/-- The error in words. Of a wrong value the reason ends its line. -/
def ScanError.message : ScanError → String
  | notATable name => s!"config section {Text.quote name} is not a table"
  | mistyped name reason => s!"config section {Text.quote name}: {reason}\n"

namespace Source

def empty (name : String) : Source := ⟨name, none⟩

/-- What a list of keys leads to from a value. -/
def follow : Option Value → List String → Option Value
  | v, [] => v
  | v, key :: keys => follow (v.bind (·.get? key)) keys

/-- The keys of a name: its parts between dots. -/
def keys (name : String) : List String :=
  Text.splitText '.' name

def ofSettings (root : Settings) (name : String) : Source :=
  ⟨name, follow (some (.table root)) (keys name)⟩

def raw (s : Source) : Except ScanError Settings :=
  match s.value with
  | none => .ok []
  | some (.table entries) => .ok entries
  | some _ => .error (.notATable s.name)

end Source

/-! ## Reading a section -/

namespace Scan

def inKey (key reason : String) : String := s!"{reason}\nin `{key}`"

def wrongType {α : Type} (v : Value) (expected : String) : Except String α :=
  .error s!"invalid type: {v.found}, expected {expected}"

/-- A text. A date counts as the text of it. -/
def text : Value → Except String String
  | .scalar (.text s) => .ok s
  | .scalar (.datetime d) => .ok d.render
  | v => wrongType v "a string"

/-- A number that is not negative and fits a type of some bits. -/
def unsigned (bits : Nat) : Value → Except String Nat
  | .scalar (.integer n) =>
    if 0 ≤ n ∧ n < Nat.pow 2 bits then .ok n.toNat
    else .error s!"invalid value: integer `{n}`, expected u{bits}"
  | v => wrongType v s!"u{bits}"

/-- A setting of a section: its key and how a value changes what is read. -/
structure Setting (α : Type) where
  key : String
  required : Bool := false
  set : Value → α → Except String α

/-- Reads settings in order onto their defaults. -/
def readEntries {α : Type} (fields : List (Setting α)) : Settings → α → Except String α
  | [], a => .ok a
  | (key, v) :: rest, a => do
    let a ← match fields.find? (·.key == key) with
      | some f => (f.set v a).mapError (inKey key)
      | none => .ok a
    readEntries fields rest a

/-- Reads the settings of a section onto their defaults. -/
def read {α : Type} (fields : List (Setting α)) (defaults : α) (s : Source) :
    Except ScanError α := do
  let entries ← s.raw
  let checked := fields.find? fun f => f.required && (entries.get? f.key).isNone
  let result := do
    let a ← readEntries fields entries defaults
    match checked with
    | some f => .error s!"missing field `{f.key}`"
    | none => .ok a
  result.mapError (.mistyped s.name)

end Scan

end Chassis
