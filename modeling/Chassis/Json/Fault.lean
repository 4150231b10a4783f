import Chassis.Text.Quoted

/-!
# What is wrong with a JSON text

A reader that gives up says why and where. A `Reason` is either about the text itself (it is cut
short, or a character is out of place) or about a value that is well formed but not the one that is
expected. The place is a line and a column, both as a person counts the bytes already read; the
path names the fields and positions that lead to the value.
-/

set_option autoImplicit false

namespace Chassis.Json

/-- A value that is not the one expected, as messages name it. -/
inductive Found
  | null
  | boolean (b : Bool)
  | integer (n : Int)
  | floating (digits : String)
  | text (s : String)
  | sequence
  | map
deriving DecidableEq, Repr

def Found.render : Found → String
  | .null => "null"
  | .boolean b => s!"boolean `{b}`"
  | .integer n => s!"integer `{n}`"
  | .floating digits => s!"floating point `{digits}`"
  | .text s => "string " ++ Text.quote s
  | .sequence => "sequence"
  | .map => "map"

inductive Reason
  | endInList
  | endInObject
  | endInString
  | endInValue
  | expectedColon
  | expectedListCommaOrEnd
  | expectedObjectCommaOrEnd
  | expectedIdent
  | expectedValue
  | invalidEscape
  | invalidNumber
  | numberOutOfRange
  | invalidCodePoint
  | controlCharacter
  | keyNotText
  | loneSurrogate
  | endInHexEscape
  | trailingComma
  | trailingCharacters
  | tooDeep
  | invalidType (found : Found) (expected : String)
  | invalidValue (found : Found) (expected : String)
  | invalidLength (length : Nat) (expected : String)
  | missingField (name : String)
  | duplicateField (name : String)
deriving DecidableEq, Repr

def Reason.message : Reason → String
  | endInList => "EOF while parsing a list"
  | endInObject => "EOF while parsing an object"
  | endInString => "EOF while parsing a string"
  | endInValue => "EOF while parsing a value"
  | expectedColon => "expected `:`"
  | expectedListCommaOrEnd => "expected `,` or `]`"
  | expectedObjectCommaOrEnd => "expected `,` or `\x7d`"
  | expectedIdent => "expected ident"
  | expectedValue => "expected value"
  | invalidEscape => "invalid escape"
  | invalidNumber => "invalid number"
  | numberOutOfRange => "number out of range"
  | invalidCodePoint => "invalid unicode code point"
  | controlCharacter => "control character (\\u0000-\\u001F) found while parsing a string"
  | keyNotText => "key must be a string"
  | loneSurrogate => "lone leading surrogate in hex escape"
  | endInHexEscape => "unexpected end of hex escape"
  | trailingComma => "trailing comma"
  | trailingCharacters => "trailing characters"
  | tooDeep => "recursion limit exceeded"
  | invalidType found expected => s!"invalid type: {found.render}, expected {expected}"
  | invalidValue found expected => s!"invalid value: {found.render}, expected {expected}"
  | invalidLength length expected => s!"invalid length {length}, expected {expected}"
  | missingField name => s!"missing field `{name}`"
  | duplicateField name => s!"duplicate field `{name}`"

/-- The text is well formed as far as it was read; the value is not the one expected. -/
def Reason.isAboutData : Reason → Bool
  | invalidType .. | invalidValue .. | invalidLength .. | missingField .. => true
  | duplicateField .. => true
  | _ => false

inductive Step
  | field (name : String)
  | index (position : Nat)
deriving DecidableEq, Repr

structure Fault where
  reason : Reason
  line : Nat
  column : Nat
  path : List Step := []
deriving DecidableEq, Repr

namespace Fault

def message (f : Fault) : String :=
  s!"{f.reason.message} at line {f.line} column {f.column}"

/-- The fault, seen from one step further out. -/
def within (step : Step) (f : Fault) : Fault :=
  { f with path := step :: f.path }

/-- The path as text: names after dots, positions in brackets. -/
def renderPath : List Step → String
  | [] => ""
  | .field name :: rest => renderRest name rest
  | .index i :: rest => renderRest s!"[{i}]" rest
where
  /-- The steps after the first. -/
  renderRest (acc : String) : List Step → String
    | [] => acc
    | .field name :: rest => renderRest (acc ++ "." ++ name) rest
    | .index i :: rest => renderRest (acc ++ s!"[{i}]") rest

/-- The message with the path in front, if there is one. -/
def messageWithPath (f : Fault) : String :=
  if f.path.isEmpty then f.message else renderPath f.path ++ ": " ++ f.message

end Fault

end Chassis.Json
