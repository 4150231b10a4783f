import Chassis.Config.Schema
import Chassis.Json.Tree
import Chassis.Text.Split

/-!
# Log lines

A log line has a level and named values, one of which is its message. Which lines are written is
told by directives: a level for every line, or for the lines of one part of the program; of the
directives that fit a line the one that names the longest part counts.
-/

set_option autoImplicit false

namespace Chassis.Service

inductive Level
  | error
  | warn
  | info
  | debug
  | trace
deriving DecidableEq, Repr

namespace Level

def name : Level → String
  | error => "ERROR"
  | warn => "WARN"
  | info => "INFO"
  | debug => "DEBUG"
  | trace => "TRACE"

/-- How many levels are at least as important. -/
def rank : Level → Nat
  | error => 1
  | warn => 2
  | info => 3
  | debug => 4
  | trace => 5

end Level

/-! ## Directives -/

/-- A directive: lines whose origin starts with `target` are written up to a rank. -/
structure Directive where
  target : String
  rank : Nat
deriving DecidableEq, Repr

namespace Directive

/-- The rank that a word stands for: the name or the number of a level, or `off`. -/
def rank? (word : String) : Option Nat :=
  match word.toLower with
  | "off" | "0" => some 0
  | "error" | "1" => some 1
  | "warn" | "2" => some 2
  | "info" | "3" => some 3
  | "debug" | "4" => some 4
  | "trace" | "5" => some 5
  | _ => none

def isTarget (s : String) : Bool :=
  s != "" && s.toList.all fun c => c.isAlphanum || c == '_' || c == ':' || c == '-'

/-- Reads one directive. A name alone lets everything through. -/
def ofText? (s : String) : Option Directive :=
  match rank? s with
  | some rank => some ⟨"", rank⟩
  | none =>
    match Text.splitText '=' s with
    | [target] => if isTarget target then some ⟨target, 5⟩ else none
    | [target, level] =>
      if !isTarget target then none
      else if level = "" then some ⟨target, 5⟩
      else (rank? level).map (⟨target, ·⟩)
    | _ => none

/-- Reads directives between commas. Those that cannot be read are left out; if none is left, errors
are written. -/
def listOfText (s : String) : List Directive :=
  match (Text.splitText ',' s).filterMap ofText? with
  | [] => [⟨"", 1⟩]
  | directives => directives

/-- The rank up to which lines with an origin are written. -/
def rankOf (directives : List Directive) (origin : String) : Nat :=
  let fits := directives.filter fun d => d.target.toList.isPrefixOf origin.toList
  let best := fits.foldl (fun best d =>
    match best with
    | none => some d
    | some (b : Directive) => if b.target.length ≤ d.target.length then some d else some b) none
  (best.map (·.rank)).getD 0

end Directive

/-! ## Lines -/

structure LogLine where
  level : Level
  message : String
  values : List (String × Json.Tree) := []

namespace LogLine

/-- The part of the program that lines come from. -/
def origin : String := "service_skeleton"

def isWritten (directives : List Directive) (l : LogLine) : Bool :=
  l.level.rank ≤ Directive.rankOf directives origin

/-- The values and the message as a JSON object, the names ascending. -/
def valuesJson (l : LogLine) : String :=
  let members := (("message", .text l.message) :: l.values).foldl
    (fun members (name, v) => insertSorted name v members) []
  String.ofList (Json.Tree.writeLine (.object members))

/-- The line as a JSON object with its level and its values. -/
def jsonText (l : LogLine) : String :=
  "\x7b\"level\":\"" ++ l.level.name ++ "\",\"fields\":" ++ l.valuesJson ++ "\x7d"

/-- A value as text: a text as it is, any other value as JSON. -/
def plainValue : Json.Tree → String
  | .text s => s
  | t => String.ofList t.writeLine

/-- The line for a reader: its level, its message, and its values by name. -/
def plainText (l : LogLine) : String :=
  String.join (l.level.name :: " " :: l.message ::
    l.values.map fun (name, v) => " " ++ name ++ "=" ++ plainValue v)

def render (l : LogLine) : LogFormat → String
  | .json => l.jsonText
  | .pretty => l.plainText

end LogLine

end Chassis.Service
