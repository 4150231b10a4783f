import Chassis.Toml.Reader

/-!
# The settings of a service

Every setting has a default, so an empty document makes a service that runs. `Config.ofEntries`
reads a document: unknown keys are passed over, a section may also be written as the list of its
values in order, and the first value in the order of the document that has the wrong type is told.
-/

set_option autoImplicit false

namespace Chassis

open Toml

/-! ## Sections -/

structure Identity where
  name : String := "demo"
  profile : String := "default"
deriving DecidableEq, Repr, Inhabited

inductive LogFormat
  | pretty
  | json
deriving DecidableEq, Repr, Inhabited

structure Logging where
  level : String := "info,tower_http=debug"
  format : LogFormat := .pretty
deriving DecidableEq, Repr, Inhabited

structure Limit where
  seconds : Nat := 30
deriving DecidableEq, Repr, Inhabited

structure Listener where
  enabled : Bool := true
  address : String
deriving DecidableEq, Repr, Inhabited

/-- The places to listen, one for each front end. -/
structure Listeners where
  rest : Listener := { address := "0.0.0.0:8080" }
  metrics : Listener := { address := "0.0.0.0:8081" }
  rpc : Listener := { address := "0.0.0.0:8082" }
deriving DecidableEq, Repr, Inhabited

/-- The settings of a service. What belongs to a component is handed on as it is. -/
structure Config where
  app : Identity := {}
  logging : Logging := {}
  shutdown : Limit := {}
  http : Limit := {}
  endpoints : Listeners := {}
  components : Settings := []
deriving Repr, Inhabited

namespace Config

/-! ## Values of a type -/

/-- How a node is named in messages. A date counts as a table with one entry. -/
def found : Node → String
  | .scalar (.datetime _) => "map"
  | .scalar s => s.found
  | .array _ => "sequence"
  | .tables _ => "sequence"
  | .table _ _ => "map"

def wrongType {α : Type} (n : Node) (expected : String) : Except String α :=
  .error s!"invalid type: {found n}, expected {expected}"

def text : Node → Except String String
  | .scalar (.text s) => .ok s
  | n => wrongType n "a string"

def boolean : Node → Except String Bool
  | .scalar (.boolean b) => .ok b
  | n => wrongType n "a boolean"

def natural : Node → Except String Nat
  | .scalar (.integer n) =>
    if 0 ≤ n then .ok n.toNat else .error s!"invalid value: integer `{n}`, expected u64"
  | n => wrongType n "u64"

/-- The name of the type of a node, where a message tells it. -/
def typeName : Node → String
  | .scalar (.text _) => "string"
  | .scalar (.integer _) => "integer"
  | .scalar (.floating _) => "float"
  | .scalar (.boolean _) => "boolean"
  | .scalar (.datetime _) => "datetime"
  | .array _ => "array"
  | .tables _ => "array of tables"
  | .table .braces _ => "inline table"
  | .table _ _ => "table"

def logFormatNamed (name : String) : Except String LogFormat :=
  match name with
  | "pretty" => .ok .pretty
  | "json" => .ok .json
  | _ => .error s!"unknown variant `{name}`, expected `pretty` or `json`"

/-- A log format: its name, or a table with its name as the only key and an empty table under it. -/
def logFormat : Node → Except String LogFormat
  | .scalar (.text s) => logFormatNamed s
  | .table _ [] => .error "wanted exactly 1 element, found 0 elements"
  | .table _ [(name, n)] => do
    let format ← logFormatNamed name
    match n with
    | .table _ [] => .ok format
    | .table _ _ => .error "expected empty table"
    | n => .error s!"expected table, found {typeName n}"
  | .table _ _ => .error "wanted exactly 1 element, more than 1 element"
  | _ => .error "wanted string or table"

/-! ## Settings that are handed on

A date shows itself as a table with one entry under a key of its own. A table below the settings
that begins with this key is taken for a date in turn, whatever else it has. -/

/-- The key under which a date shows itself as a table. -/
def dateKey : String := "$__toml_private_datetime"

def date : Node → Except String Datetime
  | .scalar (.text s) =>
    match Datetime.ofLaxText? s.toList with
    | some d => .ok d
    | none => .error "failed to parse datetime"
  | n => wrongType n "string containing a datetime"

/-- What stands under the key of a date, if that is the first one. -/
def dateMark? : Entries → Option Node
  | [] => none
  | (key, node) :: _ => if key = dateKey then some node else none

mutual

/-- The node with dates in place of the tables that are taken for them. -/
def withDates : Node → Except String Node
  | .scalar s => .ok (.scalar s)
  | .array items => do .ok (.array (← itemsWithDates items))
  | .tables items => do .ok (.tables (← itemsWithDates items))
  | .table origin entries =>
    match dateMark? entries with
    | some node => do .ok (.scalar (.datetime (← date node)))
    | none => do .ok (.table origin (← entriesWithDates entries))

def itemsWithDates : List Node → Except String (List Node)
  | [] => .ok []
  | item :: rest => do
    let item ← withDates item
    .ok (item :: (← itemsWithDates rest))

def entriesWithDates : List (String × Node) → Except String (List (String × Node))
  | [] => .ok []
  | (key, node) :: rest => do
    let node ← withDates node
    .ok ((key, node) :: (← entriesWithDates rest))

end

def settings : Node → Except String Settings
  | .table _ entries => do .ok (entriesToSettings (← entriesWithDates entries))
  | .scalar (.datetime d) => .ok [(dateKey, .scalar (.text d.render))]
  | n => wrongType n "a map"

/-! ## Sections of a document -/

/-- A setting of a section: its key, whether it has to be there, and how a node changes it. -/
structure Setting (α : Type) where
  key : String
  required : Bool := false
  set : Node → α → Except String α

/-- A section: its name in messages and its settings in order. -/
structure Section (α : Type) where
  name : String
  settings : List (Setting α)

/-- Reads keys and values onto a section, in the order of the document. -/
def Section.readEntries {α : Type} (s : Section α) : Entries → α → Except String α
  | [], a => .ok a
  | (key, node) :: rest, a => do
    let a ← match s.settings.find? (·.key == key) with
      | some setting => setting.set node a
      | none => .ok a
    s.readEntries rest a

def Section.checkRequired {α : Type} (s : Section α) (entries : Entries) : Except String Unit :=
  match s.settings.find? fun f => f.required && (entries.get? f.key).isNone with
  | some f => .error s!"missing field `{f.key}`"
  | none => .ok ()

/-- Reads values in the order of the settings. -/
def readInOrder {α : Type} (expected : String) : Nat → List (Setting α) → List Node → α →
    Except String α
  | _, [], _, a => .ok a
  | position, f :: fs, [], a =>
    if f.required then .error s!"invalid length {position}, expected {expected}"
    else readInOrder expected (position + 1) fs [] a
  | position, f :: fs, n :: ns, a => do
    readInOrder expected (position + 1) fs ns (← f.set n a)

/-- The section that a node stands for, starting from its defaults. -/
def Section.read {α : Type} (s : Section α) (defaults : α) : Node → Except String α
  | .table _ entries => do
    let a ← s.readEntries entries defaults
    s.checkRequired entries
    .ok a
  | .array items | .tables items =>
    let count := s.settings.length
    let expected := s!"struct {s.name} with {count} element" ++ (if count = 1 then "" else "s")
    readInOrder expected 0 s.settings items defaults
  | .scalar (.datetime _) => do
    s.checkRequired []
    .ok defaults
  | n => wrongType n ("struct " ++ s.name)

def identitySection : Section Identity :=
  ⟨"AppSection",
    [{ key := "name", set := fun n a => do .ok { a with name := ← text n } },
      { key := "profile", set := fun n a => do .ok { a with profile := ← text n } }]⟩

def loggingSection : Section Logging :=
  ⟨"LoggingConfig",
    [{ key := "level", set := fun n a => do .ok { a with level := ← text n } },
      { key := "format", set := fun n a => do .ok { a with format := ← logFormat n } }]⟩

def limitSection (name key : String) : Section Limit :=
  ⟨name, [{ key := key, set := fun n _ => do .ok ⟨← natural n⟩ }]⟩

def listenerSection : Section Listener :=
  ⟨"EndpointConfig",
    [{ key := "enabled", set := fun n a => do .ok { a with enabled := ← boolean n } },
      { key := "address", required := true,
        set := fun n a => do .ok { a with address := ← text n } }]⟩

/-- One place to listen, before its address is known. -/
def noListener : Listener := { address := "" }

def listenersSection : Section Listeners :=
  ⟨"EndpointsConfig",
    [{ key := "rest",
        set := fun n a => do .ok { a with rest := ← listenerSection.read noListener n } },
      { key := "metrics",
        set := fun n a => do .ok { a with metrics := ← listenerSection.read noListener n } },
      { key := "rpc",
        set := fun n a => do .ok { a with rpc := ← listenerSection.read noListener n } }]⟩

def documentSection : Section Config :=
  ⟨"AppConfig",
    [{ key := "app", set := fun n c => do .ok { c with app := ← identitySection.read {} n } },
      { key := "logging",
        set := fun n c => do .ok { c with logging := ← loggingSection.read {} n } },
      { key := "shutdown",
        set := fun n c => do
          .ok { c with shutdown := ← (limitSection "ShutdownConfig" "timeout_secs").read {} n } },
      { key := "http",
        set := fun n c => do
          .ok { c with http := ← (limitSection "HttpConfig" "request_timeout_secs").read {} n } },
      { key := "endpoints",
        set := fun n c => do .ok { c with endpoints := ← listenersSection.read {} n } },
      { key := "components", set := fun n c => do .ok { c with components := ← settings n } }]⟩

def ofEntries (entries : Entries) : Except String Config :=
  documentSection.read {} (.table .header entries)

end Config

end Chassis
