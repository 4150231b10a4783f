import Chassis.Directory

/-!
# The command line of the probe

Options come first, then a command with its own arguments: `health`, `get ID`, `peer ID`, or
`create` with a name and an address. An option takes the word after it, or what stands behind its
equals sign, and is given at most once. A word that starts with a dash is no value, except a dash
alone.
-/

set_option autoImplicit false

namespace Chassis.Probe

inductive Command
  | health
  | get (id : String)
  | create (user : NewUser)
  | peer (id : String)
deriving DecidableEq, Repr

structure Options where
  url : String := "http://localhost:8080"
  requestId : Option String := none
  command : Command
deriving DecidableEq, Repr

/-! ## Words -/

inductive Word
  | value (s : String)
  | option (name : String) (attached : Option String)
deriving DecidableEq, Repr

def splitEquals (cs : List Char) : String × Option String :=
  let name := cs.takeWhile (· != '=')
  (String.ofList name,
    if name.length = cs.length then none else some (String.ofList (cs.drop (name.length + 1))))

/-- Reads a word. Behind a letter after one dash a value may follow at once. -/
def Word.ofText (s : String) : Word :=
  match s.toList with
  | '-' :: '-' :: rest =>
    let (name, attached) := splitEquals rest
    .option ("--" ++ name) attached
  | ['-'] => .value s
  | '-' :: letter :: rest =>
    let attached := match rest with
      | [] => none
      | '=' :: cs => some (String.ofList cs)
      | cs => some (String.ofList cs)
    .option (String.ofList ['-', letter]) attached
  | _ => .value s

/-! ## Reading -/

/-- The value of an option and the words after it. -/
def takeValue (attached : Option String) (words : List String) : Option (String × List String) :=
  match attached, words with
  | some v, _ => some (v, words)
  | none, [] => none
  | none, w :: rest =>
    match Word.ofText w with
    | .value v => some (v, rest)
    | .option _ _ => none

/-- Reads options with a value onto a table, up to the first word that is none. `known` gives an
option its name in the table. -/
def readOptions (known : String → Option String) :
    Nat → List (String × String) → List String → Option (List (String × String) × List String)
  | 0, found, words => some (found, words)
  | fuel + 1, found, words =>
    match words with
    | [] => some (found, [])
    | w :: rest =>
      match Word.ofText w with
      | .value _ => some (found, words)
      | .option name attached => do
        let key ← known name
        let (v, rest) ← takeValue attached rest
        if found.any (·.1 == key) then none else readOptions known fuel ((key, v) :: found) rest

/-- Reads the one argument of a command. A double dash in front makes any word a value. -/
def readArgument : List String → Option String
  | ["--", w] => some w
  | [w] =>
    match Word.ofText w with
    | .value v => some v
    | .option _ _ => none
  | _ => none

def readCommand : List String → Option Command
  | ["health"] => some .health
  | "get" :: rest => (readArgument rest).map .get
  | "peer" :: rest => (readArgument rest).map .peer
  | "create" :: rest => do
    let known (name : String) := if ["--name", "--email"].contains name then some name else none
    let (found, rest) ← readOptions known rest.length [] rest
    if !rest.isEmpty then none
    else some (.create ⟨← found.lookup "--name", ← found.lookup "--email"⟩)
  | _ => none

def Options.ofArguments? (arguments : List String) : Option Options := do
  let known : String → Option String
    | "--url" | "-u" => some "--url"
    | "--request-id" => some "--request-id"
    | _ => none
  let (found, rest) ← readOptions known arguments.length [] arguments
  let command ← readCommand rest
  some
    { url := (found.lookup "--url").getD "http://localhost:8080"
      requestId := found.lookup "--request-id", command }

end Chassis.Probe
