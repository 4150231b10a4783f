import Chassis.Json.Writer
import Chassis.Peer.Settings
import Chassis.Session.Shutdown

/-!
# Components and their recipes

A component is a part of the service that is made once from a section of settings. A recipe tells
how it is made, what is done right afterwards, and what is done with it at shutdown.
-/

set_option autoImplicit false

namespace Chassis.Session

/-! ## Components and recipes -/

inductive ComponentType
  | text
  | number
  | client
deriving DecidableEq, Repr, Inhabited

def ComponentType.name : ComponentType → String
  | text => "alloc::string::String"
  | number => "u32"
  | client => "service_skeleton::components::http_client::HttpClient"

inductive Component
  | text (s : String)
  | number (n : Nat)
  | client (c : PeerClient)
deriving DecidableEq, Repr

/-- The JSON text of a component, as notes show it. -/
def Component.json : Component → String
  | text s => String.ofList (Json.writeText s)
  | number n => toString n
  | client c => String.ofList (Json.writeText c.settings.baseUrl)

/-- What the callback does that is told of a component once it was made, call by call, and how it
ends. `probe` starts a ticker that looks after the peer of a client, if its settings ask for
that. -/
inductive CreatedAction
  | finish
  | panic
  | note (rest : CreatedAction)
  | addHook (added : HookAction) (rest : CreatedAction)
  | probe (rest : CreatedAction)
deriving DecidableEq, Repr, Inhabited

/-- How a component is made, and the callbacks that are told when it was made and that destroy it.
`isNoted` tells whether logs show that it is made. -/
structure Recipe where
  name : String
  type : ComponentType
  isNoted : Bool := true
  create : Source → Except String Component
  onCreated : Option CreatedAction := none
  onDestroy : Option HookAction := none

def Recipe.fullName (r : Recipe) (label : String) : String := s!"{r.name} ({label})"

def Recipe.debug (r : Recipe) : String :=
  s!"Descriptor \x7b name: {Text.quote r.name}, on_created: {r.onCreated.isSome}, " ++
    s!"on_destroy: {r.onDestroy.isSome} \x7d"

/-! ## Plans -/

/-- How a component without needs of its own is made: not at all, from a given text, or from its
section of settings. -/
inductive CreatePlan
  | fail (reason : String)
  | given (content : String)
  | scan
deriving DecidableEq, Repr, Inhabited

/-- A component made of a text: the text, or the number of its bytes. -/
def Component.ofText (type : ComponentType) (s : String) : Except String Component :=
  match type with
  | .number => .ok (.number s.utf8ByteSize)
  | _ => .ok (.text s)

/-- A component read from a section: `text` and `suffix` joined, or `size`. -/
def Component.ofSource (type : ComponentType) (s : Source) : Except String Component :=
  let result : Except ScanError Component :=
    match type with
    | .number => do
      let size ← Scan.read
        [{ key := "size", required := true, set := fun v _ => Scan.unsigned 32 v }] 0 s
      .ok (.number size)
    | _ => do
      let parts ← Scan.read
        [{ key := "text", required := true, set := fun v p => do .ok (← Scan.text v, p.2) },
          { key := "suffix", set := fun v p => do .ok (p.1, ← Scan.text v) }] ("", "") s
      .ok (.text (parts.1 ++ parts.2))
  result.mapError ScanError.message

def CreatePlan.run (type : ComponentType) (s : Source) : CreatePlan → Except String Component
  | fail reason => .error reason
  | given content => Component.ofText type content
  | scan => Component.ofSource type s

def Recipe.client : Recipe where
  name := "HttpClient"
  type := .client
  isNoted := false
  create s := do
    let settings ← (PeerSettings.ofSource s).mapError ScanError.message
    (PeerClient.ofSettings settings).map .client
  onCreated := some (.probe .finish)

end Chassis.Session
