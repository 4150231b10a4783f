import Chassis.Session.Component
import Chassis.Session.Ticker

/-!
# The registry of components

A component is registered under a full name with a recipe and a section of settings. It is made at
once or when it is first used, and never again: what came of it, a value or a failure, is kept. What
was made with success and has a way to be destroyed adds a hook that destroys it; because hooks run
the latest first, components are destroyed in the reverse order of their making.
-/

set_option autoImplicit false

namespace Chassis.Session

/-! ## Hooks and notes -/

inductive Hook
  | plain (name : String) (action : HookAction)
  | extra (fullName : String) (action : HookAction)
  | destroy (fullName : String) (value : Component) (action : HookAction)
  | stopTicker (name : String) (index : Option Nat)
deriving DecidableEq, Repr

/-- What a callback leaves behind. Every making of a component leaves a note; `shown` tells whether
logs show it. -/
inductive Note
  | hook (name : String)
  | retrigger (first : Bool)
  | triggered (yes : Bool)
  | create (fullName source : String) (shown : Bool)
  | created (fullName : String) (value : Component)
  | extra (fullName : String)
  | destroy (fullName : String) (value : Component)
deriving DecidableEq, Repr

def Note.render : Note → String
  | hook name => "hook " ++ name
  | retrigger first => s!"retrigger {first}"
  | triggered yes => s!"triggered {yes}"
  | create fullName source _ => s!"create {fullName} from {Text.quote source}"
  | created fullName value => s!"created {fullName} = {value.json}"
  | extra fullName => "extra " ++ fullName
  | destroy fullName value => s!"destroy {fullName} = {value.json}"

def Note.isShown : Note → Bool
  | create _ _ shown => shown
  | _ => true

/-! ## The registry -/

/-- A registered component and what came of it, once it was made. -/
structure Slot where
  fullName : String
  recipe : Recipe
  source : Source
  outcome : Option (Except String Component) := none

inductive RegistryError
  | construction (fullName reason : String)
  | duplicate (fullName : String)
  | unknown (fullName : String)
  | typeMismatch (fullName : String) (expected : ComponentType)
deriving DecidableEq, Repr

namespace RegistryError

def message : RegistryError → String
  | construction fullName reason => s!"while load {fullName}: {reason}"
  | duplicate fullName => s!"component {fullName} is already registered"
  | unknown fullName => s!"component {fullName} is not registered"
  | typeMismatch fullName expected => s!"component {fullName} is not a {expected.name}"

/-- The service cannot do without the component. -/
def isFatal : RegistryError → Bool
  | construction _ _ => true
  | _ => false

end RegistryError

/-- An accessor of a component, as logs show it. -/
def accessorDebug (fullName : String) : String :=
  s!"Provider \x7b component: {Text.quote fullName} \x7d"

/-- A registry with the shutdown that it adds hooks to, its tickers and its clock. -/
structure State where
  now : Nat := 0
  shutdown : Shutdown Hook := {}
  slots : List Slot := []
  tickers : List Ticker := []

namespace State

def slot? (s : State) (fullName : String) : Option Slot :=
  s.slots.find? (·.fullName == fullName)

def addHook (s : State) (hook : Hook) : State :=
  { s with shutdown := s.shutdown.addHook hook }

/-- The full names of all components, ascending. -/
def names (s : State) : List String :=
  (s.slots.map (·.fullName)).mergeSort (fun a b => decide (a ≤ b))

def settle (s : State) (fullName : String) (outcome : Except String Component) : State :=
  { s with slots := s.slots.map fun slot =>
      if slot.fullName = fullName then { slot with outcome := some outcome } else slot }

/-- The hook of a ticker that looks after the peer of a client. -/
def probeHooks (fullName : String) : Component → List Hook
  | .client c => if c.settings.healthPath.isSome then [.stopTicker fullName none] else []
  | _ => []

/-- Tells a callback of a component that was made: the notes that it leaves, the hooks that it adds,
and whether it ends in a panic. -/
def announce (fullName : String) (value : Component) :
    CreatedAction → List Note × List Hook × Bool
  | .finish => ([], [], false)
  | .panic => ([], [], true)
  | .note rest =>
    let (notes, hooks, panics) := announce fullName value rest
    (.created fullName value :: notes, hooks, panics)
  | .addHook added rest =>
    let (notes, hooks, panics) := announce fullName value rest
    (notes, .extra fullName added :: hooks, panics)
  | .probe rest =>
    let (notes, hooks, panics) := announce fullName value rest
    (notes, probeHooks fullName value ++ hooks, panics)

/-- Makes a component: the state with the hooks of the component, what came of it, and the notes. -/
def construct (s : State) (slot : Slot) : State × Except String Component × List Note :=
  let r := slot.recipe
  let notes := [Note.create slot.fullName slot.source.name r.isNoted]
  match r.create slot.source with
  | .error reason => (s, .error reason, notes)
  | .ok value =>
    let (more, hooks, panics) := r.onCreated.elim ([], [], false) (announce slot.fullName value)
    let s := hooks.foldl addHook s
    let notes := notes ++ more
    if panics then (s, .error "on_created hook panicked", notes)
    else match r.onDestroy with
      | none => (s, .ok value, notes)
      | some action => (s.addHook (.destroy slot.fullName value action), .ok value, notes)

/-- What came of a component as its accessor tells it. -/
def outcomeOf (fullName : String) : Except String Component → Except RegistryError Component
  | .ok value => .ok value
  | .error reason => .error (.construction fullName reason)

/-- Uses a component: makes it unless that was tried before. -/
def use (s : State) (slot : Slot) : State × Except RegistryError Component × List Note :=
  match slot.outcome with
  | some outcome => (s, outcomeOf slot.fullName outcome, [])
  | none =>
    let (s, outcome, notes) := s.construct slot
    (s.settle slot.fullName outcome, outcomeOf slot.fullName outcome, notes)

def accessor (s : State) (fullName : String) (type : ComponentType) :
    Except RegistryError Slot :=
  match s.slot? fullName with
  | none => .error (.unknown fullName)
  | some slot =>
    if slot.recipe.type = type then .ok slot else .error (.typeMismatch fullName type)

/-- Uses the component with a name and a type. -/
def get (s : State) (fullName : String) (type : ComponentType) :
    State × Except RegistryError Component × List Note :=
  match s.accessor fullName type with
  | .error e => (s, .error e, [])
  | .ok slot => s.use slot

/-- Registers a component; one that is not lazy is made at once. -/
def register (s : State) (label : String) (recipe : Recipe) (source : Source)
    (lazy : Bool) : State × Except RegistryError String × List Note :=
  let fullName := recipe.fullName label
  match s.slot? fullName with
  | some _ => (s, .error (.duplicate fullName), [])
  | none =>
    let slot : Slot := { fullName, recipe, source }
    let s := { s with slots := s.slots ++ [slot] }
    if lazy then (s, .ok fullName, [])
    else
      let (s, outcome, notes) := s.use slot
      (s, outcome.map fun _ => fullName, notes)

def isInitialized (s : State) (fullName : String) : Bool :=
  (s.slot? fullName).any (·.outcome.isSome)

/-! ## Shutdown -/

/-- Runs what a hook does: the state after it, the notes, and how it ends. Hooks run under a
shutdown that is triggered, so a trigger from inside of one has no hooks to run. -/
def runAction (s : State) : HookAction → State × List Note × HookEnd
  | .finish => (s, [], .finished)
  | .fail => (s, [], .failed)
  | .panic => (s, [], .panicked)
  | .addHook name added rest => (s.addHook (.plain name added)).runAction rest
  | .trigger rest =>
    let (first, _, shutdown) := s.shutdown.begin
    let (s, notes, ending) := runAction { s with shutdown } rest
    (s, .retrigger first :: notes, ending)
  | .tellTriggered rest =>
    let (after, notes, ending) := s.runAction rest
    (after, .triggered s.shutdown.triggered :: notes, ending)

/-- Runs a callback: it leaves a note and goes on from there. -/
def runCallback (s : State) (note : Note) (action : HookAction) : State × List Note × HookEnd :=
  let (s, notes, ending) := s.runAction action
  (s, note :: notes, ending)

def runHook (s : State) : Hook → State × List Note × HookEnd
  | .plain name action => s.runCallback (.hook name) action
  | .extra fullName action => s.runCallback (.extra fullName) action
  | .destroy fullName value action => s.runCallback (.destroy fullName value) action
  | .stopTicker _ none => (s, [], .finished)
  | .stopTicker _ (some i) =>
    ({ s with tickers := s.tickers.modify i fun t => { t with stopped := true } }, [], .finished)

/-- Runs hooks in order. A failure or a panic ends the hook that it happens in, and no other. -/
def runEach : List Hook → State → State × List Note
  | [], s => (s, [])
  | hook :: rest, s =>
    match s.runHook hook with
    | (s, notes, .finished) | (s, notes, .failed) | (s, notes, .panicked) =>
      let (s, more) := runEach rest s
      (s, notes ++ more)

/-- Runs all hooks. That shutdown is done is told when the last of them has run. -/
def runHooks (hooks : List Hook) (s : State) : State × List Note :=
  let (s, notes) := runEach hooks s
  ({ s with shutdown := s.shutdown.finish }, notes)

/-- Triggers shutdown: tells whether this is the first time, and runs all hooks if it is. -/
def trigger (s : State) : State × Bool × List Note :=
  match s.shutdown.begin with
  | (false, _, _) => (s, false, [])
  | (true, hooks, shutdown) =>
    let (s, notes) := runHooks hooks { s with shutdown }
    (s, true, notes)

/-! ## Time -/

def advance (s : State) (ms : Nat) : State :=
  let now := s.now + ms
  { s with now, tickers := s.tickers.map (·.moveTo now) }

/-- Waits for shutdown to be done, and no longer than for some time: tells whether it is done
then. -/
def wait (s : State) (ms : Nat) : State × Bool :=
  if s.shutdown.done then (s, true)
  else
    let s := s.advance ms
    (s, s.shutdown.done)

def startTicker (s : State) (name : String) (period : Nat) : State :=
  let t := Ticker.start name period s.now s.shutdown.triggered
  { s with tickers := s.tickers ++ [t] }.addHook (.stopTicker name (some s.tickers.length))

/-- The newest ticker of each name, by name. -/
def ticks (s : State) : List (String × Ticker) :=
  s.tickers.foldl (fun acc t => insertSorted t.name t acc) []

end State

end Chassis.Session
