import Chassis.Session.Registry

/-!
# Sessions, action by action

A session is what is done with one registry and its shutdown. Every action gives an answer, and the
callbacks that run meanwhile leave notes. A session is written with its latest action first, so that
what an action does depends on the tail behind it: `run past` is the state that `past` leads to and
`turn past a` is what happens when `a` is done then.
-/

set_option autoImplicit false

namespace Chassis.Session

inductive Action
  | addHook (name : String) (action : HookAction)
  | trigger
  | isTriggered
  | wait (ms : Nat)
  | register (label : String) (recipe : Recipe) (source : Source) (lazy : Bool)
  | provider (fullName : String) (type : ComponentType)
  | get (fullName : String) (type : ComponentType)
  | names
  | describe (label : String) (recipe : Recipe)
  | startTicker (name : String) (period : Nat)
  | advance (ms : Nat)
  | ticks

/-- The answer to an action. An accessor is told by its name and whether its component was made. -/
inductive Answer
  | done
  | flag (yes : Bool)
  | accessor (result : Except RegistryError (String × Bool))
  | component (result : Except RegistryError Component)
  | texts (lines : List String)
  | ticks (tickers : List (String × Ticker))

/-- What comes of an action: its answer, the notes of the callbacks, and the state after it. -/
structure Turn where
  answer : Answer
  notes : List Note := []
  after : State

namespace State

def act (s : State) : Action → Turn
  | .addHook name action => { answer := .done, after := s.addHook (.plain name action) }
  | .trigger =>
    let (s, first, notes) := s.trigger
    { answer := .flag first, notes, after := s }
  | .isTriggered => { answer := .flag s.shutdown.triggered, after := s }
  | .wait ms =>
    let (s, done) := s.wait ms
    { answer := .flag done, after := s }
  | .register label recipe source lazy =>
    let (s, result, notes) := s.register label recipe source lazy
    { answer := .accessor (result.map fun name => (name, s.isInitialized name)), notes, after := s }
  | .provider fullName type =>
    let result := s.accessor fullName type
    { answer := .accessor (result.map fun slot => (slot.fullName, s.isInitialized slot.fullName))
      after := s }
  | .get fullName type =>
    let (s, result, notes) := s.get fullName type
    { answer := .component result, notes, after := s }
  | .names => { answer := .texts s.names, after := s }
  | .describe label recipe =>
    { answer := .texts [recipe.name, recipe.fullName label, recipe.debug], after := s }
  | .startTicker name period => { answer := .done, after := s.startTicker name period }
  | .advance ms => { answer := .done, after := s.advance ms }
  | .ticks => { answer := .ticks s.ticks, after := s }

end State

/-! ## Histories -/

/-- The state after some actions, the latest first. -/
def run : List Action → State
  | [] => {}
  | a :: past => ((run past).act a).after

/-- What comes of an action that is done after others. -/
def turn (past : List Action) (a : Action) : Turn := (run past).act a

/-- All notes of a session, the earliest first. -/
def log : List Action → List Note
  | [] => []
  | a :: past => log past ++ (turn past a).notes

end Chassis.Session
