/-!
# Shutdown hooks

Whatever has to be undone when the service stops is added as a hook. The first trigger takes all
hooks and runs them, the latest first, whether or not some of them fail. From then on shutdown is
triggered: a later trigger does nothing, and a hook that is added is dropped, also when a hook does
either while it runs. Shutdown is done when the last of the hooks has run, and not before.
-/

set_option autoImplicit false

namespace Chassis.Session

/-- What a hook does with the shutdown that runs it, call by call, and how it ends. -/
inductive HookAction
  | finish
  | fail
  | panic
  | addHook (name : String) (added rest : HookAction)
  | trigger (rest : HookAction)
  | tellTriggered (rest : HookAction)
deriving DecidableEq, Repr, Inhabited

inductive HookEnd
  | finished
  | failed
  | panicked
deriving DecidableEq, Repr, Inhabited

/-- The hooks, the latest first, whether shutdown was triggered, and whether it is done: whether all
hooks that it was triggered with have run. -/
structure Shutdown (η : Type) where
  hooks : List η := []
  triggered : Bool := false
  done : Bool := false
deriving Repr, Inhabited

namespace Shutdown

variable {η : Type}

/-- Adds a hook, unless shutdown was triggered. -/
def addHook (s : Shutdown η) (hook : η) : Shutdown η :=
  if s.triggered then s else { s with hooks := hook :: s.hooks }

/-- Marks shutdown as triggered: tells whether it was not before, and hands over the hooks. -/
def begin (s : Shutdown η) : Bool × List η × Shutdown η :=
  if s.triggered then (false, [], s)
  else (true, s.hooks, { s with hooks := [], triggered := true })

/-- Marks shutdown as done. -/
def finish (s : Shutdown η) : Shutdown η := { s with done := true }

end Shutdown

end Chassis.Session
