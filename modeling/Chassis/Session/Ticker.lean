/-!
# Tickers

A ticker acts once in each period from its start on, until it is stopped. The clock may be moved in
steps of any length; a tick due exactly at the end of a step has happened. A period of no length
counts as one millisecond.
-/

set_option autoImplicit false

namespace Chassis.Session

/-- A ticker: its period, the time of its next tick, how often it ticked, and whether it stopped. -/
structure Ticker where
  name : String
  period : Nat
  due : Nat
  count : Nat := 0
  stopped : Bool := false
deriving DecidableEq, Repr, Inhabited

namespace Ticker

/-- A ticker that starts at a time; one that starts after shutdown is stopped from the start. -/
def start (name : String) (period now : Nat) (stopped : Bool) : Ticker :=
  { name, period := max period 1, due := now + max period 1, stopped }

/-- The ticker at a later time: it ticked at every due time up to then. -/
def moveTo (t : Ticker) (now : Nat) : Ticker :=
  if t.stopped || now < t.due then t
  else
    let ticks := (now - t.due) / t.period + 1
    { t with count := t.count + ticks, due := t.due + ticks * t.period }

end Ticker

end Chassis.Session
