/-!
# Metrics

What happened is counted under a name and some labels. The text that is served has a line with the
type of each family that was seen and a line for each count. Times are recorded as well; of them
only the number of recordings is fixed.
-/

set_option autoImplicit false

namespace Chassis.Metrics

inductive Event
  | request (method : String) (status : Nat)
  | construction (component : String) (succeeded : Bool)
  | hook (name : String)
  | endpointExit (endpoint : String) (failed : Bool)
deriving DecidableEq, Repr

/-- A family of counts: its name and its type. -/
structure Family where
  name : String
  type : String
deriving DecidableEq, Repr

/-- What counts under one name with the same labels. -/
structure Series where
  name : String
  labels : List (String × String)
deriving DecidableEq, Repr

def Event.families : Event → List Family
  | request _ _ =>
    [⟨"http_requests_total", "counter"⟩, ⟨"http_request_duration_seconds", "summary"⟩]
  | construction _ _ => [⟨"component_constructions_total", "counter"⟩]
  | hook _ => [⟨"shutdown_hook_duration_seconds", "summary"⟩]
  | endpointExit _ _ => [⟨"endpoint_exits_total", "counter"⟩]

def Event.series : Event → List Series
  | request method status =>
    [⟨"http_requests_total", [("method", method), ("status", toString status)]⟩,
      ⟨"http_request_duration_seconds_count", [("method", method)]⟩]
  | construction component succeeded =>
    [⟨"component_constructions_total",
      [("component", component), ("outcome", if succeeded then "ok" else "error")]⟩]
  | hook name => [⟨"shutdown_hook_duration_seconds_count", [("hook", name)]⟩]
  | endpointExit endpoint failed =>
    [⟨"endpoint_exits_total",
      [("endpoint", endpoint), ("outcome", if failed then "error" else "closed")]⟩]

/-! ## Text -/

/-- Escapes a label. A backslash may itself be an escape: of two in a row one escaped backslash is
written, and one in front of a quotation mark goes with it. `held` tells that a backslash is not
written yet. -/
def escape : Bool → List Char → List Char
  | held, [] => if held then ['\\', '\\'] else []
  | held, c :: cs =>
    if c = '\n' then '\\' :: 'n' :: escape held cs
    else if c = '"' then '\\' :: '"' :: escape false cs
    else if c = '\\' then
      if held then '\\' :: '\\' :: escape false cs else escape true cs
    else if held then '\\' :: '\\' :: c :: escape false cs
    else c :: escape false cs

def renderLabel (l : String × String) : String :=
  l.1 ++ "=\"" ++ String.ofList (escape false l.2.toList) ++ "\""

def Series.render (s : Series) (count : Nat) : String :=
  s.name ++ "\x7b" ++ ",".intercalate (s.labels.map renderLabel) ++ "\x7d " ++ toString count

def Family.render (f : Family) : String := s!"# TYPE {f.name} {f.type}"

def distinct {α : Type} [DecidableEq α] : List α → List α
  | [] => []
  | a :: rest => if a ∈ rest then distinct rest else a :: distinct rest

def lines (events : List Event) : List String :=
  let families := distinct (events.flatMap Event.families)
  let series := events.flatMap Event.series
  let counts := (distinct series).map fun s => s.render (series.count s)
  (families.map Family.render ++ counts).mergeSort (fun a b => decide (a ≤ b))

end Chassis.Metrics
