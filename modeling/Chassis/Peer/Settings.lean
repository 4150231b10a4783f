import Chassis.Config.Source

/-!
# The client of a peer

Another instance of the service is reached under a base address. The client is made from a section
of the settings and joins the base address and a path with exactly one slash.
-/

set_option autoImplicit false

namespace Chassis

structure PeerSettings where
  baseUrl : String := "http://127.0.0.1:8080"
  timeoutSeconds : Nat := 5
  healthPath : Option String := none
  healthIntervalSeconds : Nat := 15
deriving DecidableEq, Repr, Inhabited

namespace PeerSettings

def fields : List (Scan.Setting PeerSettings) :=
  [{ key := "base_url", set := fun v p => do .ok { p with baseUrl := ← Scan.text v } },
    { key := "timeout_secs",
      set := fun v p => do .ok { p with timeoutSeconds := ← Scan.unsigned 64 v } },
    { key := "health_path",
      set := fun v p => do .ok { p with healthPath := some (← Scan.text v) } },
    { key := "health_interval_secs",
      set := fun v p => do .ok { p with healthIntervalSeconds := ← Scan.unsigned 64 v } }]

def ofSource (s : Source) : Except ScanError PeerSettings :=
  Scan.read fields {} s

end PeerSettings

/-- The client of a peer; its base address is not empty. -/
structure PeerClient where
  settings : PeerSettings
  baseUrl_ne : settings.baseUrl ≠ ""
deriving DecidableEq, Repr

namespace PeerClient

def ofSettings (s : PeerSettings) : Except String PeerClient :=
  if h : s.baseUrl = "" then .error "base_url must not be empty" else .ok ⟨s, h⟩

def dropLastSlashes (s : String) : List Char :=
  (s.toList.reverse.dropWhile (· == '/')).reverse

/-- The address of a path: the base address and the path with one slash between them. -/
def url (c : PeerClient) (path : String) : String :=
  String.ofList (dropLastSlashes c.settings.baseUrl ++ '/' :: path.toList.dropWhile (· == '/'))

end PeerClient

end Chassis
