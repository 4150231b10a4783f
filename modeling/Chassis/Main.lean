import Chassis.Probe.Run
import Chassis.Service.Run

/-!
# The command line

`serve` runs the service with the settings in a file, or with none, and writes its log lines up to
the place where it waits. `probe` makes a call. Neither opens a connection: the network is a
parameter of what is run, and here it is one in which nobody listens.
-/

set_option autoImplicit false

namespace Chassis.Main

/-- Reads a file; `none` stands for one that does not exist. -/
def readFile? (path : String) : IO (Option (List UInt8)) := do
  try
    return some (← IO.FS.readBinFile path).toList
  catch _ => return none

/-- Writes the log and the error text of a run. -/
def showRun (r : Service.Run) : IO UInt32 := do
  for line in r.lines do
    IO.println (line.render r.format)
  IO.eprint r.ending.errorText
  return r.ending.exitStatus.toUInt32

def showReport (r : Probe.Report) : IO UInt32 := do
  IO.print r.output
  IO.eprint (r.errorText.getD "no answer\n")
  return r.exitStatus.toUInt32

def serve (content : Option (List UInt8)) : IO UInt32 := do
  showRun (Service.run (fun _ => none) content (← IO.getEnv "APP_PROFILE"))

end Chassis.Main

/-- Runs the command that the first argument names. -/
def main (arguments : List String) : IO UInt32 := do
  match arguments with
  | ["serve"] => Chassis.Main.serve (some [])
  | ["serve", "--config", path] => Chassis.Main.serve (← Chassis.Main.readFile? path)
  | "probe" :: rest => Chassis.Main.showReport (Chassis.Probe.run .silent "" rest)
  | _ =>
    IO.eprintln "usage: serve [--config FILE] | probe [OPTIONS] COMMAND"
    return 2
