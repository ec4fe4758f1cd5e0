import RoutePolicy.CommandLine.Execution
import RoutePolicy.LogFilter.Setting

/-!
# The program

Reads the file that a command names, executes the command, and prints what it shows.  The variable
`ROUTE_POLICY_LOG` sets which events are logged.
-/

set_option autoImplicit false

namespace RoutePolicy

/-- The text of a file, or why it cannot be read. -/
def readText (path : String) : IO (Except FileCause String) := do
  try
    let bytes ← IO.FS.readBinFile path
    match String.fromUTF8? bytes with
    | some text => return .ok text
    | none => return .error .notText
  catch
    | .permissionDenied _ _ _ => return .error .denied
    | .inappropriateType _ code _ => return .error (if code = 21 then .directory else .notDirectory)
    | .invalidArgument .. => return .error .nameTooLong
    | _ => return .error .missing

/-- Runs the program on the arguments of its command line. -/
def runProgram (args : List String) : IO UInt32 := do
  let content ← match (Command.parse? args).bind Command.file? with
    | some path => readText path
    | none => pure (.error .missing)
  let filter := LogFilter.ofSetting (← IO.getEnv "ROUTE_POLICY_LOG")
  let execution := Execution.of (fun _ => content) args
  (execution.standardOutput filter Component.name).forM IO.println
  execution.errorOutput.forM IO.eprintln
  return UInt32.ofNat execution.code

end RoutePolicy

/-- The entry point. -/
def main (args : List String) : IO UInt32 := RoutePolicy.runProgram args
