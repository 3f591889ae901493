import Std.Time.DateTime.Timestamp
import Winnow.CommandLine.Run

/-!
# The program

Reads the files and variables that the arguments call for, runs the command on
them and prints its output.
-/

namespace Winnow.CommandLine

/-- What an error of reading a file means. -/
def faultOf : IO.Error → FileFault
  | .noFileOrDirectory .. => .missing
  | .permissionDenied .. => .denied
  | .inappropriateType _ code _ => if code = 20 then .noFolder else .isFolder
  | _ => .notText

/-- Reads the file at a path. -/
def readPath (path : String) : IO (String × Except FileFault String) := do
  match ← (IO.FS.readFile path).toBaseIO with
  | .ok text => return (path, .ok text)
  | .error e => return (path, .error (faultOf e))

/-- Reads the files that arguments call for. -/
def readFiles (arguments : List String) : IO Files := do
  match Invocation.read arguments with
  | .ok invocation => return Files.ofReads (← invocation.paths.mapM readPath)
  | .error _ => return Files.ofReads []

/-- Reads the variables that are settings. -/
def readVariables : IO (List (String × String)) := do
  let values ← Settings.variableNames.mapM fun name => do
    return (← IO.getEnv name).map fun value => (name, value)
  return values.filterMap id

/-- The instant it is. -/
def currentInstant : IO Instant := do
  let now ← Std.Time.Timestamp.now
  let nanos := now.toNanosecondsSinceUnixEpoch.val
  return { seconds := nanos / 1000000000, nanos := (nanos % 1000000000).toNat }

end Winnow.CommandLine

open Winnow.CommandLine in
/-- Runs the program on its arguments. -/
def main (arguments : List String) : IO UInt32 := do
  let surroundings : Surroundings := {
    files := ← readFiles arguments
    overrides := ← readVariables
    now := ← currentInstant }
  let output := run surroundings arguments
  (← IO.getStdout).putStr output.stdout
  (← IO.getStderr).putStr output.stderr
  return output.code.toUInt32
