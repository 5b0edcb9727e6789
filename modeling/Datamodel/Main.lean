import Datamodel.Command.Help
import Datamodel.Command.Run

/-!
The program: it uses the files and the environment of the machine it runs on.
-/

namespace Datamodel

/-- Why a file could not be read. -/
def faultOf : IO.Error → ReadFault
  | .noFileOrDirectory _ _ _ => .missing
  | .inappropriateType _ _ _ => .isDirectory
  | e => .other (toString e)

/-- Whether something went well. -/
def succeeds (act : IO Unit) : IO Bool := do
  try
    act
    return true
  catch _ => return false

instance : FileAccess IO where
  workingDirectory := return (← IO.currentDir).toString
  pathExists path := do
    try
      let _ ← IO.FS.Handle.mk path .read
      return true
    catch
      | .permissionDenied _ _ _ => return true
      | _ => return false
  readText path := do
    try
      match String.fromUTF8? (← IO.FS.readBinFile path) with
      | some text => return .ok text
      | none => return .error .notText
    catch e => return .error (faultOf e)
  makeDirectories path :=
    if path = "" then return true else succeeds (IO.FS.createDirAll path)
  writeText path text := succeeds (IO.FS.writeFile path text)

/-- The value of a variable, if it is set. The system ends a name at the character U+0000, so a name
that holds one is not handed to it: no such variable is set. -/
def environmentValue (name : String) : IO (Option String) := do
  if name.contains '\x00' then return none
  IO.getEnv name

end Datamodel

open Datamodel in
/-- Runs the program. -/
def main (arguments : List String) : IO UInt32 := do
  match Arguments.read arguments with
  | .error stop =>
    let message := stop.message ("prysm " ++ Command.versionNumber)
    if stop.exitCode = 0 then IO.print message else IO.eprint message
    return stop.exitCode.toUInt32
  | .ok invocation =>
    let report ← Command.run environmentValue invocation
    IO.print report.output
    IO.eprint report.errors
    return report.exitCode.toUInt32
