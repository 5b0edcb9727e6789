import Datamodel.Command.Error
import Datamodel.Config
import Datamodel.Files.Path
import Datamodel.Plan.Format

/-!
Plans and settings from files.
-/

namespace Datamodel

variable {m : Type → Type} [Monad m] [FileAccess m]

namespace Plan

def parse (format : PlanNotation) (text : String) : Except CommandError Plan :=
  let decoded :=
    match format with
    | .toml => ofToml text
    | .json => ofJson text
  match decoded with
  | .ok p => .ok p
  | .error cause => .error (.planMalformed format cause)

/-- The notation of a file, which its extension tells. -/
def notationOf (path : String) : PlanNotation :=
  if Path.hasExtension path "json" then .json else .toml

def load (path : String) : m (Except CommandError Plan) := do
  if !(← FileAccess.pathExists path) then return .error (.planMissing path)
  match ← FileAccess.readText path with
  | .error fault => return .error (.unreadable fault)
  | .ok text => return parse (notationOf path) text

/-- The schema that the plan in a file builds. -/
def loadSchema (path : String) : m (Except CommandError Schema) := do
  match ← load path with
  | .error e => return .error e
  | .ok p =>
    match p.build with
    | .error failure => return .error (.stepFailed failure)
    | .ok s => return .ok s

end Plan

namespace Environment

/-- The environment that knows the given names and no others. -/
def gather (valueOf : String → m (Option String)) : List String → m Environment
  | [] => return fun _ => none
  | name :: names => do
    let value ← valueOf name
    let env ← gather valueOf names
    return fun other => if other = name then value else env other

end Environment

namespace Config

/-- The name of the file of settings in the working directory. -/
def fileName : String :=
  "prysm.toml"

/-- Settings from a file, with the variables that it refers to. -/
def read (valueOf : String → m (Option String)) (path : String) :
    m (Except SchemaError Config) := do
  match ← FileAccess.readText path with
  | .error _ => return .error (.inaccessible path)
  | .ok text => do
    let env ← Environment.gather valueOf (Environment.referencedNames text.toList)
    return parse env text

/-- The settings for a command: those of the file that is asked for, which must be there, or those
of the file in the working directory, if it is there. -/
def load (valueOf : String → m (Option String)) (explicit : Option String) :
    m (Except CommandError Config) := do
  match explicit with
  | some path =>
    if !(← FileAccess.pathExists path) then return .error (.settingsMissing path)
    return (← read valueOf path).mapError .schema
  | none =>
    let path := Path.join (← FileAccess.workingDirectory) fileName
    if !(← FileAccess.pathExists path) then return .ok {}
    return (← read valueOf path).mapError .schema

end Config

end Datamodel
