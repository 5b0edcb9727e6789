import Datamodel.Archive
import Datamodel.Command.Arguments
import Datamodel.Command.Loading
import Datamodel.Command.Terminal
import Datamodel.Document
import Datamodel.Validation

/-!
The commands: they build the schema of a plan and store its document for a tenant, write it out, or
hold it to the strict rules.
-/

namespace Datamodel

/-- What a command has written, and why it failed if it did. -/
structure Report where
  output : String
  errors : String := ""
  failure : Option CommandError := none

namespace Report

/-- A command that failed after some output. -/
def failed (output : String) (e : CommandError) : Report :=
  { output, failure := some e }

/-- The report with the line about the failure. -/
def closed (r : Report) : Report :=
  match r.failure with
  | some e => { r with errors := r.errors ++ Terminal.failure e.message }
  | none => r

/-- The exit code: a failure counts one. -/
def exitCode (r : Report) : Nat :=
  if r.failure.isSome then 1 else 0

end Report

namespace Command

/-- The lines about the size of a schema. -/
def sizeLines (s : Schema) : String :=
  Terminal.entry "Models" (toString s.stats.models) ++
    Terminal.entry "Fields" (toString s.stats.fields) ++
    Terminal.entry "Relations" (toString s.stats.relations)

def versionNumber : String :=
  "0.1.0"

def version : Report where
  output :=
    Terminal.header "Prysm" ++ Terminal.entry "Version" versionNumber ++
      Terminal.entry "Binary" "prysm-cli" ++ Terminal.entry "Build" "release" ++ "\n" ++
      Terminal.heading "Components" ++ Terminal.entry "prysm-schema" versionNumber ++
      Terminal.entry "datasource" "postgresql" ++
      Terminal.entry "output" "Prisma schema (.prisma)"

/-- Says whether a schema keeps the strict rules, after some output. -/
def judge (output : String) (s : Schema) : Report :=
  match s.validate with
  | .ok () =>
    { output :=
        output ++ Terminal.success "Schema is valid!" ++ "\n" ++
          Terminal.heading "Schema Summary" ++ sizeLines s }
  | .error (.invalid count violations) =>
    { output :=
        output ++ "\n" ++ Terminal.heading "Errors" ++
          String.join (violations.map Terminal.violation)
      errors := Terminal.failure "Schema validation failed!"
      failure := some (.invalid count) }
  | .error e => .failed output (.schema e)

variable {m : Type → Type} [Monad m] [FileAccess m]

/-- Writes out the document of a plan. -/
def print (plan : String) : m Report := do
  match ← Plan.loadSchema plan with
  | .error e => return .failed "" e
  | .ok s => return { output := s.text ++ "\n" }

/-- Holds the schema of a plan to the strict rules. -/
def validate (plan : String) : m Report := do
  let opening :=
    Terminal.header "Validate Plan" ++ Terminal.entry "Plan" plan ++ "\n" ++
      Terminal.step 1 2 "Replaying build plan..."
  match ← Plan.loadSchema plan with
  | .error e => return .failed opening e
  | .ok s => return judge (opening ++ Terminal.step 2 2 "Running validation checks..." ++ "\n") s

/-- The archive that a command stores into: the directory may be given in place of the one in the
settings. -/
def archiveFor (c : Config) (directory : Option String) : DirectoryArchive :=
  .make (directory.getD c.output.directory) c.output.extension

/-- Stores the document of a plan for a tenant. -/
def generate (c : Config) (plan tenant : String) (directory : Option String) : m Report := do
  let archive := archiveFor c directory
  let opening :=
    Terminal.header "Generate Schema" ++ Terminal.entry "Plan" plan ++
      Terminal.entry "Tenant" tenant ++ Terminal.entry "Output" archive.root ++ "\n" ++
      Terminal.step 1 3 "Replaying build plan..."
  match ← Plan.loadSchema plan with
  | .error e => return .failed opening e
  | .ok s =>
    let rendered :=
      opening ++ Terminal.step 2 3 "Rendering schema..." ++
        String.join (s.diagnostics.map Terminal.diagnostic) ++
        Terminal.step 3 3 "Writing schema..."
    match ← archive.write tenant s.text with
    | .error e => return .failed rendered (.schema e)
    | .ok path =>
      return { output :=
        rendered ++ "\n" ++ Terminal.success ("Schema written to " ++ path) ++ sizeLines s }

/-- Does what is to be done, with the settings. -/
def perform (c : Config) : Action → m Report
  | .generate plan tenant output => generate c plan tenant output
  | .print plan => print plan
  | .validate plan => validate plan
  | .version => return version

/-- Does what an invocation asks for. The settings are read first, also by commands that do not
need them. -/
def run (valueOf : String → m (Option String)) (i : Invocation) : m Report := do
  match ← Config.load valueOf i.config with
  | .error e => return (Report.failed "" e).closed
  | .ok c => return (← perform c i.action).closed

end Command

end Datamodel
