import Datamodel.Files.Access
import Datamodel.Plan

/-!
Why a command fails.
-/

namespace Datamodel

/-- The notations in which a plan can be written. -/
inductive PlanNotation where
  | toml
  | json
  deriving DecidableEq, Repr

namespace PlanNotation

def name : PlanNotation → String
  | toml => "TOML"
  | json => "JSON"

end PlanNotation

/-- The reasons: settings or a plan that are missing or cannot be read, a step that fails, a schema
that cannot be stored, and a schema that breaks rules. -/
inductive CommandError where
  | unreadable (fault : ReadFault)
  | settingsMissing (path : String)
  | planMissing (path : String)
  | planMalformed (format : PlanNotation) (cause : DecodeError)
  | stepFailed (failure : StepFailure)
  | schema (cause : SchemaError)
  | invalid (count : Nat)
  deriving DecidableEq, Repr

namespace CommandError

def message : CommandError → String
  | unreadable fault => "IO error: " ++ fault.message
  | settingsMissing path => "Configuration error: Config file not found: " ++ path
  | planMissing path => "Plan error: Plan file not found: " ++ path
  | planMalformed format _ => "Plan error: Failed to parse " ++ format.name
  | stepFailed failure => failure.message
  | schema cause => "Schema error: " ++ cause.message
  | invalid count => "Validation error: Found " ++ toString count ++ " validation errors"

def code : CommandError → String
  | unreadable _ => "prysm::io"
  | settingsMissing _ => "prysm::config"
  | planMissing _ => "prysm::plan"
  | planMalformed _ _ => "prysm::plan"
  | stepFailed _ => "prysm::step"
  | schema _ => "prysm::schema"
  | invalid _ => "prysm::validation"

end CommandError

end Datamodel
