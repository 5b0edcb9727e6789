import Datamodel.Value.Decoding

/-!
Why building, validating, storing or configuring fails.
-/

namespace Datamodel

/-- A place where a schema breaks a rule. What is declared twice is given with its kind and with its
full name. -/
inductive Violation where
  | duplicate (kind name : String)
  | multiplePrimaryKeys (model : String)
  | unknownTarget (model relation target : String)
  | missingBacking (model relation : String)
  deriving DecidableEq, Repr

namespace Violation

def message : Violation → String
  | duplicate kind name => "duplicate " ++ kind ++ " " ++ Text.quoted name
  | multiplePrimaryKeys model =>
    "model " ++ Text.quoted model ++ " declares more than one `@id` field"
  | unknownTarget model relation target =>
    "relation " ++ Text.quoted (model ++ "." ++ relation) ++ " targets unknown model " ++
      Text.quoted target
  | missingBacking model relation =>
    "relation " ++ Text.quoted (model ++ "." ++ relation) ++ " has no backing foreign-key field"

def code : Violation → String
  | duplicate _ _ => "prysm::schema::duplicate"
  | multiplePrimaryKeys _ => "prysm::schema::multiple_primary_keys"
  | unknownTarget _ _ _ => "prysm::schema::unknown_relation_target"
  | missingBacking _ _ => "prysm::schema::missing_backing_field"

/-- What can be done about it. -/
def help? : Violation → Option String
  | missingBacking _ _ =>
    some "declare a field named like `<relation>Id` or set the backing field explicitly"
  | _ => none

end Violation

/-- The reasons. What the operating system says about a file is not kept. A schema that is not valid
is reported with the number of its violations and with the violations themselves. -/
inductive SchemaError where
  | fieldNotFound (model field : String)
  | inaccessible (path : String)
  | invalidTenant (tenant : String)
  | misconfigured (detail : String)
  | malformedSettings (cause : DecodeError)
  | invalid (count : Nat) (violations : List Violation)
  deriving DecidableEq, Repr

namespace SchemaError

def message : SchemaError → String
  | fieldNotFound model field =>
    "field " ++ Text.quoted field ++ " not found in model " ++ Text.quoted model
  | inaccessible path => "failed to access file: " ++ path
  | invalidTenant tenant => "invalid tenant id " ++ Text.quoted tenant
  | misconfigured detail => "configuration error: " ++ detail
  | malformedSettings _ => "failed to parse TOML"
  | invalid count _ => "schema validation failed with " ++ toString count ++ " error(s)"

def code : SchemaError → String
  | fieldNotFound _ _ => "prysm::schema::field_not_found"
  | inaccessible _ => "prysm::schema::io_error"
  | invalidTenant _ => "prysm::schema::invalid_tenant"
  | misconfigured _ => "prysm::schema::config_error"
  | malformedSettings _ => "prysm::schema::toml_error"
  | invalid _ _ => "prysm::schema::validation_failed"

/-- What can be done about it. -/
def help? : SchemaError → Option String
  | invalidTenant _ =>
    some "tenant ids must be non-empty and must not contain path separators or `..`"
  | _ => none

end SchemaError

end Datamodel
