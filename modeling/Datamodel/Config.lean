import Datamodel.Config.Expansion
import Datamodel.Error
import Datamodel.Json
import Datamodel.Text
import Datamodel.Toml.Reader

/-!
Settings: where documents are put, and what is logged. They are read from a TOML text in which the
environment variables it refers to have been replaced, and no table may have a member that is no
setting. Settings in a list are told by their places, and what stands behind the last one is not
looked at.
-/

namespace Datamodel

open Value (Slot slot)

/-- The ways in which a line of the log can be written. -/
inductive LogFormat where
  | compact
  | pretty
  | json
  deriving DecidableEq, Repr

namespace LogFormat

/-- The formats by their names, in order of declaration. -/
def names : List (String × LogFormat) :=
  [("compact", compact), ("pretty", pretty), ("json", json)]

def name : LogFormat → String
  | compact => "compact"
  | pretty => "pretty"
  | json => "json"

def ofValue (v : Value) : Decoded LogFormat :=
  v.asSoleChoice names fun rest => rest.isEmptyTable || rest.isEmptyList

end LogFormat

/-- Where documents are put: the directory, and the extension of the files. -/
structure OutputSettings where
  directory : String := "./prisma"
  extension : String := "prisma"
  deriving DecidableEq, Repr

namespace OutputSettings

def slots : List Slot :=
  [slot "directory" Value.asText, slot "extension" Value.asText]

def ofValue (v : Value) : Decoded OutputSettings := do
  let r ← v.asRecord slots .refused .ignored
  let default : OutputSettings := {}
  let directory ← r.optional "directory" Value.asText default.directory
  let extension ← r.optional "extension" Value.asText default.extension
  return { directory, extension }

def toJson (o : OutputSettings) : Json :=
  .object [("directory", .text o.directory), ("extension", .text o.extension)]

end OutputSettings

/-- What is logged: from which level on, and how. -/
structure LogSettings where
  level : String := "info"
  format : LogFormat := .compact
  deriving DecidableEq, Repr

namespace LogSettings

def slots : List Slot :=
  [slot "level" Value.asText, slot "format" LogFormat.ofValue]

def ofValue (v : Value) : Decoded LogSettings := do
  let r ← v.asRecord slots .refused .ignored
  let default : LogSettings := {}
  let level ← r.optional "level" Value.asText default.level
  let format ← r.optional "format" LogFormat.ofValue default.format
  return { level, format }

def toJson (l : LogSettings) : Json :=
  .object [("level", .text l.level), ("format", .text l.format.name)]

end LogSettings

structure Config where
  output : OutputSettings := {}
  logging : LogSettings := {}
  deriving DecidableEq, Repr

namespace Config

def slots : List Slot :=
  [slot "output" OutputSettings.ofValue, slot "logging" LogSettings.ofValue]

def ofValue (v : Value) : Decoded Config := do
  let r ← v.asRecord slots .refused .ignored
  let output ← r.optional "output" OutputSettings.ofValue {}
  let logging ← r.optional "logging" LogSettings.ofValue {}
  return { output, logging }

def toJson (c : Config) : Json :=
  .object [("output", c.output.toJson), ("logging", c.logging.toJson)]

/-- The settings of a text. The directory must not be blank. -/
def parse (env : Environment) (text : String) : Except SchemaError Config :=
  match Toml.parse ofValue (env.expand text) with
  | .error cause => .error (.malformedSettings cause)
  | .ok c =>
    if Text.isBlankText c.output.directory then
      .error (.misconfigured "output.directory must not be empty")
    else .ok c

end Config

end Datamodel
