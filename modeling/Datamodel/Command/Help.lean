import Datamodel.Command.Arguments

/-!
What the program says when its arguments do not lead to a command.
-/

namespace Datamodel

namespace CommandName

def summary : CommandName → String
  | generate => "Render a build plan and save it for a tenant"
  | print => "Render a build plan to stdout"
  | validate => "Check a build plan against the strict schema rules"
  | version => "Display version information"

end CommandName

namespace Parameter

def summary : Parameter → String
  | config => "Path to the configuration file (defaults to ./prysm.toml when present)"
  | plan => "Path to the build plan (.toml or .json)"
  | tenant => "Tenant id the schema is saved under"
  | output => "Output directory (overrides output.directory)"

def helpLine (p : Parameter) : String :=
  "  -" ++ p.short.toString ++ ", --" ++ p.long ++ " <" ++ p.long ++ ">  " ++ p.summary ++ "\n"

end Parameter

namespace UsageStop

def commandLines (name : String) (c : CommandName) : String :=
  "\n" ++ name ++ ": " ++ c.summary ++ "\n" ++ String.join (c.parameters.map (·.helpLine))

def overview : String :=
  "Usage: prysm [options] <command>\n" ++
    String.join (CommandName.names.map fun (name, c) => commandLines name c)

/-- What is said before the program ends. -/
def message (program : String) : UsageStop → String
  | displayHelp => overview
  | displayVersion => program ++ "\n"
  | nothingGiven => overview
  | unknownCommand => "error: unrecognized subcommand\n"
  | missingCommand => "error: a subcommand is required\n"
  | missingParameter => "error: a required argument was not provided\n"
  | unknownArgument => "error: unexpected argument\n"
  | missingValue => "error: a value is required\n"
  | surplusValue => "error: unexpected value\n"
  | repeatedParameter => "error: an argument cannot be used multiple times\n"

end UsageStop

end Datamodel
