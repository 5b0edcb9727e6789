import Datamodel.Error
import Datamodel.Schema

/-!
The strict rules, which building and rendering do not ask for: the fields of a model have different
names, at most one of them is the primary key, every relation leads to a model of the schema, and
every many-to-one relation has a field to store it. A one-to-one relation may lack one, since it
can be the other side.
-/

namespace Datamodel

/-- The names that come up again, each once and in the order in which they come up the second
time. `seen` came up before and `reported` have been listed. -/
def repeatedNames (seen reported : List String) : List String → List String
  | [] => []
  | name :: names =>
    if !seen.contains name then repeatedNames (name :: seen) reported names
    else if !reported.contains name then
      name :: repeatedNames seen (name :: reported) names
    else repeatedNames seen reported names

namespace Model

def duplicateViolations (m : Model) : List Violation :=
  (repeatedNames [] [] (m.fields.map (·.name))).map fun field =>
    .duplicate "field" (m.name ++ "." ++ field)

/-- More than one primary key. -/
def keyViolations (m : Model) : List Violation :=
  if m.keyFields.length > 1 then [.multiplePrimaryKeys m.name] else []

/-- What is wrong with a relation of the model. -/
def relationViolations (s : Schema) (m : Model) (r : Relation) : List Violation :=
  (if s.contains r.target then [] else [.unknownTarget m.name r.name r.target]) ++
    (if r.kind = .manyToOne ∧ m.backing? r = none then [.missingBacking m.name r.name] else [])

end Model

/-- A validator: it collects its findings in a list of its own, which it can use for one schema
after the other. -/
structure Validator where
  findings : List Violation := []

namespace Validator

/-- Adds findings to those that are there. -/
def report (v : Validator) (found : List Violation) : Validator :=
  ⟨v.findings ++ found⟩

/-- Looks a model over: its fields, its keys, and then its relations one by one. -/
def inspect (s : Schema) (v : Validator) (m : Model) : Validator :=
  m.relations.foldl (fun v r => v.report (m.relationViolations s r))
    ((v.report m.duplicateViolations).report m.keyViolations)

/-- The verdict on a schema, and the validator as it is afterwards. What it found before is
forgotten first. What it finds now is counted and handed over if there is any, and the validator is
left with nothing. -/
def judge (v : Validator) (s : Schema) : Except SchemaError Unit × Validator :=
  let filled := s.models.foldl (inspect s) { v with findings := [] }
  if filled.findings.isEmpty then (.ok (), filled)
  else (.error (.invalid filled.findings.length filled.findings), { filled with findings := [] })

end Validator

/-- Holds a schema to the strict rules, with a validator of its own. -/
def Schema.validate (s : Schema) : Except SchemaError Unit :=
  (Validator.judge {} s).1

end Datamodel
