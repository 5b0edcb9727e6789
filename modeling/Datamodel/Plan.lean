import Datamodel.Schema.Building

/-!
Plans: lists of building steps that can be kept in a file and replayed.
-/

namespace Datamodel

inductive Step where
  | createModel (model : String)
  | addField (model field : String) (type : FieldType) (generator : Option Generator)
      (isUnique : Bool)
  | setPrimaryKey (model field : String)
  | addRelation (model : String) (relation : Relation)
  | reset
  deriving DecidableEq, Repr

namespace Step

/-- The operations a step can name, in order of declaration. -/
inductive Operation where
  | createModel
  | addField
  | setPrimaryKey
  | addRelation
  | reset
  deriving DecidableEq, Repr

namespace Operation

/-- The operations by their labels, in order of declaration. -/
def names : List (String × Operation) :=
  [("create_model", createModel), ("add_field", addField), ("set_primary_key", setPrimaryKey),
    ("add_relation", addRelation), ("reset", reset)]

def label : Operation → String
  | createModel => "create_model"
  | addField => "add_field"
  | setPrimaryKey => "set_primary_key"
  | addRelation => "add_relation"
  | reset => "reset"

end Operation

def operation : Step → Operation
  | createModel _ => .createModel
  | addField _ _ _ _ _ => .addField
  | setPrimaryKey _ _ => .setPrimaryKey
  | addRelation _ _ => .addRelation
  | reset => .reset

/-- The model a step is about. -/
def model? : Step → Option String
  | createModel model => some model
  | addField model _ _ _ _ => some model
  | setPrimaryKey model _ => some model
  | addRelation model _ => some model
  | reset => none

def apply (step : Step) (s : Schema) : Except SchemaError Unit × Schema :=
  match step with
  | createModel model => (.ok (), s.createModel model)
  | addField model name type generator isUnique =>
    (.ok (), s.addField model { name, type, generator, isUnique })
  | setPrimaryKey model field => s.setPrimaryKey model field
  | addRelation model relation => (.ok (), s.addRelation model relation)
  | reset => (.ok (), {})

end Step

/-- A plan: steps in the order in which they are taken. -/
structure Plan where
  steps : List Step := []
  deriving DecidableEq, Repr

/-- A step that failed: its place, counted from one, the operation and the reason. -/
structure StepFailure where
  index : Nat
  operation : Step.Operation
  cause : SchemaError
  deriving DecidableEq, Repr

namespace StepFailure

def message (f : StepFailure) : String :=
  "Step " ++ toString f.index ++ " (" ++ f.operation.label ++ ") failed: " ++ f.cause.message

end StepFailure

namespace Plan

/-- Takes steps until one fails; the first of them has the given place. -/
def replaySteps (index : Nat) : List Step → Schema → Except StepFailure Unit × Schema
  | [], s => (.ok (), s)
  | step :: steps, s =>
    match step.apply s with
    | (.ok (), next) => replaySteps (index + 1) steps next
    | (.error cause, next) => (.error ⟨index, step.operation, cause⟩, next)

/-- Takes the steps of the plan on a schema. The schema that is left is returned even if a step
fails. -/
def replay (p : Plan) (s : Schema) : Except StepFailure Unit × Schema :=
  replaySteps 1 p.steps s

/-- The schema that the plan builds from nothing. -/
def build (p : Plan) : Except StepFailure Schema :=
  match p.replay {} with
  | (.ok (), s) => .ok s
  | (.error failure, _) => .error failure

end Plan

end Datamodel
