import Datamodel.Json.Reader
import Datamodel.Plan
import Datamodel.Schema.Format
import Datamodel.Toml.Reader

/-!
Plans as data files. A step is a table with the label of its operation under `op`, wherever that
stands among the other members, or a list that starts with the label. Before the operation is known
the other members are only kept; they are looked at afterwards, so a member that the operation does
not know does no harm.
-/

namespace Datamodel

open Value (Slot slot Record)

namespace Step

/-- The member that names the operation. -/
def operationMember : String :=
  "op"

/-- How deep a member of a step may be in a JSON text: 127 lists and tables may be open at once,
and three of them are open around the member. -/
def memberDepth : Nat :=
  124

/-- Whether a value stands for nothing where choices have been kept for later. -/
def isNothing (v : Value) : Bool :=
  v.isNull || v.isEmptyTable

/-- One of several named choices that has been kept for later; a date is a table with a name of
its own. -/
def keptChoice {α : Type} (options : List (String × α)) : Value → Decoded α
  | .date => Value.chosen options Value.dateMember
  | v => v.asSoleChoice options isNothing

def generatorOf (v : Value) : Decoded Generator :=
  keptChoice Generator.names v

def kindOf (v : Value) : Decoded RelationKind :=
  keptChoice RelationKind.names v

/-- The members an operation knows, in order of declaration. -/
def slots : Operation → List Slot
  | .createModel => [slot "model" Value.asText]
  | .addField =>
    [slot "model" Value.asText, slot "field" Value.asText, slot "type" FieldType.ofValue,
      slot "default" (Value.asOptional generatorOf), slot "unique" Value.asBool]
  | .setPrimaryKey => [slot "model" Value.asText, slot "field" Value.asText]
  | .addRelation =>
    [slot "model" Value.asText, slot "name" Value.asText, slot "kind" kindOf,
      slot "related" Value.asText, slot "inverse" (Value.asOptional Value.asText),
      slot "backing_field" (Value.asOptional Value.asText)]
  | .reset => []

/-- A step from its operation and its members. -/
def ofRecord (operation : Operation) (r : Record) : Decoded Step :=
  match operation with
  | .createModel => do
    let model ← r.required "model" Value.asText
    return createModel model
  | .addField => do
    let model ← r.required "model" Value.asText
    let field ← r.required "field" Value.asText
    let type ← r.required "type" FieldType.ofValue
    let generator ← r.optional "default" (Value.asOptional generatorOf) none
    let isUnique ← r.optional "unique" Value.asBool false
    return addField model field type generator isUnique
  | .setPrimaryKey => do
    let model ← r.required "model" Value.asText
    let field ← r.required "field" Value.asText
    return setPrimaryKey model field
  | .addRelation => do
    let model ← r.required "model" Value.asText
    let name ← r.required "name" Value.asText
    let kind ← r.required "kind" kindOf
    let target ← r.required "related" Value.asText
    let inverse ← r.optional "inverse" (Value.asOptional Value.asText) none
    let backing ← r.optional "backing_field" (Value.asOptional Value.asText) none
    return addRelation model { name, kind, target, inverse, backing }
  | .reset => return reset

/-- A step from its operation and the value that is left without it. -/
def ofRest (operation : Operation) (rest : Value) : Decoded Step := do
  let r ← rest.asRecord (slots operation) .ignored .refused
  ofRecord operation r

def operationOf (v : Value) : Decoded Operation := do
  let name ← v.asText
  Value.chosen Operation.names name

/-- Goes through the members of a step in order, and splits them into the operation, which may
have been `found` before, and the others, which may be at most `depth` deep. -/
def splitMembers (depth : Nat) (found : Option Operation) :
    List (Option String × Value) → Decoded (Option Operation × List (Option String × Value))
  | [] => .ok (found, [])
  | (name, v) :: rest =>
    if name = some operationMember then
      match found with
      | some _ => .error (.duplicateField operationMember)
      | none => do
        let operation ← operationOf v
        splitMembers depth (some operation) rest
    else if name.isSome && v.isKeepable depth then do
      let (operation, others) ← splitMembers depth found rest
      return (operation, (name, v) :: others)
    else .error .malformed

def ofMembers (depth : Nat) (members : List (Option String × Value)) (closed : Bool) :
    Decoded Step := do
  let (operation, others) ← splitMembers depth none members
  if !closed then .error .malformed
  match operation with
  | some operation => ofRest operation (.table others true)
  | none => .error (.missingField operationMember)

/-- A step from a value, the members of which may be at most `depth` deep. -/
def ofValue (depth : Nat) : Value → Decoded Step
  | .table members closed => ofMembers depth members closed
  | .list [] closed => .error (if closed then .missingField operationMember else .malformed)
  | .list (v :: vs) closed => do
    let operation ← operationOf v
    if Value.allKeepable depth vs && closed then ofRest operation (.list vs true)
    else .error .malformed
  | .date => .error (.missingField operationMember)
  | _ => .error .malformed

/-- The members of a step as they are written, an unset choice left out. -/
def members : Step → List (String × Json)
  | createModel model => [("model", .text model)]
  | addField model field type generator isUnique =>
    [("model", .text model), ("field", .text field), ("type", type.toJson)] ++
      (generator.map fun g => ("default", g.toJson)).toList ++ [("unique", .bool isUnique)]
  | setPrimaryKey model field => [("model", .text model), ("field", .text field)]
  | addRelation model r =>
    [("model", .text model), ("name", .text r.name), ("kind", r.kind.toJson),
        ("related", .text r.target)] ++
      (r.inverse.map fun name => ("inverse", .text name)).toList ++
      (r.backing.map fun name => ("backing_field", .text name)).toList
  | reset => []

def toJson (step : Step) : Json :=
  .object ((operationMember, .text step.operation.label) :: step.members)

end Step

namespace Plan

def slots (depth : Nat) : List Slot :=
  [slot "steps" (Value.asList (Step.ofValue depth))]

/-- A plan from its members; without steps it is empty. -/
def ofValue (depth : Nat) (v : Value) : Decoded Plan := do
  let r ← v.asRecord (slots depth) .ignored .refused
  let steps ← r.optional "steps" (Value.asList (Step.ofValue depth)) []
  return { steps }

def ofJson (text : String) : Decoded Plan :=
  Json.parse (ofValue Step.memberDepth) text

/-- A plan from a TOML text. The members of its steps can be as deep as the text allows. -/
def ofToml (text : String) : Decoded Plan :=
  Toml.parse (ofValue text.length) text

def toJson (p : Plan) : Json :=
  .object [("steps", .list (p.steps.map (·.toJson)))]

end Plan

end Datamodel
