import Datamodel.Json
import Datamodel.Schema
import Datamodel.Value.Decoding

/-!
Schemas as data files. A schema is written as the list of its models; read back, every model is
put under its own name. Types are written by their labels, so a label that can be written in two
ways comes back in one of them.
-/

namespace Datamodel

open Value (Slot slot)

namespace Scalar

/-- A scalar type by its proper name. -/
def ofValue (v : Value) : Decoded Scalar :=
  v.asChoice names Value.isNull

def toJson (s : Scalar) : Json :=
  .text s.name

end Scalar

namespace FieldType

def ofValue (v : Value) : Decoded FieldType :=
  ofLabel <$> v.asText

def toJson (type : FieldType) : Json :=
  .text type.label

end FieldType

namespace Generator

def ofValue (v : Value) : Decoded Generator :=
  v.asChoice names Value.isNull

def toJson (g : Generator) : Json :=
  .text g.expression

end Generator

namespace RelationKind

def ofValue (v : Value) : Decoded RelationKind :=
  v.asChoice names Value.isNull

def toJson (k : RelationKind) : Json :=
  .text k.name

end RelationKind

namespace Field

def slots : List Slot :=
  [slot "name" Value.asText, slot "field_type" FieldType.ofValue,
    slot "is_primary_key" Value.asBool, slot "is_unique" Value.asBool,
    slot "default" (Value.asOptional Generator.ofValue)]

/-- A field from its members; only name and type must be there. -/
def ofValue (v : Value) : Decoded Field := do
  let r ← v.asRecord slots .ignored .refused
  let name ← r.required "name" Value.asText
  let type ← r.required "field_type" FieldType.ofValue
  let isPrimaryKey ← r.optional "is_primary_key" Value.asBool false
  let isUnique ← r.optional "is_unique" Value.asBool false
  let generator ← r.optional "default" (Value.asOptional Generator.ofValue) none
  return { name, type, isPrimaryKey, isUnique, generator }

def toJson (f : Field) : Json :=
  .object
    [("name", .text f.name), ("field_type", f.type.toJson),
      ("is_primary_key", .bool f.isPrimaryKey), ("is_unique", .bool f.isUnique),
      ("default", Json.ofOption (f.generator.map (·.expression)))]

end Field

namespace Relation

def slots : List Slot :=
  [slot "name" Value.asText, slot "kind" RelationKind.ofValue, slot "related_model" Value.asText,
    slot "inverse_relation" (Value.asOptional Value.asText),
    slot "backing_field" (Value.asOptional Value.asText)]

/-- A relation from its members; name, kind and target must be there. -/
def ofValue (v : Value) : Decoded Relation := do
  let r ← v.asRecord slots .ignored .refused
  let name ← r.required "name" Value.asText
  let kind ← r.required "kind" RelationKind.ofValue
  let target ← r.required "related_model" Value.asText
  let inverse ← r.optional "inverse_relation" (Value.asOptional Value.asText) none
  let backing ← r.optional "backing_field" (Value.asOptional Value.asText) none
  return { name, kind, target, inverse, backing }

def toJson (r : Relation) : Json :=
  .object
    [("name", .text r.name), ("kind", r.kind.toJson), ("related_model", .text r.target),
      ("inverse_relation", Json.ofOption r.inverse), ("backing_field", Json.ofOption r.backing)]

end Relation

namespace Model

def slots : List Slot :=
  [slot "name" Value.asText, slot "fields" (Value.asList Field.ofValue),
    slot "relations" (Value.asList Relation.ofValue)]

/-- A model from its members, all of which must be there. -/
def ofValue (v : Value) : Decoded Model := do
  let r ← v.asRecord slots .ignored .refused
  let name ← r.required "name" Value.asText
  let fields ← r.required "fields" (Value.asList Field.ofValue)
  let relations ← r.required "relations" (Value.asList Relation.ofValue)
  return { name, fields, relations }

def toJson (m : Model) : Json :=
  .object
    [("name", .text m.name), ("fields", .list (m.fields.map (·.toJson))),
      ("relations", .list (m.relations.map (·.toJson)))]

end Model

namespace Schema

def ofValue (v : Value) : Decoded Schema :=
  ofModels <$> v.asList Model.ofValue

def toJson (s : Schema) : Json :=
  .list (s.models.map (·.toJson))

end Schema

end Datamodel
