import Datamodel.Relation

/-!
Models: named lists of fields and relations. Names of fields need not differ; where a field is
looked up by its name, the first one counts.
-/

namespace Datamodel

/-- What is declared in a model: its fields and its relations, each in order of declaration. -/
structure Body where
  fields : List Field := []
  relations : List Relation := []
  deriving DecidableEq, Repr

namespace Body

def addField (b : Body) (f : Field) : Body :=
  { b with fields := b.fields ++ [f] }

def addRelation (b : Body) (r : Relation) : Body :=
  { b with relations := b.relations ++ [r] }

/-- The first field with a name. -/
def field? (b : Body) (name : String) : Option Field :=
  b.fields.find? (·.name == name)

def keyFields (b : Body) : List Field :=
  b.fields.filter (·.isPrimaryKey)

/-- The fields, with the first one of a name changed. -/
def changeFirst (name : String) (change : Field → Field) : List Field → List Field
  | [] => []
  | f :: fs => if f.name = name then change f :: fs else f :: changeFirst name change fs

/-- The body with the first field of a name changed. -/
def editField (b : Body) (name : String) (change : Field → Field) : Body :=
  { b with fields := changeFirst name change b.fields }

/-- The body with the first field of a name marked as primary key. -/
def markKey (b : Body) (name : String) : Body :=
  b.editField name fun f => { f with isPrimaryKey := true }

def removeField (b : Body) (index : Nat) : Body :=
  { b with fields := b.fields.eraseIdx index }

def removeRelation (b : Body) (index : Nat) : Body :=
  { b with relations := b.relations.eraseIdx index }

/-- The place of the field that stores a relation: the first one that the relation accepts. -/
def backingIndex? (b : Body) (r : Relation) : Option Nat :=
  b.fields.findIdx? r.pattern.accepts

/-- The field that stores a relation. -/
def backing? (b : Body) (r : Relation) : Option Field :=
  b.fields.find? r.pattern.accepts

end Body

/-- A model: a name with a body. -/
structure Model extends Body where
  name : String
  deriving DecidableEq, Repr

end Datamodel
