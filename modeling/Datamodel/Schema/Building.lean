import Datamodel.Error
import Datamodel.Schema

/-!
Building a schema step by step. Naming a model that does not exist creates it, so declarations can
come in any order and relations can lead to models that are declared later.
-/

namespace Datamodel.Schema

/-- Sees to it that a model exists. -/
def createModel (s : Schema) (model : String) : Schema :=
  s.update model id

def addField (s : Schema) (model : String) (f : Field) : Schema :=
  s.update model (·.addField f)

def addRelation (s : Schema) (model : String) (r : Relation) : Schema :=
  s.update model (·.addRelation r)

/-- Whether a model exists and has a field of a name. -/
def hasField (s : Schema) (model field : String) : Bool :=
  (s.get? model).any fun m => (m.field? field).isSome

/-- Marks the first field of a name as primary key. If there is no such field, this fails, and all
that changes is that the model exists. -/
def setPrimaryKey (s : Schema) (model field : String) : Except SchemaError Unit × Schema :=
  (if s.hasField model field then .ok () else .error (.fieldNotFound model field),
    s.update model (·.markKey field))

/-- Changes the first field of a name, if the model has one. -/
def editField (s : Schema) (model field : String) (change : Field → Field) : Schema :=
  s.update model (·.editField field change)

def removeField (s : Schema) (model : String) (index : Nat) : Schema :=
  s.update model (·.removeField index)

def removeRelation (s : Schema) (model : String) (index : Nat) : Schema :=
  s.update model (·.removeRelation index)

end Datamodel.Schema
