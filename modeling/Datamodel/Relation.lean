import Datamodel.Field
import Datamodel.Text
import Datamodel.Text.Lowercase

/-!
Relations between models, which field of the owning model can store one, and the names under which
a document joins the two sides of a relation. Both sides have to arrive at the same name, so the two
models are put in order first.
-/

namespace Datamodel

/-- How many rows on each side a relation joins, seen from the owning model. -/
inductive RelationKind where
  | oneToMany
  | manyToOne
  | manyToMany
  | oneToOne
  deriving DecidableEq, Repr

namespace RelationKind

/-- The kinds by their names, in order of declaration. -/
def names : List (String × RelationKind) :=
  [("OneToMany", oneToMany), ("ManyToOne", manyToOne), ("ManyToMany", manyToMany),
    ("OneToOne", oneToOne)]

def name : RelationKind → String
  | oneToMany => "OneToMany"
  | manyToOne => "ManyToOne"
  | manyToMany => "ManyToMany"
  | oneToOne => "OneToOne"

/-- The short form of a kind. -/
def ratio : RelationKind → String
  | oneToOne => "1:1"
  | oneToMany => "1:n"
  | manyToOne => "n:1"
  | manyToMany => "m:n"

end RelationKind

/-- A relation of a model to the model named `target`, which need not exist. The name of the
relation on the other side is kept for information only. -/
structure Relation where
  name : String
  kind : RelationKind
  target : String
  inverse : Option String := none
  backing : Option String := none
  deriving DecidableEq, Repr

/-- What a relation asks of the field that stores it: to have a name, or to have a name that
contains a text when it is written in lower case. -/
inductive FieldPattern where
  | named (name : String)
  | containing (part : String)
  deriving DecidableEq, Repr

namespace FieldPattern

def accepts (p : FieldPattern) (f : Field) : Bool :=
  match p with
  | named name => f.name == name
  | containing part => Text.contains (Text.lowercase f.name) part

end FieldPattern

namespace Relation

/-- What the lower-case name of a field must contain to back a relation that names no field. -/
def needle (r : Relation) : String :=
  Text.lowercase r.name ++ "id"

/-- What a field must be like to back the relation: it has the name the relation asks for or, if
the relation asks for none, a name that contains the relation's name followed by `id`, both in
lower case. -/
def pattern (r : Relation) : FieldPattern :=
  match r.backing with
  | some name => .named name
  | none => .containing r.needle

/-- The name of a many-to-many relation of two models. -/
def manyToManyName (a b : String) : String :=
  (Text.unitSorted a b).1 ++ "To" ++ (Text.unitSorted a b).2

/-- The name of a one-to-one relation of two models. -/
def oneToOneName (a b : String) : String :=
  "RelationBetween" ++ (Text.unitSorted a b).1 ++ "And" ++ (Text.unitSorted a b).2

end Relation

end Datamodel
