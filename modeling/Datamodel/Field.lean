import Datamodel.Scalar

/-!
Fields and the way a document declares them.
-/

namespace Datamodel

/-- How the database fills in a field that is not given. -/
inductive Generator where
  | clientId
  | customId
  | currentTime
  deriving DecidableEq, Repr

namespace Generator

/-- The expression that names a generator, in declarations and in documents. -/
def expression : Generator → String
  | clientId => "cuid()"
  | customId => "uid()"
  | currentTime => "now()"

/-- The generators by their expressions, in order of declaration. -/
def names : List (String × Generator) :=
  [("cuid()", clientId), ("uid()", customId), ("now()", currentTime)]

end Generator

/-- A field of a model. `isUnique` is what was declared: a field can also have to be unique
because a relation is stored in it. -/
structure Field where
  name : String
  type : FieldType
  isPrimaryKey : Bool := false
  isUnique : Bool := false
  generator : Option Generator := none
  deriving DecidableEq, Repr

namespace Field

/-- The modifier that marks a unique field; it stands last. -/
def uniqueModifier : String :=
  " @unique"

/-- What follows the type of a field: key, default and uniqueness, in this order. -/
def modifiers (f : Field) : String :=
  (if f.isPrimaryKey then " @id" else "") ++
    (match f.generator with
      | some g => " @default(" ++ g.expression ++ ")"
      | none => "") ++
    (if f.isUnique then uniqueModifier else "")

def declaration (f : Field) : String :=
  f.name ++ " " ++ f.type.token ++ f.modifiers

end Field

end Datamodel
