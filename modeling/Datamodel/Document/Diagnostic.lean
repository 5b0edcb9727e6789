import Datamodel.Model

/-!
What a document leaves out or weakens, relation by relation.
-/

namespace Datamodel

/-- Why a relation is not written in its full form. -/
inductive Degradation where
  | omittedManyToOne
  | optionalOneToOne
  | missingExplicitBacking
  deriving DecidableEq, Repr

namespace Degradation

def name : Degradation → String
  | omittedManyToOne => "OmittedManyToOne"
  | optionalOneToOne => "OptionalOneToOne"
  | missingExplicitBacking => "MissingExplicitBackingField"

def remark : Degradation → String
  | omittedManyToOne => "no backing field, many-to-one relation omitted"
  | optionalOneToOne => "no backing field, rendered as optional one-to-one"
  | missingExplicitBacking => "explicit backing field does not exist"

end Degradation

/-- A note on one relation of a document. -/
structure Diagnostic where
  model : String
  relation : String
  reason : Degradation
  deriving DecidableEq, Repr

namespace Diagnostic

/-- The note as a reader sees it. -/
def message (d : Diagnostic) : String :=
  d.model ++ "." ++ d.relation ++ ": " ++ d.reason.remark

end Diagnostic

namespace Model

/-- The notes on a relation of the model: none if it needs no field or has one. A field that is
asked for and missing is noted before its consequence. -/
def diagnosticsOf (m : Model) (r : Relation) : List Diagnostic :=
  if (m.backing? r).isSome then []
  else
    let missing :=
      if r.backing.isSome then [⟨m.name, r.name, .missingExplicitBacking⟩] else []
    match r.kind with
    | .manyToOne => missing ++ [⟨m.name, r.name, .omittedManyToOne⟩]
    | .oneToOne => missing ++ [⟨m.name, r.name, .optionalOneToOne⟩]
    | .oneToMany => []
    | .manyToMany => []

/-- The notes on all relations of the model. -/
def diagnostics (m : Model) : List Diagnostic :=
  m.relations.flatMap m.diagnosticsOf

end Model

end Datamodel
