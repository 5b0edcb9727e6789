import Datamodel.Document.Diagnostic
import Datamodel.Schema

/-!
The document of a schema: a fixed datasource block and one block for each model, with a line for
each field and then a line for each relation. A field that stores a one-to-one relation is written
as unique, whether it was declared so or not; the schema itself does not change. A many-to-one
relation without a field to store it has no line, and a one-to-one relation without one is written
as the optional side.
-/

namespace Datamodel

namespace Body

/-- The place of the field in which a relation is stored, if the relation is one-to-one. -/
def linkedIndex? (b : Body) (r : Relation) : Option Nat :=
  if r.kind = .oneToOne then b.backingIndex? r else none

/-- The places of the fields in which one-to-one relations are stored, relation by relation. -/
def linkedIndices (b : Body) : List Nat :=
  b.relations.filterMap b.linkedIndex?

end Body

namespace Field

/-- The line of the field at an index, if one-to-one relations are stored in the fields at the
indices `linked`. The modifier that a relation adds stands where a declared one does, and is not
written twice. -/
def line (linked : List Nat) (index : Nat) (f : Field) : String :=
  "  " ++ f.declaration ++
    (if linked.contains index && !f.isUnique then uniqueModifier else "")

end Field

namespace Body

def fieldLines (b : Body) : List String :=
  b.fields.mapIdx (Field.line b.linkedIndices)

/-- A one-to-one relation is stored in the field at an index exactly if the index is listed. -/
theorem mem_linkedIndices {b : Body} {index : Nat} :
    index ∈ b.linkedIndices ↔
      ∃ r ∈ b.relations, r.kind = .oneToOne ∧ b.backingIndex? r = some index := by
  simp [linkedIndices, linkedIndex?, List.mem_filterMap]

end Body

namespace Model

/-- The line of a relation, if it has one. -/
def relationLine? (m : Model) (r : Relation) : Option String :=
  match r.kind with
  | .oneToMany => some ("  " ++ r.name ++ " " ++ r.target ++ "[]")
  | .manyToMany =>
    some ("  " ++ r.name ++ " " ++ r.target ++ "[] @relation(\"" ++
      Relation.manyToManyName m.name r.target ++ "\")")
  | .manyToOne =>
    (m.backing? r).map fun f =>
      "  " ++ r.name ++ " " ++ r.target ++ " @relation(fields: [" ++ f.name ++
        "], references: [id])"
  | .oneToOne =>
    match m.backing? r with
    | some f =>
      some ("  " ++ r.name ++ " " ++ r.target ++ " @relation(name: \"" ++
        Relation.oneToOneName m.name r.target ++ "\", fields: [" ++ f.name ++
        "], references: [id])")
    | none =>
      some ("  " ++ r.name ++ " " ++ r.target ++ "? @relation(name: \"" ++
        Relation.oneToOneName m.name r.target ++ "\")")

/-- The lines between the braces of the model's block. -/
def lines (m : Model) : List String :=
  m.fieldLines ++ m.relations.filterMap m.relationLine?

/-- The block of the model, up to its closing brace. -/
def block (m : Model) : String :=
  "model " ++ m.name ++ " \x7b\n" ++ String.join (m.lines.map (· ++ "\n")) ++ "\x7d"

end Model

/-- A document, and the notes on what is missing from it. -/
structure Document where
  text : String
  diagnostics : List Diagnostic
  deriving DecidableEq, Repr

namespace Document

/-- The block that opens every document. -/
def datasource : String :=
  "datasource db \x7b\n  provider = \"postgresql\"\n  url      = env(\"DATABASE_URL\")\n\x7d"

/-- A block with the blank line after it. -/
def paragraph (block : String) : String :=
  block ++ "\n\n"

end Document

namespace Schema

/-- The text of the document: every block with the blank line after it, and no white space at the
two ends. -/
def text (s : Schema) : String :=
  Text.trim (Document.paragraph Document.datasource ++
    String.join (s.models.map fun m => Document.paragraph m.block))

/-- The notes on the document, in the order of models and relations. -/
def diagnostics (s : Schema) : List Diagnostic :=
  s.models.flatMap (·.diagnostics)

/-- The document of the schema. -/
def document (s : Schema) : Document :=
  ⟨s.text, s.diagnostics⟩

end Schema

end Datamodel
