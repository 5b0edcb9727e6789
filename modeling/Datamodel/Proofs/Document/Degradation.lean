import Datamodel.Document
import Datamodel.Proofs.Document.Closure
import Datamodel.Proofs.Validation

/-! What a document notes on its relations, and what it does to those it cannot write in full. Here
a document is written in one pass that adds to its text and to the notes on it as it comes to each
relation. What one step of it adds depends on the relation and its model alone, so the notes of the
whole pass are those of the relations one after the other. The ones on relations that are left out
name the relations that validation reports for want of a field, in the same order. -/
namespace Datamodel

/-- A document in the making: its text, and the notes on it. -/
structure Draft where
  text : String
  notes : List Diagnostic

namespace Draft

def write (d : Draft) (piece : String) : Draft :=
  { d with text := d.text ++ piece }

def writeLine (d : Draft) (line : String) : Draft :=
  d.write (line ++ "\n")

def note (m : Model) (r : Relation) (reason : Degradation) (d : Draft) : Draft :=
  { d with notes := d.notes ++ [⟨m.name, r.name, reason⟩] }

/-- Looks for the field that stores a relation. If the relation asks for one that is not there, this
is noted. -/
def resolve (m : Model) (r : Relation) (d : Draft) : Option Field × Draft :=
  match m.backing? r, r.backing with
  | none, some _ => (none, d.note m r .missingExplicitBacking)
  | found, _ => (found, d)

/-- Writes the line of a relation, or notes that it has none. Nothing is looked for if the relation
is of a kind that is not stored. -/
def writeRelation (m : Model) (d : Draft) (r : Relation) : Draft :=
  let stem := "  " ++ r.name ++ " " ++ r.target
  match r.kind with
  | .oneToMany => d.writeLine (stem ++ "[]")
  | .manyToMany =>
    d.writeLine (stem ++ "[] @relation(\"" ++ Relation.manyToManyName m.name r.target ++ "\")")
  | .manyToOne =>
    match d.resolve m r with
    | (some f, d) =>
      d.writeLine (stem ++ " @relation(fields: [" ++ f.name ++ "], references: [id])")
    | (none, d) => d.note m r .omittedManyToOne
  | .oneToOne =>
    let name := Relation.oneToOneName m.name r.target
    match d.resolve m r with
    | (some f, d) =>
      d.writeLine (stem ++ " @relation(name: \"" ++ name ++ "\", fields: [" ++ f.name ++
        "], references: [id])")
    | (none, d) =>
      (d.note m r .optionalOneToOne).writeLine (stem ++ "? @relation(name: \"" ++ name ++ "\")")

/-- Writes a model: its header, the lines of its fields, its relations one by one, and the brace. -/
def writeModel (d : Draft) (m : Model) : Draft :=
  let opened := m.fieldLines.foldl writeLine (d.write ("model " ++ m.name ++ " \x7b\n"))
  (m.relations.foldl (writeRelation m) opened).write "\x7d\n\n"

end Draft

/-- The document of the schema, written in one pass. -/
def Schema.writeOut (s : Schema) : Document :=
  let draft := s.models.foldl Draft.writeModel ⟨Document.paragraph Document.datasource, []⟩
  ⟨Text.trim draft.text, draft.notes⟩

namespace Model

/-- Why a relation of the model is not written in its full form: it is of a kind that is stored in a
field, and none of the fields stores it. That a field is asked for is said first. -/
def degradations (m : Model) (r : Relation) : List Degradation :=
  let missing := if r.backing.isSome then [Degradation.missingExplicitBacking] else []
  match r.kind, m.backingIndex? r with
  | .manyToOne, none => missing ++ [.omittedManyToOne]
  | .oneToOne, none => missing ++ [.optionalOneToOne]
  | _, _ => []

theorem diagnosticsOf_eq_map_degradations (m : Model) (r : Relation) :
    m.diagnosticsOf r = (m.degradations r).map (Diagnostic.mk m.name r.name) := by
  unfold diagnosticsOf degradations
  cases hIndex : m.backingIndex? r with
  | some i =>
      have hFound : (m.backing? r).isSome := by
        rw [Option.isSome_iff_ne_none, Ne, m.backing?_eq_none_iff, hIndex]
        exact Option.some_ne_none i
      rw [if_pos hFound]
      cases r.kind <;> rfl
  | none =>
      have hMissing : m.backing? r = none := (m.backing?_eq_none_iff r).mpr hIndex
      rw [hMissing]
      cases r.kind <;> cases r.backing <;> rfl

/-- A relation has no line exactly if its last note says so. -/
theorem omittedManyToOne_mem_degradations_iff {m : Model} {r : Relation} :
    .omittedManyToOne ∈ m.degradations r ↔ m.relationLine? r = none := by
  rw [← m.exists_omitted_iff, diagnosticsOf_eq_map_degradations]
  simp

end Model

namespace Draft

/-- One step: a relation adds its line, if it has one, and its notes, whatever is there already. -/
theorem writeRelation_eq (m : Model) (d : Draft) (r : Relation) :
    d.writeRelation m r =
      ⟨d.text ++ String.join ((m.relationLine? r).toList.map (· ++ "\n")),
        d.notes ++ m.diagnosticsOf r⟩ := by
  unfold writeRelation Model.relationLine? Model.diagnosticsOf resolve
  cases r.kind with
  | oneToMany => simp [writeLine, write]
  | manyToMany => simp [writeLine, write]
  | manyToOne =>
      cases m.backing? r with
      | some f => simp [writeLine, write]
      | none => cases r.backing <;> simp [note]
  | oneToOne =>
      cases m.backing? r with
      | some f => simp [writeLine, write]
      | none => cases r.backing <;> simp [writeLine, write, note]

theorem foldl_writeRelation (m : Model) (relations : List Relation) (d : Draft) :
    relations.foldl (writeRelation m) d =
      ⟨d.text ++ String.join ((relations.filterMap m.relationLine?).map (· ++ "\n")),
        d.notes ++ relations.flatMap m.diagnosticsOf⟩ := by
  induction relations generalizing d with
  | nil => simp
  | cons r rs ih =>
      rw [List.foldl_cons, ih, writeRelation_eq, List.flatMap_cons]
      cases hLine : m.relationLine? r <;>
        simp [hLine, String.append_assoc]

theorem foldl_writeLine (lines : List String) (d : Draft) :
    lines.foldl writeLine d = d.write (String.join (lines.map (· ++ "\n"))) := by
  induction lines generalizing d with
  | nil => simp [write]
  | cons line lines ih => simp [ih, writeLine, write, String.append_assoc]

/-- A model adds its block and its notes. -/
theorem writeModel_eq (d : Draft) (m : Model) :
    d.writeModel m = ⟨d.text ++ Document.paragraph m.block, d.notes ++ m.diagnostics⟩ := by
  rw [writeModel, foldl_writeLine, foldl_writeRelation, Document.paragraph, Model.block,
    Model.lines, Model.diagnostics]
  simp [write, String.append_assoc]

theorem foldl_writeModel (models : List Model) (d : Draft) :
    models.foldl writeModel d =
      ⟨d.text ++ String.join (models.map fun m => Document.paragraph m.block),
        d.notes ++ models.flatMap (·.diagnostics)⟩ := by
  induction models generalizing d with
  | nil => simp
  | cons m ms ih => simp [ih, writeModel_eq, String.append_assoc]

end Draft

/-- What a failed verdict says is wrong. -/
def reportedBy : Except SchemaError Unit → List Violation
  | .error (.invalid _ violations) => violations
  | _ => []

/-- The model and the relation of a note on a relation that is left out. -/
def Diagnostic.omitted? (d : Diagnostic) : Option (String × String) :=
  if d.reason = .omittedManyToOne then some (d.model, d.relation) else none

/-- The model and the relation of a finding that a relation has no field to store it. -/
def Violation.missing? : Violation → Option (String × String)
  | .missingBacking model relation => some (model, relation)
  | _ => none

theorem reportedBy_judge (v : Validator) (s : Schema) : reportedBy (v.judge s).1 = s.breaches := by
  by_cases h : s.breaches = []
  · rw [Validator.judge_of_breaches_eq_nil h, h]
    rfl
  · rw [Validator.judge_of_breaches_ne_nil h]
    rfl

namespace Model

/-- A relation is noted as left out exactly if it is many-to-one and stored in no field. -/
theorem filterMap_omitted?_diagnosticsOf (m : Model) (r : Relation) :
    (m.diagnosticsOf r).filterMap Diagnostic.omitted? =
      if r.kind = .manyToOne ∧ m.backingIndex? r = none then [(m.name, r.name)] else [] := by
  rw [diagnosticsOf_eq_map_degradations, degradations]
  cases r.kind <;> cases m.backingIndex? r <;> cases r.backing <;> simp [Diagnostic.omitted?]

/-- The same relations are found to be without a field: an unknown target is a finding of another
kind. -/
theorem filterMap_missing?_relationBreaches (names : List String) (m : Model) (r : Relation) :
    (m.relationBreaches names r).filterMap Violation.missing? =
      if r.kind = .manyToOne ∧ m.backingIndex? r = none then [(m.name, r.name)] else [] := by
  have hTarget : (if r.target ∈ names then []
      else [Violation.unknownTarget m.name r.name r.target]).filterMap Violation.missing? = [] := by
    split <;> rfl
  rw [relationBreaches, List.filterMap_append, hTarget, List.nil_append]
  split <;> rfl

/-- The notes on a model and the findings on it list the same relations. The findings on fields and
on keys list none. -/
theorem filterMap_missing?_breaches (names : List String) (m : Model) :
    (m.breaches names).filterMap Violation.missing? =
      m.diagnostics.filterMap Diagnostic.omitted? := by
  have hFields : ((secondOccurrences m.fieldNames).map fun field =>
      Violation.duplicate "field" (m.name ++ "." ++ field)).filterMap Violation.missing? = [] := by
    simp [List.filterMap_map, Function.comp_def, Violation.missing?]
  have hKeys : (if 2 ≤ m.fields.countP (·.isPrimaryKey) then
      [Violation.multiplePrimaryKeys m.name] else []).filterMap Violation.missing? = [] := by
    split <;> rfl
  rw [breaches, List.filterMap_append, List.filterMap_append, hFields, hKeys, List.nil_append,
    List.nil_append, diagnostics, List.filterMap_flatMap, List.filterMap_flatMap]
  simp only [filterMap_missing?_relationBreaches, filterMap_omitted?_diagnosticsOf]

end Model

namespace Schema

theorem writeOut_eq_document (s : Schema) : s.writeOut = s.document := by
  rw [writeOut, Draft.foldl_writeModel]
  rfl

theorem filterMap_omitted?_diagnostics (s : Schema) :
    s.diagnostics.filterMap Diagnostic.omitted? =
      s.breaches.filterMap Violation.missing? := by
  rw [diagnostics, breaches, List.filterMap_flatMap, List.filterMap_flatMap]
  simp only [Model.filterMap_missing?_breaches]

/-- The document is what one pass over the schema writes, and its notes are the degradations of the
relations in order. A relation adds no note but these, and it adds one line unless it is noted as
left out, whatever was written before it. The relations noted as left out are those that validation
finds without a field, one by one and whatever the validator was used for before. -/
theorem diagnostics_account (s : Schema) :
    s.writeOut = s.document ∧
      (s.document.diagnostics = s.models.flatMap fun m => m.relations.flatMap fun r =>
        (m.degradations r).map (Diagnostic.mk m.name r.name)) ∧
      (∀ (d : Draft) (m : Model) (r : Relation),
        (d.writeRelation m r).notes =
            d.notes ++ (m.degradations r).map (Diagnostic.mk m.name r.name) ∧
          (if .omittedManyToOne ∈ m.degradations r then (d.writeRelation m r).text = d.text
          else ∃ line, m.relationLine? r = some line ∧
            (d.writeRelation m r).text = d.text ++ line ++ "\n")) ∧
      ∀ v : Validator, s.document.diagnostics.filterMap Diagnostic.omitted? =
        (reportedBy (v.judge s).1).filterMap Violation.missing? := by
  refine ⟨s.writeOut_eq_document, ?_, fun d m r => ⟨?_, ?_⟩, fun v => ?_⟩
  · change s.models.flatMap (fun m => m.relations.flatMap fun r => m.diagnosticsOf r) = _
    simp only [Model.diagnosticsOf_eq_map_degradations]
  · rw [Draft.writeRelation_eq, Model.diagnosticsOf_eq_map_degradations]
  · rw [Draft.writeRelation_eq]
    cases hLine : m.relationLine? r with
    | none => simp [Model.omittedManyToOne_mem_degradations_iff, hLine]
    | some line =>
        simp [Model.omittedManyToOne_mem_degradations_iff, hLine, String.append_assoc]
  · rw [reportedBy_judge]
    exact s.filterMap_omitted?_diagnostics

-- The field that is asked for is missing, and one that would be found by its name is not taken.
example : (Schema.mk [{
      name := "User"
      fields := [{ name := "profileId", type := .scalar .int }]
      relations := [⟨"profile", .oneToOne, "Profile", none, some "profileRef"⟩] }]).diagnostics =
    [⟨"User", "profile", .missingExplicitBacking⟩, ⟨"User", "profile", .optionalOneToOne⟩] := by
  decide

end Schema

end Datamodel
