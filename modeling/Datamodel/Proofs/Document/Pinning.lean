import Datamodel.Proofs.Document.Uniqueness
import Datamodel.Proofs.Validation

/-! Relations that name the field which was found for them. A search by name and a search for part
of a name stop at the same field: an earlier field of the same name would have been accepted by the
second search too. So it makes no difference to a document or to its validation whether a schema
leaves a field to be found or names it. -/
namespace Datamodel

namespace Body

/-- The relation with the field named that was found for it. A relation that names a field, or that
is stored nowhere, stays as it is. -/
def pinRelation (b : Body) (r : Relation) : Relation :=
  match r.backing with
  | some _ => r
  | none => { r with backing := (b.backingIndex? r).bind (b.fieldNames[·]?) }

/-- The body with every field named in which one of its relations is stored. -/
def pin (b : Body) : Body :=
  { b with relations := b.relations.map b.pinRelation }

theorem pinRelation_of_named {r : Relation} {name : String} (h : r.backing = some name)
    (b : Body) : b.pinRelation r = r := by
  rw [pinRelation, h]

theorem pinRelation_of_backingIndex?_eq_none {b : Body} {r : Relation}
    (h : b.backingIndex? r = none) : b.pinRelation r = r := by
  cases hBacking : r.backing with
  | some name => exact pinRelation_of_named hBacking b
  | none =>
      cases r
      simp_all [pinRelation]

theorem backing_pinRelation {b : Body} {r : Relation} {i : Nat} {f : Field}
    (hNone : r.backing = none) (hIndex : b.backingIndex? r = some i)
    (hField : b.fields[i]? = some f) : (b.pinRelation r).backing = some f.name := by
  simp [pinRelation, hNone, hIndex, fieldNames, hField]

/-- No earlier field has the name of the one that was found: it would have been found before. -/
theorem findIdx?_named_of_backingIndex? {b : Body} {r : Relation} {i : Nat} {f : Field}
    (hIndex : b.backingIndex? r = some i) (hField : b.fields[i]? = some f) :
    b.fields.findIdx? (FieldPattern.named f.name).accepts = some i := by
  obtain ⟨hi, hFound, hBefore⟩ := List.findIdx?_eq_some_iff_getElem.mp hIndex
  obtain ⟨-, rfl⟩ := List.getElem?_eq_some_iff.mp hField
  refine List.findIdx?_eq_some_iff_getElem.mpr ⟨hi, by simp [FieldPattern.accepts], ?_⟩
  intro j hj hSame
  have hName : b.fields[j].name = b.fields[i].name := by simpa [FieldPattern.accepts] using hSame
  exact hBefore j hj (by rwa [r.pattern.accepts_congr hName])

/-- A relation is stored in the same place whether its field is named or found. -/
theorem backingIndex?_pinRelation (b : Body) (r : Relation) :
    b.backingIndex? (b.pinRelation r) = b.backingIndex? r := by
  cases hIndex : b.backingIndex? r with
  | none => rw [pinRelation_of_backingIndex?_eq_none hIndex, hIndex]
  | some i =>
      cases hBacking : r.backing with
      | some name => rw [pinRelation_of_named hBacking, hIndex]
      | none =>
          have hi := lt_length_of_backingIndex? hIndex
          have hField : b.fields[i]? = some b.fields[i] := List.getElem?_eq_getElem hi
          rw [backingIndex?, Relation.pattern, backing_pinRelation hBacking hIndex hField]
          exact findIdx?_named_of_backingIndex? hIndex hField

theorem backing?_pinRelation (b : Body) (r : Relation) :
    b.backing? (b.pinRelation r) = b.backing? r := by
  rw [backing?_eq_bind, backing?_eq_bind, backingIndex?_pinRelation]

@[simp] theorem kind_pinRelation (b : Body) (r : Relation) : (b.pinRelation r).kind = r.kind := by
  unfold pinRelation
  split <;> rfl

@[simp] theorem name_pinRelation (b : Body) (r : Relation) : (b.pinRelation r).name = r.name := by
  unfold pinRelation
  split <;> rfl

@[simp] theorem target_pinRelation (b : Body) (r : Relation) :
    (b.pinRelation r).target = r.target := by
  unfold pinRelation
  split <;> rfl

theorem linkedIndices_pin (b : Body) : b.pin.linkedIndices = b.linkedIndices := by
  have hIndex (r : Relation) : b.pin.linkedIndex? (b.pinRelation r) = b.linkedIndex? r := by
    rw [linkedIndex?, linkedIndex?, kind_pinRelation]
    exact if_congr Iff.rfl (b.backingIndex?_pinRelation r) rfl
  simp only [linkedIndices, pin, List.filterMap_map]
  exact List.filterMap_congr fun r _ => hIndex r

end Body

namespace Model

/-- The model with every field named in which one of its relations is stored. -/
def pin (m : Model) : Model :=
  { m with toBody := m.toBody.pin }

theorem backing?_pin (m : Model) (r : Relation) :
    m.pin.backing? (m.pinRelation r) = m.backing? r :=
  m.backing?_pinRelation r

/-- The line of a relation depends on the field that stores it, not on how it was found. -/
theorem relationLine?_pin (m : Model) (r : Relation) :
    m.pin.relationLine? (m.pinRelation r) = m.relationLine? r := by
  simp only [relationLine?, backing?_pin, Body.kind_pinRelation, Body.name_pinRelation,
    Body.target_pinRelation]
  rfl

/-- A note is made only where no field was found, and there the relation has not changed. -/
theorem diagnosticsOf_pin (m : Model) (r : Relation) :
    m.pin.diagnosticsOf (m.pinRelation r) = m.diagnosticsOf r := by
  by_cases hFound : (m.backing? r).isSome
  · rw [diagnosticsOf, diagnosticsOf, backing?_pin, if_pos hFound, if_pos hFound]
  · have hNone : m.backing? r = none := by simpa using hFound
    rw [Body.pinRelation_of_backingIndex?_eq_none ((m.backing?_eq_none_iff r).mp hNone)]
    rfl

theorem lines_pin (m : Model) : m.pin.lines = m.lines := by
  have hFields : m.pin.fieldLines = m.fieldLines := by
    rw [Body.fieldLines, Body.fieldLines]
    exact congrArg (fun linked => m.fields.mapIdx (Field.line linked)) m.toBody.linkedIndices_pin
  have hRelations : m.pin.relations.filterMap m.pin.relationLine? =
      m.relations.filterMap m.relationLine? := by
    rw [pin, Body.pin, List.filterMap_map]
    exact List.filterMap_congr fun r _ => m.relationLine?_pin r
  rw [lines, lines, hFields, hRelations]

theorem diagnostics_pin (m : Model) : m.pin.diagnostics = m.diagnostics := by
  rw [diagnostics, diagnostics, pin, Body.pin, List.flatMap_map]
  exact congrArg m.relations.flatMap (funext m.diagnosticsOf_pin)

theorem breaches_pin (names : List String) (m : Model) :
    m.pin.breaches names = m.breaches names := by
  have hOf (r : Relation) :
      m.pin.relationBreaches names (m.pinRelation r) = m.relationBreaches names r := by
    have hIndex : m.pin.backingIndex? (m.pinRelation r) = m.backingIndex? r :=
      m.backingIndex?_pinRelation r
    simp only [relationBreaches, hIndex, Body.kind_pinRelation, Body.name_pinRelation,
      Body.target_pinRelation]
    rfl
  have hRelations : m.pin.relations.flatMap (m.pin.relationBreaches names) =
      m.relations.flatMap (m.relationBreaches names) := by
    rw [pin, Body.pin, List.flatMap_map]
    exact congrArg m.relations.flatMap (funext hOf)
  rw [breaches, breaches, hRelations]
  rfl

end Model

namespace Schema

/-- The schema with every field named in which a relation is stored. -/
def pin (s : Schema) : Schema :=
  ⟨s.models.map (·.pin)⟩

theorem names_pin (s : Schema) : s.pin.names = s.names := by
  simp only [names, pin, List.map_map, Function.comp_def]
  rfl

theorem document_pin (s : Schema) : s.pin.document = s.document := by
  have hBlock (m : Model) : m.pin.block = m.block := by
    rw [Model.block, Model.block, m.lines_pin]
    rfl
  rw [document, document, text, text, diagnostics, diagnostics]
  simp only [pin, List.map_map, List.flatMap_map, Function.comp_def, hBlock,
    Model.diagnostics_pin]

theorem breaches_pin (s : Schema) : s.pin.breaches = s.breaches := by
  rw [breaches, breaches, names_pin, pin, List.flatMap_map]
  exact congrArg s.models.flatMap (funext (Model.breaches_pin s.names))

/-- Naming the fields that are found changes nothing but the relations: each of them is stored in
the place it was stored in before, in whatever way it is found, and the document, the notes on it
and the verdict of any validator are the same. -/
theorem pin_agrees (s : Schema) :
    (∀ m ∈ s.models, m.pin.relations.map m.pin.backingIndex? = m.relations.map m.backingIndex? ∧
      ∀ (r : Relation) (i : Nat) (f : Field), r.backing = none → m.backingIndex? r = some i →
        m.fields[i]? = some f → (m.pinRelation r).backing = some f.name) ∧
      s.pin.document = s.document ∧
      ∀ v : Validator, v.judge s.pin = v.judge s := by
  refine ⟨fun m _ => ⟨?_, fun r i f => Body.backing_pinRelation⟩, s.document_pin, fun v => ?_⟩
  · rw [Model.pin, Body.pin, List.map_map]
    exact List.map_congr_left fun r _ => m.backingIndex?_pinRelation r
  · rw [Validator.judge_eq, Validator.judge_eq, s.breaches_pin]

/-- Of two fields that could store the relation, and that share a name, the first one is named and
found again. -/
example :
    let b : Body := {
      fields := [
        { name := "id", type := .scalar .int },
        { name := "AuthorId", type := .scalar .int },
        { name := "AuthorId", type := .scalar .json }] }
    let r : Relation := { name := "author", kind := .manyToOne, target := "User" }
    (b.pinRelation r).backing = some "AuthorId" ∧ b.backingIndex? (b.pinRelation r) = some 1 := by
  decide

end Schema

end Datamodel
