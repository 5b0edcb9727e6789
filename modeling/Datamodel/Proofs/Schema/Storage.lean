import Datamodel.Proofs.Json.Reading
import Datamodel.Proofs.Schema.Update
import Datamodel.Proofs.Value.Decoding
import Datamodel.Schema.Format

/-! Schemas that are written out and read back. What is lost is only what the written form does not
distinguish: a label that names a scalar type is read as that type, and a second model of a name
replaces the first. A schema without such labels and names comes back unchanged, and every schema
that has been read is of this kind. -/
namespace Datamodel

open Value (Fits Slot Strangers slot)

namespace Json

/-- The values of the members of a written object, under their names. -/
def memberValues (members : List (String × Json)) : List (String × Value) :=
  members.map fun m => (m.1, m.2.toValue)

/-- A written object with fitting members is the record of these members. -/
theorem asRecord_object {slots : List Slot} {strangers surplus : Strangers}
    {members : List (String × Json)} (hFits : ∀ m ∈ members, Fits slots m.1 m.2.toValue)
    (hNodup : (members.map (·.1)).Nodup) :
    Value.asRecord slots strangers surplus (object members).toValue =
      .ok ⟨memberValues members, false⟩ := by
  have hTable : (object members).toValue =
      .table ((memberValues members).map fun m => (some m.1, m.2)) true := by
    simp [toValue, toMembers_eq_map, memberValues]
  rw [hTable]
  exact Value.asRecord_of_fits (List.forall_mem_map.mpr hFits)
    (by simpa [memberValues, Function.comp_def] using hNodup)

/-- A list of things that are read back one by one. -/
theorem asList_list {α : Type} {decode : Value → Decoded α} {encode : α → Json} {as : List α}
    (h : ∀ a ∈ as, decode (encode a).toValue = .ok a) :
    Value.asList decode (list (as.map encode)).toValue = .ok as := by
  have hItems : Value.decodeItems decode (as.map fun a => (encode a).toValue) = .ok as :=
    Value.decodeItems_map h
  rw [toValue, toValues_eq_map, List.map_map, Function.comp_def, Value.asList, hItems]
  rfl

@[simp] theorem asOptional_ofOption (s : Option String) :
    Value.asOptional Value.asText (ofOption s).toValue = .ok s := by
  cases s <;> rfl

/-- A text that describes something holds a value that does. -/
theorem exists_of_parse_eq_ok {α : Type} {decode : Value → Decoded α} {text : String} {a : α}
    (h : parse decode text = .ok a) : ∃ v, decode v = .ok a := by
  simp only [parse] at h
  generalize read text = outcome at h
  obtain ⟨v, complete⟩ := outcome
  obtain ⟨b, hDecode, h⟩ := Decoded.bind_eq_ok_iff.mp h
  cases complete with
  | false => cases h
  | true =>
      cases h
      exact ⟨v, hDecode⟩

end Json

theorem FieldType.ofValue_toJson {type : FieldType} (h : type.IsProper) :
    FieldType.ofValue type.toJson.toValue = .ok type := by
  simp [FieldType.ofValue, toJson, FieldType.ofLabel_label h]

theorem FieldType.isProper_of_ofValue {v : Value} {type : FieldType}
    (h : FieldType.ofValue v = .ok type) : type.IsProper := by
  obtain ⟨label, -, rfl⟩ := Decoded.map_eq_ok_iff.mp h
  exact FieldType.isProper_ofLabel label

theorem Generator.asOptional_toValue (g : Option Generator) :
    Value.asOptional Generator.ofValue (Json.ofOption (g.map (·.expression))).toValue = .ok g := by
  cases g with
  | none => rfl
  | some g => cases g <;> decide

theorem RelationKind.ofValue_toJson (k : RelationKind) :
    RelationKind.ofValue k.toJson.toValue = .ok k := by
  cases k <;> decide

theorem Field.ofValue_toJson {f : Field} (h : f.type.IsProper) :
    Field.ofValue f.toJson.toValue = .ok f := by
  have hType := FieldType.ofValue_toJson h
  have hGenerator := Generator.asOptional_toValue f.generator
  rw [Field.ofValue, Field.toJson, Json.asRecord_object]
  · simp [Json.memberValues, hType, hGenerator]
  · simp only [List.forall_mem_cons]
    exact ⟨Value.fits_of_eq_ok rfl rfl, Value.fits_of_eq_ok rfl hType, Value.fits_of_eq_ok rfl rfl,
      Value.fits_of_eq_ok rfl rfl, Value.fits_of_eq_ok rfl hGenerator, by simp⟩
  · simp

theorem Field.isProper_of_ofValue {v : Value} {f : Field} (h : Field.ofValue v = .ok f) :
    f.type.IsProper := by
  simp only [Field.ofValue, Decoded.bind_eq_ok_iff] at h
  obtain ⟨r, -, name, -, type, hType, isPrimaryKey, -, isUnique, -, generator, -, h⟩ := h
  cases h
  obtain ⟨label, hLabel⟩ := Value.Record.exists_of_required_eq_ok hType
  exact FieldType.isProper_of_ofValue hLabel

theorem Relation.ofValue_toJson (r : Relation) : Relation.ofValue r.toJson.toValue = .ok r := by
  have hKind := RelationKind.ofValue_toJson r.kind
  have hInverse := Json.asOptional_ofOption r.inverse
  have hBacking := Json.asOptional_ofOption r.backing
  rw [Relation.ofValue, Relation.toJson, Json.asRecord_object]
  · simp [Json.memberValues, hKind]
  · simp only [List.forall_mem_cons]
    exact ⟨Value.fits_of_eq_ok rfl rfl, Value.fits_of_eq_ok rfl hKind, Value.fits_of_eq_ok rfl rfl,
      Value.fits_of_eq_ok rfl hInverse, Value.fits_of_eq_ok rfl hBacking, by simp⟩
  · simp

/-- No field of the body has the label of a scalar type as an unsupported type. -/
def Body.HasProperTypes (b : Body) : Prop :=
  ∀ f ∈ b.fields, f.type.IsProper

theorem Body.hasProperTypes_empty : HasProperTypes {} := by
  simp [HasProperTypes]

theorem Model.ofValue_toJson {m : Model} (h : m.HasProperTypes) :
    Model.ofValue m.toJson.toValue = .ok m := by
  have hFields : Value.asList Field.ofValue (Json.list (m.fields.map (·.toJson))).toValue =
      .ok m.fields :=
    Json.asList_list fun f hf => Field.ofValue_toJson (h f hf)
  have hRelations :
      Value.asList Relation.ofValue (Json.list (m.relations.map (·.toJson))).toValue =
        .ok m.relations :=
    Json.asList_list fun r _ => Relation.ofValue_toJson r
  rw [Model.ofValue, Model.toJson, Json.asRecord_object]
  · simp [Json.memberValues, hFields, hRelations]
  · simp only [List.forall_mem_cons]
    exact ⟨Value.fits_of_eq_ok rfl rfl, Value.fits_of_eq_ok rfl hFields,
      Value.fits_of_eq_ok rfl hRelations, by simp⟩
  · simp

theorem Model.hasProperTypes_of_ofValue {v : Value} {m : Model} (h : Model.ofValue v = .ok m) :
    m.HasProperTypes := by
  simp only [Model.ofValue, Decoded.bind_eq_ok_iff] at h
  obtain ⟨r, -, name, -, fields, hFields, relations, -, h⟩ := h
  cases h
  intro f hf
  obtain ⟨w, hList⟩ := Value.Record.exists_of_required_eq_ok hFields
  obtain ⟨item, hItem⟩ := Value.exists_of_asList_eq_ok hList f hf
  exact Field.isProper_of_ofValue hItem

namespace Schema

/-- What the written form of a schema distinguishes is all there is: models have different names,
and no label of a scalar type is treated as unsupported. -/
structure IsStorable (s : Schema) : Prop where
  keyed : s.IsKeyed
  proper : ∀ m ∈ s.models, m.HasProperTypes

theorem isStorable_empty : IsStorable {} :=
  ⟨List.nodup_nil, by simp⟩

/-- A change keeps a schema storable if it brings no improper type into a body. -/
theorem IsStorable.update {s : Schema} (h : s.IsStorable) {change : Body → Body}
    (hChange : ∀ b : Body, b.HasProperTypes → (change b).HasProperTypes) (name : String) :
    (s.update name change).IsStorable :=
  ⟨isKeyed_update h.keyed name change,
    forall_mem_models_update h.proper Body.hasProperTypes_empty hChange name⟩

/-- Models with different names become the schema of these models. -/
theorem ofModels_models {s : Schema} (h : s.IsKeyed) : ofModels s.models = s := by
  obtain ⟨models⟩ := s
  simp only [IsKeyed, names] at h
  induction models using List.reverseRecOn with
  | nil => rfl
  | append_singleton models m ih =>
      rw [List.map_append, List.nodup_append] at h
      have hNew : m.name ∉ models.map (·.name) :=
        fun hMem => h.2.2 m.name hMem m.name (by simp) rfl
      have hBefore : models.foldl insert {} = ⟨models⟩ := ih h.1
      rw [ofModels, List.foldl_append, hBefore, List.foldl_cons, List.foldl_nil, insert,
        update_of_notMem hNew]

/-- Whatever models are put into a schema, it is storable if their types are. -/
theorem isStorable_ofModels {models : List Model} (h : ∀ m ∈ models, m.HasProperTypes) :
    (ofModels models).IsStorable := by
  induction models using List.reverseRecOn with
  | nil => exact isStorable_empty
  | append_singleton models m ih =>
      rw [ofModels, List.foldl_append, List.foldl_cons, List.foldl_nil]
      have hLast : m.HasProperTypes := h m (by simp)
      exact (ih fun m hm => h m (by simp [hm])).update (fun _ _ => hLast) m.name

theorem ofValue_toJson {s : Schema} (h : s.IsStorable) :
    Schema.ofValue s.toJson.toValue = .ok s := by
  rw [Schema.ofValue, Schema.toJson,
    Json.asList_list fun m hm => Model.ofValue_toJson (h.proper m hm), Decoded.map_ok,
    ofModels_models h.keyed]

theorem isStorable_of_ofValue {v : Value} {s : Schema} (h : Schema.ofValue v = .ok s) :
    s.IsStorable := by
  obtain ⟨models, hModels, rfl⟩ := Decoded.map_eq_ok_iff.mp h
  refine isStorable_ofModels fun m hm => ?_
  obtain ⟨item, hItem⟩ := Value.exists_of_asList_eq_ok hModels m hm
  exact Model.hasProperTypes_of_ofValue hItem

/-- A storable schema is read back from its text. -/
theorem IsStorable.parse_compact {s : Schema} (h : s.IsStorable) :
    Json.parse Schema.ofValue s.toJson.compact = .ok s := by
  rw [Json.parse_compact, ofValue_toJson h]

/-- A schema that has been read can be stored. -/
theorem isStorable_of_parse {text : String} {s : Schema}
    (h : Json.parse Schema.ofValue text = .ok s) : s.IsStorable := by
  obtain ⟨v, hValue⟩ := Json.exists_of_parse_eq_ok h
  exact isStorable_of_ofValue hValue

end Schema

end Datamodel
