import Datamodel.Plan.Format
import Datamodel.Proofs.Schema.Storage

/-! Plans that are written out and read back. A step is written with its operation first and without
the choices that are not set. It is read by taking the operation out and keeping the other members
for later, which does nothing to them. -/
namespace Datamodel

open Value (Fits Slot)

/-- A text that describes something holds a value that does. -/
theorem Toml.exists_of_parse_eq_ok {α : Type} {decode : Value → Decoded α} {text : String} {a : α}
    (h : parse decode text = .ok a) : ∃ v, decode v = .ok a := by
  rw [parse] at h
  cases hRead : read text with
  | none => rw [hRead] at h; cases h
  | some v => rw [hRead] at h; exact ⟨v, h⟩

namespace Step

/-- The type of the field that the step adds is not the label of a scalar type. -/
def IsProper : Step → Prop
  | addField _ _ type _ _ => type.IsProper
  | _ => True

theorem operationOf_label (operation : Operation) :
    operationOf (.text (some operation.label)) = .ok operation := by
  cases operation <;> decide

theorem asOptional_generatorOf (g : Generator) :
    Value.asOptional generatorOf g.toJson.toValue = .ok (some g) := by
  cases g <;> decide

theorem kindOf_toJson (k : RelationKind) : kindOf k.toJson.toValue = .ok k := by
  cases k <;> decide

/-- A member that is kept until the operation is known. -/
structure IsKept (depth : Nat) (m : Option String × Value) : Prop where
  name_ne : m.1 ≠ some operationMember
  isSome_name : m.1.isSome
  isKeepable : m.2.isKeepable depth

/-- Kept members are put in front of what is left of the others. -/
theorem splitMembers_append {depth : Nat} {found result : Option Operation}
    {members others rest : List (Option String × Value)} (hKept : ∀ m ∈ members, IsKept depth m)
    (h : splitMembers depth found others = .ok (result, rest)) :
    splitMembers depth found (members ++ others) = .ok (result, members ++ rest) := by
  induction members with
  | nil => exact h
  | cons m ms ih =>
      obtain ⟨hName, hSome, hKeepable⟩ := hKept m (by simp)
      have hOthers := ih fun m hm => hKept m (by simp [hm])
      rw [List.cons_append, splitMembers.eq_def]
      simp only [if_neg hName, hSome, hKeepable, hOthers, Bool.and_self, if_true]
      rfl

theorem splitMembers_of_isKept {depth : Nat} {found : Option Operation}
    {members : List (Option String × Value)} (h : ∀ m ∈ members, IsKept depth m) :
    splitMembers depth found members = .ok (found, members) := by
  have hNoMore : splitMembers depth found [] = .ok (found, []) := by rw [splitMembers]
  simpa using splitMembers_append h hNoMore

/-- A step that is written with its operation first is read from its other members. -/
theorem ofValue_operation_first {depth : Nat} {operation : Operation}
    {members : List (String × Json)}
    (h : ∀ m ∈ members, m.1 ≠ operationMember ∧ m.2.toValue.isKeepable depth) :
    ofValue depth
        (Json.object ((operationMember, .text operation.label) :: members)).toValue =
      ofRest operation (Json.object members).toValue := by
  have hOthers : splitMembers depth (some operation) (Json.toMembers members) =
      .ok (some operation, Json.toMembers members) := by
    refine splitMembers_of_isKept ?_
    rw [Json.toMembers_eq_map, List.forall_mem_map]
    exact fun m hm => ⟨fun hName => (h m hm).1 (Option.some.inj hName), rfl, (h m hm).2⟩
  rw [Json.toValue, Json.toMembers, Json.toValue_text, ofValue, ofMembers, splitMembers.eq_def]
  simp [operationOf_label, hOthers, Json.toValue]

/-- A choice is written only if it is set. -/
theorem forall_mem_choice {α : Type} {choice : Option α} {name : String} {encode : α → Json}
    {P : String × Json → Prop} (h : ∀ a, P (name, encode a)) :
    ∀ m ∈ (choice.map fun a => (name, encode a)).toList, P m := by
  cases choice <;> simp [h]

/-- Without its operation a step is the record of the members that are set. -/
theorem ofRest_members {step : Step} (h : step.IsProper) :
    ofRest step.operation (Json.object step.members).toValue = .ok step := by
  cases step with
  | createModel model =>
      rw [ofRest, Json.asRecord_object]
      · simp [operation, ofRecord, members, Json.memberValues]
      · simp only [members, List.forall_mem_singleton]
        exact Value.fits_of_eq_ok rfl rfl
      · simp [members]
  | addField model field type generator isUnique =>
      have hType := FieldType.ofValue_toJson h
      -- A default that is not set has no member, so the members are looked up in both cases.
      rw [ofRest, Json.asRecord_object]
      · cases generator <;>
          simp [operation, ofRecord, members, Json.memberValues, hType, asOptional_generatorOf]
      · simp only [members, List.forall_mem_append, List.forall_mem_cons]
        exact ⟨⟨⟨Value.fits_of_eq_ok rfl rfl, Value.fits_of_eq_ok rfl rfl,
          Value.fits_of_eq_ok rfl hType, by simp⟩,
          forall_mem_choice fun g => Value.fits_of_eq_ok rfl (asOptional_generatorOf g)⟩,
          Value.fits_of_eq_ok rfl rfl, by simp⟩
      · cases generator <;> simp [members]
  | setPrimaryKey model field =>
      rw [ofRest, Json.asRecord_object]
      · simp [operation, ofRecord, members, Json.memberValues]
      · simp only [members, List.forall_mem_cons]
        exact ⟨Value.fits_of_eq_ok rfl rfl, Value.fits_of_eq_ok rfl rfl, by simp⟩
      · simp [members]
  | addRelation model relation =>
      obtain ⟨name, kind, target, inverse, backing⟩ := relation
      have hKind := kindOf_toJson kind
      rw [ofRest, Json.asRecord_object]
      · cases inverse <;> cases backing <;>
          simp [operation, ofRecord, members, Json.memberValues, hKind]
      · simp only [members, List.forall_mem_append, List.forall_mem_cons]
        exact ⟨⟨⟨Value.fits_of_eq_ok rfl rfl, Value.fits_of_eq_ok rfl rfl,
          Value.fits_of_eq_ok rfl hKind, Value.fits_of_eq_ok rfl rfl, by simp⟩,
          forall_mem_choice fun _ => Value.fits_of_eq_ok rfl rfl⟩,
          forall_mem_choice fun _ => Value.fits_of_eq_ok rfl rfl⟩
      · cases inverse <;> cases backing <;> simp [members]
  | reset =>
      rw [ofRest, Json.asRecord_object]
      · simp [operation, ofRecord]
      · simp [members]
      · simp [members]

/-- The members of a step have other names than the operation and hold a text or a flag. -/
theorem members_keepable (step : Step) (depth : Nat) :
    ∀ m ∈ step.members, m.1 ≠ operationMember ∧ m.2.toValue.isKeepable depth := by
  cases step with
  | createModel model => simp [members, operationMember, Value.isKeepable]
  | addField model field type generator isUnique =>
      cases generator <;>
        simp [members, operationMember, Value.isKeepable, FieldType.toJson, Generator.toJson]
  | setPrimaryKey model field => simp [members, operationMember, Value.isKeepable]
  | addRelation model relation =>
      obtain ⟨name, kind, target, inverse, backing⟩ := relation
      cases inverse <;> cases backing <;>
        simp [members, operationMember, Value.isKeepable, RelationKind.toJson]
  | reset => simp [members]

theorem ofValue_toJson {step : Step} (h : step.IsProper) (depth : Nat) :
    Step.ofValue depth step.toJson.toValue = .ok step := by
  rw [toJson, ofValue_operation_first (step.members_keepable depth), ofRest_members h]

/-- A step that has been read is of the operation it was read for, and it adds no field with the
label of a scalar type as an unsupported type. -/
theorem operation_eq_and_isProper_of_ofRecord {operation : Operation} {r : Value.Record}
    {step : Step} (h : ofRecord operation r = .ok step) :
    step.operation = operation ∧ step.IsProper := by
  cases operation with
  | createModel =>
      simp only [ofRecord, Decoded.bind_eq_ok_iff] at h
      obtain ⟨model, -, h⟩ := h
      cases h
      exact ⟨rfl, trivial⟩
  | addField =>
      simp only [ofRecord, Decoded.bind_eq_ok_iff] at h
      obtain ⟨model, -, field, -, type, hType, generator, -, isUnique, -, h⟩ := h
      cases h
      obtain ⟨label, hLabel⟩ := Value.Record.exists_of_required_eq_ok hType
      exact ⟨rfl, FieldType.isProper_of_ofValue hLabel⟩
  | setPrimaryKey =>
      simp only [ofRecord, Decoded.bind_eq_ok_iff] at h
      obtain ⟨model, -, field, -, h⟩ := h
      cases h
      exact ⟨rfl, trivial⟩
  | addRelation =>
      simp only [ofRecord, Decoded.bind_eq_ok_iff] at h
      obtain ⟨model, -, name, -, kind, -, target, -, inverse, -, backing, -, h⟩ := h
      cases h
      exact ⟨rfl, trivial⟩
  | reset =>
      cases h
      exact ⟨rfl, trivial⟩

/-- Every way to read a step ends in a record. -/
theorem exists_ofRecord_of_ofValue {depth : Nat} {v : Value} {step : Step}
    (h : Step.ofValue depth v = .ok step) : ∃ operation r, ofRecord operation r = .ok step := by
  have hRest {operation : Operation} {rest : Value} (h : ofRest operation rest = .ok step) :
      ∃ operation r, ofRecord operation r = .ok step := by
    obtain ⟨r, -, h⟩ := Decoded.bind_eq_ok_iff.mp h
    exact ⟨operation, r, h⟩
  unfold Step.ofValue at h
  split at h
  · rename_i members closed
    obtain ⟨⟨found, others⟩, -, h⟩ := Decoded.bind_eq_ok_iff.mp h
    cases closed with
    | false => cases h
    | true =>
        cases found with
        | none => cases h
        | some operation => exact hRest h
  · cases h
  · obtain ⟨operation, -, h⟩ := Decoded.bind_eq_ok_iff.mp h
    split at h
    · exact hRest h
    · cases h
  · cases h
  · cases h

end Step

namespace Plan

/-- No step of the plan adds a field with the label of a scalar type as an unsupported type. -/
def HasProperTypes (p : Plan) : Prop :=
  ∀ step ∈ p.steps, step.IsProper

theorem ofValue_toJson {p : Plan} (h : p.HasProperTypes) (depth : Nat) :
    Plan.ofValue depth p.toJson.toValue = .ok p := by
  have hSteps : Value.asList (Step.ofValue depth) (Json.list (p.steps.map (·.toJson))).toValue =
      .ok p.steps :=
    Json.asList_list fun step hStep => Step.ofValue_toJson (h step hStep) depth
  rw [Plan.ofValue, toJson, Json.asRecord_object]
  · simp [Json.memberValues, hSteps]
  · simp only [List.forall_mem_singleton]
    exact Value.fits_of_eq_ok rfl hSteps
  · simp

theorem hasProperTypes_of_ofValue {depth : Nat} {v : Value} {p : Plan}
    (h : Plan.ofValue depth v = .ok p) : p.HasProperTypes := by
  obtain ⟨r, -, h⟩ := Decoded.bind_eq_ok_iff.mp h
  obtain ⟨steps, hSteps, h⟩ := Decoded.bind_eq_ok_iff.mp h
  cases h
  intro step hStep
  unfold Value.Record.optional at hSteps
  split at hSteps
  · obtain ⟨item, hItem⟩ := Value.exists_of_asList_eq_ok hSteps step hStep
    obtain ⟨operation, r, hRecord⟩ := Step.exists_ofRecord_of_ofValue hItem
    exact (Step.operation_eq_and_isProper_of_ofRecord hRecord).2
  · cases hSteps
    simp at hStep

/-- A plan that has been read, from either kind of text, has proper types. -/
theorem hasProperTypes_of_parse {text : String} {p : Plan}
    (h : ofJson text = .ok p ∨ ofToml text = .ok p) : p.HasProperTypes := by
  rcases h with hJson | hToml
  · obtain ⟨v, hValue⟩ := Json.exists_of_parse_eq_ok hJson
    exact hasProperTypes_of_ofValue hValue
  · obtain ⟨v, hValue⟩ := Toml.exists_of_parse_eq_ok hToml
    exact hasProperTypes_of_ofValue hValue

theorem HasProperTypes.ofJson_compact {p : Plan} (h : p.HasProperTypes) :
    ofJson p.toJson.compact = .ok p := by
  rw [ofJson, Json.parse_compact, ofValue_toJson h]

/-- A plan is read back from its text as it was, if it adds no field with the label of a scalar type
as an unsupported type. This is so of every plan that has been read from a text. -/
theorem ofJson_compact_toJson :
    (∀ p : Plan, p.HasProperTypes → ofJson p.toJson.compact = .ok p) ∧
      ∀ (text : String) (p : Plan), ofJson text = .ok p ∨ ofToml text = .ok p →
        ofJson p.toJson.compact = .ok p := by
  refine ⟨fun p h => h.ofJson_compact, fun text p hRead => ?_⟩
  have hProper := hasProperTypes_of_parse hRead
  exact hProper.ofJson_compact

/-- Names that look like the text around them, choices that are set and left out, every operation;
and a plan that has been read from a text with the operation behind other members. -/
theorem ofJson_compact_of_quoted_names :
    let p : Plan := ⟨[.reset, .createModel "\"\x7d\\",
      .addField "\"\x7d\\" "op" (.unsupported "double precision") none false,
      .addField "" "\n\u0000𝄞" (.scalar .float) (some .currentTime) true,
      .setPrimaryKey "" "\n\u0000𝄞",
      .addRelation "A" { name := "b", kind := .oneToOne, target := "B" },
      .addRelation "A"
        { name := "c", kind := .manyToOne, target := "C", inverse := some "",
          backing := some "null" }]⟩
    let text := "\x7b\"steps\":[\x7b\"type\":\"Float\",\"model\":\"A\",\"field\":\"x\",\"op\":" ++
      "\"add_field\"\x7d]\x7d"
    let q : Plan := ⟨[.addField "A" "x" (.scalar .float) none false]⟩
    p.HasProperTypes ∧ ofJson p.toJson.compact = .ok p ∧
      ofJson text = .ok q ∧ ofJson q.toJson.compact = .ok q := by
  intro p text q
  have hProper : p.HasProperTypes := by
    simp [p, HasProperTypes, Step.IsProper, FieldType.IsProper, Scalar.ofLabel?]
  have hRead : ofJson text = .ok q := by decide +kernel
  exact ⟨hProper, ofJson_compact_toJson.1 p hProper, hRead,
    ofJson_compact_toJson.2 text q (.inl hRead)⟩

end Plan

end Datamodel
