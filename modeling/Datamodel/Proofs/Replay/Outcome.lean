import Datamodel.Proofs.Replay
import Mathlib.Data.List.DropRight
import Mathlib.Data.List.Induction

/-! What a plan builds, read off its steps without replaying them. Only the steps after the last
reset count. Models stand in the order in which steps name them first; the fields and relations of a
model are those that steps add to it. A key is the first field of a name that some step sets as a
key, wherever that step stands among the others. -/
namespace Datamodel

namespace Step

/-- The field that the step adds to a model, not yet a key. -/
def fieldOf? (model : String) : Step → Option Field
  | addField owner name type generator isUnique =>
      if owner = model then some { name, type, generator, isUnique } else none
  | _ => none

/-- The relation that the step adds to a model. -/
def relationOf? (model : String) : Step → Option Relation
  | addRelation owner relation => if owner = model then some relation else none
  | _ => none

theorem fieldOf?_eq_none {step : Step} {model : String} (h : step.model? ≠ some model) :
    step.fieldOf? model = none := by
  cases step <;> simp_all [fieldOf?, model?]

theorem relationOf?_eq_none {step : Step} {model : String} (h : step.model? ≠ some model) :
    step.relationOf? model = none := by
  cases step <;> simp_all [relationOf?, model?]

end Step

namespace Outcome

/-- The steps after the last reset, or all of them if there is none. -/
def sinceReset (steps : List Step) : List Step :=
  steps.rtakeWhile (· ≠ .reset)

/-- The models that steps name, in the order in which they come up first. -/
def modelNames (steps : List Step) : List String :=
  (steps.filterMap (·.model?)).eraseDups

/-- The fields that steps add to a model, in order and with repetitions. -/
def addedFields (steps : List Step) (model : String) : List Field :=
  steps.filterMap (Step.fieldOf? model)

/-- The relations that steps add to a model, in order. -/
def addedRelations (steps : List Step) (model : String) : List Relation :=
  steps.filterMap (Step.relationOf? model)

/-- The fields of a model with its keys. A field is a key if no field before it has its name and one
of the steps sets the key of that name. -/
def withKeys (steps : List Step) (model : String) (fields : List Field) : List Field :=
  fields.mapIdx fun i f =>
    { f with
      isPrimaryKey :=
        f.name ∉ (fields.take i).map (·.name) ∧ .setPrimaryKey model f.name ∈ steps }

/-- What steps declare in a model. -/
def body (steps : List Step) (model : String) : Body where
  fields := withKeys steps model (addedFields steps model)
  relations := addedRelations steps model

/-- The schema that steps without a reset describe. -/
def schema (steps : List Step) : Schema :=
  ⟨(modelNames steps).map fun name => { name, toBody := body steps name }⟩

/-- Every key that steps set is the key of a field that they add. -/
def KeysAdded (steps : List Step) : Prop :=
  ∀ model name, .setPrimaryKey model name ∈ steps →
    name ∈ (addedFields steps model).map (·.name)

theorem sinceReset_concat_reset (steps : List Step) : sinceReset (steps ++ [.reset]) = [] := by
  simp [sinceReset]

theorem sinceReset_concat {step : Step} (h : step ≠ .reset) (steps : List Step) :
    sinceReset (steps ++ [step]) = sinceReset steps ++ [step] :=
  List.rtakeWhile_concat_pos _ _ _ (by simpa using h)

theorem addedFields_concat (steps : List Step) (step : Step) (model : String) :
    addedFields (steps ++ [step]) model =
      addedFields steps model ++ (step.fieldOf? model).toList := by
  rw [addedFields, List.filterMap_append]
  cases h : step.fieldOf? model <;> simp [addedFields, h]

theorem addedRelations_concat (steps : List Step) (step : Step) (model : String) :
    addedRelations (steps ++ [step]) model =
      addedRelations steps model ++ (step.relationOf? model).toList := by
  rw [addedRelations, List.filterMap_append]
  cases h : step.relationOf? model <;> simp [addedRelations, h]

theorem modelNames_concat {step : Step} {model : String} (h : step.model? = some model)
    (steps : List Step) :
    modelNames (steps ++ [step]) =
      if model ∈ modelNames steps then modelNames steps else modelNames steps ++ [model] := by
  simp only [modelNames, List.filterMap_append, List.filterMap_cons, h, List.filterMap_nil,
    eraseDups_concat, List.mem_eraseDups]

theorem names_schema (steps : List Step) : (schema steps).names = modelNames steps := by
  simp [schema, Schema.names, Function.comp_def]

theorem isKeyed_schema (steps : List Step) : (schema steps).IsKeyed := by
  rw [Schema.IsKeyed, names_schema]
  exact nodup_eraseDups _

/-- A model that no step names has nothing in it. -/
theorem body_of_notMem {steps : List Step} {model : String} (h : model ∉ modelNames steps) :
    body steps model = {} := by
  have hOther : ∀ step ∈ steps, step.model? ≠ some model := by
    intro step hStep hModel
    exact h (List.mem_eraseDups.mpr (List.mem_filterMap.mpr ⟨step, hStep, hModel⟩))
  have hFields : addedFields steps model = [] :=
    List.filterMap_eq_nil_iff.mpr fun step hStep => Step.fieldOf?_eq_none (hOther step hStep)
  have hRelations : addedRelations steps model = [] :=
    List.filterMap_eq_nil_iff.mpr fun step hStep => Step.relationOf?_eq_none (hOther step hStep)
  simp [body, hFields, hRelations, withKeys]

theorem body_schema (steps : List Step) (model : String) :
    (schema steps).body model = body steps model := by
  by_cases h : model ∈ modelNames steps
  · have hMem : { name := model, toBody := body steps model } ∈ (schema steps).models :=
      List.mem_map_of_mem h
    have hGet := Schema.get?_of_mem (isKeyed_schema steps) hMem
    simp only [Schema.body, hGet, Option.map_some, Option.getD_some]
  · have hNone : (schema steps).get? model = none := by
      simpa [Schema.get?, schema] using fun name hName (he : name = model) => h (he ▸ hName)
    simp only [Schema.body, hNone, Option.map_none, Option.getD_none, body_of_notMem h]

theorem withKeys_concat_of_ne {step : Step} {model : String}
    (h : ∀ name, step ≠ .setPrimaryKey model name) (steps : List Step) (fields : List Field) :
    withKeys (steps ++ [step]) model fields = withKeys steps model fields := by
  have hMem : ∀ name, .setPrimaryKey model name ∈ steps ++ [step] ↔
      .setPrimaryKey model name ∈ steps := by
    intro name
    simp [Ne.symm (h name)]
  simp only [withKeys, hMem]

/-- Steps that name other models do not show in a body. -/
theorem body_concat_of_ne {step : Step} {model : String} (h : step.model? ≠ some model)
    (steps : List Step) : body (steps ++ [step]) model = body steps model := by
  have hKey : ∀ name, step ≠ .setPrimaryKey model name := by
    rintro name rfl
    exact h rfl
  simp [body, addedFields_concat, addedRelations_concat, withKeys_concat_of_ne hKey,
    Step.fieldOf?_eq_none h, Step.relationOf?_eq_none h]

@[simp] theorem map_name_withKeys (steps : List Step) (model : String) (fields : List Field) :
    (withKeys steps model fields).map (·.name) = fields.map (·.name) := by
  refine Body.map_name_of_getElem? (fun i => List.getElem?_mapIdx) fun i f => rfl

/-- A field that is added last is no key: a step that sets its key came earlier and met another
field of the name. -/
theorem withKeys_concat {steps : List Step} {model : String} {fields : List Field} {f : Field}
    (hPlain : f.isPrimaryKey = false)
    (hKeys : .setPrimaryKey model f.name ∈ steps → f.name ∈ fields.map (·.name)) :
    withKeys steps model (fields ++ [f]) = withKeys steps model fields ++ [f] := by
  unfold withKeys
  rw [List.mapIdx_concat]
  congr 1
  · refine List.mapIdx_eq_mapIdx_iff.mpr fun i hi => ?_
    rw [List.take_append_of_le_length (by omega)]
  · have hLast : ¬ (f.name ∉ fields.map (·.name) ∧ .setPrimaryKey model f.name ∈ steps) :=
      fun h => h.1 (hKeys h.2)
    rw [List.take_left, decide_eq_false hLast, ← hPlain]

/-- Setting one more key marks the first field of the name. -/
theorem withKeys_concat_setPrimaryKey (steps : List Step) (model name : String)
    (fields : List Field) :
    withKeys (steps ++ [.setPrimaryKey model name]) model fields =
      Body.changeFirst name (fun f => { f with isPrimaryKey := true })
        (withKeys steps model fields) := by
  refine List.mapIdx_eq_iff.mpr fun i => ?_
  rw [Body.getElem?_changeFirst, List.map_take, map_name_withKeys]
  cases hField : fields[i]? with
  | none => simp [withKeys, hField]
  | some f =>
      by_cases hName : f.name = name
      · subst hName
        by_cases hEarlier : f.name ∈ (fields.map (·.name)).take i
        · simp [withKeys, hField, hEarlier]
        · simp [withKeys, hField, hEarlier]
      · simp [withKeys, hField, hName]

/-- The step that a body describes next is the change that the step makes to it. -/
theorem body_concat {steps : List Step} (hKeys : KeysAdded steps) {step : Step} {model : String}
    (h : step.model? = some model) :
    body (steps ++ [step]) model = step.change (body steps model) := by
  unfold body
  rw [addedFields_concat, addedRelations_concat]
  cases step with
  | createModel name =>
      cases h
      simp [Step.fieldOf?, Step.relationOf?, Step.change, withKeys_concat_of_ne]
  | addField name field type generator isUnique =>
      cases h
      have hNew : Step.fieldOf? model (.addField model field type generator isUnique) =
          some { name := field, type, generator, isUnique } := if_pos rfl
      rw [withKeys_concat_of_ne (by simp), hNew, Option.toList_some,
        withKeys_concat rfl (hKeys model field)]
      simp [Step.relationOf?, Step.change, Body.addField]
  | setPrimaryKey name field =>
      cases h
      simp [Step.fieldOf?, Step.relationOf?, Step.change, Body.markKey, Body.editField,
        withKeys_concat_setPrimaryKey]
  | addRelation name relation =>
      cases h
      simp [Step.fieldOf?, Step.relationOf?, Step.change, Body.addRelation, withKeys_concat_of_ne]
  | reset => cases h

/-- One more step on a schema that earlier steps describe. -/
theorem update_schema {steps : List Step} (hKeys : KeysAdded steps) {step : Step} {model : String}
    (h : step.model? = some model) :
    (schema steps).update model step.change = schema (steps ++ [step]) := by
  refine Schema.ext_of_isKeyed (Schema.isKeyed_update (isKeyed_schema steps) _ _)
    (isKeyed_schema _) ?_ fun name => ?_
  · rw [Schema.names_update, names_schema, names_schema, modelNames_concat h]
  · by_cases hName : name = model
    · subst hName
      rw [Schema.body_update_self, body_schema, body_schema, body_concat hKeys h]
    · have hOther : step.model? ≠ some name := fun hSome =>
        hName (Option.some.inj (hSome.symm.trans h))
      rw [Schema.body_update_of_ne _ hName, body_schema, body_schema, body_concat_of_ne hOther]

/-- A key that can be set is the key of a field added before. -/
theorem KeysAdded.concat {steps : List Step} (hKeys : KeysAdded steps) {step : Step}
    (hOk : (step.apply (schema steps)).1 = .ok ()) : KeysAdded (steps ++ [step]) := by
  intro model name hMem
  have hAdded : name ∈ (addedFields steps model).map (·.name) := by
    rcases List.mem_append.mp hMem with hEarlier | hLast
    · exact hKeys model name hEarlier
    · have hField := Step.apply_ok_iff.mp hOk model name (List.mem_singleton.mp hLast).symm
      rw [body_schema] at hField
      simpa only [Body.fieldNames, body, map_name_withKeys] using hField
  rw [addedFields_concat, List.map_append]
  exact List.mem_append_left _ hAdded

/-- What a run from nothing leads to. The keys are carried along because a field that is added late
must not become one. -/
theorem eq_schema_of_replays {steps : List Step} {t : Schema} (run : Replays {} steps t) :
    t = schema (sinceReset steps) ∧ KeysAdded (sinceReset steps) := by
  -- From the end, since what counts is the rest behind the last reset.
  induction steps using List.reverseRecOn generalizing t with
  | nil =>
      cases run
      exact ⟨rfl, by simp [KeysAdded, sinceReset]⟩
  | append_singleton steps step ih =>
      obtain ⟨mid, before, last⟩ := Replays.concat_iff.mp run
      obtain ⟨rfl, hKeys⟩ := ih before
      have hNext : t = (step.apply (schema (sinceReset steps))).2 := by rw [last]
      cases hModel : step.model? with
      | none =>
          obtain rfl := Step.model?_eq_none_iff.mp hModel
          -- Nothing counts from here on, and the invariant starts over.
          rw [sinceReset_concat_reset]
          exact ⟨hNext, by simp [KeysAdded]⟩
      | some model =>
          have hReset : step ≠ .reset := fun h => by simp [h, Step.model?] at hModel
          rw [sinceReset_concat hReset]
          refine ⟨?_, hKeys.concat (by rw [last])⟩
          rw [hNext, Step.apply_snd hModel, update_schema hKeys hModel]

end Outcome

namespace Plan

open Outcome

/-- A plan that can be replayed on the empty schema builds what its steps after the last reset
describe: their models by first occurrence, each with the fields and relations added to it. -/
theorem replay_empty_eq_outcome {p : Plan} (h : (p.replay {}).1 = .ok ()) :
    p.replay {} = (.ok (), schema (sinceReset p.steps)) ∧
      p.build = .ok (schema (sinceReset p.steps)) := by
  have hReplay : p.replay {} = (.ok (), (p.replay {}).2) := Prod.ext h rfl
  have hSchema := (eq_schema_of_replays (replay_ok_iff.mp hReplay)).1
  rw [hSchema] at hReplay
  exact ⟨hReplay, build_ok_iff.mpr hReplay⟩

/-- Steps before the reset leave no trace, and the key stays with the first of two fields. -/
theorem replay_empty_of_repeated_field :
    let p : Plan := ⟨[.addField "Z" "z" (.scalar .int) none false, .reset,
      .addRelation "B" { name := "owner", kind := .manyToOne, target := "A" },
      .addField "A" "x" (.scalar .int) none false, .setPrimaryKey "A" "x",
      .addField "A" "x" (.unsupported "Bytes") (some .clientId) true, .createModel "B"]⟩
    (p.replay {}).1 = .ok () ∧ p.replay {} = (.ok (), ⟨[
      { name := "B", relations := [{ name := "owner", kind := .manyToOne, target := "A" }] },
      { name := "A", fields := [{ name := "x", type := .scalar .int, isPrimaryKey := true },
        { name := "x", type := .unsupported "Bytes", isUnique := true,
          generator := some .clientId }] }]⟩) := by
  intro p
  have hOk : (p.replay {}).1 = .ok () := by decide
  refine ⟨hOk, (replay_empty_eq_outcome hOk).1.trans ?_⟩
  decide

end Plan

end Datamodel
