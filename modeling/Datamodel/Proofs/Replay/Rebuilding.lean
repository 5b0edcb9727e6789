import Datamodel.Proofs.Replay
import Mathlib.Data.List.Induction

/-! Which schemas plans can build. Every step keeps two properties: models have different names, and
a key is the first field of its name. Conversely a schema with these properties is rebuilt by a plan
that goes through it in order and sets each key right behind the field it belongs to. -/
namespace Datamodel

/-- Every key of the body is the first field of its name. -/
def Body.HasLeadingKeys (b : Body) : Prop :=
  ∀ i f, b.fields[i]? = some f → f.isPrimaryKey → f.name ∉ (b.fields.take i).map (·.name)

/-- The models have different names, and all keys are first of their names. -/
structure Schema.IsBuildable (s : Schema) : Prop where
  keyed : s.IsKeyed
  leading : ∀ m ∈ s.models, m.HasLeadingKeys

namespace Body

theorem hasLeadingKeys_empty : HasLeadingKeys {} := by
  intro i f hField
  simp at hField

/-- The last field is no obstacle to the others, and they are all that stands before it. -/
theorem hasLeadingKeys_concat {fields : List Field} {f : Field} {relations : List Relation} :
    HasLeadingKeys ⟨fields ++ [f], relations⟩ ↔
      HasLeadingKeys ⟨fields, relations⟩ ∧
        (f.isPrimaryKey → f.name ∉ fields.map (·.name)) := by
  constructor
  · intro h
    constructor
    · intro i g hField hKey
      have hi : i < fields.length := (List.getElem?_eq_some_iff.mp hField).1
      have hFirst := h i g (by rwa [List.getElem?_append_left hi]) hKey
      rwa [List.take_append_of_le_length (by omega)] at hFirst
    · intro hKey
      simpa using h fields.length f (by simp) hKey
  · rintro ⟨h, hLast⟩ i g hField hKey
    by_cases hi : i < fields.length
    · rw [List.getElem?_append_left hi] at hField
      rw [List.take_append_of_le_length (by omega)]
      exact h i g hField hKey
    · have hIndex : i < (fields ++ [f]).length := (List.getElem?_eq_some_iff.mp hField).1
      obtain rfl : i = fields.length := by
        rw [List.length_append, List.length_singleton] at hIndex
        omega
      obtain rfl : f = g := by simpa using hField
      rw [List.take_left]
      exact hLast hKey

/-- Setting a key marks a field that no field of the name precedes. -/
theorem HasLeadingKeys.markKey {b : Body} (h : b.HasLeadingKeys) (name : String) :
    (b.markKey name).HasLeadingKeys := by
  intro i g hField hKey
  rw [Body.markKey, editField, getElem?_changeFirst] at hField
  obtain ⟨f, hOld, rfl⟩ := Option.map_eq_some_iff.mp hField
  rw [List.map_take, ← fieldNames, fieldNames_markKey, fieldNames, ← List.map_take]
  split at hKey
  · rename_i hFirst
    rw [if_pos hFirst, hFirst.1]
    exact hFirst.2
  · rename_i hOther
    rw [if_neg hOther]
    exact h i f hOld hKey

theorem markKey_addField {b : Body} {f : Field} (hNew : f.name ∉ b.fieldNames) :
    (b.addField f).markKey f.name = b.addField { f with isPrimaryKey := true } :=
  markKey_of_append rfl hNew

/-- No step puts a key behind another field of its name. -/
theorem HasLeadingKeys.change {b : Body} (h : b.HasLeadingKeys) (step : Step) :
    (step.change b).HasLeadingKeys := by
  cases step with
  | createModel model => exact h
  | addField model name type generator isUnique =>
      exact hasLeadingKeys_concat.mpr ⟨h, fun hKey => by cases hKey⟩
  | setPrimaryKey model field => exact h.markKey field
  | addRelation model relation => exact h
  | reset => exact h

end Body

namespace Schema

theorem isBuildable_empty : IsBuildable {} :=
  ⟨List.nodup_nil, by simp⟩

theorem isBuildable_iff {s : Schema} :
    s.IsBuildable ↔ s.IsKeyed ∧ ∀ name, (s.body name).HasLeadingKeys := by
  constructor
  · rintro ⟨hKeyed, hLeading⟩
    exact ⟨hKeyed, (forall_mem_models_iff hKeyed Body.hasLeadingKeys_empty).mp hLeading⟩
  · rintro ⟨hKeyed, hLeading⟩
    exact ⟨hKeyed, (forall_mem_models_iff hKeyed Body.hasLeadingKeys_empty).mpr hLeading⟩

/-- One step keeps the properties, whether it succeeds or fails. -/
theorem IsBuildable.apply {s : Schema} (h : s.IsBuildable) (step : Step) :
    (step.apply s).2.IsBuildable := by
  cases hModel : step.model? with
  | none =>
      obtain rfl := Step.model?_eq_none_iff.mp hModel
      exact isBuildable_empty
  | some model =>
      obtain ⟨hKeyed, hLeading⟩ := isBuildable_iff.mp h
      rw [Step.apply_snd hModel]
      refine isBuildable_iff.mpr ⟨isKeyed_update hKeyed model _, fun name => ?_⟩
      by_cases hName : name = model
      · subst hName
        rw [body_update_self]
        exact (hLeading name).change step
      · rw [body_update_of_ne s hName]
        exact hLeading name

/-- A whole replay keeps them, also one that stops. -/
theorem IsBuildable.replaySteps {s : Schema} (h : s.IsBuildable) (index : Nat)
    (steps : List Step) : (Plan.replaySteps index steps s).2.IsBuildable := by
  induction steps generalizing index s with
  | nil => exact h
  | cons step steps ih =>
      have hNext := h.apply step
      rw [Plan.replaySteps]
      split
      · rename_i hApply
        rw [hApply] at hNext
        exact ih hNext (index + 1)
      · rename_i hApply
        rw [hApply] at hNext
        exact hNext

end Schema

/-- The steps that add a field to a model and make it a key if it is one. -/
def Field.steps (model : String) (f : Field) : List Step :=
  .addField model f.name f.type f.generator f.isUnique ::
    if f.isPrimaryKey then [.setPrimaryKey model f.name] else []

/-- The steps that build a model: its fields in order, and then its relations. -/
def Model.steps (m : Model) : List Step :=
  .createModel m.name ::
    (m.fields.flatMap (·.steps m.name) ++ m.relations.map (.addRelation m.name))

/-- The plan that builds a schema model by model. -/
def Plan.rebuilding (s : Schema) : Plan :=
  ⟨s.models.flatMap (·.steps)⟩

section LastModel

variable {others : List Model} {model : String}

/-- An update of the last model reaches it past the others. -/
theorem Schema.update_last (hNew : model ∉ others.map (·.name)) (b : Body)
    (change : Body → Body) :
    (⟨others ++ [⟨b, model⟩]⟩ : Schema).update model change = ⟨others ++ [⟨change b, model⟩]⟩ :=
  update_of_append (m := ⟨b, model⟩) hNew change

theorem Schema.body_last (hNew : model ∉ others.map (·.name)) (b : Body) :
    (⟨others ++ [⟨b, model⟩]⟩ : Schema).body model = b := by
  have hOthers : others.find? (·.name == model) = none := by
    rw [List.find?_eq_none]
    intro m hm hName
    exact hNew (beq_iff_eq.mp hName ▸ List.mem_map_of_mem hm)
  simp [body, get?, hOthers]

/-- A step on the last model succeeds unless it sets the key of a field that is not there. -/
theorem Step.apply_last (hNew : model ∉ others.map (·.name)) {b : Body} {step : Step}
    (hModel : step.model? = some model)
    (hKey : ∀ field, step = .setPrimaryKey model field → field ∈ b.fieldNames) :
    step.apply ⟨others ++ [⟨b, model⟩]⟩ = (.ok (), ⟨others ++ [⟨step.change b, model⟩]⟩) := by
  refine Prod.ext (apply_ok_iff.mpr ?_) ?_
  · rintro name field rfl
    obtain rfl := Option.some.inj hModel
    rw [Schema.body_last hNew]
    exact hKey field rfl
  · rw [apply_snd hModel, Schema.update_last hNew]

/-- The steps of a field append it, with its key if it has one. -/
theorem Field.replays_steps (hNew : model ∉ others.map (·.name)) (b : Body) {f : Field}
    (hFirst : f.isPrimaryKey → f.name ∉ b.fieldNames) :
    Replays ⟨others ++ [⟨b, model⟩]⟩ (f.steps model) ⟨others ++ [⟨b.addField f, model⟩]⟩ := by
  obtain ⟨name, type, isPrimaryKey, isUnique, generator⟩ := f
  have hAdd : (Step.addField model name type generator isUnique).apply ⟨others ++ [⟨b, model⟩]⟩ =
      (.ok (), ⟨others ++ [⟨b.addField ⟨name, type, false, isUnique, generator⟩, model⟩]⟩) :=
    Step.apply_last hNew rfl (by simp)
  cases isPrimaryKey with
  | false => exact Replays.singleton_iff.mpr hAdd
  | true =>
      have hMark := Body.markKey_addField (f := ⟨name, type, false, isUnique, generator⟩)
        (hFirst rfl)
      refine .cons hAdd (Replays.singleton_iff.mpr ?_)
      rw [← hMark]
      exact Step.apply_last hNew rfl (by simp)

theorem Body.replays_fields (hNew : model ∉ others.map (·.name)) {fields : List Field}
    (h : HasLeadingKeys ⟨fields, []⟩) :
    Replays ⟨others ++ [⟨{}, model⟩]⟩ (fields.flatMap (·.steps model))
      ⟨others ++ [⟨⟨fields, []⟩, model⟩]⟩ := by
  induction fields using List.reverseRecOn with
  | nil => exact .nil _
  | append_singleton fields f ih =>
      obtain ⟨hBefore, hLast⟩ := hasLeadingKeys_concat.mp h
      rw [List.flatMap_append, List.flatMap_singleton]
      exact (ih hBefore).trans (f.replays_steps hNew ⟨fields, []⟩ hLast)

theorem Body.replays_relations (hNew : model ∉ others.map (·.name)) (fields : List Field)
    (relations : List Relation) :
    Replays ⟨others ++ [⟨⟨fields, []⟩, model⟩]⟩ (relations.map (.addRelation model))
      ⟨others ++ [⟨⟨fields, relations⟩, model⟩]⟩ := by
  induction relations using List.reverseRecOn with
  | nil => exact .nil _
  | append_singleton relations r ih =>
      rw [List.map_append, List.map_singleton]
      exact ih.trans (Replays.singleton_iff.mpr (Step.apply_last hNew rfl (by simp)))

end LastModel

/-- The steps of a model append it to models of other names. -/
theorem Model.replays_steps {others : List Model} {m : Model}
    (hNew : m.name ∉ others.map (·.name)) (hLeading : m.HasLeadingKeys) :
    Replays ⟨others⟩ m.steps ⟨others ++ [m]⟩ := by
  have hCreate : (Step.createModel m.name).apply ⟨others⟩ =
      (.ok (), ⟨others ++ [⟨{}, m.name⟩]⟩) :=
    Prod.ext rfl (Schema.update_of_notMem hNew id)
  exact .cons hCreate ((Body.replays_fields hNew hLeading).trans
    (Body.replays_relations hNew m.fields m.relations))

/-- A schema with the two properties is what its plan builds from nothing. -/
theorem Schema.IsBuildable.replays_rebuilding {s : Schema} (h : s.IsBuildable) :
    Replays {} (Plan.rebuilding s).steps s := by
  obtain ⟨models⟩ := s
  obtain ⟨hKeyed, hLeading⟩ := h
  simp only [IsKeyed, names] at hKeyed
  unfold Plan.rebuilding
  -- From the end, so that the model whose steps are next is the last of the schema.
  induction models using List.reverseRecOn with
  | nil => exact .nil _
  | append_singleton models m ih =>
      rw [List.map_append, List.nodup_append] at hKeyed
      have hNew : m.name ∉ models.map (·.name) :=
        fun hMem => hKeyed.2.2 m.name hMem m.name (by simp) rfl
      rw [List.flatMap_append, List.flatMap_singleton]
      exact (ih hKeyed.1 fun other hOther => hLeading other (by simp [hOther])).trans
        (m.replays_steps hNew (hLeading m (by simp)))

/-- The schemas that plans build from nothing are those in which models have different names and are
found under them, and in which every key is the first field of its name. No order, field, default,
flag, relation or backing field is out of the reach of a plan. -/
theorem Plan.exists_replay_empty_iff (s : Schema) :
    (∃ p : Plan, p.replay {} = (.ok (), s)) ↔
      s.IsKeyed ∧ (∀ m ∈ s.models, s.get? m.name = some m) ∧
        ∀ m ∈ s.models, m.HasLeadingKeys := by
  constructor
  · rintro ⟨p, hReplay⟩
    have hBuildable := Schema.isBuildable_empty.replaySteps 1 p.steps
    rw [← Plan.replay, hReplay] at hBuildable
    exact ⟨hBuildable.keyed, fun m hm => Schema.get?_of_mem hBuildable.keyed hm,
      hBuildable.leading⟩
  · rintro ⟨hKeyed, -, hLeading⟩
    have hBuildable : s.IsBuildable := ⟨hKeyed, hLeading⟩
    exact ⟨Plan.rebuilding s, Plan.replay_ok_iff.mpr hBuildable.replays_rebuilding⟩

end Datamodel
