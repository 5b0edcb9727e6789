import Datamodel.Proofs.Entries
import Datamodel.Schema.Building

/-! Updates of one model, seen through two views of a schema: the names in their order and the body
under each name. The views determine a keyed schema, so a claim about a whole schema can be settled
name by name. -/
namespace Datamodel

attribute [ext] Body

namespace Body

/-- The names of the fields in order, with repetitions. -/
def fieldNames (b : Body) : List String :=
  b.fields.map (·.name)

theorem isSome_field?_iff (b : Body) (name : String) :
    (b.field? name).isSome ↔ name ∈ b.fieldNames := by
  simp [field?, fieldNames]

@[simp] theorem fieldNames_addField (b : Body) (f : Field) :
    (b.addField f).fieldNames = b.fieldNames ++ [f.name] := by
  simp [fieldNames, addField]

@[simp] theorem fieldNames_addRelation (b : Body) (r : Relation) :
    (b.addRelation r).fieldNames = b.fieldNames := rfl

/-- Only the first field of the name changes. Fields before it have other names, and fields behind
it are not looked at. -/
theorem getElem?_changeFirst (name : String) (change : Field → Field) (fields : List Field)
    (i : Nat) :
    (changeFirst name change fields)[i]? =
      fields[i]?.map fun f =>
        if f.name = name ∧ name ∉ (fields.take i).map (·.name) then change f else f := by
  induction fields generalizing i with
  | nil => simp [changeFirst]
  | cons f fs ih =>
      by_cases h : f.name = name
      · cases i with
        | zero => simp [changeFirst, h]
        | succ i => simp [changeFirst, h]
      · cases i with
        | zero => simp [changeFirst, h]
        | succ i =>
            have hNe : name ≠ f.name := Ne.symm h
            simp [changeFirst, h, hNe, ih]

/-- A change made place by place that keeps the name at each place keeps the names. -/
theorem map_name_of_getElem? {fields changed : List Field} {change : Nat → Field → Field}
    (h : ∀ i, changed[i]? = fields[i]?.map (change i))
    (hName : ∀ i f, (change i f).name = f.name) :
    changed.map (·.name) = fields.map (·.name) := by
  apply List.ext_getElem?
  intro i
  simp only [List.getElem?_map, h, Option.map_map, Function.comp_def, hName]

@[simp] theorem fieldNames_markKey (b : Body) (name : String) :
    (b.markKey name).fieldNames = b.fieldNames := by
  refine map_name_of_getElem? (getElem?_changeFirst name _ b.fields) fun i f => ?_
  split <;> rfl

/-- Without a field of the name there is nothing to change. -/
theorem changeFirst_of_notMem {name : String} (change : Field → Field) {fields : List Field}
    (h : name ∉ fields.map (·.name)) : changeFirst name change fields = fields := by
  induction fields with
  | nil => rfl
  | cons f fs ih =>
      simp only [List.map_cons, List.mem_cons, not_or] at h
      simp [changeFirst, Ne.symm h.1, ih h.2]

/-- A field that is the first of its name is changed where it stands. -/
theorem changeFirst_append {name : String} (change : Field → Field) {before : List Field}
    (h : name ∉ before.map (·.name)) (later : List Field) :
    changeFirst name change (before ++ later) = before ++ changeFirst name change later := by
  induction before with
  | nil => rfl
  | cons f fs ih =>
      simp only [List.map_cons, List.mem_cons, not_or] at h
      simp [changeFirst, Ne.symm h.1, ih h.2]

/-- The first field of the name is marked where it stands. -/
theorem markKey_of_append {b : Body} {before later : List Field} {f : Field}
    (hFields : b.fields = before ++ f :: later) (h : f.name ∉ before.map (·.name)) :
    b.markKey f.name =
      { b with fields := before ++ { f with isPrimaryKey := true } :: later } := by
  rw [markKey, editField, hFields, changeFirst_append _ h, changeFirst, if_pos rfl]

/-- A change that keeps names finds the same field again. -/
theorem changeFirst_changeFirst {change : Field → Field} (hName : ∀ f, (change f).name = f.name)
    (hAgain : ∀ f, change (change f) = change f) (name : String) (fields : List Field) :
    changeFirst name change (changeFirst name change fields) = changeFirst name change fields := by
  induction fields with
  | nil => rfl
  | cons f fs ih =>
      by_cases h : f.name = name
      · simp [changeFirst, h, hName, hAgain]
      · simp [changeFirst, h, ih]

theorem changeFirst_comm {change : Field → Field} (hName : ∀ f, (change f).name = f.name)
    (name other : String) (fields : List Field) :
    changeFirst name change (changeFirst other change fields) =
      changeFirst other change (changeFirst name change fields) := by
  induction fields with
  | nil => rfl
  | cons f fs ih =>
      by_cases hFirst : f.name = name <;> by_cases hOther : f.name = other
      · rw [← hFirst, ← hOther]
      · subst hFirst
        simp [changeFirst, hOther, hName]
      · subst hOther
        simp [changeFirst, hFirst, hName]
      · simp [changeFirst, hFirst, hOther, ih]

theorem markKey_of_notMem {b : Body} {name : String} (h : name ∉ b.fieldNames) :
    b.markKey name = b := by
  simp only [markKey, editField, changeFirst_of_notMem _ h]

end Body

namespace Schema

theorem contains_iff_mem_names (s : Schema) (name : String) :
    s.contains name ↔ name ∈ s.names := by
  simp [contains, names]

/-- The body of a model. A model that does not exist yet has an empty body, which is the one an
update starts from. -/
def body (s : Schema) (name : String) : Body :=
  ((s.get? name).map (·.toBody)).getD {}

@[simp] theorem body_empty (name : String) : ({} : Schema).body name = {} := rfl

@[simp] theorem body_update_self (s : Schema) (name : String) (change : Body → Body) :
    (s.update name change).body name = change (s.body name) := by
  simp [body, get?_update_self]

theorem body_update_of_ne (s : Schema) {name other : String} (h : other ≠ name)
    (change : Body → Body) : (s.update name change).body other = s.body other := by
  simp only [body, get?_update_of_ne s h]

theorem hasField_iff (s : Schema) (model field : String) :
    s.hasField model field ↔ field ∈ (s.body model).fieldNames := by
  rw [← Body.isSome_field?_iff]
  cases h : s.get? model with
  | none => simp [hasField, body, h, Body.field?]
  | some m => simp [hasField, body, h]

/-- Updating cannot give a name to a second model. -/
theorem isKeyed_update {s : Schema} (h : s.IsKeyed) (name : String) (change : Body → Body) :
    (s.update name change).IsKeyed := by
  unfold IsKeyed at h ⊢
  rw [names_update]
  split
  · exact h
  · rename_i hNew
    simpa [List.nodup_append, h] using fun other hOther (he : other = name) => hNew (he ▸ hOther)

/-- In a keyed schema every model is the one found under its name. -/
theorem get?_of_mem {s : Schema} (h : s.IsKeyed) {m : Model} (hm : m ∈ s.models) :
    s.get? m.name = some m := by
  obtain ⟨models⟩ := s
  unfold IsKeyed names at h
  unfold get?
  induction models with
  | nil => cases hm
  | cons first rest ih =>
      simp only [List.map_cons, List.nodup_cons] at h
      rcases List.mem_cons.mp hm with rfl | hRest
      · simp
      · have hNe : first.name ≠ m.name :=
          fun he => h.1 (he ▸ List.mem_map_of_mem hRest)
        simpa [hNe] using ih h.2 hRest

/-- A model is found by its own name and by no other. -/
theorem get?_eq_some_iff {s : Schema} (h : s.IsKeyed) {name : String} {m : Model} :
    s.get? name = some m ↔ m ∈ s.models ∧ m.name = name := by
  constructor
  · intro hGet
    exact ⟨List.mem_of_find?_eq_some hGet, by simpa using List.find?_some hGet⟩
  · rintro ⟨hMem, rfl⟩
    exact get?_of_mem h hMem

/-- What holds of all models of a keyed schema can be checked name by name, also of names without a
model. -/
theorem forall_mem_models_iff {s : Schema} (h : s.IsKeyed) {P : Body → Prop} (hEmpty : P {}) :
    (∀ m ∈ s.models, P m.toBody) ↔ ∀ name, P (s.body name) := by
  constructor
  · intro hAll name
    cases hGet : s.get? name with
    | none => simpa [body, hGet] using hEmpty
    | some m => simpa [body, hGet] using hAll m (List.mem_of_find?_eq_some hGet)
  · intro hAll m hm
    simpa [body, get?_of_mem h hm] using hAll m.name

/-- What the empty body has and the change keeps, all models keep. -/
theorem forall_mem_models_update {s : Schema} {P : Body → Prop} (h : ∀ m ∈ s.models, P m.toBody)
    (hEmpty : P {}) {change : Body → Body} (hChange : ∀ b, P b → P (change b)) (name : String) :
    ∀ m ∈ (s.update name change).models, P m.toBody := by
  obtain ⟨models⟩ := s
  simp only [update] at h ⊢
  induction models with
  | nil => simpa [updateModels] using hChange {} hEmpty
  | cons m ms ih =>
      rw [List.forall_mem_cons] at h
      by_cases hm : m.name = name
      · simpa [updateModels, hm] using ⟨hChange m.toBody h.1, h.2⟩
      · simpa [updateModels, hm] using ⟨h.1, ih h.2⟩

/-- A keyed schema is rebuilt from its two views. -/
theorem models_eq_map_names {s : Schema} (h : s.IsKeyed) :
    s.models = s.names.map fun name => { name, toBody := s.body name } := by
  have hSame : ∀ m ∈ s.models, ({ name := m.name, toBody := s.body m.name } : Model) = m := by
    intro m hm
    simp [body, get?_of_mem h hm]
  calc s.models = s.models.map id := (List.map_id _).symm
    _ = s.models.map fun m => { name := m.name, toBody := s.body m.name } :=
      List.map_congr_left fun m hm => (hSame m hm).symm
    _ = _ := by simp [names]

/-- Two keyed schemas with the same names in the same order and the same body under each of them
are equal. -/
theorem ext_of_isKeyed {s t : Schema} (hs : s.IsKeyed) (ht : t.IsKeyed)
    (hNames : s.names = t.names) (hBody : ∀ name, s.body name = t.body name) : s = t := by
  obtain ⟨models⟩ := s
  obtain ⟨others⟩ := t
  rw [mk.injEq]
  calc models = _ := models_eq_map_names hs
    _ = _ := by rw [hNames]; simp only [hBody]
    _ = others := (models_eq_map_names ht).symm

/-- Only the body that is there matters to an update. -/
theorem update_congr {s : Schema} {name : String} {change other : Body → Body}
    (h : change (s.body name) = other (s.body name)) :
    s.update name change = s.update name other := by
  obtain ⟨models⟩ := s
  simp only [body, get?, update, mk.injEq] at h ⊢
  induction models with
  | nil => simpa [updateModels] using h
  | cons m ms ih =>
      by_cases hm : m.name = name
      · have hBody : change m.toBody = other m.toBody := by simpa [hm] using h
        simp [updateModels, hm, hBody]
      · simp only [updateModels, hm, if_false]
        rw [ih]
        simpa [hm] using h

/-- Of two updates of a model the second is made to what the first has left. -/
theorem update_update_self (s : Schema) (name : String) (change other : Body → Body) :
    (s.update name change).update name other = s.update name (other ∘ change) := by
  obtain ⟨models⟩ := s
  simp only [update, mk.injEq]
  induction models with
  | nil => simp [updateModels]
  | cons m ms ih =>
      by_cases h : m.name = name
      · simp [updateModels, h]
      · simp [updateModels, h, ih]

/-- Updates of two models can change places unless both models are new, in which case the one that
is updated first comes first. -/
theorem update_comm_of_mem {s : Schema} {name other : String} (hMem : name ∈ s.names)
    (hNe : name ≠ other) (change otherChange : Body → Body) :
    (s.update name change).update other otherChange =
      (s.update other otherChange).update name change := by
  obtain ⟨models⟩ := s
  simp only [names, update, mk.injEq] at hMem ⊢
  induction models with
  | nil => simp at hMem
  | cons m ms ih =>
      by_cases hName : m.name = name
      · simp [updateModels, hName, hNe]
      · have hRest : name ∈ ms.map (·.name) := by simpa [Ne.symm hName] using hMem
        by_cases hOther : m.name = other
        · simp [updateModels, hOther, Ne.symm hNe]
        · simp [updateModels, hName, hOther, ih hRest]

/-- An update passes by the models of other names. -/
theorem updateModels_append {name : String} {before : List Model}
    (h : name ∉ before.map (·.name)) (change : Body → Body) (later : List Model) :
    updateModels name change (before ++ later) = before ++ updateModels name change later := by
  induction before with
  | nil => rfl
  | cons m ms ih =>
      simp only [List.map_cons, List.mem_cons, not_or] at h
      simp [updateModels, Ne.symm h.1, ih h.2]

/-- An update changes the first model of the name where it stands. -/
theorem update_of_append {before after : List Model} {m : Model}
    (h : m.name ∉ before.map (·.name)) (change : Body → Body) :
    (⟨before ++ m :: after⟩ : Schema).update m.name change =
      ⟨before ++ { m with toBody := change m.toBody } :: after⟩ := by
  rw [update, updateModels_append h, updateModels, if_pos rfl]

/-- Updating a model that is not there appends it, with the change made to an empty body. -/
theorem update_of_notMem {s : Schema} {name : String} (h : name ∉ s.names)
    (change : Body → Body) :
    s.update name change = ⟨s.models ++ [{ name, toBody := change {} }]⟩ := by
  rw [update, ← List.append_nil s.models, updateModels_append h, List.append_nil]
  rfl

/-- A model that exists is not touched, and one that does not is appended with an empty body. -/
theorem createModel_eq (s : Schema) (name : String) :
    s.createModel name = if s.contains name then s else ⟨s.models ++ [{ name := name }]⟩ := by
  split
  · rename_i h
    obtain ⟨models⟩ := s
    simp only [contains, createModel, update, mk.injEq] at h ⊢
    induction models with
    | nil => simp at h
    | cons m ms ih =>
        by_cases hm : m.name = name
        · subst hm
          simp [updateModels]
        · simp only [updateModels, hm, if_false]
          rw [ih]
          simpa [hm] using h
  · rename_i h
    exact update_of_notMem (mt (s.contains_iff_mem_names name).mpr h) id

theorem setPrimaryKey_of_mem {s : Schema} {model field : String}
    (h : field ∈ (s.body model).fieldNames) :
    s.setPrimaryKey model field = (.ok (), s.update model (·.markKey field)) := by
  simp [setPrimaryKey, (s.hasField_iff model field).mpr h]

/-- A key that cannot be set leaves the model behind, empty if it was not there before. -/
theorem setPrimaryKey_of_notMem {s : Schema} {model field : String}
    (h : field ∉ (s.body model).fieldNames) :
    s.setPrimaryKey model field = (.error (.fieldNotFound model field), s.createModel model) := by
  have hHas : ¬ s.hasField model field := mt (s.hasField_iff model field).mp h
  have hSame : s.update model (·.markKey field) = s.createModel model :=
    update_congr (Body.markKey_of_notMem h)
  simp [setPrimaryKey, hHas, hSame]

end Schema

end Datamodel
