import Datamodel.Proofs.Schema.Session
import Datamodel.Proofs.Schema.Storage

/-! Schemas made from lists of models in which names may come up again. A name takes the place where
it came up first, and the model is the one that came up last; nothing is taken over from the models
before it. The two are settled on a table with keys of its own, where a key and what belongs to it
are apart. -/
namespace Datamodel

namespace Session.Table

theorem ofModels_eq_putAll (models : List Model) :
    ofModels models = Entries.putAll (models.map fun m => (m.name, m)) := by
  rw [ofModels, Entries.putAll, List.foldl_map]

theorem lookup_ofSchema (s : Schema) (name : String) :
    (ofSchema s).lookup name = s.get? name := by
  obtain ⟨models⟩ := s
  simp only [ofSchema, Schema.get?]
  induction models with
  | nil => rfl
  | cons m ms ih =>
      by_cases h : m.name = name
      · simp [h]
      · have hNe : (name == m.name) = false := beq_false_of_ne (Ne.symm h)
        simp [List.lookup_cons, h, hNe, ih]

end Session.Table

/-- The last model of a name in a list. -/
def lastNamed? (name : String) (models : List Model) : Option Model :=
  (models.filter (·.name == name)).getLast?

theorem exists_lastNamed?_iff {name : String} {models : List Model} :
    (∃ m, lastNamed? name models = some m) ↔ name ∈ models.map (·.name) := by
  rw [← Option.isSome_iff_exists, lastNamed?, List.getLast?_isSome]
  simp

theorem name_of_lastNamed? {name : String} {models : List Model} {m : Model}
    (h : lastNamed? name models = some m) : m.name = name := by
  simpa using (List.mem_filter.mp (List.mem_of_getLast? h)).2

namespace Schema

open Session (Table)

theorem names_ofModels (models : List Model) :
    (ofModels models).names = (models.map (·.name)).eraseDups := by
  rw [← Table.keys_ofSchema, ← Table.ofModels_eq_ofSchema, Table.ofModels_eq_putAll, Table.keys,
    Entries.map_fst_putAll, List.map_map]
  rfl

theorem get?_ofModels (models : List Model) (name : String) :
    (ofModels models).get? name = lastNamed? name models := by
  rw [← Table.lookup_ofSchema, ← Table.ofModels_eq_ofSchema, Table.ofModels_eq_putAll,
    Entries.lookup_putAll, List.filter_map, List.getLast?_map, Option.map_map]
  exact congrFun Option.map_id _

/-- Each name where the list has it first, with the model that the list has last. -/
structure Arranges (s : Schema) (models : List Model) : Prop where
  order : s.names = (models.map (·.name)).eraseDups
  last : ∀ name, s.get? name = lastNamed? name models

theorem arranges_ofModels (models : List Model) : (ofModels models).Arranges models where
  order := names_ofModels models
  last := get?_ofModels models

theorem Arranges.isKeyed {s : Schema} {models : List Model} (h : s.Arranges models) :
    s.IsKeyed := by
  rw [IsKeyed, h.order]
  exact nodup_eraseDups _

/-- Order and models leave only one schema. -/
theorem arranges_iff {s : Schema} {models : List Model} :
    s.Arranges models ↔ s = ofModels models := by
  constructor
  · intro h
    have hOther := arranges_ofModels models
    refine ext_of_isKeyed h.isKeyed hOther.isKeyed (h.order.trans hOther.order.symm) fun name => ?_
    rw [body, body, h.last, hOther.last]
  · rintro rfl
    exact arranges_ofModels models

/-- Asking for a model that is there brings up this model, and nothing is added. -/
theorem Arranges.update {s : Schema} {models : List Model} (h : s.Arranges models) {name : String}
    {m : Model} (hLast : lastNamed? name models = some m) :
    s.createModel name = s ∧ ∀ change, (s.update name change).names = s.names ∧
      (s.update name change).get? name = some { m with toBody := change m.toBody } := by
  have hGet : s.get? name = some m := (h.last name).trans hLast
  have hName : m.name = name := name_of_lastNamed? hLast
  have hMem : name ∈ s.names := by
    rw [h.order, List.mem_eraseDups]
    exact exists_lastNamed?_iff.mp ⟨m, hLast⟩
  refine ⟨?_, fun change => ⟨?_, ?_⟩⟩
  · rw [createModel_eq, if_pos ((s.contains_iff_mem_names name).mpr hMem)]
  · rw [names_update, if_pos hMem]
  · rw [get?_update_self, hGet, ← hName]
    rfl

/-- What a list of models comes to. The schema has each name where the list has it first and the
model that the list has last, and it is the only one. Its models have different names, and put in
once more they give the same schema. Lists in which all names are different and schemas in which all
names are different correspond to each other. A model that is asked for later is the one that was
put in last, and none is added. -/
theorem ofModels_keeps_last (models : List Model) :
    (∀ s, s.Arranges models ↔ s = ofModels models) ∧
      (∀ v, v.asList Model.ofValue = .ok models → Schema.ofValue v = .ok (ofModels models)) ∧
      (ofModels models).names.Nodup ∧ ofModels (ofModels models).models = ofModels models ∧
      ((models.map (·.name)).Nodup → (ofModels models).models = models) ∧
      (∀ s : Schema, s.names.Nodup → ofModels s.models = s) ∧
      ∀ name ∈ models.map (·.name), ∃ m, lastNamed? name models = some m ∧
        (ofModels models).createModel name = ofModels models ∧
        ∀ change, ((ofModels models).update name change).names = (ofModels models).names ∧
          ((ofModels models).update name change).get? name =
            some { m with toBody := change m.toBody } := by
  have hArranges := arranges_ofModels models
  refine ⟨fun _ => arranges_iff, fun v hModels => ?_, hArranges.isKeyed,
    ofModels_models hArranges.isKeyed, fun hDistinct => ?_, fun _ => ofModels_models,
    fun name hName => ?_⟩
  · rw [Schema.ofValue, hModels, Decoded.map_ok]
  · exact congrArg Schema.models (ofModels_models (s := ⟨models⟩) hDistinct)
  · obtain ⟨m, hLast⟩ := exists_lastNamed?_iff.mpr hName
    exact ⟨m, hLast, hArranges.update hLast⟩

/-- The second model of a name stands in the place of the first and has nothing of it. Put in once
more, the two models are what they were. -/
theorem ofModels_keeps_last_of_repeated_name :
    let x : Field := { name := "x", type := .scalar .int }
    let y : Field := { name := "y", type := .scalar .json }
    let a : Model := { name := "A", fields := [y] }
    let models : List Model := [{ name := "A", fields := [x] }, { name := "B" }, a]
    let v : Value := (Json.list (models.map (·.toJson))).toValue
    v.asList Model.ofValue = .ok models ∧ Schema.ofValue v = .ok ⟨[a, { name := "B" }]⟩ ∧
      ["A", "B"].Nodup ∧ (ofModels [a, { name := "B" }]).models = [a, { name := "B" }] ∧
      ofModels [a, { name := "B" }] = ⟨[a, { name := "B" }]⟩ ∧ "A" ∈ models.map (·.name) ∧
      ((ofModels models).update "A" (·.addField x)).names = ["A", "B"] ∧
      ((ofModels models).update "A" (·.addField x)).get? "A" =
        some { a with fields := [y, x] } := by
  intro x y a models v
  obtain ⟨-, hRead, -, -, -, hBack, hLater⟩ := ofModels_keeps_last models
  have hModels : v.asList Model.ofValue = .ok models := by decide
  have hDistinct : ["A", "B"].Nodup := by decide
  have hSchema : ofModels models = ⟨[a, { name := "B" }]⟩ := by decide
  obtain ⟨-, -, -, -, hKept, -⟩ := ofModels_keeps_last [a, { name := "B" }]
  obtain ⟨m, hLast, -, hUpdate⟩ := hLater "A" (by decide)
  obtain rfl : a = m := Option.some.inj ((by decide : some a = lastNamed? "A" models).trans hLast)
  obtain ⟨hNames, hGet⟩ := hUpdate (·.addField x)
  refine ⟨hModels, (hRead v hModels).trans (congrArg _ hSchema), hDistinct, hKept hDistinct,
    hBack ⟨[a, { name := "B" }]⟩ hDistinct, by decide, hNames.trans ?_, hGet⟩
  rw [hSchema]
  rfl

end Schema

end Datamodel
