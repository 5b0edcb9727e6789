import Datamodel.Proofs.Schema.Update

/-! Marking primary keys. A key that is set changes one flag of one field; a key that cannot be set
changes nothing, except that its model exists from then on. Either way all names stay, so whether a
key can be set does not depend on which keys have been set before. -/
namespace Datamodel

namespace Body

theorem markKey_markKey (b : Body) (name : String) :
    (b.markKey name).markKey name = b.markKey name := by
  refine Body.ext ?_ rfl
  exact changeFirst_changeFirst (by intro f; rfl) (by intro f; rfl) name b.fields

theorem markKey_comm (b : Body) (name other : String) :
    (b.markKey name).markKey other = (b.markKey other).markKey name := by
  refine Body.ext ?_ rfl
  exact changeFirst_comm (by intro f; rfl) other name b.fields

end Body

namespace Schema

/-- The ways in which setting a primary key can end. Either the first field of the name in the first
model of the name is marked, or there is no such field, and then a model that is there stays as it
is and one that is not comes last, with nothing in it. -/
inductive MarksKey (s : Schema) (model field : String) :
    Except SchemaError Unit × Schema → Prop where
  | marked {before after : List Model} {m : Model} {first later : List Field} {f : Field}
      (hModels : s.models = before ++ m :: after) (hNew : model ∉ before.map (·.name))
      (hModel : m.name = model) (hFields : m.fields = first ++ f :: later)
      (hFirst : field ∉ first.map (·.name)) (hField : f.name = field) :
      MarksKey s model field (.ok (),
        ⟨before ++
          { m with fields := first ++ { f with isPrimaryKey := true } :: later } :: after⟩)
  | refused {m : Model} (hModel : s.get? model = some m) (hField : field ∉ m.fieldNames) :
      MarksKey s model field (.error (.fieldNotFound model field), s)
  | added (hModel : s.get? model = none) :
      MarksKey s model field
        (.error (.fieldNotFound model field), ⟨s.models ++ [{ name := model }]⟩)

theorem fst_setPrimaryKey (s : Schema) (model field : String) :
    (s.setPrimaryKey model field).1 =
      if s.hasField model field then .ok () else .error (.fieldNotFound model field) := rfl

theorem snd_setPrimaryKey (s : Schema) (model field : String) :
    (s.setPrimaryKey model field).2 = s.update model (·.markKey field) := rfl

theorem contains_iff_isSome_get? (s : Schema) (name : String) :
    s.contains name ↔ (s.get? name).isSome := by
  simp [contains, get?]

theorem hasField_iff_exists (s : Schema) (model field : String) :
    s.hasField model field ↔ ∃ m, s.get? model = some m ∧ field ∈ m.fieldNames := by
  simp [hasField, Option.any_eq_true, Body.isSome_field?_iff]

theorem setPrimaryKey_ok_iff (s : Schema) (model field : String) :
    (s.setPrimaryKey model field).1 = .ok () ↔ s.hasField model field := by
  rw [fst_setPrimaryKey]
  cases s.hasField model field <;> simp

/-- The first model of the name and the first field of the name in it, with what stands around
them. -/
theorem exists_split_of_hasField {s : Schema} {model field : String}
    (h : s.hasField model field) :
    ∃ before m after first f later, s.models = before ++ m :: after ∧
      model ∉ before.map (·.name) ∧ m.name = model ∧ m.fields = first ++ f :: later ∧
      field ∉ first.map (·.name) ∧ f.name = field := by
  simp only [hasField, Option.any_eq_true, Option.isSome_iff_exists] at h
  obtain ⟨m, hGet, f, hField⟩ := h
  obtain ⟨hName, before, after, hModels, hBefore⟩ := List.find?_eq_some_iff_append.mp hGet
  obtain ⟨hFieldName, first, later, hFields, hFirst⟩ := List.find?_eq_some_iff_append.mp hField
  refine ⟨before, m, after, first, f, later, hModels, ?_, by simpa using hName, hFields, ?_,
    by simpa using hFieldName⟩
  · simpa using hBefore
  · simpa using hFirst

theorem marksKey_setPrimaryKey (s : Schema) (model field : String) :
    s.MarksKey model field (s.setPrimaryKey model field) := by
  by_cases hHas : s.hasField model field
  · obtain ⟨before, m, after, first, f, later, hModels, hNew, rfl, hFields, hFirst, rfl⟩ :=
      exists_split_of_hasField hHas
    obtain ⟨models⟩ := s
    obtain rfl : models = before ++ m :: after := hModels
    rw [setPrimaryKey, if_pos hHas, update_of_append hNew, Body.markKey_of_append hFields hFirst]
    exact .marked rfl hNew rfl hFields hFirst rfl
  · have hNone : field ∉ (s.body model).fieldNames := mt (s.hasField_iff model field).mpr hHas
    rw [setPrimaryKey_of_notMem hNone, createModel_eq]
    cases hGet : s.get? model with
    | some m =>
        rw [if_pos ((s.contains_iff_isSome_get? model).mpr (by rw [hGet]; rfl))]
        exact .refused hGet (by simpa [body, hGet] using hNone)
    | none =>
        rw [if_neg (mt (s.contains_iff_isSome_get? model).mp (by simp [hGet]))]
        exact .added hGet

/-- Setting a key leaves the names of all fields. -/
theorem fieldNames_setPrimaryKey (s : Schema) (model field other : String) :
    ((s.setPrimaryKey model field).2.body other).fieldNames = (s.body other).fieldNames := by
  rw [snd_setPrimaryKey]
  by_cases h : other = model
  · subst h
    simp
  · rw [body_update_of_ne s h]

/-- Setting one key does not decide whether another one can be set. -/
theorem fst_setPrimaryKey_setPrimaryKey (s : Schema) (model field other name : String) :
    ((s.setPrimaryKey model field).2.setPrimaryKey other name).1 =
      (s.setPrimaryKey other name).1 := by
  have hSame : (s.setPrimaryKey model field).2.hasField other name = s.hasField other name := by
    rw [Bool.eq_iff_iff, hasField_iff, hasField_iff, fieldNames_setPrimaryKey]
  rw [fst_setPrimaryKey, hSame, fst_setPrimaryKey]

theorem setPrimaryKey_setPrimaryKey (s : Schema) (model field : String) :
    (s.setPrimaryKey model field).2.setPrimaryKey model field = s.setPrimaryKey model field := by
  refine Prod.ext (s.fst_setPrimaryKey_setPrimaryKey model field model field) ?_
  simp only [snd_setPrimaryKey, update_update_self, Function.comp_def, Body.markKey_markKey]

theorem snd_setPrimaryKey_comm {s : Schema} {model : String} (h : s.contains model)
    (field other name : String) :
    ((s.setPrimaryKey model field).2.setPrimaryKey other name).2 =
      ((s.setPrimaryKey other name).2.setPrimaryKey model field).2 := by
  simp only [snd_setPrimaryKey]
  by_cases hSame : model = other
  · subst hSame
    simp only [update_update_self, Function.comp_def, Body.markKey_comm _ field name]
  · exact update_comm_of_mem ((s.contains_iff_mem_names model).mp h) hSame _ _

/-- What setting a primary key does. It succeeds exactly if the model is there and has a field of
the name. Then one flag of the first such field is set and all else is as it was; otherwise the
error names the model and the field, and at most an empty model is new. Doing it again gives the
same result and changes nothing. Two keys can be set in either order, with the same results and the
same schema at the end, as soon as one of their models is there. -/
theorem setPrimaryKey_exact (s : Schema) (model field : String) :
    ((s.setPrimaryKey model field).1 = .ok () ↔
        ∃ m, s.get? model = some m ∧ field ∈ m.fieldNames) ∧
      s.MarksKey model field (s.setPrimaryKey model field) ∧
      (s.setPrimaryKey model field).2.setPrimaryKey model field = s.setPrimaryKey model field ∧
      (s.contains model → ∀ other name,
        ((s.setPrimaryKey other name).2.setPrimaryKey model field).1 =
            (s.setPrimaryKey model field).1 ∧
          ((s.setPrimaryKey model field).2.setPrimaryKey other name).1 =
            (s.setPrimaryKey other name).1 ∧
          ((s.setPrimaryKey model field).2.setPrimaryKey other name).2 =
            ((s.setPrimaryKey other name).2.setPrimaryKey model field).2) := by
  refine ⟨?_, s.marksKey_setPrimaryKey model field, s.setPrimaryKey_setPrimaryKey model field,
    fun hThere other name => ⟨?_, ?_, snd_setPrimaryKey_comm hThere field other name⟩⟩
  · rw [setPrimaryKey_ok_iff, hasField_iff_exists]
  · exact s.fst_setPrimaryKey_setPrimaryKey other name model field
  · exact s.fst_setPrimaryKey_setPrimaryKey model field other name

/-- Of two fields of one name the first is marked, whether a key that cannot be set is asked for
before or after it. -/
theorem setPrimaryKey_exact_of_repeated_name :
    let x : Field := { name := "x", type := .scalar .int }
    let y : Field := { name := "y", type := .scalar .json, isPrimaryKey := true }
    let s : Schema := ⟨[{ name := "A" }, { name := "B", fields := [y, x, x] }]⟩
    s.contains "B" ∧ (s.setPrimaryKey "B" "x").1 = .ok () ∧
      ((s.setPrimaryKey "B" "x").2.setPrimaryKey "C" "x").1 = .error (.fieldNotFound "C" "x") ∧
      ((s.setPrimaryKey "C" "x").2.setPrimaryKey "B" "x").2 =
        ⟨[{ name := "A" }, { name := "B", fields := [y, { x with isPrimaryKey := true }, x] },
          { name := "C" }]⟩ := by
  intro x y s
  obtain ⟨hOk, -, -, hEither⟩ := setPrimaryKey_exact s "B" "x"
  have hThere : s.contains "B" := by decide
  obtain ⟨-, hOther, hState⟩ := hEither hThere "C" "x"
  refine ⟨hThere, hOk.mpr ⟨_, rfl, by decide⟩, hOther.trans (by decide), hState.symm.trans ?_⟩
  decide

end Schema

end Datamodel
