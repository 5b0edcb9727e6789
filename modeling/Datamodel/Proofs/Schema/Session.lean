import Datamodel.Entries
import Datamodel.Proofs.Schema.Update
import Datamodel.Proofs.Value.Decoding
import Datamodel.Schema.Format
import Mathlib.Algebra.Ring.Nat

/-! Sessions: all that can be done to a schema while it is being built, in any order. An operation
that names a model is an update of the body of that model, so no name is lost, moved or given twice
unless a session starts over or loads another schema. A schema has no keys besides the names of its
models. The same sessions are run on a table that keeps keys and models apart, and there the keys
turn out to be the names. -/
namespace Datamodel

namespace Schema

theorem names_prefix_update (s : Schema) (name : String) (change : Body → Body) :
    s.names <+: (s.update name change).names := by
  rw [names_update]
  split
  · exact List.prefix_refl _
  · exact List.prefix_append _ _

theorem isKeyed_ofModels (models : List Model) : (ofModels models).IsKeyed := by
  induction models using List.reverseRecOn with
  | nil => exact List.nodup_nil
  | append_singleton models m ih =>
      rw [ofModels, List.foldl_append, List.foldl_cons, List.foldl_nil]
      exact isKeyed_update ih m.name _

/-- Names and models belong to each other one to one, and whatever a schema says about itself is
read off the list of its models. -/
structure IsStore (s : Schema) : Prop where
  distinct : s.names.Nodup
  get? : ∀ name m, s.get? name = some m ↔ m ∈ s.models ∧ m.name = name
  contains : ∀ name, s.contains name ↔ ∃ m ∈ s.models, m.name = name
  size : s.size = s.models.length
  isEmpty : s.isEmpty ↔ s.models = []
  stats : s.stats = ⟨s.models.length, (s.models.map (·.fields.length)).sum,
    (s.models.map (·.relations.length)).sum⟩

theorem IsKeyed.isStore {s : Schema} (h : s.IsKeyed) : s.IsStore where
  distinct := h
  get? := fun _ _ => get?_eq_some_iff h
  contains := fun name => by simp [contains]
  size := rfl
  isEmpty := List.isEmpty_iff
  stats := by rw [stats, List.length_flatMap, List.length_flatMap]

end Schema

namespace Session

/-- What can be done to a schema. An edit changes the fields and relations of a model at will, and
loading puts a list of models in the place of all that is there. -/
inductive Operation where
  | createModel (model : String)
  | addField (model : String) (f : Field)
  | setPrimaryKey (model field : String)
  | addRelation (model : String) (r : Relation)
  | edit (model : String) (change : Body → Body)
  | reset
  | load (models : List Model)

namespace Operation

/-- The model that the operation names. Starting over and loading name none. -/
def model? : Operation → Option String
  | createModel model => some model
  | addField model _ => some model
  | setPrimaryKey model _ => some model
  | addRelation model _ => some model
  | edit model _ => some model
  | reset => none
  | load _ => none

/-- The schema behind the operation, whether it succeeds or fails. -/
def apply (s : Schema) : Operation → Schema
  | createModel model => s.createModel model
  | addField model f => s.addField model f
  | setPrimaryKey model field => (s.setPrimaryKey model field).2
  | addRelation model r => s.addRelation model r
  | edit model change => s.update model change
  | reset => {}
  | load models => .ofModels models

/-- What the operation does to the body of the model that it names. -/
def change : Operation → Body → Body
  | createModel _ => id
  | addField _ f => (·.addField f)
  | setPrimaryKey _ field => (·.markKey field)
  | addRelation _ r => (·.addRelation r)
  | edit _ change => change
  | reset => id
  | load _ => id

/-- The frame of an operation that names a model. -/
theorem apply_eq_update {op : Operation} {model : String} (h : op.model? = some model)
    (s : Schema) : op.apply s = s.update model op.change := by
  cases op <;> cases h <;> rfl

/-- The operations that name no model leave nothing of what was there. -/
theorem exists_apply_eq_ofModels {op : Operation} (h : op.model? = none) :
    ∃ models, ∀ s, op.apply s = .ofModels models := by
  cases op with
  | reset => exact ⟨[], fun _ => rfl⟩
  | load models => exact ⟨models, fun _ => rfl⟩
  | _ => cases h

theorem isKeyed_apply {s : Schema} (h : s.IsKeyed) (op : Operation) : (op.apply s).IsKeyed := by
  cases hModel : op.model? with
  | some model =>
      rw [apply_eq_update hModel]
      exact Schema.isKeyed_update h model _
  | none =>
      obtain ⟨models, hApply⟩ := exists_apply_eq_ofModels hModel
      rw [hApply]
      exact Schema.isKeyed_ofModels models

end Operation

/-- The operations of a session, one after the other. -/
def run (s : Schema) (ops : List Operation) : Schema :=
  ops.foldl Operation.apply s

theorem isKeyed_run {s : Schema} (h : s.IsKeyed) (ops : List Operation) : (run s ops).IsKeyed := by
  induction ops generalizing s with
  | nil => exact h
  | cons op ops ih => exact ih (op.isKeyed_apply h)

/-- As long as every operation names a model, names stay where they are and new ones come last. -/
theorem names_prefix_run {ops : List Operation} (h : ∀ op ∈ ops, op.model?.isSome) (s : Schema) :
    s.names <+: (run s ops).names := by
  induction ops generalizing s with
  | nil => exact List.prefix_refl _
  | cons op ops ih =>
      rw [List.forall_mem_cons] at h
      obtain ⟨model, hModel⟩ := Option.isSome_iff_exists.mp h.1
      have hFirst := s.names_prefix_update model op.change
      rw [← Operation.apply_eq_update hModel] at hFirst
      exact hFirst.trans (ih h.2 (op.apply s))

/-- A model that no operation names is not touched, and it is not created either. -/
theorem get?_run {ops : List Operation} (h : ∀ op ∈ ops, op.model?.isSome) {name : String}
    (hName : ∀ op ∈ ops, op.model? ≠ some name) (s : Schema) :
    (run s ops).get? name = s.get? name := by
  induction ops generalizing s with
  | nil => rfl
  | cons op ops ih =>
      rw [List.forall_mem_cons] at h hName
      obtain ⟨model, hModel⟩ := Option.isSome_iff_exists.mp h.1
      have hOther : name ≠ model := by
        rintro rfl
        exact hName.1 hModel
      have hRest : (run (op.apply s) ops).get? name = (op.apply s).get? name := ih h.2 hName.2 _
      rw [Operation.apply_eq_update hModel, Schema.get?_update_of_ne s hOther] at hRest
      rw [run, List.foldl_cons, Operation.apply_eq_update hModel]
      exact hRest

/-- Models under keys. Nothing in the type ties a key to the name of its model. -/
abbrev Table :=
  List (String × Model)

namespace Table

/-- The table with the body of the model under a key changed, and with a new model at the end if the
key is not there. -/
def update (key : String) (change : Body → Body) : Table → Table
  | [] => [(key, { name := key, toBody := change {} })]
  | (other, m) :: rest =>
    if other = key then (other, { m with toBody := change m.toBody }) :: rest
    else (other, m) :: update key change rest

/-- Each model under its own name, in the place of an earlier one of that name. -/
def ofModels (models : List Model) : Table :=
  models.foldl (fun t m => Entries.put m.name m t) []

def apply (t : Table) : Operation → Table
  | .createModel model => update model id t
  | .addField model f => update model (·.addField f) t
  | .setPrimaryKey model field => update model (·.markKey field) t
  | .addRelation model r => update model (·.addRelation r) t
  | .edit model change => update model change t
  | .reset => []
  | .load models => ofModels models

def run (t : Table) (ops : List Operation) : Table :=
  ops.foldl apply t

/-- The models of a schema, each under its name. -/
def ofSchema (s : Schema) : Table :=
  s.models.map fun m => (m.name, m)

theorem update_ofSchema (s : Schema) (name : String) (change : Body → Body) :
    update name change (ofSchema s) = ofSchema (s.update name change) := by
  obtain ⟨models⟩ := s
  simp only [ofSchema, Schema.update]
  induction models with
  | nil => rfl
  | cons m ms ih =>
      by_cases h : m.name = name
      · simp [update, Schema.updateModels, h]
      · simp [update, Schema.updateModels, h, ih]

theorem put_ofSchema (s : Schema) (m : Model) :
    Entries.put m.name m (ofSchema s) = ofSchema (s.insert m) := by
  obtain ⟨models⟩ := s
  simp only [ofSchema, Schema.insert, Schema.update]
  induction models with
  | nil => rfl
  | cons other rest ih =>
      by_cases h : other.name = m.name
      · simp [Entries.put, Schema.updateModels, h]
      · simp [Entries.put, Schema.updateModels, h, ih]

theorem ofModels_eq_ofSchema (models : List Model) :
    ofModels models = ofSchema (.ofModels models) := by
  induction models using List.reverseRecOn with
  | nil => rfl
  | append_singleton models m ih =>
      have hBefore : models.foldl (fun t m => Entries.put m.name m t) [] =
          ofSchema (models.foldl Schema.insert {}) := ih
      rw [ofModels, Schema.ofModels, List.foldl_append, List.foldl_append, hBefore]
      exact put_ofSchema _ m

theorem apply_ofSchema (s : Schema) (op : Operation) :
    apply (ofSchema s) op = ofSchema (op.apply s) := by
  cases op with
  | createModel model => exact update_ofSchema s model id
  | addField model f => exact update_ofSchema s model _
  | setPrimaryKey model field => exact update_ofSchema s model _
  | addRelation model r => exact update_ofSchema s model _
  | edit model change => exact update_ofSchema s model change
  | reset => rfl
  | load models => exact ofModels_eq_ofSchema models

/-- A table on which a session is run has the models of the schema under their names. -/
theorem run_ofSchema (s : Schema) (ops : List Operation) :
    run (ofSchema s) ops = ofSchema (Session.run s ops) := by
  induction ops generalizing s with
  | nil => rfl
  | cons op ops ih =>
      rw [run, List.foldl_cons, apply_ofSchema]
      exact ih (op.apply s)

theorem run_nil (ops : List Operation) : run [] ops = ofSchema (Session.run {} ops) :=
  run_ofSchema {} ops

/-- The keys of a table, in order. -/
def keys (t : Table) : List String :=
  t.map (·.1)

/-- The keys of the table are the names of the schema. -/
theorem keys_ofSchema (s : Schema) : keys (ofSchema s) = s.names := by
  simp [keys, ofSchema, Schema.names]

/-- Behind a session a schema has a model of a name exactly if the name is a key of the table. -/
theorem contains_iff_mem_keys_run (ops : List Operation) (name : String) :
    (Session.run {} ops).contains name ↔ name ∈ keys (run [] ops) := by
  rw [run_nil, keys_ofSchema, Schema.contains_iff_mem_names]

/-- Under a name of the schema the table has the model of that name. -/
theorem exists_mem_run {ops : List Operation} {name : String}
    (h : name ∈ (Session.run {} ops).names) :
    ∃ m ∈ (Session.run {} ops).models, (name, m) ∈ run [] ops := by
  obtain ⟨m, hm, rfl⟩ := List.mem_map.mp h
  rw [run_nil]
  exact ⟨m, hm, List.mem_map_of_mem hm⟩

end Table

/-- Behind any session the models have different names, each is found by its own name and by no
other, and in a table with keys of its own each stands under its name. Whether there is a model of a
name can be asked of the keys as well. A schema that has been read from outside is one that can be
loaded. As long as nothing is loaded and no reset happens, the names so far stay in their places at
the front, and a model that no operation names stays as it is. -/
theorem store_invariant (before later : List Operation) :
    (run {} before).IsStore ∧
      Table.run [] before = (run {} before).models.map (fun m => (m.name, m)) ∧
      (∀ name, (run {} before).contains name ↔ name ∈ (Table.run [] before).keys) ∧
      (∀ (v : Value) (s : Schema), Schema.ofValue v = .ok s →
        ∃ models, (Operation.load models).apply (run {} before) = s) ∧
      ((∀ op ∈ later, op.model?.isSome) →
        (run {} before).names <+: (run {} (before ++ later)).names ∧
          ∀ name, (∀ op ∈ later, op.model? ≠ some name) →
            (run {} (before ++ later)).get? name = (run {} before).get? name) := by
  have hEmpty : ({} : Schema).IsKeyed := List.nodup_nil
  have hKeyed := isKeyed_run hEmpty before
  refine ⟨hKeyed.isStore, Table.run_nil before, Table.contains_iff_mem_keys_run before, ?_,
    fun hLater => ?_⟩
  · intro v s hRead
    obtain ⟨models, -, rfl⟩ := Decoded.map_eq_ok_iff.mp hRead
    exact ⟨models, rfl⟩
  · have hRun : run {} (before ++ later) = run (run {} before) later := List.foldl_append
    rw [hRun]
    exact ⟨names_prefix_run hLater _, fun name hName => get?_run hLater hName _⟩

/-- Of two models that are loaded under one name the second takes the place of the first, and a key
that cannot be set leaves its model behind. An edit renames a field and not the model. -/
theorem store_invariant_of_repeated_name :
    let x : Field := { name := "x", type := .scalar .int }
    let before : List Operation := [
      .load [{ name := "A" }, { name := "B" }, { name := "A", fields := [x] }],
      .setPrimaryKey "C" "x"]
    let later : List Operation := [
      .edit "B" fun _ => { fields := [{ x with name := "A" }] }, .setPrimaryKey "B" "x",
      .addField "D" x]
    (∀ op ∈ later, op.model?.isSome) ∧ (∀ op ∈ later, op.model? ≠ some "A") ∧
      (run {} before).names = ["A", "B", "C"] ∧
      ["A", "B", "C"] <+: (run {} (before ++ later)).names ∧
      (run {} (before ++ later)).get? "A" = some { name := "A", fields := [x] } := by
  intro x before later
  have hLater : ∀ op ∈ later, op.model?.isSome := by simp [later, Operation.model?]
  have hOther : ∀ op ∈ later, op.model? ≠ some "A" := by simp [later, Operation.model?]
  obtain ⟨-, -, -, -, hKept⟩ := store_invariant before later
  obtain ⟨hPrefix, hGet⟩ := hKept hLater
  refine ⟨hLater, hOther, by decide, hPrefix, (hGet "A" hOther).trans (by decide)⟩

end Session

end Datamodel
