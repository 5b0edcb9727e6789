import Datamodel.Proofs.Document.Uniqueness
import Datamodel.Proofs.Schema.Session

/-! What declarations leave in place. A declaration adds a model, a field or a relation at the end,
or it marks a key; it moves nothing and renames nothing. A relation is stored in the first field
that it accepts, so one that is stored stays where it is, whatever is declared later, and one that
is stored nowhere can only come to be stored in a new field. -/
namespace Datamodel

namespace Body

/-- A body that has grown out of another one. Its fields and relations start with those that were
there, but for the keys. -/
structure Grows (b c : Body) : Prop where
  fields : ∀ (i : Nat) (f : Field), b.fields[i]? = some f →
    ∃ key, c.fields[i]? = some { f with isPrimaryKey := key }
  relations : b.relations <+: c.relations

theorem Grows.refl (b : Body) : b.Grows b where
  fields := fun _ f h => ⟨f.isPrimaryKey, h⟩
  relations := List.prefix_refl _

theorem Grows.trans {b c d : Body} (first : b.Grows c) (last : c.Grows d) : b.Grows d where
  fields := by
    intro i f h
    obtain ⟨middle, hMiddle⟩ := first.fields i f h
    obtain ⟨key, hLast⟩ := last.fields i _ hMiddle
    exact ⟨key, hLast⟩
  relations := first.relations.trans last.relations

theorem grows_addField (b : Body) (f : Field) : b.Grows (b.addField f) where
  fields := by
    intro i g h
    obtain ⟨hi, -⟩ := List.getElem?_eq_some_iff.mp h
    exact ⟨g.isPrimaryKey, (List.getElem?_append_left hi).trans h⟩
  relations := List.prefix_refl _

theorem grows_addRelation (b : Body) (r : Relation) : b.Grows (b.addRelation r) where
  fields := (Grows.refl b).fields
  relations := List.prefix_append _ _

theorem grows_markKey (b : Body) (name : String) : b.Grows (b.markKey name) where
  fields := by
    intro i f h
    rw [markKey, editField, getElem?_changeFirst, h, Option.map_some]
    split
    · exact ⟨true, rfl⟩
    · exact ⟨f.isPrimaryKey, rfl⟩
  relations := List.prefix_refl _

variable {b c : Body} {r : Relation} {i : Nat}

theorem Grows.fieldNames_prefix (h : b.Grows c) : b.fieldNames <+: c.fieldNames := by
  rw [List.prefix_iff_getElem?]
  intro i hi
  have hLt : i < b.fields.length := by simpa [fieldNames] using hi
  obtain ⟨key, hSame⟩ := h.fields i _ (List.getElem?_eq_getElem hLt)
  simp [fieldNames, hSame]

/-- The first field that is accepted stays the first one, since new fields come behind it. -/
theorem Grows.backingIndex?_eq_some (h : b.Grows c) (hIndex : b.backingIndex? r = some i) :
    c.backingIndex? r = some i := by
  rw [backingIndex?_eq_findIdx?_fieldNames] at hIndex ⊢
  exact h.fieldNames_prefix.findIdx?_eq_some hIndex

/-- Where nothing was found, only a field behind those that were there can be. -/
theorem Grows.length_le_of_backingIndex? (h : b.Grows c) (hNone : b.backingIndex? r = none)
    (hIndex : c.backingIndex? r = some i) : b.fields.length ≤ i := by
  rw [backingIndex?_eq_findIdx?_fieldNames] at hNone hIndex
  obtain ⟨new, hNames⟩ := h.fieldNames_prefix
  rw [← hNames, List.findIdx?_append, hNone, Option.none_or] at hIndex
  obtain ⟨j, -, rfl⟩ := Option.map_eq_some_iff.mp hIndex
  simp [fieldNames]

theorem Grows.map_name_backing? (h : b.Grows c) (hIndex : b.backingIndex? r = some i) :
    (c.backing? r).map (·.name) = (b.backing? r).map (·.name) := by
  have hi : i < b.fieldNames.length := by
    simpa [fieldNames] using lt_length_of_backingIndex? hIndex
  rw [map_name_backing?_eq_bind, map_name_backing?_eq_bind, hIndex, h.backingIndex?_eq_some hIndex,
    Option.bind_some, Option.bind_some, List.prefix_iff_getElem?.mp h.fieldNames_prefix i hi,
    List.getElem?_eq_getElem hi]

end Body

/-- A schema that has grown out of another one: every model is at its place, under its name, and has
grown. -/
def Schema.Grows (s t : Schema) : Prop :=
  ∀ (k : Nat) (m : Model), s.models[k]? = some m →
    ∃ n, t.models[k]? = some n ∧ n.name = m.name ∧ m.toBody.Grows n.toBody

namespace Schema

theorem Grows.refl (s : Schema) : s.Grows s :=
  fun _ m h => ⟨m, h, rfl, .refl m.toBody⟩

theorem Grows.trans {s t u : Schema} (first : s.Grows t) (last : t.Grows u) : s.Grows u := by
  intro k m h
  obtain ⟨n, hn, hName, hBody⟩ := first k m h
  obtain ⟨o, ho, hLast, hRest⟩ := last k n hn
  exact ⟨o, ho, hLast.trans hName, hBody.trans hRest⟩

theorem grows_update {change : Body → Body} (h : ∀ b : Body, b.Grows (change b)) (s : Schema)
    (name : String) : s.Grows (s.update name change) := by
  obtain ⟨models⟩ := s
  unfold update
  induction models with
  | nil => exact fun k m hm => by simp at hm
  | cons first rest ih =>
      intro k m hm
      rw [updateModels]
      split
      · cases k with
        | zero =>
            cases hm
            exact ⟨_, rfl, rfl, h first.toBody⟩
        | succ k => exact ⟨m, hm, rfl, .refl m.toBody⟩
      · cases k with
        | zero =>
            cases hm
            exact ⟨first, rfl, rfl, .refl first.toBody⟩
        | succ k => exact ih k m hm

end Schema

namespace Session

/-- The operations that declare something and take nothing back. -/
def Operation.IsDeclaration : Operation → Prop
  | createModel _ => True
  | addField _ _ => True
  | setPrimaryKey _ _ => True
  | addRelation _ _ => True
  | edit _ _ => False
  | reset => False
  | load _ => False

/-- One declaration, whether it succeeds or fails. -/
theorem Operation.IsDeclaration.grows_apply {op : Operation} (h : op.IsDeclaration) (s : Schema) :
    s.Grows (op.apply s) := by
  cases op with
  | createModel model => exact Schema.grows_update Body.Grows.refl s model
  | addField model f => exact Schema.grows_update (fun b => b.grows_addField f) s model
  | setPrimaryKey model field => exact Schema.grows_update (fun b => b.grows_markKey field) s model
  | addRelation model r => exact Schema.grows_update (fun b => b.grows_addRelation r) s model
  | edit model change => exact h.elim
  | reset => exact h.elim
  | load models => exact h.elim

theorem grows_run {ops : List Operation} (h : ∀ op ∈ ops, op.IsDeclaration) (s : Schema) :
    s.Grows (run s ops) := by
  induction ops generalizing s with
  | nil => exact .refl s
  | cons op ops ih =>
      rw [List.forall_mem_cons] at h
      exact (h.1.grows_apply s).trans (ih h.2 (op.apply s))

/-- Behind any declarations a relation is where it was. If it was stored, it is stored in the same
place, in a field of the same name and type, and its line is the same. If it was not, it is stored
in a field that was declared since, or still nowhere. -/
theorem resolved_stable {s : Schema} {ops : List Operation} (hOps : ∀ op ∈ ops, op.IsDeclaration)
    {k j : Nat} {m : Model} {r : Relation} (hModel : s.models[k]? = some m)
    (hRelation : m.relations[j]? = some r) :
    ∃ n, (run s ops).models[k]? = some n ∧ n.name = m.name ∧ n.relations[j]? = some r ∧
      (∀ i, m.backingIndex? r = some i →
        n.backingIndex? r = some i ∧ n.relationLine? r = m.relationLine? r ∧
          ∃ f g, m.fields[i]? = some f ∧ n.fields[i]? = some g ∧ g.name = f.name ∧
            g.type = f.type) ∧
      (m.backingIndex? r = none → ∀ i, n.backingIndex? r = some i → m.fields.length ≤ i) := by
  obtain ⟨n, hn, hName, hBody⟩ := grows_run hOps s k m hModel
  obtain ⟨hj, rfl⟩ := List.getElem?_eq_some_iff.mp hRelation
  refine ⟨n, hn, hName, List.prefix_iff_getElem?.mp hBody.relations j hj, fun i hIndex => ?_,
    fun hNone i hIndex => hBody.length_le_of_backingIndex? hNone hIndex⟩
  have hi := Body.lt_length_of_backingIndex? hIndex
  obtain ⟨key, hField⟩ := hBody.fields i _ (List.getElem?_eq_getElem hi)
  exact ⟨hBody.backingIndex?_eq_some hIndex,
    Model.relationLine?_congr_of_backing? hName (hBody.map_name_backing? hIndex),
    _, _, List.getElem?_eq_getElem hi, hField, rfl, rfl⟩

/-- The author is stored in the second field and stays there, although a field of the same name and
one that would have been found come later. The owner asks for a field that is declared only then. -/
theorem resolved_stable_of_repeated_name :
    let author : Relation := { name := "author", kind := .manyToOne, target := "User" }
    let owner : Relation := {
      name := "owner", kind := .oneToOne, target := "User", backing := some "ownerRef" }
    let m : Model := {
      name := "Post"
      fields := [
        { name := "id", type := .scalar .int }, { name := "AuthorID", type := .scalar .int }]
      relations := [author, owner] }
    let ops : List Operation := [
      .addField "Post" { name := "AuthorID", type := .scalar .json },
      .setPrimaryKey "Post" "AuthorID", .setPrimaryKey "User" "id",
      .addField "Post" { name := "ownerRef", type := .scalar .int },
      .addRelation "Post" { author with name := "x" }, .createModel "Tag"]
    (∀ op ∈ ops, op.IsDeclaration) ∧ m.backingIndex? author = some 1 ∧
      m.backingIndex? owner = none ∧
      (∃ n, (run ⟨[m]⟩ ops).models[0]? = some n ∧ n.backingIndex? author = some 1 ∧
        n.relationLine? author = m.relationLine? author) ∧
      ∃ n, (run ⟨[m]⟩ ops).models[0]? = some n ∧ ∀ i, n.backingIndex? owner = some i → 2 ≤ i := by
  intro author owner m ops
  have hOps : ∀ op ∈ ops, op.IsDeclaration := by simp [ops, Operation.IsDeclaration]
  have hAuthor : m.backingIndex? author = some 1 := by decide
  have hOwner : m.backingIndex? owner = none := by decide
  obtain ⟨n, hn, -, -, hStored, -⟩ := resolved_stable (s := ⟨[m]⟩) (k := 0) (j := 0) hOps rfl rfl
  obtain ⟨o, ho, -, -, -, hNew⟩ := resolved_stable (s := ⟨[m]⟩) (k := 0) (j := 1) hOps rfl rfl
  obtain ⟨hIndex, hLine, -⟩ := hStored 1 hAuthor
  exact ⟨hOps, hAuthor, hOwner, ⟨n, hn, hIndex, hLine⟩, ⟨o, ho, hNew hOwner⟩⟩

end Session

end Datamodel
