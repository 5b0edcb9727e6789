import Datamodel.Proofs.Document.Layout
import Datamodel.Proofs.Document.Uniqueness
import Datamodel.Proofs.Validation

/-! What the strict rules are worth to a document. Validation and rendering look for the field that
stores a relation each on their own; here the two are brought together. A relation has no line only
if it is many-to-one and is stored nowhere, and that is what validation rejects. So the document of
a schema that passes leaves nothing out, and whatever a line refers to is declared. -/
namespace Datamodel

/-- Where every element has an image, the images are one for each, none left out. -/
theorem map_some_filterMap {α β : Type} {f : α → Option β} {as : List α}
    (h : ∀ a ∈ as, ∃ b, f a = some b) : (as.filterMap f).map some = as.map f := by
  induction as with
  | nil => rfl
  | cons a as ih =>
      rw [List.forall_mem_cons] at h
      obtain ⟨b, hb⟩ := h.1
      rw [List.filterMap_cons_some hb, List.map_cons, List.map_cons, hb, ih h.2]

namespace Model

/-- The line of the relation names the field as the one that stores it. The line of a one-to-one
relation first gives the name that both sides of the relation share. -/
def RefersTo (m : Model) (r : Relation) (field : String) : Prop :=
  m.relationLine? r = some ("  " ++ r.name ++ " " ++ r.target ++ " @relation(fields: [" ++ field ++
      "], references: [id])") ∨
    m.relationLine? r = some ("  " ++ r.name ++ " " ++ r.target ++ " @relation(name: \"" ++
      Relation.oneToOneName m.name r.target ++ "\", fields: [" ++ field ++ "], references: [id])")

/-- The block of the model has a line for each field and then one for each relation, in order of
declaration and nothing else. What its lines refer to is there: the target of a relation is a model
of the schema, a many-to-one relation names the field that stores it, and a name that a relation
gives is that of one field of the model. At most one line is that of a key. -/
structure IsClosed (s : Schema) (m : Model) : Prop where
  length : m.lines.length = m.fields.length + m.relations.length
  fields : ∀ (i : Nat) (f : Field), m.fields[i]? = some f →
    m.lines[i]? = some (f.lineWith (f.isUnique ∨ m.IsLinked i))
  relations : ∀ (i : Nat) (r : Relation), m.relations[i]? = some r →
    ∃ line, m.relationLine? r = some line ∧ m.lines[m.fields.length + i]? = some line
  targets : ∀ r ∈ m.relations, ∃ target ∈ s.models, target.name = r.target
  stored : ∀ r ∈ m.relations, r.kind = .manyToOne → ∃ field, m.RefersTo r field
  references : ∀ r ∈ m.relations, ∀ field, m.RefersTo r field → m.fieldNames.count field = 1
  keys : m.fields.countP (·.isPrimaryKey) ≤ 1

theorem relationLine?_eq_none_iff (m : Model) (r : Relation) :
    m.relationLine? r = none ↔ r.kind = .manyToOne ∧ m.backing? r = none := by
  unfold relationLine?
  cases r.kind with
  | oneToMany => simp
  | manyToMany => simp
  | manyToOne => simp
  | oneToOne => cases m.backing? r <;> simp

/-- A relation is noted as omitted exactly if it has no line. -/
theorem exists_omitted_iff (m : Model) (r : Relation) :
    (∃ d ∈ m.diagnosticsOf r, d.reason = .omittedManyToOne) ↔ m.relationLine? r = none := by
  rw [relationLine?_eq_none_iff, diagnosticsOf]
  cases m.backing? r with
  | some f => simp
  | none => cases r.kind <;> cases r.backing <;> simp

/-- A line names a field exactly if the relation is of a kind that is stored and the field is the
one found for it. The lines of the other kinds are told from it by what stands right behind the
target. -/
theorem refersTo_iff {m : Model} {r : Relation} {field : String} :
    m.RefersTo r field ↔
      (r.kind = .manyToOne ∨ r.kind = .oneToOne) ∧ ∃ f, m.backing? r = some f ∧ f.name = field := by
  unfold RefersTo relationLine?
  cases hBacking : m.backing? r with
  | none => cases r.kind <;> simp [← String.toList_inj]
  | some f =>
      cases r.kind with
      | oneToMany => simp [← String.toList_inj]
      | manyToMany => simp [← String.toList_inj]
      | manyToOne => simp [← String.toList_inj]
      | oneToOne => simp [← String.toList_inj]

/-- Validation looks for the place of a field and rendering for the field; both find it or neither.
-/
theorem IsStrict.exists_backing {names : List String} {m : Model} (h : m.IsStrict names)
    {r : Relation} (hr : r ∈ m.relations) (hKind : r.kind = .manyToOne) :
    ∃ f, m.backing? r = some f := by
  refine Option.ne_none_iff_exists'.mp fun hNone => ?_
  obtain ⟨i, hIndex⟩ := h.backing r hr hKind
  rw [(m.backing?_eq_none_iff r).mp hNone] at hIndex
  cases hIndex

theorem IsStrict.exists_relationLine {names : List String} {m : Model} (h : m.IsStrict names)
    {r : Relation} (hr : r ∈ m.relations) : ∃ line, m.relationLine? r = some line := by
  refine Option.ne_none_iff_exists'.mp fun hNone => ?_
  obtain ⟨hKind, hMissing⟩ := (m.relationLine?_eq_none_iff r).mp hNone
  obtain ⟨f, hBacking⟩ := h.exists_backing hr hKind
  rw [hMissing] at hBacking
  cases hBacking

theorem IsStrict.isClosed {s : Schema} {m : Model} (h : m.IsStrict s.names) : m.IsClosed s := by
  have hFields : m.fieldLines.length = m.fields.length := List.length_mapIdx
  have hWritten := map_some_filterMap fun r hr => h.exists_relationLine (r := r) hr
  constructor
  case length =>
    have hLength := congrArg List.length hWritten
    rw [List.length_map, List.length_map] at hLength
    rw [lines, List.length_append, hFields, hLength]
  case fields => exact fun i f hField => m.getElem?_lines hField
  case relations =>
    intro i r hr
    obtain ⟨line, hLine⟩ := h.exists_relationLine (List.mem_of_getElem? hr)
    have hAt := congrArg (·[i]?) hWritten
    simp only [List.getElem?_map, hr, Option.map_some, hLine] at hAt
    refine ⟨line, hLine, ?_⟩
    rw [lines, ← hFields, List.getElem?_append_right (Nat.le_add_right _ _),
      Nat.add_sub_cancel_left]
    simpa using hAt
  case targets =>
    intro r hr
    obtain ⟨target, hTarget, hName⟩ := List.mem_map.mp (h.targets r hr)
    exact ⟨target, hTarget, hName⟩
  case stored =>
    intro r hr hKind
    obtain ⟨f, hBacking⟩ := h.exists_backing hr hKind
    exact ⟨f.name, refersTo_iff.mpr ⟨.inl hKind, f, hBacking, rfl⟩⟩
  case references =>
    intro r _ field hRefers
    obtain ⟨-, f, hBacking, rfl⟩ := refersTo_iff.mp hRefers
    have hMem : f.name ∈ m.fieldNames :=
      List.mem_map_of_mem (List.mem_of_find?_eq_some hBacking)
    exact List.count_eq_one_of_mem h.fields hMem
  case keys => exact h.keys

end Model

/-- The document of a schema that passes validation omits no relation, and it has one block for each
model, in order. A block has one line for each field and then one for each relation; a relation
leads to a model with a block of its own, the field that a relation names is declared once, and at
most one line is that of a key. If a session has built the schema, the model that a relation leads
to is the one under this key in a table with keys of its own. -/
theorem Schema.document_closed_of_validate {s : Schema} (h : s.validate = .ok ()) :
    (∀ d ∈ s.document.diagnostics, d.reason ≠ .omittedManyToOne) ∧
      s.document.text =
        Document.datasource ++ String.join (s.models.map fun m =>
          "\n\nmodel " ++ m.name ++ " \x7b\n" ++ String.join (m.lines.map (· ++ "\n")) ++ "\x7d") ∧
      (∀ m ∈ s.models, m.IsClosed s) ∧
      ∀ ops, Session.run {} ops = s → ∀ m ∈ s.models, ∀ r ∈ m.relations,
        ∃ target ∈ s.models, (r.target, target) ∈ Session.Table.run [] ops := by
  have hStrict := Validator.validate_ok_iff_isStrict.mp h
  refine ⟨?_, ?_, fun m hm => (hStrict m hm).isClosed, ?_⟩
  · intro d hd hOmitted
    obtain ⟨m, hm, hd⟩ := List.mem_flatMap.mp hd
    obtain ⟨r, hr, hd⟩ := List.mem_flatMap.mp hd
    obtain ⟨line, hLine⟩ := (hStrict m hm).exists_relationLine hr
    have hNone := (m.exists_omitted_iff r).mp ⟨d, hd, hOmitted⟩
    rw [hLine] at hNone
    cases hNone
  · rw [document, text_eq_append_join]
    simp only [Model.block, ← String.append_assoc]
    rfl
  · intro ops hRun m hm r hr
    have hTarget : r.target ∈ s.names := (hStrict m hm).targets r hr
    rw [← hRun] at hTarget ⊢
    exact Session.Table.exists_mem_run hTarget

/-- All four kinds of relations, with fields that are asked for and fields that are found, and the
other side of a one-to-one relation, which is stored nowhere. -/
theorem Schema.document_closed_of_four_kinds :
    let user : Model := {
      name := "User"
      fields := [{ name := "id", type := .scalar .int, isPrimaryKey := true }]
      relations := [
        { name := "posts", kind := .oneToMany, target := "Post" },
        { name := "profile", kind := .oneToOne, target := "Post" }] }
    let post : Model := {
      name := "Post"
      fields := [
        { name := "writer", type := .scalar .int },
        { name := "OwnerID", type := .scalar .int, isPrimaryKey := true }]
      relations := [
        { name := "author", kind := .manyToOne, target := "User", backing := some "writer" },
        { name := "owner", kind := .oneToOne, target := "User" },
        { name := "related", kind := .manyToMany, target := "Post" }] }
    let s : Schema := ⟨[user, post]⟩
    let ops : List Session.Operation := [.load [user, post]]
    s.validate = .ok () ∧ (∀ d ∈ s.document.diagnostics, d.reason ≠ .omittedManyToOne) ∧
      (∃ target ∈ s.models, target.name = "User") ∧
      post.fieldNames.count "OwnerID" = 1 ∧ Session.run {} ops = s ∧
      ∃ target ∈ s.models, ("User", target) ∈ Session.Table.run [] ops := by
  intro user post s ops
  have hOk : s.validate = .ok () := by decide
  have hRun : Session.run {} ops = s := by decide
  obtain ⟨hNone, -, hClosed, hKeys⟩ := document_closed_of_validate hOk
  have hMem : post ∈ s.models := by simp [s]
  have hPost := hClosed post hMem
  have hOwner : { name := "owner", kind := .oneToOne, target := "User" } ∈ post.relations := by
    simp [post]
  have hRefers : post.RefersTo { name := "owner", kind := .oneToOne, target := "User" } "OwnerID" :=
    .inr (by decide)
  exact ⟨hOk, hNone, hPost.targets _ hOwner, hPost.references _ hOwner "OwnerID" hRefers, hRun,
    hKeys ops hRun post hMem _ hOwner⟩

end Datamodel
