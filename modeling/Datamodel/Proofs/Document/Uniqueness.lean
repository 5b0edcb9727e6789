import Datamodel.Document
import Datamodel.Proofs.Schema.Update

/-! Two ways to write the fields that store one-to-one relations as unique. The document leaves the
schema alone and adds the modifier to lines. The other way first marks the fields in the schema and
then writes every field as it is declared. Both give the same document, because nothing but the line
of a field looks at its uniqueness. -/
namespace Datamodel

/-- The field declared as unique. -/
def Field.markUnique (f : Field) : Field :=
  { f with isUnique := true }

/-- Whether a field is accepted depends on its name only. -/
theorem FieldPattern.accepts_congr (p : FieldPattern) {f g : Field} (h : f.name = g.name) :
    p.accepts f = p.accepts g := by
  cases p with
  | named name => simp only [accepts, h]
  | containing part => simp only [accepts, h]

namespace Body

/-- The search for a place looks at nothing but the names of the fields. -/
theorem backingIndex?_eq_findIdx?_fieldNames (b : Body) (r : Relation) :
    b.backingIndex? r = b.fieldNames.findIdx? fun name =>
      r.pattern.accepts { name := name, type := .scalar .int } := by
  rw [fieldNames, List.findIdx?_map]
  exact congrArg b.fields.findIdx? (funext fun f => r.pattern.accepts_congr rfl)

/-- Bodies with the same field names store their relations in the same places. -/
theorem backingIndex?_congr {b c : Body} (h : b.fieldNames = c.fieldNames) (r : Relation) :
    b.backingIndex? r = c.backingIndex? r := by
  rw [backingIndex?_eq_findIdx?_fieldNames, backingIndex?_eq_findIdx?_fieldNames, h]

/-- A place that is found is that of a field. -/
theorem lt_length_of_backingIndex? {b : Body} {r : Relation} {i : Nat}
    (h : b.backingIndex? r = some i) : i < b.fields.length :=
  (List.findIdx?_eq_some_iff_getElem.mp h).1

/-- The field that stores a relation is the one at the place that is found. -/
theorem backing?_eq_bind (b : Body) (r : Relation) :
    b.backing? r = (b.backingIndex? r).bind (b.fields[·]?) :=
  List.find?_eq_bind_findIdx?_getElem?

theorem map_name_backing?_eq_bind (b : Body) (r : Relation) :
    (b.backing? r).map (·.name) = (b.backingIndex? r).bind (b.fieldNames[·]?) := by
  rw [backing?_eq_bind]
  cases b.backingIndex? r <;> simp [fieldNames]

theorem map_name_backing?_congr {b c : Body} (h : b.fieldNames = c.fieldNames) (r : Relation) :
    (b.backing? r).map (·.name) = (c.backing? r).map (·.name) := by
  rw [map_name_backing?_eq_bind, map_name_backing?_eq_bind, h, backingIndex?_congr h]

end Body

namespace Model

/-- A relation is written with the name of the field that stores it, and nothing else of it. -/
theorem relationLine?_congr_of_backing? {m n : Model} (hName : m.name = n.name) {r : Relation}
    (hBacking : (m.backing? r).map (·.name) = (n.backing? r).map (·.name)) :
    m.relationLine? r = n.relationLine? r := by
  unfold relationLine?
  cases r.kind with
  | oneToMany => rfl
  | manyToMany => simp only [hName]
  | manyToOne =>
      have hLine := congrArg (Option.map fun name => "  " ++ r.name ++ " " ++ r.target ++
        " @relation(fields: [" ++ name ++ "], references: [id])") hBacking
      simpa only [Option.map_map, Function.comp_def] using hLine
  | oneToOne =>
      simp only [hName]
      cases hm : m.backing? r with
      | none =>
          cases hn : n.backing? r with
          | none => rfl
          | some g => simp [hm, hn] at hBacking
      | some f =>
          cases hn : n.backing? r with
          | none => simp [hm, hn] at hBacking
          | some g =>
              have hSame : f.name = g.name := by simpa [hm, hn] using hBacking
              simp only [hSame]

theorem relationLine?_congr {m n : Model} (hName : m.name = n.name)
    (hFields : m.fieldNames = n.fieldNames) (r : Relation) :
    m.relationLine? r = n.relationLine? r :=
  relationLine?_congr_of_backing? hName (Body.map_name_backing?_congr hFields r)

theorem diagnosticsOf_congr {m n : Model} (hName : m.name = n.name)
    (hFields : m.fieldNames = n.fieldNames) (r : Relation) :
    m.diagnosticsOf r = n.diagnosticsOf r := by
  have hBacking := congrArg Option.isSome (Body.map_name_backing?_congr hFields r)
  simp only [Option.isSome_map] at hBacking
  simp only [diagnosticsOf, hName, hBacking]

end Model

namespace Body

/-- A one-to-one relation of the body is stored in the field at an index. -/
def IsLinked (b : Body) (index : Nat) : Prop :=
  ∃ r ∈ b.relations, r.kind = .oneToOne ∧ b.backingIndex? r = some index

instance (b : Body) (index : Nat) : Decidable (b.IsLinked index) :=
  inferInstanceAs <| Decidable <|
    ∃ r ∈ b.relations, r.kind = .oneToOne ∧ b.backingIndex? r = some index

/-- The body with every field marked as unique that stores a one-to-one relation. -/
def markLinked (b : Body) : Body :=
  { b with fields := b.fields.mapIdx fun i f => if b.IsLinked i then f.markUnique else f }

/-- The part that a relation has in an inference that changes the body it looks at. -/
def inferFrom (b : Body) (r : Relation) : Body :=
  match r.kind, b.backingIndex? r with
  | .oneToOne, some index => { b with fields := b.fields.modify index Field.markUnique }
  | _, _ => b

/-- The inference relation by relation, each on the body that the ones before it left. -/
def inferUnique (b : Body) : Body :=
  b.relations.foldl inferFrom b

theorem contains_linkedIndices (b : Body) (index : Nat) :
    b.linkedIndices.contains index = decide (b.IsLinked index) := by
  rw [List.contains_eq_mem, decide_eq_decide, mem_linkedIndices, IsLinked]

theorem getElem?_markLinked (b : Body) (i : Nat) :
    b.markLinked.fields[i]? =
      b.fields[i]?.map fun f => if b.IsLinked i then f.markUnique else f := by
  simp [markLinked]

@[simp] theorem fieldNames_markLinked (b : Body) : b.markLinked.fieldNames = b.fieldNames := by
  refine map_name_of_getElem? b.getElem?_markLinked fun i f => ?_
  split <;> rfl

theorem isLinked_markLinked (b : Body) (index : Nat) :
    b.markLinked.IsLinked index ↔ b.IsLinked index := by
  simp only [IsLinked, backingIndex?_congr (fieldNames_markLinked b)]
  rfl

/-- Marking once is enough, since the marks move no relation to another field. -/
theorem markLinked_markLinked (b : Body) : b.markLinked.markLinked = b.markLinked := by
  refine Body.ext (List.ext_getElem? fun i => ?_) rfl
  rw [getElem?_markLinked, getElem?_markLinked, Option.map_map]
  congr 1
  funext f
  simp only [Function.comp_apply, isLinked_markLinked]
  split <;> rfl

theorem relations_inferFrom (b : Body) (r : Relation) :
    (b.inferFrom r).relations = b.relations := by
  unfold inferFrom
  split <;> rfl

theorem getElem?_inferFrom (b : Body) (r : Relation) (i : Nat) :
    (b.inferFrom r).fields[i]? = b.fields[i]?.map fun f =>
      if r.kind = .oneToOne ∧ b.backingIndex? r = some i then f.markUnique else f := by
  unfold inferFrom
  split
  · rename_i index hKind hIndex
    simp [hKind, hIndex, List.getElem?_modify]
  · rename_i hNot
    have hOther : ¬ (r.kind = .oneToOne ∧ b.backingIndex? r = some i) :=
      fun h => hNot i h.1 h.2
    simp [hOther]

theorem fieldNames_inferFrom (b : Body) (r : Relation) :
    (b.inferFrom r).fieldNames = b.fieldNames := by
  refine map_name_of_getElem? (b.getElem?_inferFrom r) fun i f => ?_
  split <;> rfl

/-- What the inference has done after some of the relations. It may start from any body with the
same field names, in particular from one that earlier relations have changed. -/
theorem getElem?_foldl_inferFrom {b c : Body} (hNames : c.fieldNames = b.fieldNames)
    (relations : List Relation) (i : Nat) :
    (relations.foldl inferFrom c).fields[i]? = c.fields[i]?.map fun f =>
      if ∃ r ∈ relations, r.kind = .oneToOne ∧ b.backingIndex? r = some i then f.markUnique
      else f := by
  induction relations generalizing c with
  | nil => simp
  | cons r rs ih =>
      have hNext : (c.inferFrom r).fieldNames = b.fieldNames :=
        (fieldNames_inferFrom c r).trans hNames
      rw [List.foldl_cons, ih hNext, getElem?_inferFrom, backingIndex?_congr hNames,
        Option.map_map]
      congr 1
      funext f
      by_cases hFirst : r.kind = .oneToOne ∧ b.backingIndex? r = some i
      · have hSome : ∃ q ∈ r :: rs, q.kind = .oneToOne ∧ b.backingIndex? q = some i :=
          ⟨r, List.mem_cons_self, hFirst⟩
        simp only [Function.comp_apply, if_pos hFirst, if_pos hSome]
        split <;> rfl
      · have hRest : (∃ q ∈ r :: rs, q.kind = .oneToOne ∧ b.backingIndex? q = some i) ↔
            ∃ q ∈ rs, q.kind = .oneToOne ∧ b.backingIndex? q = some i := by
          simp [hFirst]
        simp only [Function.comp_apply, if_neg hFirst, hRest]

theorem relations_foldl_inferFrom (b : Body) (relations : List Relation) :
    (relations.foldl inferFrom b).relations = b.relations := by
  induction relations generalizing b with
  | nil => rfl
  | cons r rs ih => rw [List.foldl_cons, ih, relations_inferFrom]

/-- Relation by relation, exactly the fields are marked that store a one-to-one relation. -/
theorem inferUnique_eq_markLinked (b : Body) : b.inferUnique = b.markLinked := by
  refine Body.ext (List.ext_getElem? fun i => ?_) (relations_foldl_inferFrom b b.relations)
  rw [inferUnique, getElem?_foldl_inferFrom rfl, getElem?_markLinked]
  rfl

end Body

namespace Field

/-- The line of a field that is written as it is declared. -/
def plainLine (f : Field) : String :=
  "  " ++ f.declaration

/-- The modifier of a relation stands where that of a declaration would. -/
theorem line_eq_plainLine (b : Body) (index : Nat) (f : Field) :
    line b.linkedIndices index f =
      (if b.IsLinked index then f.markUnique else f).plainLine := by
  rw [line, Body.contains_linkedIndices]
  by_cases hLinked : b.IsLinked index
  · cases hUnique : f.isUnique <;>
      simp [plainLine, declaration, modifiers, markUnique, hLinked, hUnique, String.append_assoc]
  · simp [plainLine, hLinked]

/-- The line of a field in all its parts. The modifier for uniqueness comes last, once at most. -/
def lineWith (f : Field) (isUnique : Prop) [Decidable isUnique] : String :=
  "  " ++ f.name ++ " " ++ f.type.token ++
    (if f.isPrimaryKey then " @id" else "") ++
    (match f.generator with
      | some g => " @default(" ++ g.expression ++ ")"
      | none => "") ++
    (if isUnique then " @unique" else "")

theorem plainLine_eq_lineWith (f : Field) : f.plainLine = f.lineWith f.isUnique := by
  cases hGenerator : f.generator <;>
    simp [plainLine, declaration, modifiers, lineWith, uniqueModifier, hGenerator,
      String.append_assoc]

end Field

namespace Body

/-- The lines of the fields as they are declared. -/
def plainLines (b : Body) : List String :=
  b.fields.map (·.plainLine)

theorem fieldLines_eq_plainLines (b : Body) : b.fieldLines = b.markLinked.plainLines := by
  apply List.ext_getElem?
  intro i
  rw [fieldLines, plainLines, List.getElem?_mapIdx, List.getElem?_map, getElem?_markLinked,
    Option.map_map]
  congr 1
  funext f
  exact Field.line_eq_plainLine b i f

end Body

namespace Model

/-- The model with the fields marked that store its one-to-one relations. -/
def markLinked (m : Model) : Model :=
  { m with toBody := m.toBody.markLinked }

/-- The model after the inference that changes it. -/
def inferUnique (m : Model) : Model :=
  { m with toBody := m.toBody.inferUnique }

theorem relationLine?_markLinked (m : Model) :
    m.markLinked.relationLine? = m.relationLine? :=
  funext (relationLine?_congr rfl (Body.fieldNames_markLinked m.toBody))

theorem diagnostics_markLinked (m : Model) : m.markLinked.diagnostics = m.diagnostics := by
  have hOf : m.markLinked.diagnosticsOf = m.diagnosticsOf :=
    funext (diagnosticsOf_congr rfl (Body.fieldNames_markLinked m.toBody))
  rw [diagnostics, hOf]
  rfl

end Model

namespace Schema

/-- The schema with all fields marked that store one-to-one relations of their models. -/
def markLinked (s : Schema) : Schema :=
  ⟨s.models.map (·.markLinked)⟩

/-- The schema after the inference that changes it, model by model. -/
def inferUnique (s : Schema) : Schema :=
  ⟨s.models.map (·.inferUnique)⟩

/-- The document with given lines for the fields of each model. -/
def emit (fieldLines : Body → List String) (s : Schema) : Document where
  text := Text.trim (Document.paragraph Document.datasource ++
    String.join (s.models.map fun m => Document.paragraph ("model " ++ m.name ++ " \x7b\n" ++
      String.join
        ((fieldLines m.toBody ++ m.relations.filterMap m.relationLine?).map (· ++ "\n")) ++
      "\x7d")))
  diagnostics := s.diagnostics

/-- The document without any inference: every field is written as it is declared. -/
def plainDocument (s : Schema) : Document :=
  s.emit Body.plainLines

theorem document_eq_emit (s : Schema) : s.document = s.emit Body.fieldLines := rfl

theorem diagnostics_markLinked (s : Schema) : s.markLinked.diagnostics = s.diagnostics := by
  simp only [diagnostics, markLinked, List.flatMap_map, Model.diagnostics_markLinked]

theorem document_eq_plainDocument (s : Schema) : s.document = s.markLinked.plainDocument := by
  have hLines (m : Model) : m.markLinked.relations.filterMap m.markLinked.relationLine? =
      m.relations.filterMap m.relationLine? := by
    rw [Model.relationLine?_markLinked]
    rfl
  rw [document_eq_emit, plainDocument, emit, emit, diagnostics_markLinked]
  simp only [markLinked, List.map_map, Function.comp_def, hLines, Body.fieldLines_eq_plainLines]
  rfl

theorem markLinked_markLinked (s : Schema) : s.markLinked.markLinked = s.markLinked := by
  simp [markLinked, Model.markLinked, Body.markLinked_markLinked, Function.comp_def]

theorem inferUnique_eq_markLinked (s : Schema) : s.inferUnique = s.markLinked := by
  simp only [inferUnique, markLinked, Model.inferUnique, Model.markLinked,
    Body.inferUnique_eq_markLinked]

end Schema

/-- A field has its line at its own place among the lines of the fields. -/
theorem Body.getElem?_fieldLines (b : Body) (i : Nat) :
    b.fieldLines[i]? = b.fields[i]?.map fun f => f.lineWith (f.isUnique ∨ b.IsLinked i) := by
  rw [fieldLines_eq_plainLines, plainLines, List.getElem?_map, getElem?_markLinked, Option.map_map]
  congr 1
  funext f
  rw [Function.comp_apply, Field.plainLine_eq_lineWith]
  by_cases hLinked : b.IsLinked i
  · have hUnique : f.isUnique ∨ b.IsLinked i := .inr hLinked
    rw [if_pos hLinked, Field.lineWith, Field.lineWith, if_pos hUnique]
    rfl
  · rw [if_neg hLinked]
    simp only [hLinked, or_false]

/-- A field of a model has its line at its own place among the lines of the block. -/
theorem Model.getElem?_lines (m : Model) {i : Nat} {f : Field} (h : m.fields[i]? = some f) :
    m.lines[i]? = some (f.lineWith (f.isUnique ∨ m.IsLinked i)) := by
  have hLine := m.getElem?_fieldLines i
  rw [h, Option.map_some] at hLine
  have hi : i < m.fieldLines.length := (List.getElem?_eq_some_iff.mp hLine).1
  rw [lines, List.getElem?_append_left hi, hLine]

/-- The document of a schema is the plain one of the schema in which the fields that store
one-to-one relations are marked. Marking is what the inference that changes the schema comes to, it
does nothing the second time, and it does not show in the document. The line of a field ends in the
modifier if the field is declared unique or stores a one-to-one relation, and has it once. -/
theorem Schema.document_eq_plainDocument_markLinked (s : Schema) :
    s.document = s.markLinked.plainDocument ∧
      s.inferUnique = s.markLinked ∧
      s.markLinked.markLinked = s.markLinked ∧
      s.markLinked.document = s.document ∧
      ∀ m ∈ s.models, ∀ (i : Nat) (f : Field), m.fields[i]? = some f →
        m.lines[i]? = some (f.lineWith (f.isUnique ∨ m.IsLinked i)) := by
  refine ⟨s.document_eq_plainDocument, s.inferUnique_eq_markLinked, s.markLinked_markLinked, ?_,
    fun m _ i f h => m.getElem?_lines h⟩
  rw [document_eq_plainDocument, markLinked_markLinked, ← document_eq_plainDocument]

/-- Two one-to-one relations share a field that is declared unique as well; its line has the
modifier once. -/
theorem Schema.document_of_shared_field :
    let m : Model := {
      name := "User"
      fields := [{ name := "x", type := .scalar .date },
        { name := "profileId", type := .scalar .int, isPrimaryKey := true, isUnique := true,
          generator := some .clientId }]
      relations := [{ name := "profile", kind := .oneToOne, target := "Profile" },
        { name := "other", kind := .oneToOne, target := "Profile",
          backing := some "profileId" }] }
    (⟨[m]⟩ : Schema).document = (⟨[m]⟩ : Schema).markLinked.plainDocument ∧
      m.lines[1]? = some "  profileId Int @id @default(cuid()) @unique" := by
  intro m
  have h := document_eq_plainDocument_markLinked ⟨[m]⟩
  refine ⟨h.1, (h.2.2.2.2 m (by simp) 1 _ rfl).trans ?_⟩
  decide

end Datamodel
