import Datamodel.Proofs.Document.Closure
import Datamodel.Proofs.Document.Pinning

/-! A document is written in two passes. The first gives every field of a model a flag and, relation
by relation, sets the flags of the fields in which one-to-one relations are stored. The second
writes the fields with their flags, and for each relation it looks for the field once more. The two
searches come to the same field. So where the line of a one-to-one relation names a field, this
field is written as unique, and no other field is written so unless it is declared so. -/
namespace Datamodel

namespace Body

/-- Sets the flag of the field that stores a relation, if the relation is one-to-one and is stored.
There is nothing to set behind the last flag. -/
def flag? (b : Body) (flags : List Bool) (r : Relation) : Option (List Bool) :=
  match b.linkedIndex? r with
  | some index => if index < flags.length then some (flags.set index true) else none
  | none => some flags

/-- The first pass over a model: a flag for each field, and the relations one after the other. -/
def flags? (b : Body) : Option (List Bool) :=
  b.relations.foldlM b.flag? (List.replicate b.fields.length false)

/-- What the flags say after some of the relations. -/
structure Flagged (b : Body) (seen : List Relation) (flags : List Bool) : Prop where
  length : flags.length = b.fields.length
  isSet : ∀ i : Nat, flags[i]? = some true ↔
    ∃ r ∈ seen, r.kind = .oneToOne ∧ b.backingIndex? r = some i

theorem linkedIndex?_eq_some_iff {b : Body} {r : Relation} {i : Nat} :
    b.linkedIndex? r = some i ↔ r.kind = .oneToOne ∧ b.backingIndex? r = some i := by
  simp [linkedIndex?]

/-- A field that was found is there, so its flag can be set. -/
theorem Flagged.flag? {b : Body} {seen : List Relation} {flags : List Bool}
    (h : b.Flagged seen flags) (r : Relation) :
    ∃ next, b.flag? flags r = some next ∧ b.Flagged (seen ++ [r]) next := by
  unfold Body.flag?
  cases hLinked : b.linkedIndex? r with
  | none =>
      have hNot (i : Nat) : ¬ (r.kind = .oneToOne ∧ b.backingIndex? r = some i) := by
        rw [← linkedIndex?_eq_some_iff, hLinked]
        exact nofun
      refine ⟨flags, rfl, h.length, fun i => ?_⟩
      simp [h.isSet, hNot, or_and_right, exists_or]
  | some index =>
      -- There are as many flags as fields, so the place that is found is not behind the last flag.
      obtain ⟨hKind, hIndex⟩ := linkedIndex?_eq_some_iff.mp hLinked
      have hLt : index < flags.length := h.length ▸ lt_length_of_backingIndex? hIndex
      refine ⟨flags.set index true, if_pos hLt, by rw [List.length_set, h.length], fun i => ?_⟩
      have hHere : (∃ q ∈ seen ++ [r], q.kind = .oneToOne ∧ b.backingIndex? q = some i) ↔
          (∃ q ∈ seen, q.kind = .oneToOne ∧ b.backingIndex? q = some i) ∨ index = i := by
        simp [or_and_right, exists_or, hKind, hIndex]
      rw [hHere, ← h.isSet, List.getElem?_set]
      by_cases hi : index = i
      · simp [hi, hi ▸ hLt]
      · simp [hi]

theorem Flagged.foldlM {b : Body} {seen : List Relation} {flags : List Bool}
    (h : b.Flagged seen flags) (relations : List Relation) :
    ∃ last, relations.foldlM b.flag? flags = some last ∧ b.Flagged (seen ++ relations) last := by
  induction relations generalizing seen flags with
  | nil => exact ⟨flags, rfl, by simpa using h⟩
  | cons r rs ih =>
      obtain ⟨next, hNext, hFlagged⟩ := h.flag? r
      obtain ⟨last, hLast, hAll⟩ := ih hFlagged
      refine ⟨last, ?_, by simpa using hAll⟩
      rw [List.foldlM_cons, hNext]
      exact hLast

/-- The first pass comes to its end, and then the fields are flagged that store a one-to-one
relation. -/
theorem exists_flags (b : Body) : ∃ flags, b.flags? = some flags ∧ b.Flagged b.relations flags := by
  have hStart : b.Flagged [] (List.replicate b.fields.length false) :=
    ⟨List.length_replicate, fun i => by simp [List.getElem?_replicate]⟩
  exact hStart.foldlM b.relations

theorem Flagged.getElem? {b : Body} {flags : List Bool} (h : b.Flagged b.relations flags) {i : Nat}
    (hi : i < b.fields.length) : flags[i]? = some (decide (b.IsLinked i)) := by
  have hLt : i < flags.length := h.length ▸ hi
  have hSet : flags[i] = true ↔ b.IsLinked i := by
    rw [IsLinked, ← h.isSet, List.getElem?_eq_getElem hLt, Option.some_inj]
  rw [List.getElem?_eq_getElem hLt, Option.some_inj, ← Bool.coe_iff_coe, hSet, decide_eq_true_eq]

end Body

namespace Field

/-- The line of a field as the second pass writes it: the declaration, and the modifier if the field
has to be unique and does not say so itself. -/
def flaggedLine (f : Field) (flag : Bool) : String :=
  "  " ++ f.declaration ++ (if (f.isUnique || flag) && !f.isUnique then uniqueModifier else "")

/-- The line of a field up to its default: name, type, key and default. -/
def bareLine (f : Field) : String :=
  f.lineWith False

theorem lineWith_eq_bareLine_append (f : Field) (isUnique : Prop) [Decidable isUnique] :
    f.lineWith isUnique = f.bareLine ++ if isUnique then uniqueModifier else "" := by
  by_cases h : isUnique <;> simp [bareLine, lineWith, uniqueModifier, h]

theorem flaggedLine_eq_lineWith (f : Field) (flag : Bool) :
    f.flaggedLine flag = f.lineWith (f.isUnique ∨ flag) := by
  have hPlain : "  " ++ f.declaration = f.lineWith f.isUnique := f.plainLine_eq_lineWith
  rw [flaggedLine, hPlain, lineWith_eq_bareLine_append, lineWith_eq_bareLine_append]
  cases f.isUnique <;> cases flag <;> simp

end Field

/-- A model as the second pass has it, with the flags of the first one. -/
structure View where
  model : Model
  flags : List Bool
  deriving DecidableEq, Repr

namespace View

/-- The lines of the fields, each with its flag, and those of the relations. -/
def lines (v : View) : List String :=
  List.zipWith Field.flaggedLine v.model.fields v.flags ++
    v.model.relations.filterMap v.model.relationLine?

def block (v : View) : String :=
  "model " ++ v.model.name ++ " \x7b\n" ++ String.join (v.lines.map (· ++ "\n")) ++ "\x7d"

end View

/-- The first pass over a schema, if it comes to its end. -/
def Schema.views? (s : Schema) : Option (List View) :=
  s.models.mapM fun m => m.flags?.map (View.mk m)

/-- The second pass. -/
def Document.ofViews (views : List View) : Document where
  text := Text.trim (paragraph datasource ++ String.join (views.map fun v => paragraph v.block))
  diagnostics := views.flatMap (·.model.diagnostics)

namespace View

/-- What the two passes over a model have to do with each other. There is a flag for each field. A
line that names a field is that of a relation which is stored there, and the field has its line in
the same block. A one-to-one relation has such a line if and only if the field that stores it is
flagged, and then the line of this field ends in the modifier. A field has the modifier exactly if
it is declared unique or stores a one-to-one relation of the model. Of the fields that share a name
one is flagged at most. -/
structure IsConsistent (v : View) : Prop where
  length : v.flags.length = v.model.fields.length
  references : ∀ r ∈ v.model.relations, ∀ field, v.model.RefersTo r field →
    ∃ (i : Nat) (f : Field), v.model.backingIndex? r = some i ∧ v.model.fields[i]? = some f ∧
      f.name = field ∧ v.lines[i]? = some (f.lineWith (f.isUnique ∨ v.model.IsLinked i))
  owning : ∀ r ∈ v.model.relations, r.kind = .oneToOne →
    ((∃ field, v.model.RefersTo r field) ↔
      ∃ i, v.model.backingIndex? r = some i ∧ v.flags[i]? = some true)
  owned : ∀ r ∈ v.model.relations, r.kind = .oneToOne → ∀ field, v.model.RefersTo r field →
    ∃ (i : Nat) (f : Field), v.model.backingIndex? r = some i ∧ v.model.fields[i]? = some f ∧
      f.name = field ∧ v.lines[i]? = some (f.bareLine ++ " @unique")
  unique : ∀ (i : Nat) (f : Field), v.model.fields[i]? = some f →
    (v.lines[i]? = some (f.bareLine ++ " @unique") ↔
      f.isUnique ∨ ∃ r ∈ v.model.relations, r.kind = .oneToOne ∧ v.model.backingIndex? r = some i)
  bare : ∀ (i : Nat) (f : Field), v.model.fields[i]? = some f →
    (v.lines[i]? = some f.bareLine ↔ ¬ v.lines[i]? = some (f.bareLine ++ " @unique"))
  names : ∀ (i j : Nat) (f g : Field), v.model.fields[i]? = some f → v.model.fields[j]? = some g →
    f.name = g.name → v.flags[i]? = some true → v.flags[j]? = some true → i = j

variable {v : View}

/-- The second pass writes the fields as the document has them. -/
theorem zipWith_flaggedLine (h : v.model.Flagged v.model.relations v.flags) :
    List.zipWith Field.flaggedLine v.model.fields v.flags = v.model.fieldLines := by
  apply List.ext_getElem?
  intro i
  rw [List.getElem?_zipWith, v.model.getElem?_fieldLines]
  cases hField : v.model.fields[i]? with
  | none => simp
  | some f =>
      obtain ⟨hi, -⟩ := List.getElem?_eq_some_iff.mp hField
      simp only [h.getElem? hi, Option.map_some, Field.flaggedLine_eq_lineWith, decide_eq_true_eq]

theorem lines_eq (h : v.model.Flagged v.model.relations v.flags) : v.lines = v.model.lines := by
  rw [lines, zipWith_flaggedLine h, Model.lines]

theorem block_eq (h : v.model.Flagged v.model.relations v.flags) : v.block = v.model.block := by
  rw [block, lines_eq h, Model.block]

/-- Two fields of one name are not both found by a search: each of them is the first of its name. -/
theorem eq_of_flagged (h : v.model.Flagged v.model.relations v.flags) {i j : Nat} {f g : Field}
    (hi : v.model.fields[i]? = some f) (hj : v.model.fields[j]? = some g) (hName : f.name = g.name)
    (hFirst : v.flags[i]? = some true) (hSecond : v.flags[j]? = some true) : i = j := by
  obtain ⟨r, -, -, hIndex⟩ := (h.isSet i).mp hFirst
  obtain ⟨q, -, -, hOther⟩ := (h.isSet j).mp hSecond
  have hByName := Body.findIdx?_named_of_backingIndex? hIndex hi
  rw [hName, Body.findIdx?_named_of_backingIndex? hOther hj] at hByName
  exact (Option.some.inj hByName).symm

theorem isConsistent (h : v.model.Flagged v.model.relations v.flags) : v.IsConsistent := by
  have hLine {i : Nat} {f : Field} (hField : v.model.fields[i]? = some f) :
      v.lines[i]? = some (f.lineWith (f.isUnique ∨ v.model.IsLinked i)) := by
    rw [lines_eq h, v.model.getElem?_lines hField]
  have hModifier {i : Nat} {f : Field} (hField : v.model.fields[i]? = some f) :
      v.lines[i]? = some (f.bareLine ++ " @unique") ↔ f.isUnique ∨ v.model.IsLinked i := by
    rw [hLine hField, Field.lineWith_eq_bareLine_append, Option.some_inj, String.append_right_inj]
    split <;> simp_all [Field.uniqueModifier]
  have hFound {r : Relation} {field : String} (hRefers : v.model.RefersTo r field) :
      ∃ (i : Nat) (f : Field), v.model.backingIndex? r = some i ∧ v.model.fields[i]? = some f ∧
        f.name = field := by
    obtain ⟨-, f, hBacking, rfl⟩ := Model.refersTo_iff.mp hRefers
    rw [Body.backing?_eq_bind] at hBacking
    obtain ⟨i, hIndex, hField⟩ := Option.bind_eq_some_iff.mp hBacking
    exact ⟨i, f, hIndex, hField, rfl⟩
  constructor
  case length => exact h.length
  case references =>
    intro r _ field hRefers
    obtain ⟨i, f, hIndex, hField, hName⟩ := hFound hRefers
    exact ⟨i, f, hIndex, hField, hName, hLine hField⟩
  case owning =>
    intro r hr hKind
    constructor
    · rintro ⟨field, hRefers⟩
      obtain ⟨i, f, hIndex, -, -⟩ := hFound hRefers
      exact ⟨i, hIndex, (h.isSet i).mpr ⟨r, hr, hKind, hIndex⟩⟩
    · rintro ⟨i, hIndex, -⟩
      have hStored : v.model.backing? r ≠ none := by
        rw [Ne, v.model.backing?_eq_none_iff, hIndex]
        exact Option.some_ne_none i
      obtain ⟨f, hBacking⟩ := Option.ne_none_iff_exists'.mp hStored
      exact ⟨f.name, Model.refersTo_iff.mpr ⟨.inr hKind, f, hBacking, rfl⟩⟩
  case owned =>
    intro r hr hKind field hRefers
    obtain ⟨i, f, hIndex, hField, hName⟩ := hFound hRefers
    exact ⟨i, f, hIndex, hField, hName, (hModifier hField).mpr (.inr ⟨r, hr, hKind, hIndex⟩)⟩
  case unique => exact fun i f hField => hModifier hField
  case bare =>
    intro i f hField
    rw [hModifier hField, hLine hField, Field.lineWith_eq_bareLine_append, Option.some_inj]
    split <;> simp_all [Field.uniqueModifier]
  case names => exact fun i j f g => eq_of_flagged h

end View

namespace Schema

theorem exists_views (s : Schema) :
    ∃ views, s.views? = some views ∧ views.map (·.model) = s.models ∧
      ∀ v ∈ views, v.model.Flagged v.model.relations v.flags := by
  obtain ⟨models⟩ := s
  unfold views?
  induction models with
  | nil => exact ⟨[], rfl, rfl, by simp⟩
  | cons m ms ih =>
      obtain ⟨flags, hFlags, hFlagged⟩ := m.exists_flags
      obtain ⟨views, hViews, hModels, hAll⟩ := ih
      refine ⟨⟨m, flags⟩ :: views, ?_, by simp [hModels], ?_⟩
      · simp [List.mapM_cons, hFlags, hViews]
      · simpa using ⟨hFlagged, hAll⟩

/-- Both passes come to their end on any schema, and they write its document. In every model the
flags of the first pass and the lines of the second agree on the fields that store one-to-one
relations. -/
theorem passes_agree (s : Schema) :
    ∃ views, s.views? = some views ∧ Document.ofViews views = s.document ∧
      views.map (·.model) = s.models ∧ ∀ v ∈ views, v.IsConsistent := by
  obtain ⟨views, hViews, hModels, hFlagged⟩ := s.exists_views
  have hBlocks : views.map (fun v => Document.paragraph v.block) =
      views.map fun v => Document.paragraph v.model.block :=
    List.map_congr_left fun v hv => by rw [View.block_eq (hFlagged v hv)]
  refine ⟨views, hViews, ?_, hModels, fun v hv => View.isConsistent (hFlagged v hv)⟩
  rw [Document.ofViews, hBlocks, document, text, diagnostics, ← hModels, List.map_map,
    List.flatMap_map]
  rfl

/-- Two fields share a name, and two relations share the first of them: a one-to-one relation that
names it and a many-to-one relation that finds it. Another one-to-one relation asks for a field that
is not there. -/
theorem passes_agree_of_repeated_name :
    let m : Model := {
      name := "User"
      fields := [
        { name := "id", type := .scalar .int },
        { name := "profileId", type := .scalar .int },
        { name := "profileId", type := .scalar .json }]
      relations := [
        { name := "Profile", kind := .manyToOne, target := "Profile" },
        { name := "card", kind := .oneToOne, target := "Profile", backing := some "profileId" },
        { name := "id", kind := .oneToOne, target := "User", backing := some "userId" }] }
    let v : View := ⟨m, [false, true, false]⟩
    (⟨[m]⟩ : Schema).views? = some [v] ∧ v.IsConsistent ∧
      v.lines[1]? = some "  profileId Int @unique" ∧ v.lines[2]? = some "  profileId Json" := by
  intro m v
  have hViews : (⟨[m]⟩ : Schema).views? = some [v] := by decide
  obtain ⟨views, hPasses, -, -, hConsistent⟩ := passes_agree ⟨[m]⟩
  obtain rfl : [v] = views := Option.some.inj (hViews.symm.trans hPasses)
  have hV : v.IsConsistent := hConsistent v List.mem_cons_self
  refine ⟨hViews, hV, (hV.unique 1 _ rfl).mpr ?_, (hV.bare 2 _ rfl).mpr ?_⟩
  · decide
  · rw [hV.unique 2 _ rfl]
    decide

end Schema

end Datamodel
