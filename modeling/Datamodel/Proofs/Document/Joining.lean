import Datamodel.Proofs.Document.Layout
import Datamodel.Proofs.Relation.Canonical

/-! The names under which a document joins the two sides of a relation. The line of a many-to-many
relation gives one and so does that of a one-to-one relation, whether the relation is stored on this
side or not. As the names of the models are put in order first, the lines of the two sides give the
same name, wherever in the document they stand. -/
namespace Datamodel

open Text

/-- The text has the line, between two line breaks. -/
def Document.HasLine (text line : String) : Prop :=
  ∃ before after : String, text = before ++ "\n" ++ line ++ "\n" ++ after

theorem Document.hasLine_intercalate {before after : List String} (hBefore : before ≠ [])
    (hAfter : after ≠ []) (line : String) :
    HasLine ("\n".intercalate (before ++ line :: after)) line := by
  refine ⟨"\n".intercalate before, "\n".intercalate after, ?_⟩
  rw [String.intercalate_append_of_ne_nil hBefore (List.cons_ne_nil _ _),
    String.intercalate_cons_of_ne_nil hAfter]
  simp only [String.append_assoc]

/-- A line between the braces of a model is one of the document. -/
theorem Schema.hasLine_of_mem_lines {s : Schema} {m : Model} (hm : m ∈ s.models) {line : String}
    (h : line ∈ m.lines) : Document.HasLine s.text line := by
  obtain ⟨earlier, later, hModels⟩ := List.append_of_mem hm
  obtain ⟨above, below, hLines⟩ := List.append_of_mem h
  have hText : s.textLines =
      (Document.datasourceLines ++ earlier.flatMap (fun m => "" :: m.blockLines) ++
        "" :: m.header :: above) ++
      line :: (below ++ "\x7d" :: later.flatMap fun m => "" :: m.blockLines) := by
    simp [textLines, hModels, Model.blockLines, hLines]
  rw [text_eq_intercalate, hText]
  exact Document.hasLine_intercalate (by simp) (by simp) line

namespace Model

/-- The lines that give a relation a name: that of a many-to-many relation, that of a one-to-one
relation with the field in which it is stored, and that of the optional side. -/
inductive GivesName (m : Model) (r : Relation) (name : String) : String → Prop
  | manyToMany :
      GivesName m r name ("  " ++ r.name ++ " " ++ r.target ++ "[] @relation(\"" ++ name ++ "\")")
  | owning (f : Field) (h : m.backing? r = some f) :
      GivesName m r name ("  " ++ r.name ++ " " ++ r.target ++ " @relation(name: \"" ++ name ++
        "\", fields: [" ++ f.name ++ "], references: [id])")
  | optional :
      GivesName m r name ("  " ++ r.name ++ " " ++ r.target ++ "? @relation(name: \"" ++ name ++
        "\")")

/-- The name of a relation that has two sides alike. -/
def sharedName (m : Model) (r : Relation) : String :=
  if r.kind = .manyToMany then Relation.manyToManyName m.name r.target
  else Relation.oneToOneName m.name r.target

theorem exists_givesName {m : Model} {r : Relation}
    (h : r.kind = .manyToMany ∨ r.kind = .oneToOne) :
    ∃ line, m.relationLine? r = some line ∧ m.GivesName r (m.sharedName r) line := by
  rcases h with hKind | hKind
  · simp only [relationLine?, sharedName, hKind]
    exact ⟨_, rfl, .manyToMany⟩
  · cases hBacking : m.backing? r with
    | none =>
        simp only [relationLine?, sharedName, hKind, hBacking]
        exact ⟨_, rfl, .optional⟩
    | some f =>
        simp only [relationLine?, sharedName, hKind, hBacking]
        exact ⟨_, rfl, .owning f hBacking⟩

/-- A line gives one name to a relation. The shapes are told from each other by what stands right
behind the target. -/
theorem GivesName.eq_of_eq {m : Model} {r : Relation} {name other line another : String}
    (h : m.GivesName r name line) (hOther : m.GivesName r other another) (hSame : line = another) :
    other = name := by
  rw [← String.toList_inj] at hSame ⊢
  cases h with
  | manyToMany =>
      cases hOther with
      | manyToMany => simpa using hSame.symm
      | owning f hf => simp at hSame
      | optional => simp at hSame
  | owning f hf =>
      cases hOther with
      | manyToMany => simp at hSame
      | owning g hg =>
          obtain rfl : f = g := Option.some.inj (hf.symm.trans hg)
          simpa using hSame.symm
      | optional => simp at hSame
  | optional =>
      cases hOther with
      | manyToMany => simp at hSame
      | owning g hg => simp at hSame
      | optional => simpa using hSame.symm

/-- The name is the same from either side. -/
theorem sharedName_comm {m n : Model} {r q : Relation} (hr : r.target = n.name)
    (hq : q.target = m.name) (hKind : r.kind = q.kind) : m.sharedName r = n.sharedName q := by
  unfold sharedName
  rw [hr, hq, hKind, Relation.manyToManyName_comm, Relation.oneToOneName_comm]

end Model

namespace Schema

/-- The document has a line for a relation of the model, and the line gives the relation the
name. -/
def Joins (s : Schema) (m : Model) (r : Relation) (name : String) : Prop :=
  ∃ line, m.relationLine? r = some line ∧ Document.HasLine s.text line ∧ m.GivesName r name line

theorem joins_iff {s : Schema} {m : Model} (hm : m ∈ s.models) {r : Relation}
    (hr : r ∈ m.relations) (hKind : r.kind = .manyToMany ∨ r.kind = .oneToOne) {name : String} :
    s.Joins m r name ↔ name = m.sharedName r := by
  obtain ⟨line, hLine, hGives⟩ := m.exists_givesName hKind
  constructor
  · rintro ⟨another, hAnother, -, hOther⟩
    exact hGives.eq_of_eq hOther (Option.some.inj (hLine.symm.trans hAnother))
  · rintro rfl
    have hMem : line ∈ m.lines :=
      List.mem_append_right _ (List.mem_filterMap.mpr ⟨r, hr, hLine⟩)
    exact ⟨line, hLine, hasLine_of_mem_lines hm hMem, hGives⟩

/-- The name of a relation of two models is the same from either side, and starts with the model
whose code units come first. So if two models have relations to each other that are both
many-to-many or both one-to-one, each of them has a line in the document that gives it one name, and
this is the same name, wherever the two stand and whichever of them is stored in a field. -/
theorem sides_share_name :
    (∀ a b : String,
      Relation.manyToManyName a b = Relation.manyToManyName b a ∧
        Relation.oneToOneName a b = Relation.oneToOneName b a ∧
        ∃ first second, (first = a ∧ second = b ∨ first = b ∧ second = a) ∧
          (compare (units first) (units second)).isLE ∧
          Relation.manyToManyName a b = first ++ "To" ++ second ∧
          Relation.oneToOneName a b = "RelationBetween" ++ first ++ "And" ++ second) ∧
      ∀ (s : Schema) (m n : Model) (r q : Relation), m ∈ s.models → n ∈ s.models →
        r ∈ m.relations → q ∈ n.relations → r.target = n.name → q.target = m.name →
        r.kind = q.kind → r.kind = .manyToMany ∨ r.kind = .oneToOne →
          ∃ name, ∀ other,
            (s.Joins m r other ↔ other = name) ∧ (s.Joins n q other ↔ other = name) := by
  refine ⟨fun a b => ?_, fun s m n r q hm hn hr hq hTo hFrom hSame hKind => ?_⟩
  · obtain ⟨hBoth, hOrder⟩ := unitSorted_cases a b
    exact ⟨Relation.manyToManyName_comm a b, Relation.oneToOneName_comm a b,
      _, _, hBoth, hOrder, rfl, rfl⟩
  · refine ⟨m.sharedName r, fun other => ⟨joins_iff hm hr hKind, ?_⟩⟩
    rw [Model.sharedName_comm hTo hFrom hSame]
    exact joins_iff hn hq (hSame ▸ hKind)

/-- Two models that bytes would put the other way round. The relation is stored in a field on the
one side, and the other side is declared first. -/
theorem sides_share_name_of_wide_letter :
    let q : Relation := { name := "letter", kind := .oneToOne, target := "Ａ" }
    let r : Relation := { name := "face", kind := .oneToOne, target := "😀" }
    let n : Model := { name := "😀", relations := [q] }
    let m : Model := {
      name := "Ａ"
      fields := [{ name := "faceId", type := .scalar .int }]
      relations := [r] }
    let s : Schema := ⟨[n, m]⟩
    (m ∈ s.models ∧ n ∈ s.models ∧ r ∈ m.relations ∧ q ∈ n.relations) ∧
      m.relationLine? r =
        some ("  face 😀 @relation(name: \"RelationBetween😀AndＡ\", fields: [faceId], " ++
          "references: [id])") ∧
      n.relationLine? q = some "  letter Ａ? @relation(name: \"RelationBetween😀AndＡ\")" ∧
      ∃ name, ∀ other,
        (s.Joins m r other ↔ other = name) ∧ (s.Joins n q other ↔ other = name) := by
  intro q r n m s
  have hm : m ∈ s.models := by simp [s]
  have hn : n ∈ s.models := by simp [s]
  have hr : r ∈ m.relations := by simp [m]
  have hq : q ∈ n.relations := by simp [n]
  refine ⟨⟨hm, hn, hr, hq⟩, ?_, ?_,
    sides_share_name.2 s m n r q hm hn hr hq rfl rfl rfl (.inr rfl)⟩
  · decide
  · decide

end Schema

end Datamodel
