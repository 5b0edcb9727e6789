import Datamodel.Proofs.Document.Layout
import Datamodel.Proofs.Document.Uniqueness

/-! Documents that are read back. A reader finds the blocks by their headers and closing braces. It
is not misled by names that look like either, because every line between the braces is indented, and
a header and a brace are not. If no name has a line break in it, the lines of each model come back
under its name, and a field without spaces in it comes back from its line. -/
namespace Datamodel

namespace Text

/-- The pieces of a text between the places where a character stands. -/
def split (c : Char) (s : String) : List String :=
  (s.toList.splitOn c).map String.ofList

/-- The text does not have the character in it. -/
def Lacks (s : String) (c : Char) : Prop :=
  c ∉ s.toList

instance (s : String) (c : Char) : Decidable (Lacks s c) :=
  inferInstanceAs (Decidable (c ∉ s.toList))

@[simp] theorem lacks_append {s t : String} {c : Char} :
    Lacks (s ++ t) c ↔ Lacks s c ∧ Lacks t c := by
  simp [Lacks, String.toList_append]

/-- Pieces without the character between them are found again. -/
theorem split_intercalate {c : Char} {separator : String} (hSeparator : separator.toList = [c])
    {pieces : List String} (hNe : pieces ≠ []) (h : ∀ piece ∈ pieces, Lacks piece c) :
    split c (separator.intercalate pieces) = pieces := by
  have hPieces : ∀ cs ∈ pieces.map String.toList, c ∉ cs := List.forall_mem_map.mpr h
  rw [split, String.toList_intercalate, hSeparator,
    List.splitOn_intercalate c hPieces (by simpa using hNe), List.map_map]
  simp [Function.comp_def]

theorem lacks_intercalate {separator : String} {c : Char} (hSeparator : Lacks separator c)
    {pieces : List String} (h : ∀ piece ∈ pieces, Lacks piece c) :
    Lacks (separator.intercalate pieces) c := by
  induction pieces with
  | nil => simp [Lacks]
  | cons piece rest ih =>
      rw [List.forall_mem_cons] at h
      cases rest with
      | nil => simpa using h.1
      | cons next rest =>
          rw [String.intercalate_cons_cons, lacks_append, lacks_append]
          exact ⟨⟨h.1, hSeparator⟩, ih h.2⟩

theorem lacks_unitSorted {a b : String} {c : Char} (ha : Lacks a c) (hb : Lacks b c) :
    Lacks (unitSorted a b).1 c ∧ Lacks (unitSorted a b).2 c := by
  unfold unitSorted
  split
  · exact ⟨ha, hb⟩
  · exact ⟨hb, ha⟩

end Text

open Text (Lacks)

namespace Relation

theorem lacks_manyToManyName {a b : String} (ha : Lacks a '\n') (hb : Lacks b '\n') :
    Lacks (manyToManyName a b) '\n' := by
  obtain ⟨hFirst, hSecond⟩ := Text.lacks_unitSorted ha hb
  unfold manyToManyName
  simpa [Lacks] using And.intro hFirst hSecond

theorem lacks_oneToOneName {a b : String} (ha : Lacks a '\n') (hb : Lacks b '\n') :
    Lacks (oneToOneName a b) '\n' := by
  obtain ⟨hFirst, hSecond⟩ := Text.lacks_unitSorted ha hb
  unfold oneToOneName
  simpa [Lacks] using And.intro hFirst hSecond

end Relation

namespace Document

/-- A block as it stands in a document: the name in its header and the lines between its braces. -/
structure Block where
  name : String
  lines : List String
  deriving DecidableEq, Repr

/-- The name in the line that opens a block. -/
def headerName? (header : String) : Option String := do
  let behind ← header.toList.dropPrefix? "model ".toList
  let name ← behind.dropSuffix? " \x7b".toList
  return String.ofList name

mutual

/-- Reads blocks up to the end, each behind an empty line. -/
def readBlocks : List String → Option (List Block)
  | [] => some []
  | [_] => none
  | blank :: header :: rest =>
    if blank = "" then do
      let name ← headerName? header
      let (lines, blocks) ← readLines rest
      return ⟨name, lines⟩ :: blocks
    else none

/-- Reads the lines of a block up to its closing brace, and the blocks behind it. -/
def readLines : List String → Option (List String × List Block)
  | [] => none
  | line :: rest =>
    if line = "\x7d" then do
      let blocks ← readBlocks rest
      return ([], blocks)
    else do
      let (lines, blocks) ← readLines rest
      return (line :: lines, blocks)

end

/-- Reads the blocks of a document behind the datasource block. -/
def read? (text : String) : Option (List Block) := do
  let rest ← (Text.split '\n' text).dropPrefix? datasourceLines
  readBlocks rest

/-- Lines other than the closing brace belong to the block. -/
theorem readLines_append {lines : List String} (h : ∀ line ∈ lines, line ≠ "\x7d")
    (rest : List String) :
    readLines (lines ++ "\x7d" :: rest) = (readBlocks rest).map fun blocks => (lines, blocks) := by
  induction lines with
  | nil =>
      rw [List.nil_append, readLines, if_pos rfl]
      cases readBlocks rest <;> rfl
  | cons line lines ih =>
      rw [List.forall_mem_cons] at h
      rw [List.cons_append, readLines, if_neg h.1, ih h.2]
      cases readBlocks rest <;> rfl

end Document

namespace Model

/-- What the document says about the model. -/
def toBlock (m : Model) : Document.Block :=
  ⟨m.name, m.lines⟩

@[simp] theorem headerName?_header (m : Model) : Document.headerName? m.header = some m.name := by
  have hBehind : m.header.toList.dropPrefix? "model ".toList =
      some (m.name.toList ++ " \x7b".toList) := by
    rw [header, String.append_assoc, String.toList_append, String.toList_append]
    exact List.dropPrefix?_append_of_beq _ (beq_self_eq_true _)
  have hName : (m.name.toList ++ " \x7b".toList).dropSuffix? " \x7b".toList = some m.name.toList :=
    List.dropSuffix?_eq_some_iff.mpr ⟨_, rfl, beq_self_eq_true _⟩
  simp only [Document.headerName?, hBehind, hName, Option.bind_eq_bind, Option.bind_some,
    String.ofList_toList]
  rfl

end Model

/-- Every block is read under its own name, if no line in it is a closing brace. -/
theorem Document.readBlocks_blockLines {models : List Model}
    (h : ∀ m ∈ models, ∀ line ∈ m.lines, line ≠ "\x7d") :
    readBlocks (models.flatMap fun m => "" :: m.blockLines) = some (models.map (·.toBlock)) := by
  induction models with
  | nil => rfl
  | cons m ms ih =>
      rw [List.forall_mem_cons] at h
      have hLines : (m.lines ++ ["\x7d"]) ++ ms.flatMap (fun m => "" :: m.blockLines) =
          m.lines ++ "\x7d" :: ms.flatMap fun m => "" :: m.blockLines := by simp
      rw [List.flatMap_cons, Model.blockLines, List.cons_append, List.cons_append, readBlocks,
        if_pos rfl, hLines, readLines_append h.1, ih h.2, m.headerName?_header]
      rfl

/-- No name in the model breaks a line. -/
structure Model.IsLinewise (m : Model) : Prop where
  name : Lacks m.name '\n'
  fields : ∀ f ∈ m.fields, Lacks f.name '\n' ∧ Lacks f.type.label '\n'
  relations : ∀ r ∈ m.relations, Lacks r.name '\n' ∧ Lacks r.target '\n'

/-- No name in the schema breaks a line. -/
def Schema.IsLinewise (s : Schema) : Prop :=
  ∀ m ∈ s.models, m.IsLinewise

/-- A character that no scalar type is written with is in a token only if it is in the label. -/
theorem FieldType.lacks_token {type : FieldType} {c : Char} (hChar : c = '\n' ∨ c = ' ')
    (h : Lacks type.label c) : Lacks type.token c := by
  cases type with
  | scalar s => rcases hChar with rfl | rfl <;> cases s <;> decide
  | unsupported label => exact h

namespace Field

/-- The modifiers of a field, without the spaces before them. -/
def modifierWords (f : Field) (isUnique : Prop) [Decidable isUnique] : List String :=
  (if f.isPrimaryKey then ["@id"] else []) ++
    (f.generator.map fun g => "@default(" ++ g.expression ++ ")").toList ++
    (if isUnique then ["@unique"] else [])

theorem mem_modifierWords_iff {f : Field} {isUnique : Prop} [Decidable isUnique] {word : String} :
    word ∈ f.modifierWords isUnique ↔
      f.isPrimaryKey ∧ word = "@id" ∨
        (∃ g, f.generator = some g ∧ "@default(" ++ g.expression ++ ")" = word) ∨
        isUnique ∧ word = "@unique" := by
  simp [modifierWords]

theorem key_mem_modifierWords_iff {f : Field} {isUnique : Prop} [Decidable isUnique] :
    "@id" ∈ f.modifierWords isUnique ↔ f.isPrimaryKey := by
  have hDefault (g : Generator) : "@default(" ++ g.expression ++ ")" ≠ "@id" := by
    cases g <;> decide
  simp [mem_modifierWords_iff, hDefault]

theorem unique_mem_modifierWords_iff {f : Field} {isUnique : Prop} [Decidable isUnique] :
    "@unique" ∈ f.modifierWords isUnique ↔ isUnique := by
  have hDefault (g : Generator) : "@default(" ++ g.expression ++ ")" ≠ "@unique" := by
    cases g <;> decide
  simp [mem_modifierWords_iff, hDefault]

theorem default_mem_modifierWords_iff {f : Field} {isUnique : Prop} [Decidable isUnique]
    {g : Generator} :
    "@default(" ++ g.expression ++ ")" ∈ f.modifierWords isUnique ↔ f.generator = some g := by
  have hKey : "@default(" ++ g.expression ++ ")" ≠ "@id" := by cases g <;> decide
  have hUnique : "@default(" ++ g.expression ++ ")" ≠ "@unique" := by cases g <;> decide
  have hSame (other : Generator) :
      "@default(" ++ other.expression ++ ")" = "@default(" ++ g.expression ++ ")" ↔ other = g := by
    cases other <;> cases g <;> decide
  simp [mem_modifierWords_iff, hKey, hUnique, hSame]

/-- A line is its words with single spaces between them, two of them empty. -/
theorem lineWith_eq_intercalate (f : Field) (isUnique : Prop) [Decidable isUnique] :
    f.lineWith isUnique =
      " ".intercalate ("" :: "" :: f.name :: f.type.token :: f.modifierWords isUnique) := by
  -- Key, default and uniqueness are there or not, each on its own.
  rw [← String.toList_inj]
  cases hKey : f.isPrimaryKey <;> cases hGenerator : f.generator <;> by_cases hUnique : isUnique <;>
    simp [lineWith, modifierWords, hKey, hGenerator, hUnique, String.toList_append]

/-- No modifier has a space or a line break in it. -/
theorem lacks_of_mem_modifierWords {f : Field} {isUnique : Prop} [Decidable isUnique]
    {word : String} (h : word ∈ f.modifierWords isUnique) {c : Char} (hChar : c = '\n' ∨ c = ' ') :
    Lacks word c := by
  rcases mem_modifierWords_iff.mp h with ⟨-, rfl⟩ | ⟨g, -, rfl⟩ | ⟨-, rfl⟩
  · rcases hChar with rfl | rfl <;> decide
  · rcases hChar with rfl | rfl <;> cases g <;> decide
  · rcases hChar with rfl | rfl <;> decide

/-- The words of a line lack what its name and its label lack. -/
theorem lacks_words {f : Field} {isUnique : Prop} [Decidable isUnique] {c : Char}
    (hChar : c = '\n' ∨ c = ' ') (hName : Lacks f.name c) (hLabel : Lacks f.type.label c) :
    ∀ word ∈ "" :: "" :: f.name :: f.type.token :: f.modifierWords isUnique, Lacks word c := by
  have hToken := FieldType.lacks_token hChar hLabel
  have hEmpty : Lacks "" c := by simp [Lacks]
  simpa [hEmpty, hName, hToken] using fun word hWord => lacks_of_mem_modifierWords hWord hChar

end Field

namespace Model

/-- A relation has a line that names the relation and its target, and what follows them has no line
break in it if no name in the model has. -/
theorem exists_tail_of_relationLine? {m : Model} {r : Relation} {line : String}
    (h : m.relationLine? r = some line) :
    ∃ tail, line = "  " ++ r.name ++ " " ++ r.target ++ tail ∧
      (m.IsLinewise → Lacks r.target '\n' → Lacks tail '\n') := by
  revert h
  unfold relationLine?
  cases r.kind with
  | oneToMany =>
      intro h
      cases h
      exact ⟨"[]", rfl, fun _ _ => by decide⟩
  | manyToMany =>
      intro h
      cases h
      refine ⟨"[] @relation(\"" ++ Relation.manyToManyName m.name r.target ++ "\")", by
        simp only [String.append_assoc], fun hm hTarget => ?_⟩
      have hName := Relation.lacks_manyToManyName hm.name hTarget
      simpa [Lacks] using hName
  | manyToOne =>
      intro h
      obtain ⟨f, hBacking, rfl⟩ := Option.map_eq_some_iff.mp h
      refine ⟨" @relation(fields: [" ++ f.name ++ "], references: [id])", by
        simp only [String.append_assoc], fun hm _ => ?_⟩
      have hField := (hm.fields f (List.mem_of_find?_eq_some hBacking)).1
      simpa [Lacks] using hField
  | oneToOne =>
      cases hBacking : m.backing? r with
      | none =>
          intro h
          cases h
          refine ⟨"? @relation(name: \"" ++ Relation.oneToOneName m.name r.target ++ "\")", by
            simp only [String.append_assoc], fun hm hTarget => ?_⟩
          have hName := Relation.lacks_oneToOneName hm.name hTarget
          simpa [Lacks] using hName
      | some f =>
          intro h
          cases h
          refine ⟨" @relation(name: \"" ++ Relation.oneToOneName m.name r.target ++
            "\", fields: [" ++ f.name ++ "], references: [id])", by
            simp only [String.append_assoc], fun hm hTarget => ?_⟩
          have hName := Relation.lacks_oneToOneName hm.name hTarget
          have hField := (hm.fields f (List.mem_of_find?_eq_some hBacking)).1
          simpa [Lacks] using And.intro hName hField

/-- A line between the braces is that of a field or that of a relation. -/
theorem mem_lines_iff {m : Model} {line : String} :
    line ∈ m.lines ↔
      (∃ (i : Nat) (f : Field), m.fields[i]? = some f ∧
        f.lineWith (f.isUnique ∨ m.IsLinked i) = line) ∨
      ∃ r ∈ m.relations, m.relationLine? r = some line := by
  rw [lines, List.mem_append, List.mem_iff_getElem?, List.mem_filterMap]
  simp only [Body.getElem?_fieldLines, Option.map_eq_some_iff]

/-- A line between the braces is indented, and so it is not a brace. -/
theorem ne_brace_of_mem_lines {m : Model} {line : String} (h : line ∈ m.lines) :
    line ≠ "\x7d" := by
  have hIndented : ∃ rest, line = "  " ++ rest := by
    rcases mem_lines_iff.mp h with ⟨i, f, -, rfl⟩ | ⟨r, -, hLine⟩
    · simp only [Field.lineWith, String.append_assoc]
      exact ⟨_, rfl⟩
    · obtain ⟨tail, rfl, -⟩ := exists_tail_of_relationLine? hLine
      simp only [String.append_assoc]
      exact ⟨_, rfl⟩
  obtain ⟨rest, rfl⟩ := hIndented
  simp [← String.toList_inj, String.toList_append]

theorem IsLinewise.lacks_of_mem_lines {m : Model} (hm : m.IsLinewise) {line : String}
    (h : line ∈ m.lines) : Lacks line '\n' := by
  rcases mem_lines_iff.mp h with ⟨i, f, hi, rfl⟩ | ⟨r, hr, hLine⟩
  · obtain ⟨hName, hLabel⟩ := hm.fields f (List.mem_of_getElem? hi)
    rw [Field.lineWith_eq_intercalate]
    exact Text.lacks_intercalate (by decide) (Field.lacks_words (.inl rfl) hName hLabel)
  · obtain ⟨tail, rfl, hTail⟩ := exists_tail_of_relationLine? hLine
    obtain ⟨hName, hTarget⟩ := hm.relations r hr
    simpa [Lacks] using And.intro hName (And.intro hTarget (hTail hm hTarget))

theorem IsLinewise.lacks_of_mem_blockLines {m : Model} (hm : m.IsLinewise) :
    ∀ line ∈ m.blockLines, Lacks line '\n' := by
  intro line hLine
  simp only [blockLines, List.mem_cons, List.mem_append, List.not_mem_nil, or_false] at hLine
  rcases hLine with rfl | hLine | rfl
  · simpa [header, Lacks] using hm.name
  · exact hm.lacks_of_mem_lines hLine
  · decide

end Model

namespace Schema

/-- The text of the document splits into its lines. -/
theorem IsLinewise.split_text {s : Schema} (h : s.IsLinewise) :
    Text.split '\n' s.text = s.textLines := by
  rw [text_eq_intercalate]
  refine Text.split_intercalate (by decide) (by simp [textLines, Document.datasourceLines]) ?_
  intro line hLine
  have hFirst : ∀ line ∈ Document.datasourceLines, Lacks line '\n' := by decide
  rcases List.mem_append.mp hLine with hSource | hModels
  · exact hFirst line hSource
  · obtain ⟨m, hm, hLine⟩ := List.mem_flatMap.mp hModels
    rcases List.mem_cons.mp hLine with rfl | hBlock
    · decide
    · exact (h m hm).lacks_of_mem_blockLines line hBlock

theorem IsLinewise.read?_text {s : Schema} (h : s.IsLinewise) :
    Document.read? s.text = some (s.models.map (·.toBlock)) := by
  have hBlocks := Document.readBlocks_blockLines fun m (_ : m ∈ s.models) _ =>
    Model.ne_brace_of_mem_lines (m := m)
  have hRest : s.textLines.dropPrefix? Document.datasourceLines =
      some (s.models.flatMap fun m => "" :: m.blockLines) :=
    List.dropPrefix?_append_of_beq _ (beq_self_eq_true _)
  rw [Document.read?, h.split_text, hRest]
  exact hBlocks

end Schema

namespace Document

/-- What the line of a field says about the field. -/
structure FieldEntry where
  name : String
  token : String
  isPrimaryKey : Bool
  generator : Option Generator
  isUnique : Bool
  deriving DecidableEq, Repr

/-- The generator that one of the words names. -/
def generatorAmong (words : List String) : Option Generator :=
  [.clientId, .customId, .currentTime].find? fun g =>
    words.contains ("@default(" ++ g.expression ++ ")")

/-- Reads the line of a field: two empty words for the indent, the name, the token of the type and
the modifiers. -/
def FieldEntry.ofLine? (line : String) : Option FieldEntry :=
  match Text.split ' ' line with
  | _ :: _ :: name :: token :: modifiers =>
    some {
      name
      token
      isPrimaryKey := modifiers.contains "@id"
      generator := generatorAmong modifiers
      isUnique := modifiers.contains "@unique" }
  | _ => none

/-- A field without spaces is read from its line. -/
theorem FieldEntry.ofLine?_lineWith {f : Field} (hName : Lacks f.name ' ')
    (hLabel : Lacks f.type.label ' ') (isUnique : Prop) [Decidable isUnique] :
    ofLine? (f.lineWith isUnique) =
      some {
        name := f.name
        token := f.type.token
        isPrimaryKey := f.isPrimaryKey
        generator := f.generator
        isUnique := decide isUnique } := by
  have hGenerator : generatorAmong (f.modifierWords isUnique) = f.generator := by
    simp only [generatorAmong, List.contains_eq_mem, Field.default_mem_modifierWords_iff]
    cases f.generator with
    | none => rfl
    | some g => cases g <;> rfl
  rw [ofLine?, Field.lineWith_eq_intercalate,
    Text.split_intercalate (by decide) (by simp) (Field.lacks_words (.inr rfl) hName hLabel)]
  simp only [hGenerator, List.contains_eq_mem, Field.key_mem_modifierWords_iff,
    Field.unique_mem_modifierWords_iff, Bool.decide_eq_true]

end Document

/-- If no name has a line break in it, the document is read back as the models in their order, each
with the lines of its fields and of its relations, so schemas with the same text have the same
lines. A field without spaces is read back from its line: its name, its type as it is written, its
key, its default, and whether it is unique by declaration or because a relation is stored in it. -/
theorem Schema.document_reads_back {s : Schema} (h : s.IsLinewise) :
    Document.read? s.text =
        some (s.models.map fun m =>
          ⟨m.name, m.fieldLines ++ m.relations.filterMap m.relationLine?⟩) ∧
      (∀ t : Schema, t.IsLinewise → t.text = s.text →
        t.models.map (·.toBlock) = s.models.map (·.toBlock)) ∧
      ∀ m ∈ s.models, ∀ (i : Nat) (f : Field), m.fields[i]? = some f →
        Lacks f.name ' ' → Lacks f.type.label ' ' →
          m.fieldLines[i]?.bind Document.FieldEntry.ofLine? =
            some {
              name := f.name
              token := f.type.token
              isPrimaryKey := f.isPrimaryKey
              generator := f.generator
              isUnique := decide (f.isUnique ∨ m.IsLinked i) } := by
  refine ⟨h.read?_text, fun t ht hText => ?_, fun m _ i f hField hName hLabel => ?_⟩
  · have hRead := ht.read?_text
    rw [hText, h.read?_text] at hRead
    exact (Option.some.inj hRead).symm
  · rw [m.getElem?_fieldLines, hField, Option.map_some, Option.bind_some,
      Document.FieldEntry.ofLine?_lineWith hName hLabel]

/-- Names that look like braces, headers and modifiers, an empty block, a relation without a
line. -/
theorem Schema.document_reads_back_of_braces :
    let m : Model := {
      name := "\x7d"
      fields := [
        { name := "", type := .unsupported "\x7d" },
        { name := "@id", type := .unsupported "@unique", generator := some .clientId }]
      relations := [
        { name := "model A \x7b", kind := .manyToOne, target := "B" },
        { name := "", kind := .oneToOne, target := "\x7d", backing := some "@id" }] }
    let s : Schema := ⟨[m, { name := "" }, { name := "model A \x7b" }]⟩
    s.IsLinewise ∧
      Document.read? s.text =
        some [
          ⟨"\x7d", ["   \x7d", "  @id @unique @default(cuid()) @unique",
            "   \x7d @relation(name: \"RelationBetween\x7dAnd\x7d\", fields: [@id], " ++
              "references: [id])"]⟩,
          ⟨"", []⟩, ⟨"model A \x7b", []⟩] ∧
      m.fieldLines[1]?.bind Document.FieldEntry.ofLine? =
        some {
          name := "@id"
          token := "@unique"
          isPrimaryKey := false
          generator := some .clientId
          isUnique := true } := by
  intro m s
  have hLines : s.IsLinewise := by
    have hFirst : m.IsLinewise := ⟨by decide, by decide, by decide⟩
    have hSecond : ({ name := "" } : Model).IsLinewise := ⟨by decide, by decide, by decide⟩
    have hThird : ({ name := "model A \x7b" } : Model).IsLinewise :=
      ⟨by decide, by decide, by decide⟩
    simp only [Schema.IsLinewise, s, List.forall_mem_cons, hFirst, hSecond, hThird, true_and]
    simp
  obtain ⟨hRead, -, hField⟩ := document_reads_back hLines
  refine ⟨hLines, hRead.trans (by decide), (hField m (by simp [s]) 1 _ rfl ?_ ?_).trans (by decide)⟩
  · decide
  · decide

end Datamodel
