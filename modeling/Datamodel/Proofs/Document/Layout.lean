import Datamodel.Document
import Mathlib.Data.List.DropRight
import Mathlib.Data.List.Induction

/-! The text of a document, block by block and line by line. Trimming takes off the blank line
behind the last block and nothing else, whatever the names in the schema are, because the text
starts in the datasource block and the last block ends in a brace. -/
namespace Datamodel

namespace Text

/-- White space behind a last character that is none is taken off, up to that character. -/
theorem trimEnd_concat_append {last : Char} (hLast : isBlank last = false) (cs : List Char)
    {blanks : List Char} (h : ∀ c ∈ blanks, isBlank c) :
    trimEnd (cs ++ [last] ++ blanks) = cs ++ [last] := by
  change List.rdropWhile isBlank (cs ++ [last] ++ blanks) = cs ++ [last]
  induction blanks using List.reverseRecOn with
  | nil => rw [List.append_nil, List.rdropWhile_concat_neg _ _ _ (by simp [hLast])]
  | append_singleton blanks c ih =>
      rw [← List.append_assoc, List.rdropWhile_concat_pos _ _ _ (h c (by simp))]
      exact ih fun b hb => h b (by simp [hb])

/-- A text that starts and ends in something else than white space loses what stands behind it. -/
theorem trim_append {s blanks : String} (hFirst : ∃ c ∈ s.toList.head?, isBlank c = false)
    (hLast : ∃ c ∈ s.toList.getLast?, isBlank c = false) (h : ∀ c ∈ blanks.toList, isBlank c) :
    trim (s ++ blanks) = s := by
  obtain ⟨first, hHead, hFirst⟩ := hFirst
  obtain ⟨last, hEnd, hLast⟩ := hLast
  obtain ⟨behind, hStart⟩ := List.head?_eq_some_iff.mp hHead
  obtain ⟨before, hEnd⟩ := List.getLast?_eq_some_iff.mp hEnd
  have hFront : (s ++ blanks).toList.dropWhile isBlank = s.toList ++ blanks.toList := by
    rw [String.toList_append, hStart, List.cons_append,
      List.dropWhile_cons_of_neg (by simp [hFirst])]
  rw [trim, hFront, hEnd, trimEnd_concat_append hLast before h, ← hEnd, String.ofList_toList]

end Text

/-- Pieces that are each followed by a separator, and a last piece behind them. -/
theorem join_append_eq_intercalate (separator : String) (pieces : List String) (last : String) :
    String.join (pieces.map (· ++ separator)) ++ last =
      separator.intercalate (pieces ++ [last]) := by
  induction pieces with
  | nil => simp
  | cons piece rest ih =>
      rw [List.map_cons, String.join_cons, String.append_assoc, ih, List.cons_append,
        String.intercalate_cons_of_ne_nil (by simp), String.append_assoc]

/-- Groups of pieces, each group but the first with a separator before it. -/
theorem intercalate_append_flatten (separator : String) {first : List String} (h : first ≠ [])
    {groups : List (List String)} (hGroups : ∀ group ∈ groups, group ≠ []) :
    separator.intercalate (first ++ groups.flatten) =
      separator.intercalate first ++
        String.join (groups.map fun group => separator ++ separator.intercalate group) := by
  induction groups generalizing first with
  | nil => simp
  | cons group groups ih =>
      rw [List.forall_mem_cons] at hGroups
      have hNext : first ++ group ≠ [] := by simp [h]
      rw [List.flatten_cons, ← List.append_assoc, ih hNext hGroups.2,
        String.intercalate_append_of_ne_nil h hGroups.1, List.map_cons, String.join_cons]
      simp only [String.append_assoc]

namespace Model

/-- The line that opens the block of the model. -/
def header (m : Model) : String :=
  "model " ++ m.name ++ " \x7b"

/-- The block of the model, line by line. -/
def blockLines (m : Model) : List String :=
  m.header :: (m.lines ++ ["\x7d"])

theorem block_eq_intercalate (m : Model) : m.block = "\n".intercalate m.blockLines := by
  have hHeader : m.header ++ "\n" = "model " ++ m.name ++ " \x7b\n" := by
    rw [header, String.append_assoc]
    rfl
  rw [block, ← hHeader, String.append_assoc, join_append_eq_intercalate, blockLines,
    String.intercalate_cons_of_ne_nil (by simp)]

end Model

namespace Document

/-- The block that opens every document, line by line. -/
def datasourceLines : List String :=
  ["datasource db \x7b", "  provider = \"postgresql\"",
    "  url      = env(\"DATABASE_URL\")", "\x7d"]

theorem datasource_eq_intercalate : datasource = "\n".intercalate datasourceLines := by
  decide

/-- The blocks of a document, the blank lines before them instead of behind them. -/
theorem paragraphs_eq (models : List Model) :
    paragraph datasource ++ String.join (models.map fun m => paragraph m.block) =
      datasource ++ String.join (models.map fun m => "\n\n" ++ m.block) ++ "\n\n" := by
  -- From the end: a further block takes over the blank line behind the one before it.
  induction models using List.reverseRecOn with
  | nil => simp [paragraph]
  | append_singleton models m ih =>
      simp only [List.map_append, String.join_append, ← String.append_assoc] at ih ⊢
      rw [ih]
      simp [paragraph, String.append_assoc]

/-- The last block of a document ends in a brace. -/
theorem exists_append_brace (models : List Model) :
    ∃ before : String, datasource ++ String.join (models.map fun m => "\n\n" ++ m.block) =
      before ++ "\x7d" := by
  rcases List.eq_nil_or_concat models with rfl | ⟨models, m, rfl⟩
  · exact ⟨"datasource db \x7b\n  provider = \"postgresql\"\n  url      = env(\"DATABASE_URL\")\n",
      by decide⟩
  · simp only [List.concat_eq_append, List.map_append, List.map_singleton, String.join_append,
      String.join_cons, String.join_nil, String.append_empty, Model.block, ← String.append_assoc]
    exact ⟨_, rfl⟩

end Document

namespace Schema

/-- The text is the datasource block and, for each model, a blank line and its block. -/
theorem text_eq_append_join (s : Schema) :
    s.text = Document.datasource ++ String.join (s.models.map fun m => "\n\n" ++ m.block) := by
  have hBlank : ∀ c ∈ "\n\n".toList, Text.isBlank c := by simp [Text.isBlank]
  rw [text, Document.paragraphs_eq]
  refine Text.trim_append ⟨'d', ?_, by decide⟩ ⟨'\x7d', ?_, by decide⟩ hBlank
  · rw [String.toList_append]
    rfl
  · obtain ⟨before, hEnd⟩ := Document.exists_append_brace s.models
    rw [hEnd, String.toList_append]
    simp

/-- The lines of the document: those of the datasource block and, for each model, an empty line and
the lines of its block. -/
def textLines (s : Schema) : List String :=
  Document.datasourceLines ++ s.models.flatMap fun m => "" :: m.blockLines

theorem text_eq_intercalate (s : Schema) : s.text = "\n".intercalate s.textLines := by
  have hBlock (m : Model) : "\n\n" ++ m.block = "\n" ++ "\n".intercalate ("" :: m.blockLines) := by
    rw [String.intercalate_cons_of_ne_nil (by simp [Model.blockLines]), m.block_eq_intercalate,
      String.empty_append, ← String.append_assoc]
    rfl
  rw [text_eq_append_join, textLines, List.flatMap_def,
    intercalate_append_flatten "\n" (by simp [Document.datasourceLines]) (by simp),
    ← Document.datasource_eq_intercalate, List.map_map]
  simp only [hBlock, Function.comp_def]

end Schema

end Datamodel
