import Datamodel.Proofs.Document.Degradation
import Datamodel.Proofs.Document.Layout
import Datamodel.Proofs.Schema.Session

/-! A document is put together from the blocks of the models, in their order. Trimming takes the
blank line behind the last block and nothing else, so a block is the same in whatever document it
stands. An operation that names a model adds a block at the end or changes one where it stands; the
other blocks and the notes on the other models stay, even where their relations lead to this one. -/
namespace Datamodel

namespace Document

/-- What models add to a text: for each of them a blank line and its block. -/
def blocks (models : List Model) : String :=
  String.join (models.map fun m => "\n\n" ++ m.block)

/-- The notes on models, one model after the other. -/
def notes (models : List Model) : List Diagnostic :=
  models.flatMap (·.diagnostics)

/-- The document with a model between others. What it has of the others does not depend on the
model. -/
def around (before : List Model) (m : Model) (after : List Model) : Document where
  text := datasource ++ blocks before ++ "\n\n" ++ m.block ++ blocks after
  diagnostics := notes before ++ m.diagnostics ++ notes after

theorem blocks_append (before after : List Model) :
    blocks (before ++ after) = blocks before ++ blocks after := by
  simp only [blocks, List.map_append, String.join_append]

theorem blocks_cons (m : Model) (after : List Model) :
    blocks (m :: after) = "\n\n" ++ m.block ++ blocks after := by
  simp only [blocks, List.map_cons, String.join_cons]

end Document

namespace Schema

open Document

/-- What one pass over the schema has written, before it is trimmed. -/
def draft (s : Schema) : Draft :=
  s.models.foldl Draft.writeModel ⟨paragraph datasource, []⟩

theorem draft_eq (s : Schema) : s.draft = ⟨s.text ++ "\n\n", s.diagnostics⟩ := by
  rw [draft, Draft.foldl_writeModel, paragraphs_eq, ← text_eq_append_join]
  rfl

theorem document_eq_blocks (s : Schema) :
    s.document = ⟨datasource ++ blocks s.models, notes s.models⟩ := by
  rw [document, text_eq_append_join]
  rfl

theorem document_append_cons (before : List Model) (m : Model) (after : List Model) :
    (⟨before ++ m :: after⟩ : Schema).document = around before m after := by
  rw [document_eq_blocks, around, blocks_append, blocks_cons, notes, notes, notes,
    List.flatMap_append, List.flatMap_cons]
  simp only [String.append_assoc, List.append_assoc]

/-- A model that is new adds its block and its notes behind all others. -/
theorem document_update_of_notMem {s : Schema} {name : String} (h : name ∉ s.names)
    (change : Body → Body) :
    let m : Model := { name, toBody := change {} }
    (s.update name change).document =
      ⟨s.document.text ++ "\n\n" ++ m.block, s.document.diagnostics ++ m.diagnostics⟩ := by
  intro m
  rw [update_of_notMem h, document_append_cons, document_eq_blocks s, around]
  simp [blocks, notes, m]

/-- A model that is there is written anew where it stands. -/
theorem document_update_of_append {before after : List Model} {m : Model}
    (h : m.name ∉ before.map (·.name)) (change : Body → Body) :
    ((⟨before ++ m :: after⟩ : Schema).update m.name change).document =
      around before { m with toBody := change m.toBody } after := by
  rw [update_of_append h, document_append_cons]

/-- The document is the datasource block and, for each model, a blank line and its block; the one
pass that writes it leaves two more line breaks at the end, and these are all that is trimmed. An
operation that names a new model adds its block and the notes on it at the end. An operation that
names a model of the schema changes the block of this model and the notes on it, and nothing before
or after them. -/
theorem document_composed (s : Schema) :
    (s.document.text = Text.trim s.draft.text ∧ s.draft.text = s.document.text ++ "\n\n" ∧
        s.draft.notes = s.document.diagnostics) ∧
      s.document = ⟨datasource ++ blocks s.models, notes s.models⟩ ∧
      ∀ (op : Session.Operation) (name : String), op.model? = some name →
        (name ∉ s.names →
          let m : Model := { name, toBody := op.change {} }
          (op.apply s).document =
            ⟨s.document.text ++ "\n\n" ++ m.block, s.document.diagnostics ++ m.diagnostics⟩) ∧
        ∀ (before : List Model) (m : Model) (after : List Model),
          s.models = before ++ m :: after → m.name = name → name ∉ before.map (·.name) →
            s.document = around before m after ∧
              (op.apply s).document =
                around before { m with toBody := op.change m.toBody } after := by
  have hTrim : s.document.text = Text.trim s.draft.text := by
    rw [← s.writeOut_eq_document]
    rfl
  have hDraft : s.draft = ⟨s.document.text ++ "\n\n", s.document.diagnostics⟩ := s.draft_eq
  refine ⟨⟨hTrim, by rw [hDraft], by rw [hDraft]⟩, s.document_eq_blocks, fun op name hName => ?_⟩
  rw [Session.Operation.apply_eq_update hName]
  refine ⟨fun hNew => document_update_of_notMem hNew op.change, ?_⟩
  rintro before m after hModels rfl hFirst
  obtain ⟨models⟩ := s
  obtain rfl : models = before ++ m :: after := hModels
  exact ⟨document_append_cons before m after, document_update_of_append hFirst op.change⟩

/-- The names end in white space and line breaks, and the relation of the second model leads to the
first one, which gets a field. -/
theorem document_composed_of_blank_names :
    let m : Model := { name := "A\u2028\n", fields := [{ name := "\n", type := .scalar .int }] }
    let n : Model := {
      name := "\n\n"
      relations := [{ name := " ", kind := .manyToOne, target := "A\u2028\n" }] }
    let f : Field := { name := "\u00a0", type := .unsupported "\n" }
    let s : Schema := ⟨[m, n]⟩
    (s.addField "A\u2028\n" f).document = around [] { m with fields := m.fields ++ [f] } [n] ∧
      (s.createModel "\x7d\n\n").document.text =
        s.document.text ++ "\n\nmodel \x7d\n\n \x7b\n\x7d" ∧
      (s.createModel "\x7d\n\n").document.diagnostics = [⟨"\n\n", " ", .omittedManyToOne⟩] := by
  intro m n f s
  obtain ⟨-, -, hOperation⟩ := document_composed s
  obtain ⟨-, hChanged⟩ := hOperation (.addField "A\u2028\n" f) _ rfl
  obtain ⟨hAdded, -⟩ := hOperation (.createModel "\x7d\n\n") _ rfl
  have hNew : (s.createModel "\x7d\n\n").document = _ := hAdded (by decide)
  refine ⟨(hChanged [] m [n] rfl rfl (by simp)).2, ?_, ?_⟩
  · rw [hNew, String.append_assoc]
    rfl
  · rw [hNew]
    decide

end Schema

end Datamodel
