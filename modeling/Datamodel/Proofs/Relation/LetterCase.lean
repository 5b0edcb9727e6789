import Datamodel.Proofs.Document.Degradation
import Datamodel.Proofs.Text.Idempotence
import Datamodel.Proofs.Text.LetterCase

/-! The case of letters and a relation that names no field. It looks for its own name in those of
the fields, and both are put into lower case before they are compared. What it looks for is in lower
case already: the `id` behind its own name puts a letter where the name ended, which could matter
only to a capital sigma, and the lower case of the name has none. And whichever letters of ASCII
change their case, in the name of the relation or in that of a field, the relation is stored in the
same place as before, or nowhere as before. Whether it is written in full, noted or reported depends
on nothing else. -/
namespace Datamodel

open Text

namespace Relation

theorem isLower_needle (r : Relation) : Text.IsLower r.needle := by
  have hId : Text.IsLower "id" := by
    intro c hc
    have hLetters : c = 'i' ∨ c = 'd' := by simpa using hc
    rcases hLetters with rfl | rfl <;> rfl
  exact (Text.isLower_lowercase r.name).append hId

/-- Lower case changes nothing in the text that a relation looks for: there is no capital sigma in
it and no capital letter of ASCII. The text ends in `id`, and the same fields are accepted as for
its lower case. -/
theorem needle_already_lowercase (r : Relation) :
    Text.lowercase r.needle = r.needle ∧ Text.capitalSigma ∉ r.needle.toList ∧
      (∀ c ∈ r.needle.toList, c.isUpper = false) ∧ "id".toList <:+ r.needle.toList ∧
      ∀ f : Field, (FieldPattern.containing r.needle).accepts f =
        (FieldPattern.containing (Text.lowercase r.needle)).accepts f := by
  have hLower := r.isLower_needle
  have hSame := hLower.lowercase_eq
  have hEnd : "id".toList <:+ r.needle.toList := by
    rw [needle, String.toList_append]
    exact List.suffix_append _ _
  refine ⟨hSame, hLower.capitalSigma_notMem, hLower.isUpper_eq_false, hEnd, ?_⟩
  intro f
  rw [hSame]

end Relation

/-- Two bodies with as many fields, the names of which differ place by place in nothing but the case
of ASCII letters. -/
def Body.SameLetters (b c : Body) : Prop :=
  List.Forall₂ (fun f g => Text.SameLetters f.name g.name) b.fields c.fields

/-- The relation looks for the same text under either name. -/
theorem Relation.pattern_congr {r q : Relation} (hr : r.backing = none) (hq : q.backing = none)
    (h : SameLetters r.name q.name) : r.pattern = q.pattern := by
  rw [pattern, pattern, hr, hq, needle, needle, h.lowercase_eq]

theorem FieldPattern.accepts_containing_congr {f g : Field} (h : SameLetters f.name g.name)
    (part : String) : (containing part).accepts f = (containing part).accepts g := by
  rw [accepts, accepts, h.lowercase_eq]

/-- Both searches come to the same place. The relation has to name no field: a field that is named
must have exactly this name. -/
theorem Body.SameLetters.backingIndex?_eq {b c : Body} (h : b.SameLetters c) {r q : Relation}
    (hr : r.backing = none) (hq : q.backing = none) (hName : Text.SameLetters r.name q.name) :
    c.backingIndex? q = b.backingIndex? r := by
  have hPattern : q.pattern = .containing r.needle := by
    rw [← Relation.pattern_congr hr hq hName, Relation.pattern, hr]
  rw [backingIndex?, backingIndex?, hPattern, Relation.pattern, hr]
  unfold SameLetters at h
  generalize b.fields = fields at h ⊢
  generalize c.fields = others at h ⊢
  induction h with
  | nil => rfl
  | cons hField _ ih =>
      rw [List.findIdx?_cons, List.findIdx?_cons, ih,
        FieldPattern.accepts_containing_congr hField]

namespace Model

/-- The relation is not written in its full form: it has no line, or it is written as the optional
side of a relation. -/
def IsDegraded (m : Model) (r : Relation) : Prop :=
  m.relationLine? r = none ∨
    m.relationLine? r = some ("  " ++ r.name ++ " " ++ r.target ++ "? @relation(name: \"" ++
      Relation.oneToOneName m.name r.target ++ "\")")

/-- This happens to relations of the kinds that are stored in a field, if none of the fields stores
them. -/
theorem isDegraded_iff {m : Model} {r : Relation} :
    m.IsDegraded r ↔
      (r.kind = .manyToOne ∨ r.kind = .oneToOne) ∧ m.backingIndex? r = none := by
  rw [← m.backing?_eq_none_iff]
  unfold IsDegraded relationLine?
  cases hBacking : m.backing? r with
  | none => cases r.kind <;> simp [← String.toList_inj]
  | some f => cases r.kind <;> simp [← String.toList_inj]

theorem missingBacking_mem_relationViolations_iff {s : Schema} {m : Model} {r : Relation} :
    .missingBacking m.name r.name ∈ m.relationViolations s r ↔
      r.kind = .manyToOne ∧ m.backingIndex? r = none := by
  rw [relationViolations_eq_relationBreaches, relationBreaches, List.mem_append]
  split <;> split <;> simp_all

theorem degradations_congr {m n : Model} {r q : Relation} (hKind : r.kind = q.kind)
    (hBacking : r.backing = q.backing) (hIndex : n.backingIndex? q = m.backingIndex? r) :
    n.degradations q = m.degradations r := by
  rw [degradations, degradations, hKind, hBacking, hIndex]

/-- If a relation names no field, it is stored in the same place whatever the case of ASCII letters
in its name and in the names of the fields. So it makes no difference to whether it is written in
its full form, to the kinds of the notes on it, and to whether validation, in whatever schema,
reports it for want of a field. -/
theorem inference_ignores_case {m n : Model} (hFields : m.SameLetters n.toBody) {r q : Relation}
    (hName : Text.SameLetters r.name q.name) (hKind : r.kind = q.kind) (hr : r.backing = none)
    (hq : q.backing = none) :
    n.backingIndex? q = m.backingIndex? r ∧
      (n.IsDegraded q ↔ m.IsDegraded r) ∧
      (n.diagnosticsOf q).map (·.reason) = (m.diagnosticsOf r).map (·.reason) ∧
      ∀ s t : Schema, .missingBacking n.name q.name ∈ n.relationViolations t q ↔
        .missingBacking m.name r.name ∈ m.relationViolations s r := by
  have hIndex : n.backingIndex? q = m.backingIndex? r := hFields.backingIndex?_eq hr hq hName
  refine ⟨hIndex, ?_, ?_, fun s t => ?_⟩
  · rw [isDegraded_iff, isDegraded_iff, hIndex, hKind]
  · rw [diagnosticsOf_eq_map_degradations, diagnosticsOf_eq_map_degradations, List.map_map,
      List.map_map, degradations_congr hKind (hr.trans hq.symm) hIndex]
    rfl
  · rw [missingBacking_mem_relationViolations_iff, missingBacking_mem_relationViolations_iff,
      hIndex, hKind]

/-- The first sigma of each name is a final one because of the letter before it, which changes its
case in the name of the relation and keeps it in that of the field. -/
theorem inference_ignores_case_around_sigma :
    let r : Relation := { name := "aΣ_b", kind := .manyToOne, target := "User" }
    let m : Model := {
      name := "Post"
      fields := [
        { name := "aΣ", type := .scalar .int }, { name := "xaΣ_bIdΣ", type := .scalar .int }]
      relations := [r] }
    let q : Relation := { r with name := "AΣ_B" }
    let n : Model := {
      name := "Post"
      fields := [
        { name := "AΣ", type := .scalar .int }, { name := "XaΣ_BiDΣ", type := .scalar .int }]
      relations := [q] }
    m.SameLetters n.toBody ∧ Text.SameLetters r.name q.name ∧ m.backingIndex? r = some 1 ∧
      n.backingIndex? q = some 1 := by
  intro r m q n
  have hFields : m.SameLetters n.toBody := .cons (by decide) (.cons (by decide) .nil)
  have hName : Text.SameLetters r.name q.name := by decide
  have hFound : m.backingIndex? r = some 1 := by decide +kernel
  exact ⟨hFields, hName, hFound,
    (inference_ignores_case hFields hName rfl rfl rfl).1.trans hFound⟩

end Model

end Datamodel
