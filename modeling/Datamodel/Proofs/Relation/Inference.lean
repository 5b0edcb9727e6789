import Datamodel.Proofs.Document.Closure
import Datamodel.Proofs.Text.Lowercase

/-! Whether a relation that names no field finds the one that is named after it: the relation's name
followed by `Id`. The relation looks for the lower case of its own name followed by `id`, whereas
the name of the field is written in lower case as a whole. The two differ in one case only: a
capital sigma at the end of the relation's name is a final one there, but not in front of `Id`. -/
namespace Datamodel

namespace Text

theorem lowercaseAfter_id (before : List Char) : lowercaseAfter before ['I', 'd'] = ['i', 'd'] := by
  have hI : lowerChar 'I' = ['i'] := by decide +kernel
  have hD : lowerChar 'd' = ['d'] := by decide +kernel
  have hNoI : 'I' ≠ capitalSigma := by decide
  have hNoD : 'd' ≠ capitalSigma := by decide
  simp [lowercaseAfter, lowerBetween, hI, hD, hNoI, hNoD]

/-- The two ways to write a name with `Id` behind it in lower case have the same length, so the one
occurs in the other only if they are the same. -/
theorem contains_lowercase_append_id_iff (s : String) :
    contains (lowercase (s ++ "Id")) (lowercase s ++ "id") = true ↔ endsInFinalSigma s = false := by
  have hCased : startsCased ['I', 'd'] = true := by decide +kernel
  have hWhole : (lowercase (s ++ "Id")).toList = lowercaseAfter [] (s.toList ++ ['I', 'd']) := by
    rw [toList_lowercase, String.toList_append]
    rfl
  have hNeedle : (lowercase s ++ "id").toList =
      lowercaseAfter [] s.toList ++ lowercaseAfter (s.toList.reverse ++ []) ['I', 'd'] := by
    rw [String.toList_append, toList_lowercase, lowercaseAfter_id]
    rfl
  rw [contains, containsSlice_iff, hWhole, hNeedle, endsInFinalSigma,
    ← lowercaseAfter_append_eq_iff hCased]
  constructor
  · intro hInfix
    exact (hInfix.eq_of_length (length_lowercaseAfter_append [] s.toList ['I', 'd']).symm).symm
  · intro hSame
    exact hSame ▸ List.infix_rfl

end Text

/-- A relation accepts the field named after it exactly if its own name does not end in a final
sigma. -/
theorem Relation.accepts_named_after_iff {r : Relation} {f : Field} (hBacking : r.backing = none)
    (hName : f.name = r.name ++ "Id") :
    r.pattern.accepts f = true ↔ Text.endsInFinalSigma r.name = false := by
  rw [pattern, hBacking, FieldPattern.accepts, needle, hName]
  exact Text.contains_lowercase_append_id_iff r.name

/-- A field that is accepted is found, or one before it. -/
theorem Body.exists_backingIndex?_le {b : Body} {r : Relation} {k : Nat} {f : Field}
    (hField : b.fields[k]? = some f) (hAccepts : r.pattern.accepts f = true) :
    ∃ i ≤ k, b.backingIndex? r = some i := by
  obtain ⟨hk, rfl⟩ := List.getElem?_eq_some_iff.mp hField
  cases hIndex : b.backingIndex? r with
  | none =>
      have hNone := List.findIdx?_eq_none_iff.mp hIndex _ (List.getElem_mem hk)
      rw [hAccepts] at hNone
      cases hNone
  | some i =>
      have hBefore := (List.findIdx?_eq_some_iff_getElem.mp hIndex).2.2
      exact ⟨i, Nat.le_of_not_lt fun hki => hBefore k hki hAccepts, rfl⟩

namespace Model

/-- The relation is stored in the field at a place or in one before it. If it is many-to-one, its
line is among those of the model, and no validation reports it for want of a field. -/
structure FindsBy (m : Model) (r : Relation) (k : Nat) : Prop where
  index : ∃ i ≤ k, m.backingIndex? r = some i
  line : r.kind = .manyToOne →
    ∃ line, m.relationLine? r = some line ∧ (r ∈ m.relations → line ∈ m.lines)
  verdict : ∀ s, .missingBacking m.name r.name ∉ m.relationViolations s r

theorem findsBy_of_accepts {m : Model} {r : Relation} {k : Nat} {f : Field}
    (hField : m.fields[k]? = some f) (hAccepts : r.pattern.accepts f = true) : m.FindsBy r k := by
  obtain ⟨i, hi, hIndex⟩ := m.exists_backingIndex?_le hField hAccepts
  have hStored : m.backing? r ≠ none := by
    rw [Ne, m.backing?_eq_none_iff, hIndex]
    simp
  refine ⟨⟨i, hi, hIndex⟩, fun _ => ?_, fun s => ?_⟩
  · obtain ⟨line, hLine⟩ := Option.ne_none_iff_exists'.mp fun hNone =>
      hStored ((m.relationLine?_eq_none_iff r).mp hNone).2
    refine ⟨line, hLine, fun hr => ?_⟩
    exact List.mem_append_right _ (List.mem_filterMap.mpr ⟨r, hr, hLine⟩)
  · simp only [relationViolations, hStored, and_false, if_false, List.append_nil]
    split <;> simp

/-- A relation that names no field finds the field named after it, in whatever model and wherever it
stands, exactly if its own name does not end in a capital sigma that is written as a final one. -/
theorem findsBy_named_after_iff {r : Relation} (hBacking : r.backing = none) :
    (∀ (m : Model) (k : Nat) (f : Field), m.fields[k]? = some f → f.name = r.name ++ "Id" →
        m.FindsBy r k) ↔
      Text.endsInFinalSigma r.name = false := by
  constructor
  · intro hFinds
    -- In a model with no other field, what is found can only be the field named after the relation.
    let f : Field := { name := r.name ++ "Id", type := .scalar .int }
    obtain ⟨i, -, hIndex⟩ := (hFinds { name := "", fields := [f] } 0 f rfl rfl).index
    obtain ⟨_, hFound, -⟩ := List.findIdx?_eq_some_iff_getElem.mp hIndex
    rw [List.getElem_singleton] at hFound
    exact (r.accepts_named_after_iff hBacking rfl).mp hFound
  · intro hSigma m k f hField hName
    exact findsBy_of_accepts hField ((r.accepts_named_after_iff hBacking hName).mpr hSigma)

/-- A name with a character whose lower case has two, and with a sigma that is not a final one. -/
theorem findsBy_named_after_of_dotted_name :
    let r : Relation := { name := "İΣA", kind := .manyToOne, target := "User" }
    let m : Model := {
      name := "Post"
      fields := [{ name := "id", type := .scalar .int }, { name := "İΣAId", type := .scalar .int }]
      relations := [r] }
    r.backing = none ∧ Text.endsInFinalSigma r.name = false ∧ m.FindsBy r 1 := by
  intro r m
  have hSigma : Text.endsInFinalSigma r.name = false := by decide +kernel
  exact ⟨rfl, hSigma, (findsBy_named_after_iff rfl).mpr hSigma m 1 _ rfl rfl⟩

/-- The field named after the relation is there, but the relation is stored nowhere, has no line and
is reported. -/
theorem named_after_missed_of_final_sigma :
    let r : Relation := { name := "ΑΣ", kind := .manyToOne, target := "A" }
    let m : Model := {
      name := "A"
      fields := [{ name := "ΑΣId", type := .scalar .int }]
      relations := [r] }
    r.backing = none ∧ m.fields[0]?.map (·.name) = some (r.name ++ "Id") ∧
      m.backingIndex? r = none ∧ m.relationLine? r = none ∧
      (⟨[m]⟩ : Schema).validate = .error (.invalid 1 [.missingBacking "A" "ΑΣ"]) := by
  decide +kernel

end Model

end Datamodel
