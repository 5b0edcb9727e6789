import Datamodel.Proofs.Text.CodeOrder
import Datamodel.Proofs.Text.Separator
import Datamodel.Relation
import Mathlib.Data.Sym.Sym2

/-! The names that documents give to relations of two models. The models are put in the order of
their code units first, so either side arrives at the same name. This is the order of their bytes,
unless the names part at the surrogates. And where the names of the models do not have in them what
stands between them, different pairs of models have different names. -/
namespace Datamodel

open Text

namespace Relation

theorem manyToManyName_comm (a b : String) : manyToManyName a b = manyToManyName b a := by
  unfold manyToManyName
  rw [unitSorted_comm]

theorem oneToOneName_comm (a b : String) : oneToOneName a b = oneToOneName b a := by
  unfold oneToOneName
  rw [unitSorted_comm]

/-- The order of code units and that of bytes are opposite for names that part at the surrogates,
and they agree for all others. The name of a relation starts with the model that is first in code
units; this is the one that is first in bytes if no character outside the basic plane in one name
meets one behind the surrogates in the other. -/
theorem code_order_departs_at_surrogates (a b : String) :
    unitSorted a b = (if (compare (units a) (units b)).isLE then (a, b) else (b, a)) ∧
      (¬ PartAtSurrogates a b → compare (units a) (units b) = compare (bytes a) (bytes b)) ∧
      (PartAtSurrogates a b →
        compare (units a) (units b) = (compare (bytes a) (bytes b)).swap ∧
          compare (units a) (units b) ≠ .eq) ∧
      ((∀ c ∈ a.toList, ∀ d ∈ b.toList, ¬ StraddlesSurrogates c d) →
        manyToManyName a b = (byteSorted a b).1 ++ "To" ++ (byteSorted a b).2 ∧
          oneToOneName a b =
            "RelationBetween" ++ (byteSorted a b).1 ++ "And" ++ (byteSorted a b).2) := by
  refine ⟨unitSorted_eq_ite a b, compare_units_eq_compare_bytes, PartAtSurrogates.compare_units,
    fun hNone => ?_⟩
  have hNot : ¬ PartAtSurrogates a b := by
    rintro ⟨c, d, hDiffer, hStraddles⟩
    exact hNone c hDiffer.mem_left d hDiffer.mem_right hStraddles
  have hSorted : unitSorted a b = byteSorted a b := by
    rw [unitSorted_eq_ite, byteSorted, compare_units_eq_compare_bytes hNot]
  unfold manyToManyName oneToOneName
  rw [hSorted]
  exact ⟨rfl, rfl⟩

/-- A character outside the basic plane against one behind the surrogates, which bytes put the other
way round, and two names that differ in neither. -/
theorem code_order_of_wide_letter :
    PartAtSurrogates "😀" "Ａ" ∧
      compare (units "😀") (units "Ａ") =
        (compare (bytes "😀") (bytes "Ａ")).swap ∧
      (∀ c ∈ "TagＡ".toList, ∀ d ∈ "Post".toList, ¬ StraddlesSurrogates c d) ∧
      manyToManyName "TagＡ" "Post" =
        (byteSorted "TagＡ" "Post").1 ++ "To" ++ (byteSorted "TagＡ" "Post").2 := by
  have hPart : PartAtSurrogates "😀" "Ａ" :=
    ⟨'😀', 'Ａ', .head (by decide) [] [], by decide⟩
  have hNone : ∀ c ∈ "TagＡ".toList, ∀ d ∈ "Post".toList, ¬ StraddlesSurrogates c d := by
    simp [StraddlesSurrogates]
  exact ⟨hPart, ((code_order_departs_at_surrogates _ _).2.2.1 hPart).1, hNone,
    ((code_order_departs_at_surrogates _ _).2.2.2 hNone).1⟩

/-- What is put together from two names in the order of their code units tells which they are, if
they do not have in them what stands between. -/
theorem joined_eq_iff {separator : String} (h : IsUnbordered separator.toList) {a b c d : String}
    (hNames : ∀ name ∈ [a, b, c, d], contains name separator = false) :
    (unitSorted a b).1 ++ separator ++ (unitSorted a b).2 =
        (unitSorted c d).1 ++ separator ++ (unitSorted c d).2 ↔
      s(a, b) = s(c, d) := by
  have hFirst {x y : String} (hx : contains x separator = false)
      (hy : contains y separator = false) : contains (unitSorted x y).1 separator = false := by
    rcases (unitSorted_cases x y).1 with ⟨hName, -⟩ | ⟨hName, -⟩
    · rwa [hName]
    · rwa [hName]
  simp only [List.forall_mem_cons] at hNames
  obtain ⟨ha, hb, hc, hd, -⟩ := hNames
  rw [Sym2.eq_iff, ← unitSorted_eq_iff]
  constructor
  · intro hSame
    obtain ⟨hLeft, hRight⟩ := append_separator_inj h (hFirst ha hb) (hFirst hc hd) hSame
    exact Prod.ext hLeft hRight
  · intro hSame
    rw [hSame]

/-- Different pairs of models have different names: those of many-to-many relations if no model has
`To` in its name, and those of one-to-one relations if none has `And`. -/
theorem names_eq_iff_same_pair (a b c d : String) :
    ((∀ name ∈ [a, b, c, d], contains name "To" = false) →
        (manyToManyName a b = manyToManyName c d ↔ s(a, b) = s(c, d))) ∧
      ((∀ name ∈ [a, b, c, d], contains name "And" = false) →
        (oneToOneName a b = oneToOneName c d ↔ s(a, b) = s(c, d))) := by
  have hTo : IsUnbordered "To".toList := by decide
  have hAnd : IsUnbordered "And".toList := by decide
  refine ⟨joined_eq_iff hTo, fun hNames => ?_⟩
  unfold oneToOneName
  simpa only [String.append_assoc, String.append_right_inj] using joined_eq_iff hAnd hNames

/-- Names that end and start like a part of what stands between them, and an empty one. -/
theorem names_differ_of_straddling_parts :
    (∀ name ∈ ["T", "o", "", "oT"], contains name "To" = false) ∧
      manyToManyName "T" "o" ≠ manyToManyName "" "oT" ∧
      (∀ name ∈ ["An", "d", "A", "nd"], contains name "And" = false) ∧
      oneToOneName "An" "d" ≠ oneToOneName "A" "nd" := by
  have hTo : ∀ name ∈ ["T", "o", "", "oT"], contains name "To" = false := by decide
  have hAnd : ∀ name ∈ ["An", "d", "A", "nd"], contains name "And" = false := by decide
  refine ⟨hTo, fun hSame => ?_, hAnd, fun hSame => ?_⟩
  · exact absurd (((names_eq_iff_same_pair _ _ _ _).1 hTo).mp hSame) (by decide)
  · exact absurd (((names_eq_iff_same_pair _ _ _ _).2 hAnd).mp hSame) (by decide)

/-- A name with `To` in it can be taken for two. -/
example : manyToManyName "A" "BToC" = manyToManyName "AToB" "C" := by decide

end Relation

end Datamodel
