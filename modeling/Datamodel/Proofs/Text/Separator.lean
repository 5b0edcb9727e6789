import Datamodel.Text

/-! Two texts with a separator between them, which is not escaped where the texts have it in them.
If the separator does not overlap with itself, it occurs nowhere across the place where a text and
the separator meet. So a first text without the separator in it ends at the first occurrence, and
both texts can be told from what is put together. -/
namespace Datamodel.Text

/-- Two occurrences of the characters never overlap: no end of them is also a beginning. -/
def IsUnbordered (cs : List Char) : Prop :=
  ∀ k < cs.length, 0 < k → ¬ cs.drop k <+: cs

instance (cs : List Char) : Decidable (IsUnbordered cs) :=
  inferInstanceAs (Decidable (∀ k < cs.length, 0 < k → ¬ cs.drop k <+: cs))

example : IsUnbordered "To".toList ∧ IsUnbordered "And".toList ∧ ¬ IsUnbordered "ToT".toList := by
  decide

/-- An occurrence at the beginning leaves no room for a later one that is not behind it. -/
theorem IsUnbordered.eq_nil_of_append_eq {separator : List Char} (h : IsUnbordered separator)
    {between behind rest : List Char} (hLacks : ¬ separator <:+: between)
    (hSame : separator ++ rest = between ++ (separator ++ behind)) : between = [] := by
  rcases List.append_eq_append_iff.mp hSame with ⟨more, hBetween, -⟩ | ⟨tail, hSeparator, hTail⟩
  · exact absurd ⟨[], more, by simp [hBetween]⟩ hLacks
  · by_cases hNil : between = []
    · exact hNil
    · -- The later occurrence begins inside the first one, in `tail`, which is an end of it.
      have hDrop : separator.drop between.length = tail := by
        rw [hSeparator, List.drop_left]
      have hInside : between.length < separator.length := by
        refine Nat.lt_of_not_le fun hLong => hLacks ?_
        rw [List.drop_eq_nil_of_le hLong] at hDrop
        have hAll : separator = between := by
          rw [hSeparator, ← hDrop, List.append_nil]
        exact hAll ▸ List.infix_rfl
      have hPrefix : tail <+: separator := by
        refine List.prefix_of_prefix_length_le ⟨rest, hTail.symm⟩ (List.prefix_append _ behind) ?_
        rw [← hDrop, List.length_drop]
        exact Nat.sub_le _ _
      exact absurd (hDrop ▸ hPrefix) (h between.length hInside (List.length_pos_iff.mpr hNil))

/-- What is put together comes apart in one way only, if neither first part has the separator in
it. -/
theorem IsUnbordered.append_inj {separator : List Char} (h : IsUnbordered separator)
    {first second other another : List Char} (hFirst : ¬ separator <:+: first)
    (hOther : ¬ separator <:+: other)
    (hSame : first ++ (separator ++ second) = other ++ (separator ++ another)) :
    first = other ∧ second = another := by
  rcases List.append_eq_append_iff.mp hSame with ⟨between, rfl, hRest⟩ | ⟨between, rfl, hRest⟩
  · have hLacks : ¬ separator <:+: between := fun hInfix =>
      hOther (hInfix.trans (List.suffix_append _ _).isInfix)
    obtain rfl := h.eq_nil_of_append_eq hLacks hRest
    simpa using hRest
  · have hLacks : ¬ separator <:+: between := fun hInfix =>
      hFirst (hInfix.trans (List.suffix_append _ _).isInfix)
    obtain rfl := h.eq_nil_of_append_eq hLacks hRest
    simpa [eq_comm] using hRest

theorem contains_eq_false_iff {s part : String} :
    contains s part = false ↔ ¬ part.toList <:+: s.toList := by
  rw [contains, ← Bool.not_eq_true, containsSlice_iff]

/-- The same for texts. -/
theorem append_separator_inj {separator first second other another : String}
    (h : IsUnbordered separator.toList) (hFirst : contains first separator = false)
    (hOther : contains other separator = false)
    (hSame : first ++ separator ++ second = other ++ separator ++ another) :
    first = other ∧ second = another := by
  rw [contains_eq_false_iff] at hFirst hOther
  rw [← String.toList_inj] at hSame
  simp only [String.toList_append, List.append_assoc] at hSame
  obtain ⟨hLeft, hRight⟩ := h.append_inj hFirst hOther hSame
  exact ⟨String.toList_inj.mp hLeft, String.toList_inj.mp hRight⟩

end Datamodel.Text
