import Datamodel.Text

/-! Texts in the order of what they are encoded in. An encoding writes every character as some
numbers, and what it writes for two characters differs before either ends. So two encoded texts are
told apart where the texts themselves first differ, and by the two characters that stand there;
where one text continues the other, the shorter one comes first in any encoding. -/
namespace Datamodel.Text

/-- The lists agree up to a place where the first has `x` and the second has `y`, and these two
differ. -/
def FirstDiffer {α : Type} (xs ys : List α) (x y : α) : Prop :=
  x ≠ y ∧ ∃ common xs' ys', xs = common ++ x :: xs' ∧ ys = common ++ y :: ys'

namespace FirstDiffer

variable {α : Type} {xs ys : List α} {x y : α}

theorem head (h : x ≠ y) (xs ys : List α) : FirstDiffer (x :: xs) (y :: ys) x y :=
  ⟨h, [], xs, ys, rfl, rfl⟩

theorem append_left (h : FirstDiffer xs ys x y) (common : List α) :
    FirstDiffer (common ++ xs) (common ++ ys) x y := by
  obtain ⟨hNe, before, xs', ys', rfl, rfl⟩ := h
  exact ⟨hNe, common ++ before, xs', ys', by simp, by simp⟩

theorem cons (h : FirstDiffer xs ys x y) (a : α) : FirstDiffer (a :: xs) (a :: ys) x y :=
  h.append_left [a]

theorem append_right (h : FirstDiffer xs ys x y) (as bs : List α) :
    FirstDiffer (xs ++ as) (ys ++ bs) x y := by
  obtain ⟨hNe, common, xs', ys', rfl, rfl⟩ := h
  exact ⟨hNe, common, xs' ++ as, ys' ++ bs, by simp, by simp⟩

theorem symm (h : FirstDiffer xs ys x y) : FirstDiffer ys xs y x := by
  obtain ⟨hNe, common, xs', ys', hxs, hys⟩ := h
  exact ⟨hNe.symm, common, ys', xs', hys, hxs⟩

theorem mem_left (h : FirstDiffer xs ys x y) : x ∈ xs := by
  obtain ⟨-, common, xs', ys', rfl, rfl⟩ := h
  simp

theorem mem_right (h : FirstDiffer xs ys x y) : y ∈ ys :=
  h.symm.mem_left

/-- What the lists are made into first differs where the images of the two members do. -/
theorem flatMap {β : Type} {code : α → List β} {u v : β} (h : FirstDiffer xs ys x y)
    (hCode : FirstDiffer (code x) (code y) u v) :
    FirstDiffer (xs.flatMap code) (ys.flatMap code) u v := by
  obtain ⟨-, common, xs', ys', rfl, rfl⟩ := h
  simp only [List.flatMap_append, List.flatMap_cons]
  exact (hCode.append_right _ _).append_left _

end FirstDiffer

/-- Two lists first differ somewhere, unless one of them starts with the other. -/
theorem prefix_or_firstDiffer {α : Type} (xs ys : List α) :
    xs <+: ys ∨ ys <+: xs ∨ ∃ x y, FirstDiffer xs ys x y := by
  induction xs generalizing ys with
  | nil => exact .inl List.nil_prefix
  | cons x xs ih =>
      cases ys with
      | nil => exact .inr (.inl List.nil_prefix)
      | cons y ys =>
          by_cases h : x = y
          · subst h
            simp only [List.cons_prefix_cons, true_and]
            exact (ih ys).imp_right (.imp_right fun ⟨u, v, hDiffer⟩ => ⟨u, v, hDiffer.cons x⟩)
          · exact .inr (.inr ⟨x, y, .head h xs ys⟩)

/-- Lists in the order of a dictionary first differ in members in that order, unless the second
list continues the first. -/
theorem exists_firstDiffer_of_lt {xs ys : List Nat} (h : xs < ys) (hPrefix : ¬ xs <+: ys) :
    ∃ x y, FirstDiffer xs ys x y ∧ x < y := by
  induction xs generalizing ys with
  | nil => exact absurd List.nil_prefix hPrefix
  | cons x xs ih =>
      cases ys with
      | nil => exact absurd h (List.not_lt_nil _)
      | cons y ys =>
          rcases List.cons_lt_cons_iff.mp h with hHead | ⟨rfl, hTail⟩
          · exact ⟨x, y, .head (Nat.ne_of_lt hHead) xs ys, hHead⟩
          · obtain ⟨u, v, hDiffer, hLt⟩ := ih hTail (by simpa using hPrefix)
            exact ⟨u, v, hDiffer.cons x, hLt⟩

theorem compare_append_left (common xs ys : List Nat) :
    compare (common ++ xs) (common ++ ys) = compare xs ys := by
  induction common with
  | nil => rfl
  | cons n common ih =>
      rw [List.cons_append, List.cons_append, List.compare_cons_cons, ih,
        Nat.compare_eq_eq.mpr rfl]
      rfl

/-- The order of two lists is that of the members in which they first differ. -/
theorem FirstDiffer.compare_eq {xs ys : List Nat} {x y : Nat} (h : FirstDiffer xs ys x y) :
    compare xs ys = compare x y := by
  obtain ⟨hNe, common, xs', ys', rfl, rfl⟩ := h
  rw [compare_append_left, List.compare_cons_cons]
  cases hOrder : compare x y with
  | lt => rfl
  | gt => rfl
  | eq => exact absurd (Nat.compare_eq_eq.mp hOrder) hNe

theorem precedes_eq_isLE_compare (xs ys : List Nat) : precedes xs ys = (compare xs ys).isLE := by
  induction xs generalizing ys with
  | nil => cases ys <;> rfl
  | cons x xs ih =>
      cases ys with
      | nil => rfl
      | cons y ys =>
          rw [precedes, List.compare_cons_cons, ih]
          rcases Nat.lt_trichotomy x y with h | rfl | h
          · simp [Nat.compare_eq_lt.mpr h, h]
          · simp
          · have hNot : ¬ x < y := Nat.lt_asymm h
            simp [Nat.compare_eq_gt.mpr h, hNot, Nat.ne_of_gt h]

/-- A way to write characters as numbers: none is written as nothing, and what is written for two
characters differs before either ends. -/
structure IsEncoding (code : Char → List Nat) : Prop where
  ne_nil : ∀ c, code c ≠ []
  differ : ∀ {c d : Char}, c ≠ d → ∃ x y, FirstDiffer (code c) (code d) x y

namespace IsEncoding

variable {code : Char → List Nat}

/-- A text stands before its continuations, whatever these are encoded in. -/
theorem compare_append (h : IsEncoding code) (cs rest : List Char) :
    compare (cs.flatMap code) ((cs ++ rest).flatMap code) =
      compare cs.length (cs ++ rest).length := by
  have hEmpty := compare_append_left (cs.flatMap code) [] (rest.flatMap code)
  rw [List.append_nil, ← List.flatMap_append] at hEmpty
  rw [hEmpty]
  cases rest with
  | nil => simp
  | cons c rest =>
      obtain ⟨x, xs, hCode⟩ := List.exists_cons_of_ne_nil (h.ne_nil c)
      have hLonger : cs.length < (cs ++ c :: rest).length := by simp
      rw [List.flatMap_cons, hCode, List.cons_append, List.compare_nil_cons,
        Nat.compare_eq_lt.mpr hLonger]

/-- Different texts are encoded differently. -/
theorem compare_eq_iff (h : IsEncoding code) {cs ds : List Char} :
    compare (cs.flatMap code) (ds.flatMap code) = .eq ↔ cs = ds := by
  constructor
  · intro hEq
    rcases prefix_or_firstDiffer cs ds with ⟨rest, rfl⟩ | ⟨rest, rfl⟩ | ⟨c, d, hDiffer⟩
    · rw [h.compare_append, Nat.compare_eq_eq] at hEq
      simpa using hEq
    · rw [Std.OrientedOrd.eq_swap, h.compare_append, Ordering.swap_eq_eq, Nat.compare_eq_eq] at hEq
      simpa using hEq
    · obtain ⟨x, y, hCode⟩ := h.differ hDiffer.1
      rw [(hDiffer.flatMap hCode).compare_eq, Nat.compare_eq_eq] at hEq
      exact absurd hEq hCode.1
  · rintro rfl
    exact Std.ReflOrd.compare_self

end IsEncoding

end Datamodel.Text
