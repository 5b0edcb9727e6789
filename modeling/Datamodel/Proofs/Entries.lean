import Datamodel.Entries
import Mathlib.Data.List.Induction

/-! Entries that are put in one after the other. A key stays at the place where it came up first,
and has what was put in for it last. -/
namespace Datamodel

section

variable {α : Type} [BEq α] [LawfulBEq α]

/-- Keys in the order in which they come up first: a last one counts only if it is new. -/
theorem eraseDups_concat (keys : List α) (key : α) :
    (keys ++ [key]).eraseDups =
      if key ∈ keys then keys.eraseDups else keys.eraseDups ++ [key] := by
  rw [List.eraseDups_append]
  by_cases h : key ∈ keys
  · simp [List.removeAll, h]
  · simp [List.removeAll, h, List.eraseDups_cons]

theorem nodup_eraseDups (keys : List α) : keys.eraseDups.Nodup := by
  induction keys using List.reverseRecOn with
  | nil => exact List.nodup_nil
  | append_singleton keys key ih =>
      rw [eraseDups_concat]
      split
      · exact ih
      · rename_i hNew
        have hNew : key ∉ keys.eraseDups := fun h => hNew (List.mem_eraseDups.mp h)
        simpa [List.nodup_append, ih] using fun a ha (h : a = key) => hNew (h ▸ ha)

end

namespace Entries

section

variable {α β : Type} [BEq α] [LawfulBEq α] {entries others : List (α × β)}

theorem lookup_eq_some_iff_of_nodup (h : (entries.map (·.1)).Nodup) {key : α} {value : β} :
    entries.lookup key = some value ↔ (key, value) ∈ entries := by
  induction entries with
  | nil => simp
  | cons first rest ih =>
      obtain ⟨other, kept⟩ := first
      rw [List.map_cons, List.nodup_cons] at h
      by_cases hKey : key = other
      · subst hKey
        have hRest : (key, value) ∉ rest := fun hMem => h.1 (List.mem_map.mpr ⟨_, hMem, rfl⟩)
        simp [hRest, eq_comm]
      · simp [List.lookup_cons, beq_false_of_ne hKey, ih h.2, hKey]

/-- Where keys are different, the order of the entries does not matter to a look-up. -/
theorem lookup_eq_of_perm (hPerm : others.Perm entries) (h : (entries.map (·.1)).Nodup)
    (key : α) : others.lookup key = entries.lookup key := by
  have hOthers : (others.map (·.1)).Nodup := (hPerm.map (·.1)).nodup_iff.mpr h
  refine Option.ext fun value => ?_
  rw [lookup_eq_some_iff_of_nodup hOthers, lookup_eq_some_iff_of_nodup h, hPerm.mem_iff]

end

variable {α β : Type} [BEq α]

/-- Entries put in one after the other. -/
def putAll (entries : List (α × β)) : List (α × β) :=
  entries.foldl (fun kept e => put e.1 e.2 kept) []

theorem putAll_concat (entries : List (α × β)) (e : α × β) :
    putAll (entries ++ [e]) = put e.1 e.2 (putAll entries) := by
  rw [putAll, List.foldl_append]
  rfl

variable [LawfulBEq α]

/-- Keys keep their places, and a new one comes last. -/
theorem map_fst_put (key : α) (value : β) (entries : List (α × β)) :
    (put key value entries).map (·.1) =
      if key ∈ entries.map (·.1) then entries.map (·.1) else entries.map (·.1) ++ [key] := by
  induction entries with
  | nil => simp [put]
  | cons first rest ih =>
      obtain ⟨other, kept⟩ := first
      by_cases h : other = key
      · simp [put, h]
      · have hNe : ¬ key = other := Ne.symm h
        simp only [put, beq_eq_false_iff_ne.mpr h, Bool.false_eq_true, if_false, List.map_cons,
          ih, List.mem_cons, hNe, false_or]
        split <;> rfl

theorem map_fst_putAll (entries : List (α × β)) :
    (putAll entries).map (·.1) = (entries.map (·.1)).eraseDups := by
  induction entries using List.reverseRecOn with
  | nil => rfl
  | append_singleton entries e ih =>
      simp only [putAll_concat, map_fst_put, ih, List.map_append, List.map_cons, List.map_nil,
        eraseDups_concat, List.mem_eraseDups]

theorem lookup_putAll (key : α) (entries : List (α × β)) :
    (putAll entries).lookup key = (entries.filter (·.1 == key)).getLast?.map (·.2) := by
  induction entries using List.reverseRecOn with
  | nil => rfl
  | append_singleton entries e ih =>
      rw [putAll_concat, List.filter_append]
      by_cases h : e.1 = key
      · subst h
        simp [lookup_put_self]
      · rw [lookup_put_of_ne (Ne.symm h), ih]
        simp [h]

end Entries

end Datamodel
