/-!
Lists of entries, each a key with what belongs to it. A key is looked up in the first entry that
has it, and keys stay in the order in which they came up.
-/

namespace Datamodel.Entries

variable {α β : Type} [BEq α]

/-- The entries with that of a key replaced, or with a new one at the end if there is none. -/
def put (key : α) (value : β) : List (α × β) → List (α × β)
  | [] => [(key, value)]
  | (other, kept) :: rest =>
    if other == key then (key, value) :: rest else (other, kept) :: put key value rest

variable [LawfulBEq α]

theorem lookup_put_self (key : α) (value : β) (entries : List (α × β)) :
    (put key value entries).lookup key = some value := by
  induction entries with
  | nil => simp [put]
  | cons first rest ih =>
    obtain ⟨other, kept⟩ := first
    by_cases h : other = key
    · simp [put, h]
    · have hNe : (key == other) = false := beq_false_of_ne (Ne.symm h)
      simp [put, h, List.lookup_cons, hNe, ih]

theorem lookup_put_of_ne {key asked : α} (h : asked ≠ key) (value : β)
    (entries : List (α × β)) :
    (put key value entries).lookup asked = entries.lookup asked := by
  have hNe : (asked == key) = false := beq_false_of_ne h
  induction entries with
  | nil => simp [put, List.lookup_cons, hNe]
  | cons first rest ih =>
    obtain ⟨other, kept⟩ := first
    by_cases hOther : other = key
    · simp [put, hOther, List.lookup_cons, hNe]
    · simp [put, hOther, List.lookup_cons, ih]

end Datamodel.Entries
