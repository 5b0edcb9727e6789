import Datamodel.Text.Lowercase

/-! Texts that differ at most in the case of ASCII letters. They have the same lower case: a letter
has the same lower case as its other form, it is cased in both forms and passed over in neither, so
even a sigma in its neighbourhood is written in the same way. -/
namespace Datamodel.Text

/-- Two texts that differ at most in the case of ASCII letters. -/
def SameLetters (s t : String) : Prop :=
  s.toList.map Char.toLower = t.toList.map Char.toLower

instance (s t : String) : Decidable (SameLetters s t) :=
  inferInstanceAs (Decidable (s.toList.map Char.toLower = t.toList.map Char.toLower))

/-- What is the same for a capital ASCII letter and the small one is the same for any character and
its lower case in ASCII: the other characters have none. -/
theorem apply_toLower_of_capital {α : Type} (view : Char → α)
    (h : ∀ n < 26, view (Char.ofNat (0x41 + n)).toLower = view (Char.ofNat (0x41 + n)))
    (c : Char) : view c.toLower = view c := by
  by_cases hCapital : c.val ≥ 'A'.val ∧ c.val ≤ 'Z'.val
  · have hFirst : 0x41 ≤ c.toNat := hCapital.1
    have hLast : c.toNat ≤ 0x5A := hCapital.2
    have hLetter := h (c.toNat - 0x41) (by omega)
    rwa [Nat.add_sub_cancel' hFirst, Char.ofNat_toNat] at hLetter
  · have hSame : c.toLower = c := dif_neg hCapital
    rw [hSame]

theorem isCased_toLower (c : Char) : isCased c.toLower = isCased c :=
  apply_toLower_of_capital isCased (by decide +kernel) c

theorem isCaseIgnorable_toLower (c : Char) : isCaseIgnorable c.toLower = isCaseIgnorable c :=
  apply_toLower_of_capital isCaseIgnorable (by decide +kernel) c

theorem lowerChar_toLower (c : Char) : lowerChar c.toLower = lowerChar c :=
  apply_toLower_of_capital lowerChar (by decide +kernel) c

theorem toLower_eq_capitalSigma_iff (c : Char) : c.toLower = capitalSigma ↔ c = capitalSigma := by
  have hSame := apply_toLower_of_capital (fun c => decide (c = capitalSigma)) (by decide +kernel) c
  simpa only [decide_eq_decide] using hSame

theorem startsCased_map_toLower (cs : List Char) :
    startsCased (cs.map Char.toLower) = startsCased cs := by
  induction cs with
  | nil => rfl
  | cons c cs ih =>
      rw [List.map_cons, startsCased, startsCased, isCaseIgnorable_toLower, isCased_toLower, ih]

theorem lowerBetween_toLower (before : List Char) (c : Char) (after : List Char) :
    lowerBetween (before.map Char.toLower) c.toLower (after.map Char.toLower) =
      lowerBetween before c after := by
  simp only [lowerBetween, toLower_eq_capitalSigma_iff, startsCased_map_toLower, lowerChar_toLower]

theorem lowercaseAfter_map_toLower (before cs : List Char) :
    lowercaseAfter (before.map Char.toLower) (cs.map Char.toLower) = lowercaseAfter before cs := by
  induction cs generalizing before with
  | nil => rfl
  | cons c cs ih =>
      rw [List.map_cons, lowercaseAfter, lowercaseAfter, lowerBetween_toLower, ← List.map_cons, ih]

theorem SameLetters.lowercase_eq {s t : String} (h : SameLetters s t) :
    lowercase s = lowercase t := by
  have hSmall (u : String) :
      lowercase u = String.ofList (lowercaseAfter [] (u.toList.map Char.toLower)) :=
    congrArg String.ofList (lowercaseAfter_map_toLower [] u.toList).symm
  rw [hSmall s, hSmall t, h]

end Datamodel.Text
