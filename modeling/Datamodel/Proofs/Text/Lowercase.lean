import Datamodel.Text
import Datamodel.Text.Lowercase

/-! Lower case of a text that is put together. The only character whose lower case depends on what
stands behind it is the capital sigma, and it asks only for the first character that is not
case-ignorable. So a text keeps its lower case when a cased character is put behind it, unless it
ends in a sigma that is written as a final one. -/
namespace Datamodel.Text

/-- Whether a text behind another one, which is given from its end backwards, ends in a capital
sigma that is written as a final one: behind a cased character, and with nothing but case-ignorable
characters behind it. -/
def endsInFinalSigmaAfter (before : List Char) : List Char → Bool
  | [] => false
  | c :: rest =>
    (c == capitalSigma && startsCased before && rest.all isCaseIgnorable) ||
      endsInFinalSigmaAfter (c :: before) rest

/-- Whether a text ends in a capital sigma that is written as a final one. -/
def endsInFinalSigma (s : String) : Bool :=
  endsInFinalSigmaAfter [] s.toList

example : endsInFinalSigma "ΛΌΓΟΣ." = true ∧ endsInFinalSigma "1Σ" = false := by
  decide +kernel

theorem startsCased_append (front behind : List Char) :
    startsCased (front ++ behind) =
      if front.all isCaseIgnorable then startsCased behind else startsCased front := by
  induction front with
  | nil => rfl
  | cons c front ih =>
      rw [List.cons_append, startsCased, startsCased, ih, List.all_cons]
      cases isCaseIgnorable c <;> simp

/-- Characters that are all passed over start with no cased one. -/
theorem startsCased_of_all_ignorable {cs : List Char} (h : cs.all isCaseIgnorable) :
    startsCased cs = false := by
  have hAppend := startsCased_append cs []
  rwa [List.append_nil, if_pos h] at hAppend

/-- What stands behind a character may change which one its lower case is, not how many. -/
theorem length_lowerBetween (before : List Char) (c : Char) (after other : List Char) :
    (lowerBetween before c after).length = (lowerBetween before c other).length := by
  unfold lowerBetween
  split <;> rfl

theorem length_lowercaseAfter_append (before cs behind : List Char) :
    (lowercaseAfter before (cs ++ behind)).length =
      (lowercaseAfter before cs ++ lowercaseAfter (cs.reverse ++ before) behind).length := by
  induction cs generalizing before with
  | nil => simp
  | cons c rest ih =>
      rw [List.cons_append, lowercaseAfter, lowercaseAfter, List.length_append, ih,
        length_lowerBetween before c (rest ++ behind) rest]
      simp

/-- A cased character behind a text makes a difference to a character of the text exactly if this
one is a sigma that would be a final one. -/
theorem lowerBetween_append_eq_iff {behind : List Char} (h : startsCased behind)
    (before : List Char) (c : Char) (rest : List Char) :
    lowerBetween before c (rest ++ behind) = lowerBetween before c rest ↔
      (c == capitalSigma && startsCased before && rest.all isCaseIgnorable) = false := by
  have hSigmas : finalSigma ≠ smallSigma := by decide
  by_cases hc : c = capitalSigma
  · subst hc
    rw [lowerBetween, lowerBetween, if_pos rfl, if_pos rfl, startsCased_append, h]
    cases hRest : rest.all isCaseIgnorable with
    | false => simp
    | true =>
        rw [startsCased_of_all_ignorable hRest]
        cases startsCased before <;> simp [hSigmas.symm]
  · simp [lowerBetween, hc]

/-- The lower case of a text stands in front of that of a cased character behind it exactly if the
text does not end in a final sigma. -/
theorem lowercaseAfter_append_eq_iff {behind : List Char} (h : startsCased behind)
    (before cs : List Char) :
    lowercaseAfter before (cs ++ behind) =
        lowercaseAfter before cs ++ lowercaseAfter (cs.reverse ++ before) behind ↔
      endsInFinalSigmaAfter before cs = false := by
  induction cs generalizing before with
  | nil => simp [endsInFinalSigmaAfter]
  | cons c rest ih =>
      have hParts {later : List Char} :
          lowerBetween before c (rest ++ behind) ++ lowercaseAfter (c :: before) (rest ++ behind) =
              lowerBetween before c rest ++ later ↔
            lowerBetween before c (rest ++ behind) = lowerBetween before c rest ∧
              lowercaseAfter (c :: before) (rest ++ behind) = later :=
        ⟨fun hSame => List.append_inj hSame (length_lowerBetween before c _ _),
          fun hSame => by rw [hSame.1, hSame.2]⟩
      rw [List.cons_append, lowercaseAfter, lowercaseAfter, List.append_assoc, hParts,
        lowerBetween_append_eq_iff h, endsInFinalSigmaAfter, Bool.or_eq_false_iff,
        List.reverse_cons, List.append_assoc, List.singleton_append, ih]

end Datamodel.Text
