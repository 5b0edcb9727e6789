import Datamodel.Text.Lowercase

/-! Lower case a second time changes nothing. No character is sent to one that is sent elsewhere, so
the characters of a text in lower case are their own lower-case forms. The capital sigma, which is
the only character whose form depends on its neighbours, is not among them. -/
namespace Datamodel.Text

namespace CaseRun

theorem covers_iff {run : CaseRun} {n : Nat} :
    run.covers n ↔ run.first ≤ n ∧ n ≤ run.last ∧ (n - run.first) % run.step = 0 := by
  simp [covers, and_assoc]

/-- The run sends its characters to none that the other one moves: they lie apart, or both go on by
two and one has the even characters where the other has the odd ones. -/
def avoids (run other : CaseRun) : Bool :=
  -- All pairs of runs are tested below, and `Nat.blt` is computed much faster than `<` is decided.
  Nat.blt (run.target + (run.last - run.first)) other.first || Nat.blt other.last run.target ||
    (other.step == 2 && (run.step == 2 || run.first == run.last) &&
      run.target % 2 != other.first % 2)

theorem not_covers_image {run other : CaseRun} (h : run.avoids other) {n : Nat}
    (hCovers : run.covers n) : ¬ other.covers (run.image n) := by
  rw [covers_iff] at hCovers ⊢
  obtain ⟨hFirst, hLast, hStep⟩ := hCovers
  simp only [avoids, Bool.or_eq_true, Nat.blt_eq, Bool.and_eq_true, beq_iff_eq, bne_iff_ne] at h
  rw [image]
  intro hOther
  rcases h with (hBelow | hAbove) | ⟨⟨hTwo, hRun⟩, hParity⟩
  · omega
  · omega
  · rw [hTwo] at hOther
    rcases hRun with hRunTwo | hSingle
    · rw [hRunTwo] at hStep
      omega
    · omega

theorem find?_eq_none_of_forall {n : Nat} {runs : List CaseRun}
    (h : ∀ run ∈ runs, ¬ run.covers n) : find? n runs = none := by
  cases hFind : find? n runs with
  | none => rfl
  | some run =>
      obtain ⟨hMem, hCovers⟩ := mem_and_covers_of_find? hFind
      exact absurd hCovers (h run hMem)

end CaseRun

theorem lowerRuns_avoid : ∀ run ∈ lowerRuns, ∀ other ∈ lowerRuns, run.avoids other := by
  have hAll : (lowerRuns.all fun run => lowerRuns.all run.avoids) = true := by decide +kernel
  simpa only [List.all_eq_true] using hAll

/-- No run leads to the character whose lower-case form has two characters. -/
theorem lowerRuns_avoid_dotted : ∀ run ∈ lowerRuns,
    run.target + (run.last - run.first) < 0x130 ∨ 0x130 < run.target := by
  decide +kernel

theorem lowerChar_ofNat {n : Nat} (hDotted : n ≠ 0x130)
    (hRuns : CaseRun.find? n lowerRuns = none) : lowerChar (Char.ofNat n) = [Char.ofNat n] := by
  by_cases hValid : n.isValidChar
  · have hNumber : (Char.ofNat n).toNat = n := by
      rw [Char.ofNat, dif_pos hValid]
      rfl
    rw [lowerChar, hNumber, if_neg hDotted, hRuns]
  · have hNul : Char.ofNat n = '\x00' := by
      rw [Char.ofNat, dif_neg hValid]
      rfl
    rw [hNul]
    decide +kernel

/-- What a character is sent to is sent nowhere else. -/
theorem lowerChar_of_mem_lowerChar {c d : Char} (h : d ∈ lowerChar c) : lowerChar d = [d] := by
  unfold lowerChar at h
  split at h
  · have hLetter : lowerChar 'i' = ['i'] := rfl
    have hDot : lowerChar (Char.ofNat 0x307) = [Char.ofNat 0x307] := rfl
    rcases List.mem_cons.mp h with rfl | hSecond
    · exact hLetter
    · rw [List.mem_singleton.mp hSecond, hDot]
  · rename_i hDotted
    split at h
    · rename_i run hFind
      rw [List.mem_singleton] at h
      obtain ⟨hRun, hCovers⟩ := CaseRun.mem_and_covers_of_find? hFind
      have hNone : CaseRun.find? (run.image c.toNat) lowerRuns = none :=
        CaseRun.find?_eq_none_of_forall fun other hOther =>
          CaseRun.not_covers_image (lowerRuns_avoid run hRun other hOther) hCovers
      have hImage : run.image c.toNat ≠ 0x130 := by
        have hApart := lowerRuns_avoid_dotted run hRun
        obtain ⟨hFirst, hLast, -⟩ := CaseRun.covers_iff.mp hCovers
        rw [CaseRun.image]
        omega
      rw [h, lowerChar_ofNat hImage hNone]
    · rename_i hFind
      rw [List.mem_singleton] at h
      have hSame := lowerChar_ofNat hDotted hFind
      rwa [Char.ofNat_toNat, ← h] at hSame

theorem ne_capitalSigma_of_lowerChar {c : Char} (h : lowerChar c = [c]) : c ≠ capitalSigma := by
  have hSigma : lowerChar capitalSigma ≠ [capitalSigma] := by decide +kernel
  intro hc
  exact hSigma (hc ▸ h)

theorem lowerChar_of_mem_lowerBetween {before : List Char} {c : Char} {after : List Char}
    {d : Char} (h : d ∈ lowerBetween before c after) : lowerChar d = [d] := by
  unfold lowerBetween at h
  split at h
  · have hSmall : lowerChar smallSigma = [smallSigma] := by decide +kernel
    have hFinal : lowerChar finalSigma = [finalSigma] := by decide +kernel
    rw [List.mem_singleton] at h
    rw [h]
    split
    · exact hFinal
    · exact hSmall
  · exact lowerChar_of_mem_lowerChar h

theorem lowerChar_of_mem_lowercaseAfter {before cs : List Char} {d : Char}
    (h : d ∈ lowercaseAfter before cs) : lowerChar d = [d] := by
  induction cs generalizing before with
  | nil => cases h
  | cons c cs ih =>
      rcases List.mem_append.mp h with hFirst | hLater
      · exact lowerChar_of_mem_lowerBetween hFirst
      · exact ih hLater

/-- Without a capital sigma the neighbours of a character do not matter. -/
theorem lowercaseAfter_eq_self {cs : List Char} (h : ∀ c ∈ cs, lowerChar c = [c])
    (before : List Char) : lowercaseAfter before cs = cs := by
  induction cs generalizing before with
  | nil => rfl
  | cons c cs ih =>
      have hFirst := h c (by simp)
      have hOthers := ih (fun d hd => h d (by simp [hd])) (c :: before)
      rw [lowercaseAfter, lowerBetween, if_neg (ne_capitalSigma_of_lowerChar hFirst), hFirst,
        hOthers]
      rfl

/-- All characters of the text are their own lower-case forms. -/
def IsLower (s : String) : Prop :=
  ∀ c ∈ s.toList, lowerChar c = [c]

theorem isLower_lowercase (s : String) : IsLower (lowercase s) := by
  intro c hc
  rw [toList_lowercase] at hc
  exact lowerChar_of_mem_lowercaseAfter hc

namespace IsLower

variable {s t : String}

theorem append (hs : IsLower s) (ht : IsLower t) : IsLower (s ++ t) := by
  intro c hc
  rw [String.toList_append] at hc
  rcases List.mem_append.mp hc with hFront | hBack
  · exact hs c hFront
  · exact ht c hBack

theorem lowercase_eq (h : IsLower s) : lowercase s = s := by
  rw [← String.toList_inj, toList_lowercase, lowercaseAfter_eq_self h]

theorem capitalSigma_notMem (h : IsLower s) : capitalSigma ∉ s.toList := by
  intro hMem
  exact ne_capitalSigma_of_lowerChar (h capitalSigma hMem) rfl

theorem isUpper_eq_false (h : IsLower s) : ∀ c ∈ s.toList, c.isUpper = false := by
  have hLetters : ∀ n < 26, lowerChar (Char.ofNat (0x41 + n)) ≠ [Char.ofNat (0x41 + n)] := by
    decide +kernel
  intro c hc
  cases hUpper : c.isUpper with
  | false => rfl
  | true =>
      have hRange := of_decide_eq_true hUpper
      have hFirst : 0x41 ≤ c.toNat := UInt32.le_iff_toNat_le.mp hRange.1
      have hLast : c.toNat ≤ 0x5A := UInt32.le_iff_toNat_le.mp hRange.2
      have hLetter := hLetters (c.toNat - 0x41) (by omega)
      rw [Nat.add_sub_cancel' hFirst, Char.ofNat_toNat] at hLetter
      exact absurd (h c hc) hLetter

end IsLower

end Datamodel.Text
