import Datamodel.Proofs.Text.Encoding

/-! The order of texts by their bytes in UTF-8 and by their code units in UTF-16. The bytes of two
characters are in the order of the characters. So are their code units, unless one character is
outside the basic plane and the other is in it behind the surrogates. Then the surrogates of the one
come before the other, and the two orders are opposite. -/
namespace Datamodel.Text

/-- The numbers of characters leave out the surrogates. -/
theorem toNat_isValid (c : Char) :
    c.toNat < 0xD800 ∨ 0xDFFF < c.toNat ∧ c.toNat < 0x110000 :=
  c.valid

/-! ### UTF-8 -/

/-- The bytes of a text in UTF-8, as numbers. -/
def bytes (s : String) : List Nat :=
  s.toUTF8.data.toList.map (·.toNat)

/-- The bytes of a character. -/
def charBytes (c : Char) : List Nat :=
  (String.utf8EncodeChar c).map (·.toNat)

theorem bytes_eq_flatMap (s : String) : bytes s = s.toList.flatMap charBytes := by
  have hUtf8 : s.toUTF8.data.toList = s.toList.flatMap String.utf8EncodeChar := by
    rw [String.toUTF8_eq_toByteArray, ← String.utf8Encode_toList, List.utf8Encode,
      List.toList_data_toByteArray]
  rw [bytes, hUtf8, List.map_flatMap]
  rfl

/-- The digits of a number to the base 64, as many as it needs, each marked as a byte of UTF-8. The
mark of the first one tells how many there are. -/
def markedDigits (n : Nat) : List Nat :=
  if n ≤ 0x7F then [n]
  else if n ≤ 0x7FF then [n / 64 + 192, n % 64 + 128]
  else if n ≤ 0xFFFF then [n / 4096 + 224, n / 64 % 64 + 128, n % 64 + 128]
  else [n / 262144 + 240, n / 4096 % 64 + 128, n / 64 % 64 + 128, n % 64 + 128]

theorem markedDigits_cases (n : Nat) :
    n ≤ 0x7F ∧ markedDigits n = [n] ∨
      (0x7F < n ∧ n ≤ 0x7FF) ∧ markedDigits n = [n / 64 + 192, n % 64 + 128] ∨
      (0x7FF < n ∧ n ≤ 0xFFFF) ∧
        markedDigits n = [n / 4096 + 224, n / 64 % 64 + 128, n % 64 + 128] ∨
      0xFFFF < n ∧
        markedDigits n =
          [n / 262144 + 240, n / 4096 % 64 + 128, n / 64 % 64 + 128, n % 64 + 128] := by
  unfold markedDigits
  grind

/-- No digit is cut off where it is stored in a byte. -/
theorem charBytes_eq_markedDigits (c : Char) : charBytes c = markedDigits c.toNat := by
  have hValid := toNat_isValid c
  have hOfNat {n : Nat} (h : n < 256) : (UInt8.ofNat n).toNat = n := by
    rw [UInt8.toNat_ofNat']
    exact Nat.mod_eq_of_lt h
  rw [charBytes, String.utf8EncodeChar, Char.toNat_val, markedDigits]
  split
  · rw [List.map_singleton, hOfNat (by omega)]
  split
  · simp (disch := omega) only [List.map_cons, List.map_nil, hOfNat, Nat.mod_eq_of_lt]
  split
  · simp (disch := omega) only [List.map_cons, List.map_nil, hOfNat, Nat.mod_eq_of_lt]
  · simp (disch := omega) only [List.map_cons, List.map_nil, hOfNat, Nat.mod_eq_of_lt]

/-- The digits keep the order of the numbers, and those of one number do not continue those of
another. -/
theorem markedDigits_lt {m n : Nat} (h : m < n) (hMax : n < 0x110000) :
    markedDigits m < markedDigits n ∧ ¬ markedDigits m <+: markedDigits n := by
  -- Where the numbers of digits are the same, the first digit that is not the same decides. Where
  -- they are not, the marks of the first digits do.
  rcases markedDigits_cases m with ⟨hm, hFirst⟩ | ⟨hm, hFirst⟩ | ⟨hm, hFirst⟩ | ⟨hm, hFirst⟩ <;>
    rcases markedDigits_cases n with ⟨hn, hSecond⟩ | ⟨hn, hSecond⟩ | ⟨hn, hSecond⟩ | ⟨hn, hSecond⟩
  all_goals
    rw [hFirst, hSecond]
    simp only [List.cons_lt_cons_iff, List.cons_prefix_cons, List.not_lt_nil, List.nil_lt_cons,
      List.nil_prefix, List.prefix_nil, reduceCtorEq, and_false, or_false, and_true]
    omega

/-- The bytes of two characters differ before either ends, and are in the order of the
characters. -/
theorem exists_firstDiffer_charBytes {c d : Char} (h : c ≠ d) :
    ∃ x y, FirstDiffer (charBytes c) (charBytes d) x y ∧
      compare x y = compare c.toNat d.toNat := by
  have hLess {c d : Char} (hLt : c.toNat < d.toNat) :
      ∃ x y, FirstDiffer (charBytes c) (charBytes d) x y ∧ x < y := by
    have hMax : d.toNat < 0x110000 := by
      have hValid := toNat_isValid d
      omega
    obtain ⟨hDigits, hPrefix⟩ := markedDigits_lt hLt hMax
    rw [charBytes_eq_markedDigits, charBytes_eq_markedDigits]
    exact exists_firstDiffer_of_lt hDigits hPrefix
  rcases Nat.lt_or_gt_of_ne (mt Char.toNat_inj.mp h) with hLt | hGt
  · obtain ⟨x, y, hDiffer, hxy⟩ := hLess hLt
    exact ⟨x, y, hDiffer, by rw [Nat.compare_eq_lt.mpr hxy, Nat.compare_eq_lt.mpr hLt]⟩
  · obtain ⟨x, y, hDiffer, hxy⟩ := hLess hGt
    exact ⟨y, x, hDiffer.symm, by rw [Nat.compare_eq_gt.mpr hxy, Nat.compare_eq_gt.mpr hGt]⟩

theorem isEncoding_charBytes : IsEncoding charBytes where
  ne_nil c := by simp [charBytes, String.utf8EncodeChar_ne_nil]
  differ h := by
    obtain ⟨x, y, hDiffer, -⟩ := exists_firstDiffer_charBytes h
    exact ⟨x, y, hDiffer⟩

/-! ### UTF-16 -/

/-- One of two characters is outside the basic plane, and the other is in the basic plane behind the
surrogates. -/
def StraddlesSurrogates (c d : Char) : Prop :=
  0x10000 ≤ c.toNat ∧ (0xE000 ≤ d.toNat ∧ d.toNat ≤ 0xFFFF) ∨
    (0xE000 ≤ c.toNat ∧ c.toNat ≤ 0xFFFF) ∧ 0x10000 ≤ d.toNat

instance (c d : Char) : Decidable (StraddlesSurrogates c d) :=
  inferInstanceAs (Decidable (_ ∨ _))

theorem compare_eq_compare_of_lt_iff {x y m n : Nat} (hxy : x ≠ y) (hmn : m ≠ n)
    (h : x < y ↔ m < n) : compare x y = compare m n := by
  rcases Nat.lt_or_gt_of_ne hmn with hLt | hGt
  · rw [Nat.compare_eq_lt.mpr hLt, Nat.compare_eq_lt.mpr (h.mpr hLt)]
  · rw [Nat.compare_eq_gt.mpr hGt, Nat.compare_eq_gt.mpr (by omega)]

/-- The code units of two characters differ before either ends. They are in the order of the
characters, or in the opposite one if the characters stand on the two sides of the surrogates. -/
theorem exists_firstDiffer_charUnits {c d : Char} (h : c ≠ d) :
    ∃ x y, FirstDiffer (charUnits c) (charUnits d) x y ∧
      (¬ StraddlesSurrogates c d → compare x y = compare c.toNat d.toNat) ∧
      (StraddlesSurrogates c d → compare x y = compare d.toNat c.toNat) := by
  have hNe : c.toNat ≠ d.toNat := mt Char.toNat_inj.mp h
  have hc := toNat_isValid c
  have hd := toNat_isValid d
  suffices hUnits : ∃ x y, FirstDiffer (charUnits c) (charUnits d) x y ∧
      (¬ StraddlesSurrogates c d → (x < y ↔ c.toNat < d.toNat)) ∧
      (StraddlesSurrogates c d → (x < y ↔ d.toNat < c.toNat)) by
    obtain ⟨x, y, hDiffer, hSame, hOpposite⟩ := hUnits
    exact ⟨x, y, hDiffer,
      fun hNot => compare_eq_compare_of_lt_iff hDiffer.1 hNe (hSame hNot),
      fun hStraddles => compare_eq_compare_of_lt_iff hDiffer.1 hNe.symm (hOpposite hStraddles)⟩
  unfold charUnits StraddlesSurrogates
  by_cases hm : c.toNat < 0x10000 <;> by_cases hn : d.toNat < 0x10000
  · rw [if_pos hm, if_pos hn]
    exact ⟨_, _, .head hNe _ _, by omega, by omega⟩
  · rw [if_pos hm, if_neg hn]
    exact ⟨_, _, .head (by omega) _ _, by omega, by omega⟩
  · rw [if_neg hm, if_pos hn]
    exact ⟨_, _, .head (by omega) _ _, by omega, by omega⟩
  · rw [if_neg hm, if_neg hn]
    by_cases hHigh : (c.toNat - 0x10000) / 0x400 = (d.toNat - 0x10000) / 0x400
    · rw [hHigh]
      exact ⟨_, _, (FirstDiffer.head (by omega) _ _).cons _, by omega, by omega⟩
    · exact ⟨_, _, .head (by omega) _ _, by omega, by omega⟩

theorem isEncoding_charUnits : IsEncoding charUnits where
  ne_nil c := by
    simp only [charUnits]
    split <;> simp
  differ h := by
    obtain ⟨x, y, hDiffer, -⟩ := exists_firstDiffer_charUnits h
    exact ⟨x, y, hDiffer⟩

/-! ### Texts -/

theorem compare_units_eq_iff {a b : String} : compare (units a) (units b) = .eq ↔ a = b := by
  rw [units, units, isEncoding_charUnits.compare_eq_iff, String.toList_inj]

theorem unitSorted_eq_ite (a b : String) :
    unitSorted a b = if (compare (units a) (units b)).isLE then (a, b) else (b, a) := by
  rw [unitSorted, precedes_eq_isLE_compare]

/-- Two texts are put in the same order from either side. If neither comes first, they are the same
text. -/
theorem unitSorted_comm (a b : String) : unitSorted a b = unitSorted b a := by
  rw [unitSorted_eq_ite, unitSorted_eq_ite, Std.OrientedOrd.eq_swap]
  cases hOrder : compare (units b) (units a) with
  | lt => rfl
  | gt => rfl
  | eq =>
      obtain rfl : b = a := compare_units_eq_iff.mp hOrder
      rfl

theorem unitSorted_cases (a b : String) :
    ((unitSorted a b).1 = a ∧ (unitSorted a b).2 = b ∨
      (unitSorted a b).1 = b ∧ (unitSorted a b).2 = a) ∧
    (compare (units (unitSorted a b).1) (units (unitSorted a b).2)).isLE := by
  rw [unitSorted_eq_ite]
  cases hOrder : compare (units a) (units b) with
  | lt => exact ⟨.inl ⟨rfl, rfl⟩, by simp [hOrder]⟩
  | eq => exact ⟨.inl ⟨rfl, rfl⟩, by simp [hOrder]⟩
  | gt =>
      refine ⟨.inr ⟨rfl, rfl⟩, ?_⟩
      rw [Std.OrientedOrd.eq_swap]
      simp [hOrder]

theorem unitSorted_eq_iff {a b c d : String} :
    unitSorted a b = unitSorted c d ↔ a = c ∧ b = d ∨ a = d ∧ b = c := by
  constructor
  · intro hSame
    obtain ⟨hLeft, -⟩ := unitSorted_cases a b
    obtain ⟨hRight, -⟩ := unitSorted_cases c d
    rw [hSame] at hLeft
    rcases hLeft with ⟨rfl, rfl⟩ | ⟨rfl, rfl⟩
    · exact hRight
    · exact hRight.symm.imp And.symm And.symm
  · rintro (⟨rfl, rfl⟩ | ⟨rfl, rfl⟩)
    · rfl
    · exact unitSorted_comm a b

/-- The two texts with the one that is smaller in the order of bytes first. -/
def byteSorted (a b : String) : String × String :=
  if (compare (bytes a) (bytes b)).isLE then (a, b) else (b, a)

/-- The characters in which two texts first differ stand on the two sides of the surrogates. -/
def PartAtSurrogates (a b : String) : Prop :=
  ∃ c d, FirstDiffer a.toList b.toList c d ∧ StraddlesSurrogates c d

/-- The orders agree where the texts do not part at the surrogates. -/
theorem compare_units_eq_compare_bytes {a b : String} (h : ¬ PartAtSurrogates a b) :
    compare (units a) (units b) = compare (bytes a) (bytes b) := by
  rw [bytes_eq_flatMap, bytes_eq_flatMap, units, units]
  rcases prefix_or_firstDiffer a.toList b.toList with ⟨rest, hb⟩ | ⟨rest, ha⟩ | ⟨c, d, hDiffer⟩
  · rw [← hb, isEncoding_charUnits.compare_append, isEncoding_charBytes.compare_append]
  · rw [← ha, Std.OrientedOrd.eq_swap, isEncoding_charUnits.compare_append,
      ← isEncoding_charBytes.compare_append, ← Std.OrientedOrd.eq_swap]
  · have hNot : ¬ StraddlesSurrogates c d := fun hStraddles => h ⟨c, d, hDiffer, hStraddles⟩
    obtain ⟨x, y, hUnits, hSame, -⟩ := exists_firstDiffer_charUnits hDiffer.1
    obtain ⟨u, v, hBytes, hOrder⟩ := exists_firstDiffer_charBytes hDiffer.1
    rw [(hDiffer.flatMap hUnits).compare_eq, (hDiffer.flatMap hBytes).compare_eq, hSame hNot,
      hOrder]

/-- The orders are opposite where they do. -/
theorem PartAtSurrogates.compare_units {a b : String} (h : PartAtSurrogates a b) :
    compare (units a) (units b) = (compare (bytes a) (bytes b)).swap ∧
      compare (units a) (units b) ≠ .eq := by
  obtain ⟨c, d, hDiffer, hStraddles⟩ := h
  obtain ⟨x, y, hUnits, -, hOpposite⟩ := exists_firstDiffer_charUnits hDiffer.1
  obtain ⟨u, v, hBytes, hOrder⟩ := exists_firstDiffer_charBytes hDiffer.1
  rw [bytes_eq_flatMap, bytes_eq_flatMap, units, units, (hDiffer.flatMap hUnits).compare_eq,
    (hDiffer.flatMap hBytes).compare_eq]
  refine ⟨?_, fun hEq => hUnits.1 (Nat.compare_eq_eq.mp hEq)⟩
  rw [hOpposite hStraddles, hOrder, Nat.compare_swap]

end Datamodel.Text
