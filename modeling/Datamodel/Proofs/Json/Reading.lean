import Datamodel.Json
import Datamodel.Json.Reader
import Mathlib.Tactic.SplitIfs

/-! Written values are read back. What a reader makes of a written value does not depend on what
follows it: a string ends at the only quotation mark that is not escaped, and a list or an object at
its own bracket. Every value takes at least two characters, so the reader does not run out of
calls. -/
namespace Datamodel.Json

/-- A backslash and a letter stand for one character. -/
theorem scanText_escape {e c : Char} (hUnit : e ≠ 'u') (h : unescaped? e = some c)
    (cs : List Char) :
    scanText ('\\' :: e :: cs) = (scanText cs).map (Prod.map (.char c :: ·) id) := by
  rw [scanText.eq_4 e cs fun _ _ _ _ _ hu _ => hUnit hu, h]
  cases scanText cs <;> rfl

/-- Four digits name a code unit. -/
theorem scanText_unit {a b c d : Char} {n : Nat} (h : Text.hexNumber? [a, b, c, d] = some n)
    (cs : List Char) :
    scanText ('\\' :: 'u' :: a :: b :: c :: d :: cs) =
      (scanText cs).map (Prod.map (.unit n :: ·) id) := by
  rw [scanText, h]
  cases scanText cs <;> rfl

/-- Any other character stands for itself, unless it is a control character. -/
theorem scanText_plain {c : Char} (hQuote : c ≠ '"') (hBackslash : c ≠ '\\')
    (hControl : ¬ c.toNat < 0x20) (cs : List Char) :
    scanText (c :: cs) = (scanText cs).map (Prod.map (.char c :: ·) id) := by
  rw [scanText.eq_5 c cs hQuote (fun _ _ _ _ _ hc _ => hBackslash hc) fun _ _ hc _ =>
    hBackslash hc, if_neg (by simp [hBackslash, hControl])]
  cases scanText cs <;> rfl

theorem hexNumber?_hexDigit : ∀ n < 0x20,
    Text.hexNumber? ['0', '0', hexDigit (n / 16), hexDigit (n % 16)] = some n := by
  decide

/-- A character below the surrogates spells itself when it is named as a code unit. -/
theorem assemble_unit {c : Char} (h : c.toNat < 0xD800) (pieces : List Piece) :
    assemble (.unit c.toNat :: pieces) = (c :: ·) <$> assemble pieces := by
  have hHigh : isHighSurrogate c.toNat = false := by
    simp only [isHighSurrogate, Bool.and_eq_false_iff, decide_eq_false_iff_not]
    omega
  have hLow : isLowSurrogate c.toNat = false := by
    simp only [isLowSurrogate, Bool.and_eq_false_iff, decide_eq_false_iff_not]
    omega
  rw [assemble.eq_def]
  simp [hHigh, hLow]

/-- The three ways in which a character is written. -/
theorem escaped_cases (c : Char) :
    (∃ e, e ≠ 'u' ∧ unescaped? e = some c ∧ escaped c = ['\\', e]) ∨
      (c.toNat < 0x20 ∧
        escaped c = ['\\', 'u', '0', '0', hexDigit (c.toNat / 16), hexDigit (c.toNat % 16)]) ∨
      (c ≠ '"' ∧ c ≠ '\\' ∧ ¬ c.toNat < 0x20 ∧ escaped c = [c]) := by
  unfold escaped
  split_ifs with hQuote hBackslash hBack hTab hLine hForm hReturn hControl
  · exact .inl ⟨'"', by decide, by rw [hQuote]; rfl, rfl⟩
  · exact .inl ⟨'\\', by decide, by rw [hBackslash]; rfl, rfl⟩
  · exact .inl ⟨'b', by decide, by rw [hBack]; rfl, rfl⟩
  · exact .inl ⟨'t', by decide, by rw [hTab]; rfl, rfl⟩
  · exact .inl ⟨'n', by decide, by rw [hLine]; rfl, rfl⟩
  · exact .inl ⟨'f', by decide, by rw [hForm]; rfl, rfl⟩
  · exact .inl ⟨'r', by decide, by rw [hReturn]; rfl, rfl⟩
  · exact .inr (.inl ⟨hControl, rfl⟩)
  · exact .inr (.inr ⟨hQuote, hBackslash, hControl, rfl⟩)

/-- A written character is read as one part of a string, and the part spells the character. -/
theorem scanText_escaped (c : Char) :
    ∃ piece, (∀ cs, scanText (escaped c ++ cs) =
        (scanText cs).map (Prod.map (piece :: ·) id)) ∧
      ∀ pieces, assemble (piece :: pieces) = (c :: ·) <$> assemble pieces := by
  rcases escaped_cases c with ⟨e, hUnit, hSome, hWritten⟩ | ⟨hControl, hWritten⟩ |
    ⟨hQuote, hBackslash, hControl, hWritten⟩
  · exact ⟨.char c, fun cs => hWritten ▸ scanText_escape hUnit hSome cs, fun _ => rfl⟩
  · refine ⟨.unit c.toNat, fun cs => ?_, assemble_unit (by omega)⟩
    rw [hWritten]
    exact scanText_unit (hexNumber?_hexDigit c.toNat hControl) cs
  · exact ⟨.char c, fun cs => hWritten ▸ scanText_plain hQuote hBackslash hControl cs,
      fun _ => rfl⟩

theorem scanText_flatMap_escaped (cs rest : List Char) :
    ∃ pieces, scanText (cs.flatMap escaped ++ '"' :: rest) = some (pieces, rest) ∧
      assemble pieces = some cs := by
  induction cs with
  | nil => exact ⟨[], by simp [scanText], rfl⟩
  | cons c cs ih =>
      obtain ⟨pieces, hScan, hSpell⟩ := ih
      obtain ⟨piece, hPiece, hChar⟩ := scanText_escaped c
      refine ⟨piece :: pieces, ?_, ?_⟩
      · rw [List.flatMap_cons, List.append_assoc, hPiece, hScan]
        rfl
      · rw [hChar, hSpell]
        rfl

/-- The text between the quotation marks is read back, whatever characters are in it. -/
theorem readText_flatMap_escaped (s : String) (rest : List Char) :
    readText (s.toList.flatMap escaped ++ '"' :: rest) = some (some s, rest) := by
  obtain ⟨pieces, hScan, hSpell⟩ := scanText_flatMap_escaped s.toList rest
  rw [readText, hScan]
  simp [hSpell]

mutual

/-- What a reader makes of a written value. -/
def toValue : Json → Value
  | null => .null
  | bool b => .bool b
  | text s => .text (some s)
  | list items => .list (toValues items) true
  | object members => .table (toMembers members) true

/-- What a reader makes of written items. -/
def toValues : List Json → List Value
  | [] => []
  | v :: vs => v.toValue :: toValues vs

/-- What a reader makes of written members. -/
def toMembers : List (String × Json) → List (Option String × Value)
  | [] => []
  | (name, v) :: ms => (some name, v.toValue) :: toMembers ms

end

@[simp] theorem toValue_bool (b : Bool) : (bool b).toValue = .bool b := by rw [toValue]

@[simp] theorem toValue_text (s : String) : (text s).toValue = .text (some s) := by rw [toValue]

theorem toValues_eq_map (items : List Json) : toValues items = items.map toValue := by
  induction items with
  | nil => rfl
  | cons v vs ih => rw [toValues, ih, List.map_cons]

theorem toMembers_eq_map (members : List (String × Json)) :
    toMembers members = members.map fun m => (some m.1, m.2.toValue) := by
  induction members with
  | nil => rfl
  | cons m ms ih => rw [toMembers, ih, List.map_cons]

/-- A written value starts with a character that is neither a space nor a closing bracket. -/
theorem exists_write_eq_cons (v : Json) :
    ∃ c cs, v.write = c :: cs ∧ isSpace c = false ∧ c ≠ ']' := by
  cases v with
  | null => exact ⟨'n', ['u', 'l', 'l'], by rw [write]; rfl, by decide, by decide⟩
  | bool b =>
      cases b with
      | false => exact ⟨'f', ['a', 'l', 's', 'e'], by rw [write]; rfl, by decide, by decide⟩
      | true => exact ⟨'t', ['r', 'u', 'e'], by rw [write]; rfl, by decide, by decide⟩
  | text s => exact ⟨'"', _, by rw [write, writeText], by decide, by decide⟩
  | list items => exact ⟨'[', _, by rw [write], by decide, by decide⟩
  | object members => exact ⟨'{', _, by rw [write], by decide, by decide⟩

theorem skipSpace_cons {c : Char} (h : isSpace c = false) (cs : List Char) :
    skipSpace (c :: cs) = c :: cs := by
  simp [skipSpace, h]

/-- A string as a value. -/
theorem readValue_writeText (fuel : Nat) (s : String) (rest : List Char) :
    readValue (fuel + 1) (writeText s ++ rest) = (.text (some s), some rest) := by
  rw [writeText, List.cons_append, List.append_assoc, readValue, skipSpace_cons (by decide)]
  simp [readText_flatMap_escaped]

/-- A list of which there is a first item. -/
theorem readValue_list {fuel : Nat} {c : Char} {cs after : List Char} {items : List Value}
    (hSpace : isSpace c = false) (hClose : c ≠ ']')
    (h : readItems fuel (c :: cs) = (items, some after)) :
    readValue (fuel + 1) ('[' :: c :: cs) = (.list items true, some after) := by
  rw [readValue, skipSpace_cons (by decide)]
  simp [skipSpace_cons hSpace, hClose, h]

/-- An object of which there is a first member. -/
theorem readValue_object {fuel : Nat} {cs after : List Char}
    {members : List (Option String × Value)}
    (h : readMembers fuel ('"' :: cs) = (members, some after)) :
    readValue (fuel + 1) ('{' :: '"' :: cs) = (.table members true, some after) := by
  rw [readValue, skipSpace_cons (by decide)]
  have hSpace : skipSpace ('"' :: cs) = '"' :: cs := skipSpace_cons (by decide) cs
  simp [hSpace, h]

theorem writeItems_cons_cons (v w : Json) (vs : List Json) :
    writeItems (v :: w :: vs) = v.write ++ ',' :: writeItems (w :: vs) := by
  rw [writeItems]
  simp

theorem writeMembers_cons_cons (name : String) (v : Json) (m : String × Json)
    (ms : List (String × Json)) :
    writeMembers ((name, v) :: m :: ms) =
      writeText name ++ ':' :: (v.write ++ ',' :: writeMembers (m :: ms)) := by
  rw [writeMembers]
  simp

theorem exists_writeItems_eq_cons (v : Json) (vs : List Json) :
    ∃ c cs, writeItems (v :: vs) = c :: cs ∧ isSpace c = false ∧ c ≠ ']' := by
  obtain ⟨c, cs, hStart, hSpace, hClose⟩ := v.exists_write_eq_cons
  cases vs with
  | nil => exact ⟨c, _, by rw [writeItems, hStart, List.cons_append], hSpace, hClose⟩
  | cons w ws =>
      exact ⟨c, _, by rw [writeItems_cons_cons, hStart, List.cons_append], hSpace, hClose⟩

theorem exists_writeMembers_eq_cons (m : String × Json) (ms : List (String × Json)) :
    ∃ cs, writeMembers (m :: ms) = '"' :: cs := by
  cases ms with
  | nil => exact ⟨_, by rw [writeMembers, writeText, List.cons_append]⟩
  | cons n ns => exact ⟨_, by rw [writeMembers_cons_cons, writeText, List.cons_append]⟩

/-- With a number of calls, everything is read back that has at most half as many characters. -/
structure ReadsBack (fuel : Nat) : Prop where
  value : ∀ (v : Json) (rest : List Char), 2 * v.write.length ≤ fuel →
    readValue fuel (v.write ++ rest) = (v.toValue, some rest)
  items : ∀ (v : Json) (vs : List Json) (rest : List Char),
    2 * (writeItems (v :: vs)).length ≤ fuel →
      readItems fuel (writeItems (v :: vs) ++ rest) = (toValues (v :: vs), some rest)
  members : ∀ (m : String × Json) (ms : List (String × Json)) (rest : List Char),
    2 * (writeMembers (m :: ms)).length ≤ fuel →
      readMembers fuel (writeMembers (m :: ms) ++ rest) = (toMembers (m :: ms), some rest)

namespace ReadsBack

variable {fuel : Nat}

theorem value_succ (h : ReadsBack fuel) (v : Json) (rest : List Char)
    (hFuel : 2 * v.write.length ≤ fuel + 1) :
    readValue (fuel + 1) (v.write ++ rest) = (v.toValue, some rest) := by
  cases v with
  | null =>
      rw [write, readValue]
      simp [skipSpace, isSpace, readWord, afterWord?, toValue]
  | bool b =>
      cases b with
      | false =>
          rw [write, readValue]
          simp [skipSpace, isSpace, readWord, afterWord?, toValue]
      | true =>
          rw [write, readValue]
          simp [skipSpace, isSpace, readWord, afterWord?, toValue]
  | text s =>
      rw [write]
      exact readValue_writeText fuel s rest
  | list items =>
      rw [write, List.length_cons] at hFuel
      rw [write, List.cons_append]
      cases items with
      | nil => simp [writeItems, readValue, skipSpace, isSpace, toValue, toValues]
      | cons v vs =>
          have hItems := h.items v vs rest (by omega)
          obtain ⟨c, cs, hStart, hSpace, hClose⟩ := exists_writeItems_eq_cons v vs
          rw [hStart, List.cons_append] at hItems ⊢
          exact readValue_list hSpace hClose hItems
  | object members =>
      rw [write, List.length_cons] at hFuel
      rw [write, List.cons_append]
      cases members with
      | nil => simp [writeMembers, readValue, skipSpace, isSpace, toValue, toMembers]
      | cons m ms =>
          have hMembers := h.members m ms rest (by omega)
          obtain ⟨cs, hStart⟩ := exists_writeMembers_eq_cons m ms
          rw [hStart, List.cons_append] at hMembers ⊢
          exact readValue_object hMembers

theorem items_succ (h : ReadsBack fuel) (v : Json) (vs : List Json) (rest : List Char)
    (hFuel : 2 * (writeItems (v :: vs)).length ≤ fuel + 1) :
    readItems (fuel + 1) (writeItems (v :: vs) ++ rest) = (toValues (v :: vs), some rest) := by
  cases vs with
  | nil =>
      rw [writeItems] at hFuel ⊢
      rw [List.length_append, List.length_singleton] at hFuel
      rw [List.append_assoc, readItems, h.value v _ (by omega)]
      simp [skipSpace, isSpace, toValues]
  | cons w ws =>
      rw [writeItems_cons_cons] at hFuel ⊢
      rw [List.length_append, List.length_cons] at hFuel
      rw [List.append_assoc, readItems, h.value v _ (by omega)]
      simp [skipSpace, isSpace, h.items w ws rest (by omega), toValues]

theorem members_succ (h : ReadsBack fuel) (m : String × Json) (ms : List (String × Json))
    (rest : List Char) (hFuel : 2 * (writeMembers (m :: ms)).length ≤ fuel + 1) :
    readMembers (fuel + 1) (writeMembers (m :: ms) ++ rest) =
      (toMembers (m :: ms), some rest) := by
  obtain ⟨name, v⟩ := m
  cases ms with
  | nil =>
      rw [writeMembers] at hFuel ⊢
      simp only [List.length_append, List.length_cons, List.length_nil] at hFuel
      have hValue := h.value v ('}' :: rest) (by omega)
      rw [writeText, readMembers]
      simp [skipSpace, isSpace, readText_flatMap_escaped, hValue, toMembers]
  | cons n ns =>
      rw [writeMembers_cons_cons] at hFuel ⊢
      simp only [List.length_append, List.length_cons] at hFuel
      have hValue := h.value v (',' :: (writeMembers (n :: ns) ++ rest)) (by omega)
      have hMembers := h.members n ns rest (by omega)
      rw [writeText, readMembers]
      simp [skipSpace, isSpace, readText_flatMap_escaped, hValue, hMembers, toMembers]

end ReadsBack

/-- A value, an item or a member is at least one character long, so there is nothing to read back
without calls. -/
theorem readsBack_zero : ReadsBack 0 where
  value v rest hFuel := by
    obtain ⟨c, cs, hStart, -⟩ := v.exists_write_eq_cons
    simp [hStart] at hFuel
  items v vs rest hFuel := by
    obtain ⟨c, cs, hStart, -⟩ := exists_writeItems_eq_cons v vs
    simp [hStart] at hFuel
  members m ms rest hFuel := by
    obtain ⟨cs, hStart⟩ := exists_writeMembers_eq_cons m ms
    simp [hStart] at hFuel

theorem readsBack (fuel : Nat) : ReadsBack fuel := by
  induction fuel with
  | zero => exact readsBack_zero
  | succ fuel ih => exact ⟨ih.value_succ, ih.items_succ, ih.members_succ⟩

/-- The text of a value is read as that value and nothing else. -/
theorem read_compact (v : Json) : read v.compact = (v.toValue, true) := by
  have hValue := (readsBack (2 * v.write.length + 2)).value v [] (by omega)
  rw [List.append_nil] at hValue
  rw [read, compact, String.toList_ofList, hValue]
  rfl

/-- What a written value describes can be told without its text. -/
theorem parse_compact {α : Type} (decode : Value → Decoded α) (v : Json) :
    parse decode v.compact = decode v.toValue := by
  rw [parse, read_compact]
  cases h : decode v.toValue <;> simp [h]

end Datamodel.Json
