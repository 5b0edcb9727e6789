import Datamodel.Value.Decoding

/-! Decoding taken apart and put together. A decoding that succeeds has succeeded in all its parts;
and a table whose members have different names, a slot each and values that pass their tests is a
record with exactly these members. -/
namespace Datamodel

namespace Decoded

variable {α β : Type}

@[simp] theorem ok_bind (a : α) (f : α → Decoded β) : (.ok a >>= f) = f a := rfl

@[simp] theorem map_ok (f : α → β) (a : α) : f <$> (.ok a : Decoded α) = .ok (f a) := rfl

theorem bind_eq_ok_iff {x : Decoded α} {f : α → Decoded β} {b : β} :
    (x >>= f) = .ok b ↔ ∃ a, x = .ok a ∧ f a = .ok b := by
  constructor
  · intro h
    cases x with
    | ok a => exact ⟨a, rfl, h⟩
    | error e => cases h
  · rintro ⟨a, rfl, h⟩
    exact h

theorem map_eq_ok_iff {x : Decoded α} {f : α → β} {b : β} :
    f <$> x = .ok b ↔ ∃ a, x = .ok a ∧ f a = b := by
  constructor
  · intro h
    cases x with
    | ok a => exact ⟨a, rfl, Except.ok.inj h⟩
    | error e => cases h
  · rintro ⟨a, rfl, rfl⟩
    rfl

end Decoded

namespace Value

variable {α : Type} {decode : Value → Decoded α}

@[simp] theorem asText_text (s : String) : asText (.text (some s)) = .ok s := rfl

@[simp] theorem asBool_bool (b : Bool) : asBool (.bool b) = .ok b := rfl

@[simp] theorem asOptional_text (content : Option String) :
    asOptional decode (.text content) = some <$> decode (.text content) := rfl

/-- Items that are decoded one by one. -/
theorem decodeItems_map {encode : α → Value} {as : List α}
    (h : ∀ a ∈ as, decode (encode a) = .ok a) : decodeItems decode (as.map encode) = .ok as := by
  induction as with
  | nil => rfl
  | cons a as ih =>
      rw [List.map_cons, decodeItems, h a (by simp), ih fun b hb => h b (by simp [hb])]
      rfl

theorem exists_of_decodeItems_eq_ok {items : List Value} {decoded : List α}
    (h : decodeItems decode items = .ok decoded) : ∀ a ∈ decoded, ∃ v, decode v = .ok a := by
  induction items generalizing decoded with
  | nil =>
      cases h
      simp
  | cons v vs ih =>
      rw [decodeItems, Decoded.bind_eq_ok_iff] at h
      obtain ⟨first, hFirst, h⟩ := h
      obtain ⟨others, hOthers, h⟩ := Decoded.bind_eq_ok_iff.mp h
      cases h
      intro a ha
      rcases List.mem_cons.mp ha with rfl | hRest
      · exact ⟨v, hFirst⟩
      · exact ih hOthers a hRest

/-- Every part of a decoded list was decoded from some value. -/
theorem exists_of_asList_eq_ok {v : Value} {decoded : List α}
    (h : asList decode v = .ok decoded) : ∀ a ∈ decoded, ∃ item, decode item = .ok a := by
  cases v with
  | list items closed =>
      obtain ⟨whole, hWhole, h⟩ := Decoded.bind_eq_ok_iff.mp h
      cases closed with
      | false => cases h
      | true =>
          cases h
          exact exists_of_decodeItems_eq_ok hWhole
  | _ => cases h

/-- There is a slot for a member, and its value passes the test. -/
def Fits (slots : List Slot) (name : String) (v : Value) : Prop :=
  ∃ s, slots.find? (·.name == name) = some s ∧ s.check v = .ok ()

theorem fits_of_eq_ok {slots : List Slot} {name : String} {v : Value} {a : α}
    (hSlot : slots.find? (·.name == name) = some (slot name decode)) (h : decode v = .ok a) :
    Fits slots name v :=
  ⟨slot name decode, hSlot, by simp [slot, h, Except.map]⟩

theorem knownMembers_of_fits {slots : List Slot} {strangers : Strangers} {seen : List String}
    {members : List (String × Value)} (hFits : ∀ m ∈ members, Fits slots m.1 m.2)
    (hNodup : (members.map (·.1)).Nodup) (hNew : ∀ m ∈ members, m.1 ∉ seen) :
    knownMembers slots strangers seen (members.map fun m => (some m.1, m.2)) = .ok members := by
  induction members generalizing seen with
  | nil => rfl
  | cons m ms ih =>
      obtain ⟨name, v⟩ := m
      obtain ⟨s, hSlot, hCheck⟩ := hFits (name, v) (by simp)
      rw [List.map_cons, List.nodup_cons] at hNodup
      have hNewNext : ∀ m ∈ ms, m.1 ∉ name :: seen := by
        intro m hm
        have hOther : m.1 ≠ name := fun he => hNodup.1 (List.mem_map.mpr ⟨m, hm, he⟩)
        simp [hOther, hNew m (by simp [hm])]
      have hOthers := ih (fun m hm => hFits m (by simp [hm])) hNodup.2 hNewNext
      have hFresh : name ∉ seen := hNew (name, v) (by simp)
      simp [knownMembers, hSlot, hFresh, hCheck, hOthers]

/-- A table of fitting members of different names is the record of these members. -/
theorem asRecord_of_fits {slots : List Slot} {strangers surplus : Strangers}
    {members : List (String × Value)} (hFits : ∀ m ∈ members, Fits slots m.1 m.2)
    (hNodup : (members.map (·.1)).Nodup) :
    asRecord slots strangers surplus (.table (members.map fun m => (some m.1, m.2)) true) =
      .ok ⟨members, false⟩ := by
  rw [asRecord, knownMembers_of_fits hFits hNodup (by simp)]
  rfl

namespace Record

variable {name other : String} {v : Value} {ms : List (String × Value)} {positional : Bool}
  {fallback : α}

@[simp] theorem required_cons_self :
    required ⟨(name, v) :: ms, positional⟩ name decode = decode v := by
  simp [required]

@[simp] theorem required_cons_of_ne (h : name ≠ other) :
    required ⟨(other, v) :: ms, positional⟩ name decode =
      required ⟨ms, positional⟩ name decode := by
  simp [required, List.lookup_cons, beq_false_of_ne h]

@[simp] theorem optional_nil :
    optional ⟨[], positional⟩ name decode fallback = .ok fallback := rfl

@[simp] theorem optional_cons_self :
    optional ⟨(name, v) :: ms, positional⟩ name decode fallback = decode v := by
  simp [optional]

@[simp] theorem optional_cons_of_ne (h : name ≠ other) :
    optional ⟨(other, v) :: ms, positional⟩ name decode fallback =
      optional ⟨ms, positional⟩ name decode fallback := by
  simp [optional, List.lookup_cons, beq_false_of_ne h]

theorem exists_of_required_eq_ok {r : Record} {a : α}
    (h : r.required name decode = .ok a) : ∃ v, decode v = .ok a := by
  unfold required at h
  split at h
  · exact ⟨_, h⟩
  · cases h

end Record

end Value

end Datamodel
