import Datamodel.Proofs.Entries
import Datamodel.Proofs.Value.Decoding
import Mathlib.Data.List.Nodup

/-! Records read from tables whose members stand in another order. Going through the members keeps
the ones that have a slot, whatever stands between them, and refuses a name that comes twice. So
another order brings the same members, only in that order; and since their names are different,
each of them is found as before. Members without a slot leave no trace. -/
namespace Datamodel.Value

variable {slots : List Slot} {seen : List String} {name : String} {v : Value}
  {members others extra : List (Option String × Value)} {known : List (String × Value)}

/-- What a member brings into a record: itself, if there is a slot of its name. -/
def placed? (slots : List Slot) : Option String × Value → Option (String × Value)
  | (none, _) => none
  | (some name, v) => (slots.find? (·.name == name)).map fun _ => (name, v)

/-- There is nothing wrong with the member itself: it has a name, and its value passes the test of
its slot or, where there is none, was read to its end. -/
def IsSound (slots : List Slot) : Option String × Value → Prop
  | (none, _) => False
  | (some name, v) =>
    match slots.find? (·.name == name) with
    | some s => s.check v = .ok ()
    | none => v.isWhole

/-- A sound member without a slot. -/
def IsStranger (slots : List Slot) (m : Option String × Value) : Prop :=
  IsSound slots m ∧ placed? slots m = none

theorem isStranger_of_no_slot (hSlot : slots.find? (·.name == name) = none) (hWhole : v.isWhole) :
    IsStranger slots (some name, v) := by
  simp [IsStranger, IsSound, placed?, hSlot, hWhole]

theorem knownMembers_cons_of_slot {s : Slot} (hSlot : slots.find? (·.name == name) = some s) :
    knownMembers slots .ignored seen ((some name, v) :: members) = .ok known ↔
      name ∉ seen ∧ s.check v = .ok () ∧
        ∃ later, knownMembers slots .ignored (name :: seen) members = .ok later ∧
          (name, v) :: later = known := by
  simp only [knownMembers, hSlot]
  by_cases hSeen : name ∈ seen
  · simp [hSeen, Decoded.bind_eq_ok_iff]
  · cases hCheck : s.check v with
    | error e => simp [hSeen, Decoded.bind_eq_ok_iff]
    | ok _ => simp [hSeen, Decoded.map_eq_ok_iff]

theorem knownMembers_cons_of_no_slot (hSlot : slots.find? (·.name == name) = none) :
    knownMembers slots .ignored seen ((some name, v) :: members) = .ok known ↔
      v.isWhole ∧ knownMembers slots .ignored seen members = .ok known := by
  simp only [knownMembers, hSlot]
  cases v.isWhole <;> simp [Decoded.bind_eq_ok_iff]

/-- Going through the members succeeds exactly if each of them is sound and no name with a slot
comes twice. It keeps what the members bring. -/
theorem knownMembers_eq_ok_iff :
    knownMembers slots .ignored seen members = .ok known ↔
      members.filterMap (placed? slots) = known ∧ (∀ m ∈ members, IsSound slots m) ∧
        (known.map (·.1)).Nodup ∧ (known.map (·.1)).Disjoint seen := by
  induction members generalizing seen known with
  | nil =>
      constructor
      · intro h
        cases h
        simp
      · intro h
        obtain ⟨rfl, -⟩ := h
        rfl
  | cons m rest ih =>
      obtain ⟨name, v⟩ := m
      cases name with
      | none => simp [knownMembers, IsSound]
      | some name =>
          cases hSlot : slots.find? (·.name == name) with
          | none =>
              rw [knownMembers_cons_of_no_slot hSlot, ih, List.forall_mem_cons]
              simp only [List.filterMap_cons, placed?, IsSound, hSlot, Option.map_none, and_assoc]
              exact and_left_comm
          | some s =>
              rw [knownMembers_cons_of_slot hSlot, List.forall_mem_cons]
              simp only [ih, List.filterMap_cons, placed?, IsSound, hSlot, Option.map_some]
              constructor
              · intro h
                obtain ⟨hNew, hCheck, later, ⟨rfl, hSound, hNodup, hDisjoint⟩, rfl⟩ := h
                obtain ⟨hName, hLater⟩ := List.disjoint_cons_right.mp hDisjoint
                exact ⟨rfl, ⟨hCheck, hSound⟩, List.nodup_cons.mpr ⟨hName, hNodup⟩,
                  List.disjoint_cons_left.mpr ⟨hNew, hLater⟩⟩
              · intro h
                obtain ⟨rfl, ⟨hCheck, hSound⟩, hNodup, hDisjoint⟩ := h
                obtain ⟨hName, hNodup⟩ := List.nodup_cons.mp hNodup
                obtain ⟨hNew, hLater⟩ := List.disjoint_cons_left.mp hDisjoint
                exact ⟨hNew, hCheck, _, ⟨rfl, hSound, hNodup,
                  List.disjoint_cons_right.mpr ⟨hName, hLater⟩⟩, rfl⟩

theorem knownMembers_append_strangers (h : ∀ m ∈ extra, IsStranger slots m) :
    knownMembers slots .ignored seen (members ++ extra) = .ok known ↔
      knownMembers slots .ignored seen members = .ok known := by
  have hNothing : extra.filterMap (placed? slots) = [] :=
    List.filterMap_eq_nil_iff.mpr fun m hm => (h m hm).2
  have hSound : ∀ m ∈ extra, IsSound slots m := fun m hm => (h m hm).1
  rw [knownMembers_eq_ok_iff, knownMembers_eq_ok_iff, List.filterMap_append, hNothing,
    List.append_nil, List.forall_mem_append, and_iff_left hSound]

/-- In another order the same members are kept. -/
theorem exists_knownMembers_of_perm (hPerm : others.Perm members)
    (h : knownMembers slots .ignored seen members = .ok known) :
    ∃ kept, knownMembers slots .ignored seen others = .ok kept ∧ kept.Perm known ∧
      (known.map (·.1)).Nodup := by
  obtain ⟨rfl, hSound, hNodup, hDisjoint⟩ := knownMembers_eq_ok_iff.mp h
  have hKept := hPerm.filterMap (placed? slots)
  have hNames := hKept.map (·.1)
  have hOtherSound : ∀ m ∈ others, IsSound slots m := fun m hm =>
    hSound m (hPerm.mem_iff.mp hm)
  have hOtherDisjoint := hNames.disjoint_left.mpr hDisjoint
  have hRead := knownMembers_eq_ok_iff.mpr
    ⟨rfl, hOtherSound, hNames.nodup_iff.mpr hNodup, hOtherDisjoint⟩
  exact ⟨_, hRead, hKept, hNodup⟩

/-- A value passes the test of a slot if it can be read. -/
theorem check_slot_eq_ok_iff {α : Type} {decode : Value → Decoded α} :
    (slot name decode).check v = .ok () ↔ ∃ a, decode v = .ok a := by
  unfold slot
  cases h : decode v <;> simp [h, Except.map]

/-- One member is given another value, which passes the test if the one before did. -/
theorem exists_knownMembers_replace {front back : List (Option String × Value)} {x y : Value}
    {s : Slot} (hSlot : slots.find? (·.name == name) = some s)
    (hCheck : s.check x = .ok () → s.check y = .ok ())
    (h : knownMembers slots .ignored seen (front ++ (some name, x) :: back) = .ok known) :
    ∃ before after, known = before ++ (name, x) :: after ∧
      knownMembers slots .ignored seen (front ++ (some name, y) :: back) =
        .ok (before ++ (name, y) :: after) := by
  obtain ⟨rfl, hSound, hNodup, hDisjoint⟩ := knownMembers_eq_ok_iff.mp h
  have hBrings (z : Value) : (front ++ (some name, z) :: back).filterMap (placed? slots) =
      front.filterMap (placed? slots) ++ (name, z) :: back.filterMap (placed? slots) := by
    simp [placed?, hSlot]
  rw [hBrings] at hNodup hDisjoint
  refine ⟨_, _, hBrings x, knownMembers_eq_ok_iff.mpr ⟨hBrings y, ?_, ?_, ?_⟩⟩
  · rw [List.forall_mem_append, List.forall_mem_cons] at hSound ⊢
    refine ⟨hSound.1, ?_, hSound.2.2⟩
    have hBefore := hSound.2.1
    simp only [IsSound, hSlot] at hBefore ⊢
    exact hCheck hBefore
  · simpa using hNodup
  · simpa using hDisjoint

theorem asRecord_table_eq_ok_iff {strangers surplus : Strangers} {closed : Bool} {r : Record} :
    asRecord slots strangers surplus (.table members closed) = .ok r ↔
      closed = true ∧
        ∃ known, knownMembers slots strangers [] members = .ok known ∧ ⟨known, false⟩ = r := by
  rw [asRecord, Decoded.bind_eq_ok_iff]
  cases closed with
  | false => simp
  | true => simp [pure, Except.pure]

namespace Record

/-- Two records in which every member is found alike. -/
structure Agrees (r q : Record) : Prop where
  lookup : ∀ name, q.members.lookup name = r.members.lookup name
  positional : q.positional = r.positional

namespace Agrees

variable {α : Type} {decode : Value → Decoded α} {r q : Record}

theorem required (h : r.Agrees q) (name : String) :
    q.required name decode = r.required name decode := by
  rw [Record.required, Record.required, h.lookup, h.positional]

theorem optional (h : r.Agrees q) (name : String) (fallback : α) :
    q.optional name decode fallback = r.optional name decode fallback := by
  rw [Record.optional, Record.optional, h.lookup]

end Agrees

/-- One member of a record is given another value. -/
inductive Replaced (name : String) (x y : Value) : Record → Record → Prop where
  | intro (before after : List (String × Value)) (positional : Bool) :
      Replaced name x y ⟨before ++ (name, x) :: after, positional⟩
        ⟨before ++ (name, y) :: after, positional⟩

theorem Replaced.optional {α : Type} {decode : Value → Decoded α} {x y : Value} {a fallback : α}
    {r q : Record} (h : Replaced name x y r q) (hDecode : decode x = .ok a → decode y = .ok a)
    (hRead : r.optional name decode fallback = .ok a) :
    q.optional name decode fallback = .ok a := by
  obtain ⟨before, after, positional⟩ := h
  simp only [Record.optional, List.lookup_append, List.lookup_cons_self] at hRead ⊢
  cases hEarlier : before.lookup name with
  | some z =>
      rw [hEarlier] at hRead
      exact hRead
  | none =>
      rw [hEarlier] at hRead
      exact hDecode hRead

end Record

variable {surplus : Strangers} {closed : Bool} {r : Record}

theorem exists_asRecord_of_perm (hPerm : others.Perm members)
    (h : asRecord slots .ignored surplus (.table members closed) = .ok r) :
    ∃ q, asRecord slots .ignored surplus (.table others closed) = .ok q ∧ r.Agrees q := by
  obtain ⟨hClosed, known, hKnown, rfl⟩ := asRecord_table_eq_ok_iff.mp h
  obtain ⟨kept, hKept, hSame, hNodup⟩ := exists_knownMembers_of_perm hPerm hKnown
  refine ⟨⟨kept, false⟩, asRecord_table_eq_ok_iff.mpr ⟨hClosed, kept, hKept, rfl⟩, ?_, rfl⟩
  exact Entries.lookup_eq_of_perm hSame hNodup

/-- The record of a table with one member replaced. -/
theorem exists_asRecord_table_replace {front back : List (Option String × Value)} {x y : Value}
    {s : Slot} (hSlot : slots.find? (·.name == name) = some s)
    (hCheck : s.check x = .ok () → s.check y = .ok ())
    (h : asRecord slots .ignored surplus (.table (front ++ (some name, x) :: back) closed) =
      .ok r) :
    ∃ q, asRecord slots .ignored surplus (.table (front ++ (some name, y) :: back) closed) =
      .ok q ∧ Record.Replaced name x y r q := by
  obtain ⟨hClosed, known, hKnown, rfl⟩ := asRecord_table_eq_ok_iff.mp h
  obtain ⟨before, after, rfl, hReplaced⟩ := exists_knownMembers_replace hSlot hCheck hKnown
  exact ⟨_, asRecord_table_eq_ok_iff.mpr ⟨hClosed, _, hReplaced, rfl⟩, .intro before after false⟩

/-- The record of a list with its first item replaced. -/
theorem exists_asRecord_list_replace {strangers : Strangers} {rest : List Value} {x y : Value}
    {s : Slot} (hCheck : s.check x = .ok () → s.check y = .ok ())
    (h : asRecord (s :: slots) strangers surplus (.list (x :: rest) closed) = .ok r) :
    ∃ q, asRecord (s :: slots) strangers surplus (.list (y :: rest) closed) = .ok q ∧
      Record.Replaced s.name x y r q := by
  simp only [asRecord, placedMembers, Decoded.bind_eq_ok_iff] at h
  obtain ⟨placed, ⟨_, hFirst, after, hAfter, hPlaced⟩, hClosed⟩ := h
  cases hPlaced
  cases closed with
  | false => cases hClosed
  | true =>
      cases hClosed
      refine ⟨⟨(s.name, y) :: after, true⟩, ?_, .intro [] after true⟩
      simp [asRecord, placedMembers, hCheck hFirst, hAfter]

theorem asRecord_append_strangers (h : ∀ m ∈ extra, IsStranger slots m) :
    asRecord slots .ignored surplus (.table (members ++ extra) closed) = .ok r ↔
      asRecord slots .ignored surplus (.table members closed) = .ok r := by
  simp only [asRecord_table_eq_ok_iff, knownMembers_append_strangers h]

end Datamodel.Value
