import Datamodel.Proofs.Plan.Storage
import Datamodel.Proofs.Value.Rearrangement

/-! Steps whose members stand in another order. To read a step the member that names the operation
is taken out, wherever it is, and the others are kept in their order; that order does not matter to
the record that is read from them. Members that the operation does not know are kept and then left
aside. So plans that differ in nothing else are the same plan. -/
namespace Datamodel

open Value (IsStranger)

/-- A text, a flag or nothing. -/
inductive Value.IsPlain : Value → Prop where
  | null : IsPlain .null
  | bool (b : Bool) : IsPlain (.bool b)
  | text (s : String) : IsPlain (.text (some s))

namespace Step

variable {depth : Nat} {found result : Option Operation} {operation : Operation} {step : Step}
  {members others extra : List (Option String × Value)} {closed : Bool}

/-- A plain member that an operation does not know. -/
structure IsIdle (operation : Operation) (m : Option String × Value) : Prop where
  name : ∃ name, m.1 = some name ∧ name ≠ operationMember ∧
    name ∉ (slots operation).map (·.name)
  isPlain : m.2.IsPlain

theorem IsIdle.isKept {m : Option String × Value} (h : IsIdle operation m) (depth : Nat) :
    IsKept depth m := by
  obtain ⟨name, v⟩ := m
  obtain ⟨⟨name, rfl, hOther, -⟩, hPlain⟩ := h
  have hName : some name ≠ some operationMember := fun hSame => hOther (Option.some.inj hSame)
  have hKeepable : v.isKeepable depth := by cases hPlain <;> rfl
  exact ⟨hName, rfl, hKeepable⟩

theorem IsIdle.isStranger {m : Option String × Value} (h : IsIdle operation m) :
    IsStranger (slots operation) m := by
  obtain ⟨name, v⟩ := m
  obtain ⟨⟨name, rfl, -, hUnknown⟩, hPlain⟩ := h
  have hSlot : (slots operation).find? (·.name == name) = none := by
    rw [List.find?_eq_none]
    intro s hs hSame
    exact hUnknown (List.mem_map.mpr ⟨s, hs, by simpa using hSame⟩)
  have hWhole : v.isWhole := by cases hPlain <;> rfl
  exact Value.isStranger_of_no_slot hSlot hWhole

/-- The members that are left are kept ones. Either they are all there were, or the operation has
been taken out from among them. -/
theorem exists_perm_of_splitMembers
    (h : splitMembers depth found members = .ok (result, others)) :
    (∀ m ∈ others, IsKept depth m) ∧
      (result = found ∧ others = members ∨
        found = none ∧ ∃ v operation, operationOf v = .ok operation ∧ result = some operation ∧
          members.Perm ((some operationMember, v) :: others)) := by
  induction members generalizing found others with
  | nil =>
      cases h
      simp
  | cons m rest ih =>
      obtain ⟨name, v⟩ := m
      rw [splitMembers.eq_def] at h
      by_cases hName : name = some operationMember
      · subst hName
        cases found with
        | some first => simp at h
        | none =>
            simp only [if_true, Decoded.bind_eq_ok_iff] at h
            obtain ⟨operation, hOperation, hRest⟩ := h
            obtain ⟨hKept, ⟨rfl, rfl⟩ | ⟨hNone, -⟩⟩ := ih hRest
            · exact ⟨hKept, .inr ⟨rfl, v, operation, hOperation, rfl, .refl _⟩⟩
            · cases hNone
      · simp only [if_neg hName] at h
        split at h
        · rename_i hMember
          obtain ⟨hSome, hKeepable⟩ := Bool.and_eq_true_iff.mp hMember
          obtain ⟨⟨_, later⟩, hRest, h⟩ := Decoded.bind_eq_ok_iff.mp h
          cases h
          obtain ⟨hKept, hFrom⟩ := ih hRest
          have hFirst : IsKept depth (name, v) := ⟨hName, hSome, hKeepable⟩
          have hAllKept := List.forall_mem_cons.mpr ⟨hFirst, hKept⟩
          rcases hFrom with ⟨hFound, hAll⟩ | ⟨hNone, w, operation, hOperation, hFound, hPerm⟩
          · exact ⟨hAllKept, .inl ⟨hFound, by rw [hAll]⟩⟩
          · have hMoved := (hPerm.cons (name, v)).trans (.swap _ _ _)
            exact ⟨hAllKept, .inr ⟨hNone, w, operation, hOperation, hFound, hMoved⟩⟩
        · cases h

/-- The order of the members does not matter to the record that is read without the operation. -/
theorem ofRest_of_perm (hPerm : others.Perm members)
    (h : ofRest operation (.table members closed) = .ok step) :
    ofRest operation (.table others closed) = .ok step := by
  obtain ⟨r, hRecord, hStep⟩ := Decoded.bind_eq_ok_iff.mp h
  obtain ⟨q, hOther, hAgrees⟩ := Value.exists_asRecord_of_perm hPerm hRecord
  refine Decoded.bind_eq_ok_iff.mpr ⟨q, hOther, ?_⟩
  rw [← hStep]
  cases operation <;> simp only [ofRecord, hAgrees.required, hAgrees.optional]

theorem ofRest_append_idle (h : ∀ m ∈ extra, IsIdle operation m) :
    ofRest operation (.table (members ++ extra) closed) = .ok step ↔
      ofRest operation (.table members closed) = .ok step := by
  have hStrangers : ∀ m ∈ extra, IsStranger (slots operation) m := fun m hm => (h m hm).isStranger
  simp only [ofRest, Decoded.bind_eq_ok_iff, Value.asRecord_append_strangers hStrangers]

/-- A step is read from one member that names the operation and from the others, which are kept. The
order in which they stand is not mentioned. -/
theorem ofMembers_eq_ok_iff :
    ofMembers depth members closed = .ok step ↔
      closed = true ∧ ∃ v operation others, members.Perm ((some operationMember, v) :: others) ∧
        operationOf v = .ok operation ∧ (∀ m ∈ others, IsKept depth m) ∧
          ofRest operation (.table others true) = .ok step := by
  constructor
  · intro h
    obtain ⟨⟨result, others⟩, hSplit, h⟩ := Decoded.bind_eq_ok_iff.mp h
    cases closed with
    | false => cases h
    | true =>
        cases result with
        | none => cases h
        | some operation =>
            obtain ⟨hKept, ⟨hNone, -⟩ | ⟨-, v, named, hNamed, hFound, hPerm⟩⟩ :=
              exists_perm_of_splitMembers hSplit
            · cases hNone
            · cases hFound
              exact ⟨rfl, v, operation, others, hPerm, hNamed, hKept, h⟩
  · intro h
    obtain ⟨rfl, v, operation, others, hPerm, hNamed, hKept, hRest⟩ := h
    obtain ⟨front, back, rfl⟩ := List.append_of_mem (hPerm.mem_iff.mpr List.mem_cons_self)
    have hOthers : (front ++ back).Perm others :=
      (List.perm_cons _).mp (List.perm_middle.symm.trans hPerm)
    have hFront : ∀ m ∈ front, IsKept depth m := fun m hm =>
      hKept m (hOthers.mem_iff.mp (List.mem_append_left back hm))
    have hBack : splitMembers depth (some operation) back = .ok (some operation, back) :=
      splitMembers_of_isKept fun m hm =>
        hKept m (hOthers.mem_iff.mp (List.mem_append_right front hm))
    have hSplit : splitMembers depth none (front ++ (some operationMember, v) :: back) =
        .ok (some operation, front ++ back) := by
      refine splitMembers_append hFront ?_
      rw [splitMembers.eq_def]
      simp [hNamed, hBack]
    rw [ofMembers, hSplit]
    exact ofRest_of_perm hOthers hRest

theorem operation_of_ofRest {rest : Value} (h : ofRest operation rest = .ok step) :
    step.operation = operation := by
  obtain ⟨r, -, hRecord⟩ := Decoded.bind_eq_ok_iff.mp h
  exact (operation_eq_and_isProper_of_ofRecord hRecord).1

theorem ofMembers_of_perm (hPerm : others.Perm members) :
    ofMembers depth others closed = .ok step ↔ ofMembers depth members closed = .ok step := by
  simp only [ofMembers_eq_ok_iff, hPerm.congr_left]

theorem ofMembers_append_idle (hExtra : ∀ m ∈ extra, IsIdle step.operation m) :
    ofMembers depth (members ++ extra) closed = .ok step ↔
      ofMembers depth members closed = .ok step := by
  rw [ofMembers_eq_ok_iff, ofMembers_eq_ok_iff]
  constructor
  · intro h
    obtain ⟨hClosed, v, operation, others, hPerm, hNamed, hKept, hRest⟩ := h
    -- The operation is not among the members that have been added, so it is taken out elsewhere.
    have hMember : (some operationMember, v) ∈ members := by
      rcases List.mem_append.mp (hPerm.mem_iff.mpr List.mem_cons_self) with hOld | hNew
      · exact hOld
      · exact absurd rfl ((hExtra _ hNew).isKept depth).name_ne
    obtain ⟨front, back, rfl⟩ := List.append_of_mem hMember
    have hOthers : (front ++ back ++ extra).Perm others := by
      refine (List.perm_cons _).mp (List.Perm.trans ?_ hPerm)
      exact List.perm_middle.symm.append_right extra
    have hOldKept : ∀ m ∈ front ++ back, IsKept depth m := fun m hm =>
      hKept m (hOthers.mem_iff.mp (List.mem_append_left extra hm))
    rw [operation_of_ofRest hRest] at hExtra
    have hOldRest := (ofRest_append_idle hExtra).mp (ofRest_of_perm hOthers hRest)
    exact ⟨hClosed, v, operation, front ++ back, List.perm_middle, hNamed, hOldKept, hOldRest⟩
  · intro h
    obtain ⟨hClosed, v, operation, others, hPerm, hNamed, hKept, hRest⟩ := h
    have hAllKept : ∀ m ∈ others ++ extra, IsKept depth m :=
      List.forall_mem_append.mpr ⟨hKept, fun m hm => (hExtra m hm).isKept depth⟩
    rw [operation_of_ofRest hRest] at hExtra
    have hAllRest := (ofRest_append_idle hExtra).mpr hRest
    exact ⟨hClosed, v, operation, others ++ extra, hPerm.append_right extra, hNamed, hAllKept,
      hAllRest⟩

/-- The operation that a member names is the one of the step. -/
theorem operation_of_ofMembers (h : ofMembers depth members closed = .ok step)
    (hNames : (some operationMember, .text (some operation.label)) ∈ members) :
    step.operation = operation := by
  obtain ⟨-, v, named, others, hPerm, hNamed, hKept, hRest⟩ := ofMembers_eq_ok_iff.mp h
  rcases List.mem_cons.mp (hPerm.mem_iff.mp hNames) with hSame | hOther
  · cases hSame
    rw [operationOf_label] at hNamed
    rw [operation_of_ofRest hRest, Except.ok.inj hNamed]
  · exact absurd rfl (hKept _ hOther).name_ne

/-- The same step written in another way: its members stand in another order, with plain members
between them that the operation does not know. A step that is not a table stays as it is. -/
inductive Rearranged : Value → Value → Prop where
  | refl (v : Value) : Rearranged v v
  | table {operation : Operation} {members others extra : List (Option String × Value)}
      {closed : Bool}
      (hNames : (some operationMember, .text (some operation.label)) ∈ members)
      (hExtra : ∀ m ∈ extra, IsIdle operation m) (hPerm : others.Perm (members ++ extra)) :
      Rearranged (.table members closed) (.table others closed)

theorem Rearranged.ofValue_eq_ok_iff {v w : Value} (h : Rearranged v w) :
    ofValue depth w = .ok step ↔ ofValue depth v = .ok step := by
  cases h with
  | refl v => rfl
  | table hNames hExtra hPerm =>
      rw [ofValue, ofValue, ofMembers_of_perm hPerm]
      constructor
      · intro h
        rw [← operation_of_ofMembers h (List.mem_append_left _ hNames)] at hExtra
        exact (ofMembers_append_idle hExtra).mp h
      · intro h
        rw [← operation_of_ofMembers h hNames] at hExtra
        exact (ofMembers_append_idle hExtra).mpr h

end Step

/-- Lists of values of which the same can be read one by one. -/
theorem Value.asList_congr {α : Type} {decode : Value → Decoded α} {items others : List Value}
    (h : List.Forall₂ (fun v w => ∀ a, decode w = .ok a ↔ decode v = .ok a) items others)
    (closed : Bool) (decoded : List α) :
    asList decode (.list others closed) = .ok decoded ↔
      asList decode (.list items closed) = .ok decoded := by
  have hItems : ∀ decoded, decodeItems decode others = .ok decoded ↔
      decodeItems decode items = .ok decoded := by
    induction h with
    | nil => exact fun _ => .rfl
    | cons hFirst _ ih =>
        intro decoded
        simp only [decodeItems, Decoded.bind_eq_ok_iff, hFirst, ih]
  simp only [asList, Decoded.bind_eq_ok_iff, hItems]

namespace Plan

variable {depth : Nat} {p : Plan}

/-- The same plan with its steps written in another way. -/
inductive Rearranged : Value → Value → Prop where
  | table {front back : List (Option String × Value)} {steps others : List Value}
      {stepsClosed closed : Bool} (h : List.Forall₂ Step.Rearranged steps others) :
      Rearranged (.table (front ++ (some "steps", .list steps stepsClosed) :: back) closed)
        (.table (front ++ (some "steps", .list others stepsClosed) :: back) closed)
  | list {steps others rest : List Value} {stepsClosed closed : Bool}
      (h : List.Forall₂ Step.Rearranged steps others) :
      Rearranged (.list (.list steps stepsClosed :: rest) closed)
        (.list (.list others stepsClosed :: rest) closed)

section

variable {x y : Value} (hSteps : ∀ steps, Value.asList (Step.ofValue depth) x = .ok steps →
  Value.asList (Step.ofValue depth) y = .ok steps)

include hSteps

/-- Where the value of the steps is replaced by one from which the same steps are read, the plan is
the same. -/
theorem ofValue_of_replaced {v w : Value} {r q : Value.Record}
    (hRecord : v.asRecord (slots depth) .ignored .refused = .ok r)
    (hOther : w.asRecord (slots depth) .ignored .refused = .ok q)
    (hReplaced : Value.Record.Replaced "steps" x y r q) (h : ofValue depth v = .ok p) :
    ofValue depth w = .ok p := by
  rw [ofValue, hRecord, Decoded.ok_bind] at h
  obtain ⟨steps, hRead, h⟩ := Decoded.bind_eq_ok_iff.mp h
  rw [ofValue, hOther, Decoded.ok_bind, hReplaced.optional (hSteps steps) hRead, Decoded.ok_bind, h]

theorem check_steps :
    (Value.slot "steps" (Value.asList (Step.ofValue depth))).check x = .ok () →
      (Value.slot "steps" (Value.asList (Step.ofValue depth))).check y = .ok () := by
  rw [Value.check_slot_eq_ok_iff, Value.check_slot_eq_ok_iff]
  intro h
  obtain ⟨steps, hRead⟩ := h
  exact ⟨steps, hSteps steps hRead⟩

theorem ofValue_table_replace {front back : List (Option String × Value)} {closed : Bool}
    (h : ofValue depth (.table (front ++ (some "steps", x) :: back) closed) = .ok p) :
    ofValue depth (.table (front ++ (some "steps", y) :: back) closed) = .ok p := by
  obtain ⟨r, hRecord, -⟩ := Decoded.bind_eq_ok_iff.mp h
  obtain ⟨q, hOther, hReplaced⟩ :=
    Value.exists_asRecord_table_replace rfl (check_steps hSteps) hRecord
  exact ofValue_of_replaced hSteps hRecord hOther hReplaced h

theorem ofValue_list_replace {rest : List Value} {closed : Bool}
    (h : ofValue depth (.list (x :: rest) closed) = .ok p) :
    ofValue depth (.list (y :: rest) closed) = .ok p := by
  obtain ⟨r, hRecord, -⟩ := Decoded.bind_eq_ok_iff.mp h
  obtain ⟨q, hOther, hReplaced⟩ :=
    Value.exists_asRecord_list_replace (check_steps hSteps) hRecord
  exact ofValue_of_replaced hSteps hRecord hOther hReplaced h

end

theorem Rearranged.ofValue_eq_ok_iff {v w : Value} (h : Rearranged v w) :
    ofValue depth w = .ok p ↔ ofValue depth v = .ok p := by
  have hSteps {steps others : List Value} (h : List.Forall₂ Step.Rearranged steps others)
      (closed : Bool) (decoded : List Step) :
      Value.asList (Step.ofValue depth) (.list others closed) = .ok decoded ↔
        Value.asList (Step.ofValue depth) (.list steps closed) = .ok decoded :=
    Value.asList_congr (h.imp fun _ _ hStep _ => hStep.ofValue_eq_ok_iff) closed decoded
  cases h with
  | table h =>
      exact ⟨ofValue_table_replace fun decoded => (hSteps h _ decoded).mp,
        ofValue_table_replace fun decoded => (hSteps h _ decoded).mpr⟩
  | list h =>
      exact ⟨ofValue_list_replace fun decoded => (hSteps h _ decoded).mp,
        ofValue_list_replace fun decoded => (hSteps h _ decoded).mpr⟩

/-- Two JSON texts that hold the same plan with its steps written in another way. -/
def SameSteps (text other : String) : Prop :=
  ∃ v w complete, Json.read text = (v, complete) ∧ Json.read other = (w, complete) ∧
    Rearranged v w

theorem SameSteps.ofJson_eq_ok_iff {text other : String} (h : SameSteps text other) :
    ofJson other = .ok p ↔ ofJson text = .ok p := by
  obtain ⟨v, w, complete, hText, hOther, hValue⟩ := h
  simp only [ofJson, Json.parse, hText, hOther, Decoded.bind_eq_ok_iff, hValue.ofValue_eq_ok_iff]

theorem sameSteps_compact {v w : Json} (h : Rearranged v.toValue w.toValue) :
    SameSteps v.compact w.compact :=
  ⟨v.toValue, w.toValue, true, v.read_compact, w.read_compact, h⟩

/-- A step can be read from a table if and only if it can be read from the same members in another
order, with any number of plain members among them that its operation does not know; no two of the
names need to differ for that. So two texts of a plan that differ only in this way hold the same
plan, or both hold none, and they build the same. -/
theorem ofJson_ignores_member_order :
    (∀ (depth : Nat) (members others extra : List (Option String × Value)) (closed : Bool)
      (step : Step), (∀ m ∈ extra, Step.IsIdle step.operation m) →
        others.Perm (members ++ extra) →
          (Step.ofValue depth (.table others closed) = .ok step ↔
            Step.ofValue depth (.table members closed) = .ok step)) ∧
      ∀ text other : String, SameSteps text other →
        (∀ p, ofJson other = .ok p ↔ ofJson text = .ok p) ∧
          ∀ outcome, build <$> ofJson other = .ok outcome ↔ build <$> ofJson text = .ok outcome := by
  constructor
  · intro depth members others extra closed step hExtra hPerm
    rw [Step.ofValue, Step.ofValue, Step.ofMembers_of_perm hPerm]
    exact Step.ofMembers_append_idle hExtra
  · intro text other h
    have hPlan (p : Plan) : ofJson other = .ok p ↔ ofJson text = .ok p := h.ofJson_eq_ok_iff
    constructor
    · exact hPlan
    · intro outcome
      simp only [Decoded.map_eq_ok_iff, hPlan]

/-- A plan as it is written out, and a text with the members of its second step in the opposite
order, behind two of one name that another operation knows. -/
theorem ofJson_ignores_member_order_of_repeated_name :
    let members : List (Option String × Value) := [(some "op", .text (some "add_field")),
      (some "model", .text (some "A")), (some "field", .text (some "x")),
      (some "type", .text (some "float")), (some "unique", .bool false)]
    let extra : List (Option String × Value) :=
      [(some "kind", .null), (some "kind", .text (some "op"))]
    let step := Step.addField "A" "x" (.scalar .float) none false
    let p : Plan := ⟨[.reset, step]⟩
    let other := Json.object [("steps", .list [.object [("op", .text "reset")],
      .object [("kind", .text "op"), ("kind", .null), ("unique", .bool false),
        ("type", .text "float"), ("field", .text "x"), ("model", .text "A"),
        ("op", .text "add_field")]])]
    (∀ m ∈ extra, Step.IsIdle step.operation m) ∧
      Step.ofValue Step.memberDepth (.table (members ++ extra).reverse true) = .ok step ∧
      SameSteps p.toJson.compact other.compact ∧ ofJson other.compact = .ok p ∧
      build <$> ofJson other.compact = .ok p.build := by
  intro members extra step p other
  have hExtra : ∀ m ∈ extra, Step.IsIdle step.operation m := by
    have hName : "kind" ≠ Step.operationMember ∧
        "kind" ∉ (Step.slots step.operation).map (·.name) := by decide
    simp only [extra, List.forall_mem_cons]
    exact ⟨⟨⟨_, rfl, hName⟩, .null⟩, ⟨⟨_, rfl, hName⟩, .text _⟩, by simp⟩
  have hPerm : (members ++ extra).reverse.Perm (members ++ extra) := List.reverse_perm _
  have hStep : Step.ofValue Step.memberDepth (.table members true) = .ok step := rfl
  have hSame : SameSteps p.toJson.compact other.compact := by
    apply sameSteps_compact
    let first := Value.table [(some "op", .text (some "reset"))] true
    show Rearranged
      (.table ([] ++ (some "steps", .list [first, .table members true] true) :: []) true)
      (.table ([] ++ (some "steps", .list [first, .table (members ++ extra).reverse true] true) ::
        []) true)
    exact .table (.cons (.refl first) (.cons (.table List.mem_cons_self hExtra hPerm) .nil))
  have hProper : p.HasProperTypes := by
    simp [p, step, HasProperTypes, Step.IsProper, FieldType.IsProper]
  have hText : ofJson p.toJson.compact = .ok p := hProper.ofJson_compact
  have hBuild : build <$> ofJson p.toJson.compact = .ok p.build := by
    rw [hText]
    rfl
  obtain ⟨hTable, hTexts⟩ := ofJson_ignores_member_order
  exact ⟨hExtra, (hTable _ _ _ _ _ _ hExtra hPerm).mpr hStep, hSame,
    ((hTexts _ _ hSame).1 _).mpr hText, ((hTexts _ _ hSame).2 _).mpr hBuild⟩

end Plan

end Datamodel
