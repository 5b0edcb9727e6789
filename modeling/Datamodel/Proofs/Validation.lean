import Datamodel.Proofs.Schema.Session
import Datamodel.Validation
import Mathlib.Data.List.Count
import Mathlib.Data.List.Nodup

/-! What a validator finds, said without its loops and its buffer. The scan for repeated names is
settled by what its two sets hold after some of the names; the buffer is settled by what one model
adds to it. No run of a validator depends on the runs before it. All that a model has to know of the
schema is which names there are, and for a table these are its keys. -/
namespace Datamodel

/-- The names that come up at least twice, each at the place where it comes up the second time. -/
def secondOccurrences (names : List String) : List String :=
  (names.zipIdx.filter fun (name, i) => (names.take i).count name = 1).map (·.1)

example : secondOccurrences ["a", "b", "b", "a", "b", "c"] = ["b", "a"] := by decide

@[simp] theorem secondOccurrences_nil : secondOccurrences [] = [] := rfl

/-- A last name is listed if it came up exactly once before. -/
theorem secondOccurrences_concat (names : List String) (name : String) :
    secondOccurrences (names ++ [name]) =
      secondOccurrences names ++ if names.count name = 1 then [name] else [] := by
  have hBefore : names.zipIdx.filter
        (fun (other, i) => ((names ++ [name]).take i).count other = 1) =
      names.zipIdx.filter fun (other, i) => (names.take i).count other = 1 := by
    refine List.filter_congr fun entry hEntry => ?_
    have hi : entry.2 < names.length :=
      (List.getElem?_eq_some_iff.mp (List.mem_zipIdx_iff_getElem?.mp hEntry)).1
    simp only [List.take_append_of_le_length (Nat.le_of_lt hi)]
  rw [secondOccurrences, List.zipIdx_append, List.filter_append, List.map_append, hBefore]
  congr 1
  by_cases h : names.count name = 1 <;> simp [h]

/-- One more name brings no other name to its second occurrence. -/
theorem two_le_count_concat {names : List String} {last name : String} :
    2 ≤ (names ++ [last]).count name ↔
      2 ≤ names.count name ∨ name = last ∧ names.count last = 1 := by
  rw [List.count_append, List.count_singleton]
  by_cases h : name = last
  · subst h
    simp only [beq_self_eq_true, if_true, true_and]
    omega
  · simp [h, Ne.symm h]

theorem mem_secondOccurrences {names : List String} {name : String} :
    name ∈ secondOccurrences names ↔ 2 ≤ names.count name := by
  induction names using List.reverseRecOn with
  | nil => simp
  | append_singleton names last ih =>
      rw [secondOccurrences_concat, two_le_count_concat, List.mem_append, ih]
      by_cases hOnce : names.count last = 1 <;> simp [hOnce]

theorem nodup_secondOccurrences (names : List String) : (secondOccurrences names).Nodup := by
  induction names using List.reverseRecOn with
  | nil => exact List.nodup_nil
  | append_singleton names last ih =>
      rw [secondOccurrences_concat]
      split
      · rename_i hOnce
        have hNew : last ∉ secondOccurrences names := by
          rw [mem_secondOccurrences]
          omega
        rw [List.nodup_append]
        exact ⟨ih, List.nodup_singleton last, fun a ha b hb hab =>
          hNew (by rwa [← List.mem_singleton.mp hb, ← hab])⟩
      · simpa using ih

theorem secondOccurrences_eq_nil_iff {names : List String} :
    secondOccurrences names = [] ↔ names.Nodup := by
  rw [List.eq_nil_iff_forall_not_mem, List.nodup_iff_count_le_one]
  refine forall_congr' fun name => ?_
  rw [mem_secondOccurrences]
  omega

/-- The scan goes on from where it stands: it has seen the names before, and it has listed those
that came up twice among them. -/
theorem secondOccurrences_append {seen reported before : List String}
    (hSeen : ∀ name, name ∈ seen ↔ name ∈ before)
    (hReported : ∀ name, name ∈ reported ↔ 2 ≤ before.count name) (later : List String) :
    secondOccurrences (before ++ later) =
      secondOccurrences before ++ repeatedNames seen reported later := by
  induction later generalizing seen reported before with
  | nil => simp [repeatedNames]
  | cons name later ih =>
      rw [List.append_cons, repeatedNames]
      by_cases hNew : name ∈ before
      · have hSeenNext : ∀ other, other ∈ seen ↔ other ∈ before ++ [name] := by
          intro other
          rw [hSeen, List.mem_append, List.mem_singleton]
          exact ⟨.inl, fun h => h.elim id fun he => he ▸ hNew⟩
        by_cases hListed : name ∈ reported
        · have hNotOnce : before.count name ≠ 1 := by
            have hTwice := (hReported name).mp hListed
            omega
          have hReportedNext :
              ∀ other, other ∈ reported ↔ 2 ≤ (before ++ [name]).count other := by
            intro other
            rw [two_le_count_concat, hReported]
            simp [hNotOnce]
          rw [ih hSeenNext hReportedNext, secondOccurrences_concat]
          simp [hSeen, hNew, hListed, hNotOnce]
        · have hOnce : before.count name = 1 := by
            have hAtMost := mt (hReported name).mpr hListed
            have hAtLeast := List.count_pos_iff.mpr hNew
            omega
          have hReportedNext :
              ∀ other, other ∈ name :: reported ↔ 2 ≤ (before ++ [name]).count other := by
            intro other
            rw [two_le_count_concat, List.mem_cons, hReported, or_comm]
            simp [hOnce]
          rw [ih hSeenNext hReportedNext, secondOccurrences_concat]
          simp [hSeen, hNew, hListed, hOnce]
      · have hNone : before.count name = 0 := List.count_eq_zero.mpr hNew
        have hSeenNext : ∀ other, other ∈ name :: seen ↔ other ∈ before ++ [name] := by
          simp [hSeen, or_comm]
        have hReportedNext :
            ∀ other, other ∈ reported ↔ 2 ≤ (before ++ [name]).count other := by
          intro other
          rw [two_le_count_concat, hReported]
          simp [hNone]
        rw [ih hSeenNext hReportedNext, secondOccurrences_concat]
        simp [hSeen, hNew, hNone]

theorem repeatedNames_eq_secondOccurrences (names : List String) :
    repeatedNames [] [] names = secondOccurrences names := by
  have hScan : secondOccurrences ([] ++ names) =
      secondOccurrences [] ++ repeatedNames [] [] names :=
    secondOccurrences_append (by simp) (by simp) names
  simpa using hScan.symm

namespace Body

/-- A relation is stored in no field exactly if it has no place. -/
theorem backing?_eq_none_iff (b : Body) (r : Relation) :
    b.backing? r = none ↔ b.backingIndex? r = none := by
  simp [backing?, backingIndex?]

end Body

/-- What the strict rules ask of a model among models of the given names. -/
structure Model.IsStrict (names : List String) (m : Model) : Prop where
  fields : m.fieldNames.Nodup
  keys : m.fields.countP (·.isPrimaryKey) ≤ 1
  targets : ∀ r ∈ m.relations, r.target ∈ names
  backing : ∀ r ∈ m.relations, r.kind = .manyToOne → ∃ i, m.backingIndex? r = some i

namespace Model

/-- What is wrong with a relation, in the words of the rules. -/
def relationBreaches (names : List String) (m : Model) (r : Relation) : List Violation :=
  (if r.target ∈ names then [] else [.unknownTarget m.name r.name r.target]) ++
    (if r.kind = .manyToOne ∧ m.backingIndex? r = none then [.missingBacking m.name r.name]
      else [])

/-- What is wrong with a model, in the words of the rules: first the names that several fields
share, then the keys, then the relations in order. -/
def breaches (names : List String) (m : Model) : List Violation :=
  (secondOccurrences m.fieldNames).map (fun field => .duplicate "field" (m.name ++ "." ++ field)) ++
    (if 2 ≤ m.fields.countP (·.isPrimaryKey) then [.multiplePrimaryKeys m.name] else []) ++
    m.relations.flatMap (m.relationBreaches names)

theorem relationViolations_eq_relationBreaches (s : Schema) (m : Model) (r : Relation) :
    m.relationViolations s r = m.relationBreaches s.names r := by
  simp only [relationViolations, relationBreaches, s.contains_iff_mem_names,
    m.backing?_eq_none_iff]

/-- What a validator looks for in a model, check by check, is what is wrong with it. -/
theorem violations_eq_breaches (s : Schema) (m : Model) :
    m.duplicateViolations ++ m.keyViolations ++ m.relations.flatMap (m.relationViolations s) =
      m.breaches s.names := by
  have hRelations : m.relationViolations s = m.relationBreaches s.names :=
    funext (m.relationViolations_eq_relationBreaches s)
  rw [breaches, duplicateViolations, repeatedNames_eq_secondOccurrences, keyViolations,
    Body.keyFields, ← List.countP_eq_length_filter, hRelations]
  rfl

theorem relationBreaches_eq_nil_iff {names : List String} {m : Model} {r : Relation} :
    m.relationBreaches names r = [] ↔
      r.target ∈ names ∧ (r.kind = .manyToOne → ∃ i, m.backingIndex? r = some i) := by
  rw [relationBreaches, List.append_eq_nil_iff]
  cases m.backingIndex? r <;> simp

/-- Nothing is wrong with a model exactly if it keeps the rules. -/
theorem breaches_eq_nil_iff {names : List String} {m : Model} :
    m.breaches names = [] ↔ m.IsStrict names := by
  have hKeys : (if 2 ≤ m.fields.countP (·.isPrimaryKey) then
      [Violation.multiplePrimaryKeys m.name] else []) = [] ↔
        m.fields.countP (·.isPrimaryKey) ≤ 1 := by
    simp only [ite_eq_right_iff, reduceCtorEq, imp_false]
    omega
  rw [breaches, List.append_eq_nil_iff, List.append_eq_nil_iff, List.map_eq_nil_iff, hKeys,
    secondOccurrences_eq_nil_iff, List.flatMap_eq_nil_iff]
  simp only [relationBreaches_eq_nil_iff]
  constructor
  · rintro ⟨⟨hFields, hKeys⟩, hRelations⟩
    exact ⟨hFields, hKeys, fun r hr => (hRelations r hr).1, fun r hr => (hRelations r hr).2⟩
  · rintro ⟨hFields, hKeys, hTargets, hBacking⟩
    exact ⟨⟨hFields, hKeys⟩, fun r hr => ⟨hTargets r hr, hBacking r hr⟩⟩

end Model

namespace Schema

/-- Every model keeps the strict rules. -/
def IsStrict (s : Schema) : Prop :=
  ∀ m ∈ s.models, m.IsStrict s.names

/-- What is wrong with the schema, model by model. -/
def breaches (s : Schema) : List Violation :=
  s.models.flatMap (·.breaches s.names)

theorem breaches_eq_nil_iff {s : Schema} : s.breaches = [] ↔ s.IsStrict := by
  simp only [breaches, List.flatMap_eq_nil_iff, Model.breaches_eq_nil_iff, IsStrict]

end Schema

/-- What is wrong with the models of a table, one by one. A relation has to lead to a key. -/
def Session.Table.breaches (t : Table) : List Violation :=
  t.flatMap fun (_, m) => m.breaches t.keys

/-- Behind a session it makes no difference whether the targets of relations are looked up among the
keys of a table or among the names of the schema. -/
theorem Session.Table.breaches_run (ops : List Operation) :
    (run [] ops).breaches = (Session.run {} ops).breaches := by
  rw [run_nil, breaches, keys_ofSchema, ofSchema, List.flatMap_map]
  rfl

namespace Validator

@[simp] theorem findings_report (v : Validator) (found : List Violation) :
    (v.report found).findings = v.findings ++ found := rfl

/-- One model adds to the findings what is wrong with it, behind all that is there. -/
theorem findings_inspect (s : Schema) (v : Validator) (m : Model) :
    (v.inspect s m).findings = v.findings ++ m.breaches s.names := by
  have hRelations (relations : List Relation) (w : Validator) :
      (relations.foldl (fun v r => v.report (m.relationViolations s r)) w).findings =
        w.findings ++ relations.flatMap (m.relationViolations s) := by
    induction relations generalizing w with
    | nil => simp
    | cons r rs ih => simp [ih]
  rw [inspect, hRelations, ← m.violations_eq_breaches]
  simp

theorem findings_foldl_inspect (s : Schema) (models : List Model) (v : Validator) :
    (models.foldl (inspect s) v).findings = v.findings ++ models.flatMap (·.breaches s.names) := by
  induction models generalizing v with
  | nil => simp
  | cons m ms ih => simp [ih, findings_inspect]

/-- Whatever the validator holds, its verdict is about what is wrong with the schema, and it is left
empty. -/
theorem judge_eq (v : Validator) (s : Schema) :
    v.judge s =
      (if s.breaches = [] then .ok () else .error (.invalid s.breaches.length s.breaches), {}) := by
  have hFindings := findings_foldl_inspect s s.models { v with findings := [] }
  rw [List.nil_append] at hFindings
  rw [judge]
  generalize s.models.foldl (inspect s) { v with findings := [] } = filled at hFindings
  obtain ⟨findings⟩ := filled
  obtain rfl : findings = s.breaches := hFindings
  cases s.breaches <;> rfl

theorem judge_of_breaches_eq_nil {v : Validator} {s : Schema} (h : s.breaches = []) :
    v.judge s = (.ok (), {}) := by
  rw [judge_eq, if_pos h]

theorem judge_of_breaches_ne_nil {v : Validator} {s : Schema} (h : s.breaches ≠ []) :
    v.judge s = (.error (.invalid s.breaches.length s.breaches), {}) := by
  rw [judge_eq, if_neg h]

/-- A schema passes exactly if it keeps the strict rules. -/
theorem validate_ok_iff_isStrict {s : Schema} : s.validate = .ok () ↔ s.IsStrict := by
  rw [← Schema.breaches_eq_nil_iff, Schema.validate]
  by_cases h : s.breaches = []
  · simp [h, judge_of_breaches_eq_nil h]
  · simp [h, judge_of_breaches_ne_nil h]

/-- A validator accepts exactly the strict schemas, whatever it was used for before. It rejects any
other schema with the number of all breaches and with their list: model by model, first each name
that several fields share, once and in the order in which names come up the second time, then the
keys, and then the relations one by one. For a schema that a session has built the breaches are
those of a table with keys of its own. -/
theorem judge_exact (start : Validator) (history : List Schema) (s : Schema) :
    let v := history.foldl (fun v earlier => (v.judge earlier).2) start
    ((v.judge s).1 = .ok () ↔ s.IsStrict) ∧
      ((v.judge s).1 = .error (.invalid s.breaches.length s.breaches) ↔ ¬ s.IsStrict) ∧
      (∀ names, (secondOccurrences names).Nodup ∧
        ∀ name, name ∈ secondOccurrences names ↔ 2 ≤ names.count name) ∧
      ∀ ops, (Session.Table.run [] ops).breaches = (Session.run {} ops).breaches := by
  intro v
  have hNames (names : List String) : (secondOccurrences names).Nodup ∧
      ∀ name, name ∈ secondOccurrences names ↔ 2 ≤ names.count name :=
    ⟨nodup_secondOccurrences names, fun _ => mem_secondOccurrences⟩
  by_cases h : s.breaches = []
  · have hAccepted : (v.judge s).1 = .ok () := by rw [judge_of_breaches_eq_nil h]
    have hStrict : s.IsStrict := Schema.breaches_eq_nil_iff.mp h
    exact ⟨by simp [hAccepted, hStrict], by simp [hAccepted, hStrict], hNames,
      Session.Table.breaches_run⟩
  · have hRejected : (v.judge s).1 = .error (.invalid s.breaches.length s.breaches) := by
      rw [judge_of_breaches_ne_nil h]
    have hBroken : ¬ s.IsStrict := mt Schema.breaches_eq_nil_iff.mpr h
    exact ⟨by simp [hRejected, hBroken], by simp [hRejected, hBroken], hNames,
      Session.Table.breaches_run⟩

/-- A name that three fields share is listed once, and the target of a relation before the field
that the relation lacks. -/
example :
    let id : Field := { name := "id", type := .scalar .int, isPrimaryKey := true }
    let post : Model := {
      name := "Post"
      fields := [id, id, id]
      relations := [{ name := "editor", kind := .manyToOne, target := "Editor" }] }
    (judge {} ⟨[post]⟩).1 = .error (.invalid 4 [.duplicate "field" "Post.id",
      .multiplePrimaryKeys "Post", .unknownTarget "Post" "editor" "Editor",
      .missingBacking "Post" "editor"]) := by
  decide

end Validator

end Datamodel
