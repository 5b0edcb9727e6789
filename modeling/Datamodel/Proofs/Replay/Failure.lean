import Datamodel.Proofs.Replay
import Mathlib.Data.Nat.Find
import Mathlib.Tactic.Tauto

/-! When a replay fails, where, and what it leaves behind. The condition is read off the steps and
the schema at the start alone: a key is set of a field that was not declared since the last reset
and is not left over from the start. That it agrees with the look-up at the time of the step is an
invariant of runs. -/
namespace Datamodel

/-- The schema has the model, and the model has a field of the name. -/
def Schema.Declares (s : Schema) (model field : String) : Prop :=
  ∃ m, s.get? model = some m ∧ ∃ f ∈ m.fields, f.name = field

/-- One of the steps declares the field, and no later one starts over. -/
def DeclaredSinceReset (steps : List Step) (model field : String) : Prop :=
  ∃ before type generator isUnique between,
    steps = before ++ .addField model field type generator isUnique :: between ∧
      .reset ∉ between

/-- The step at an index sets the key of a field, but no earlier step declares the field without a
reset in between, and the field is not one of the schema at the start, or there was a reset. -/
structure FaultAt (s : Schema) (steps : List Step) (index : Nat) (model field : String) :
    Prop where
  step : steps[index]? = some (.setPrimaryKey model field)
  undeclared : ¬ DeclaredSinceReset (steps.take index) model field
  absent : .reset ∈ steps.take index ∨ ¬ s.Declares model field

/-- The fault is the first one among the steps. -/
def FirstFaultAt (s : Schema) (steps : List Step) (index : Nat) (model field : String) : Prop :=
  FaultAt s steps index model field ∧
    ∀ earlier < index, ∀ other name, ¬ FaultAt s steps earlier other name

theorem Schema.declares_iff (s : Schema) (model field : String) :
    s.Declares model field ↔ field ∈ (s.body model).fieldNames := by
  cases h : s.get? model with
  | none => simp [Declares, body, h, Body.fieldNames]
  | some m => simp [Declares, body, h, Body.fieldNames]

theorem not_declaredSinceReset_nil (model field : String) :
    ¬ DeclaredSinceReset [] model field := by
  rintro ⟨before, type, generator, isUnique, between, h, _⟩
  simp at h

theorem declaredSinceReset_cons (step : Step) (steps : List Step) (model field : String) :
    DeclaredSinceReset (step :: steps) model field ↔
      DeclaredSinceReset steps model field ∨
        .reset ∉ steps ∧ ∃ type generator isUnique,
          step = .addField model field type generator isUnique := by
  constructor
  · rintro ⟨before, type, generator, isUnique, between, hSplit, hBetween⟩
    cases before with
    | nil =>
        cases hSplit
        exact .inr ⟨hBetween, type, generator, isUnique, rfl⟩
    | cons first before =>
        cases hSplit
        exact .inl ⟨before, type, generator, isUnique, between, rfl, hBetween⟩
  · rintro (⟨before, type, generator, isUnique, between, rfl, hBetween⟩ | ⟨hSteps, h⟩)
    · exact ⟨step :: before, type, generator, isUnique, between, rfl, hBetween⟩
    · obtain ⟨type, generator, isUnique, rfl⟩ := h
      exact ⟨[], type, generator, isUnique, steps, rfl, hSteps⟩

/-- A step declares the one field it adds, loses all by starting over, and keeps them otherwise. -/
theorem Step.declares_apply (step : Step) (s : Schema) (model field : String) :
    (step.apply s).2.Declares model field ↔
      (∃ type generator isUnique, step = .addField model field type generator isUnique) ∨
        step ≠ .reset ∧ s.Declares model field := by
  simp only [Schema.declares_iff]
  cases hModel : step.model? with
  | none =>
      obtain rfl := model?_eq_none_iff.mp hModel
      simp [apply_snd_reset, Body.fieldNames]
  | some name =>
      have hReset : step ≠ .reset := fun h => by simp [h, model?] at hModel
      rw [apply_snd hModel]
      by_cases hName : model = name
      · subst hName
        cases step <;> simp_all [change, model?, eq_comm, or_comm]
      · rw [Schema.body_update_of_ne s hName]
        have hOther : ∀ type generator isUnique,
            step ≠ .addField model field type generator isUnique := by
          rintro type generator isUnique rfl
          exact hName (Option.some.inj hModel)
        simp [hReset, hOther]

/-- The invariant that ties the look-up to the steps taken. -/
theorem Replays.declares_iff {s t : Schema} {steps : List Step} (run : Replays s steps t)
    (model field : String) :
    t.Declares model field ↔
      DeclaredSinceReset steps model field ∨ .reset ∉ steps ∧ s.Declares model field := by
  induction run with
  | nil s => simp [not_declaredSinceReset_nil]
  | @cons s mid t step steps first rest ih =>
      have hMid : mid = (step.apply s).2 := by rw [first]
      rw [ih, declaredSinceReset_cons, hMid, Step.declares_apply, List.mem_cons, not_or,
        ne_comm, ne_eq]
      simp only [and_or_left, or_assoc, and_assoc, and_left_comm]

/-- At the end of a run, the step that comes next is at fault exactly if it fails. -/
theorem Replays.faultAt_iff {s t : Schema} {before : List Step} (run : Replays s before t)
    (step : Step) (later : List Step) (model field : String) :
    FaultAt s (before ++ step :: later) before.length model field ↔
      step = .setPrimaryKey model field ∧ field ∉ (t.body model).fieldNames := by
  rw [← Schema.declares_iff, run.declares_iff]
  constructor
  · rintro ⟨hStep, hUndeclared, hAbsent⟩
    simp only [List.take_left'] at hUndeclared hAbsent
    refine ⟨by simpa using hStep, ?_⟩
    tauto
  · rintro ⟨rfl, h⟩
    refine ⟨by simp, ?_, ?_⟩ <;> simp only [List.take_left'] <;> tauto

theorem exists_split_of_getElem? {steps : List Step} {index : Nat} {step : Step}
    (h : steps[index]? = some step) :
    ∃ before later, steps = before ++ step :: later ∧ before.length = index := by
  obtain ⟨hIndex, hStep⟩ := List.getElem?_eq_some_iff.mp h
  refine ⟨steps.take index, steps.drop (index + 1), ?_, List.length_take_of_le (by omega)⟩
  rw [← hStep, List.getElem_cons_drop, List.take_append_drop]

/-- As long as there is no fault, there is a run. -/
theorem exists_replays_take {s : Schema} {steps : List Step} (index : Nat)
    (h : ∀ i < index, ∀ model field, ¬ FaultAt s steps i model field) :
    ∃ t, Replays s (steps.take index) t := by
  induction index with
  | zero => exact ⟨s, .nil s⟩
  | succ index ih =>
      obtain ⟨t, run⟩ := ih fun i hi => h i (by omega)
      cases hStep : steps[index]? with
      | none =>
          have hLength : steps.length ≤ index := List.getElem?_eq_none_iff.mp hStep
          rw [List.take_of_length_le hLength] at run
          rw [List.take_of_length_le (by omega)]
          exact ⟨t, run⟩
      | some step =>
          obtain ⟨before, later, rfl, rfl⟩ := exists_split_of_getElem? hStep
          rw [List.take_left] at run
          -- A step that failed here would be a fault, and there is none before the index.
          have hOk : (step.apply t).1 = .ok () := by
            refine Step.apply_ok_iff.mpr fun model field hSet => ?_
            by_contra hNot
            exact h before.length (by omega) model field
              ((run.faultAt_iff step later model field).mpr ⟨hSet, hNot⟩)
          refine ⟨(step.apply t).2, ?_⟩
          rw [List.take_length_add_append, List.take_succ_cons, List.take_zero]
          exact Replays.concat_iff.mpr ⟨t, run, Prod.ext hOk rfl⟩

/-- A step that fails behind a run settles the replay, whatever steps come later. -/
theorem replay_of_notMem {s t : Schema} {before : List Step} (run : Replays s before t)
    {model field : String} (h : field ∉ (t.body model).fieldNames) (later : List Step) :
    (⟨before ++ .setPrimaryKey model field :: later⟩ : Plan).replay s =
      (.error ⟨before.length + 1, .setPrimaryKey, .fieldNotFound model field⟩,
        t.createModel model) := by
  rw [Plan.replay, Plan.replaySteps_append run, Nat.add_comm, Plan.replaySteps, Step.apply,
    Schema.setPrimaryKey_of_notMem h]
  rfl

/-- The first fault is where the replay stops. -/
theorem FirstFaultAt.replay {s : Schema} {p : Plan} {index : Nat} {model field : String}
    (h : FirstFaultAt s p.steps index model field) :
    ∃ t, Replays s (p.steps.take index) t ∧
      p.replay s =
        (.error ⟨index + 1, .setPrimaryKey, .fieldNotFound model field⟩, t.createModel model) ∧
      ∀ later, (⟨p.steps.take (index + 1) ++ later⟩ : Plan).replay s = p.replay s := by
  obtain ⟨steps⟩ := p
  obtain ⟨t, run⟩ := exists_replays_take index h.2
  obtain ⟨before, later, rfl, rfl⟩ := exists_split_of_getElem? h.1.step
  rw [List.take_left] at run
  have hMissing := ((run.faultAt_iff _ later model field).mp h.1).2
  have hReplay := replay_of_notMem run hMissing
  rw [List.take_left, List.take_length_add_append]
  refine ⟨t, run, hReplay later, fun other => ?_⟩
  rw [hReplay later, ← hReplay other]
  simp

theorem exists_firstFaultAt {s : Schema} {steps : List Step}
    (h : ∃ index model field, FaultAt s steps index model field) :
    ∃ index model field, FirstFaultAt s steps index model field := by
  classical
  obtain ⟨model, field, hFirst⟩ := Nat.find_spec h
  refine ⟨Nat.find h, model, field, hFirst, ?_⟩
  intro earlier hEarlier other name hFault
  exact Nat.find_min h hEarlier ⟨other, name, hFault⟩

/-- A replay that fails has a first fault, for without any there is a run to the end. -/
theorem exists_firstFaultAt_of_error {p : Plan} {s : Schema} {failure : StepFailure}
    (h : (p.replay s).1 = .error failure) :
    ∃ index model field, FirstFaultAt s p.steps index model field := by
  apply exists_firstFaultAt
  by_contra hNone
  push Not at hNone
  obtain ⟨t, run⟩ := exists_replays_take p.steps.length fun i _ => hNone i
  rw [List.take_length] at run
  rw [Plan.replay_ok_iff.mpr run] at h
  cases h

/-- A replay fails exactly if there is a fault among the steps, and then at the first one: the
failure names its place counted from one, the operation and the missing field. What is left is the
schema in front of the failing step, with the model at the end if it was not there, and no step
behind the failing one matters. Building fails for the same reason as replaying from nothing. -/
theorem replay_stops_at_first_fault (p : Plan) (s : Schema) :
    ((∃ failure, (p.replay s).1 = .error failure) ↔
      ∃ index model field, FaultAt s p.steps index model field) ∧
    (∀ index model field, FirstFaultAt s p.steps index model field →
      Step.Operation.setPrimaryKey.label = "set_primary_key" ∧
      ∃ t, (⟨p.steps.take index⟩ : Plan).replay s = (.ok (), t) ∧
        p.replay s = (.error ⟨index + 1, .setPrimaryKey, .fieldNotFound model field⟩,
          if t.contains model then t else ⟨t.models ++ [{ name := model }]⟩) ∧
        ∀ later, (⟨p.steps.take (index + 1) ++ later⟩ : Plan).replay s = p.replay s) ∧
    (∀ failure, (p.replay s).1 = .error failure →
      ∃ index model field, FirstFaultAt s p.steps index model field ∧
        failure = ⟨index + 1, .setPrimaryKey, .fieldNotFound model field⟩) ∧
    ∀ failure, p.build = .error failure ↔ (p.replay {}).1 = .error failure := by
  refine ⟨⟨?_, ?_⟩, ?_, ?_, fun failure => Plan.build_error_iff⟩
  · rintro ⟨failure, hError⟩
    obtain ⟨index, model, field, hFirst⟩ := exists_firstFaultAt_of_error hError
    exact ⟨index, model, field, hFirst.1⟩
  · intro hFault
    obtain ⟨index, model, field, hFirst⟩ := exists_firstFaultAt hFault
    obtain ⟨t, _, hReplay, _⟩ := hFirst.replay
    exact ⟨_, congrArg Prod.fst hReplay⟩
  · intro index model field hFirst
    obtain ⟨t, run, hReplay, hLater⟩ := hFirst.replay
    refine ⟨rfl, t, Plan.replay_ok_iff.mpr run, ?_, hLater⟩
    rw [hReplay, t.createModel_eq model]
  · intro failure hError
    obtain ⟨index, model, field, hFirst⟩ := exists_firstFaultAt_of_error hError
    obtain ⟨t, _, hReplay, _⟩ := hFirst.replay
    refine ⟨index, model, field, hFirst, ?_⟩
    rw [hReplay] at hError
    exact (Except.error.inj hError).symm

/-- The key of a field left over from the start can be set until a reset, and a model that the
failing step names for the first time stays behind. -/
theorem replay_stops_after_reset :
    let s : Schema := ⟨[{ name := "A", fields := [{ name := "x", type := .scalar .int }] }]⟩
    let p : Plan := ⟨[.setPrimaryKey "A" "x", .createModel "B", .reset, .setPrimaryKey "A" "x",
      .addField "A" "x" (.scalar .int) none false]⟩
    ∃ t, (⟨p.steps.take 3⟩ : Plan).replay s = (.ok (), t) ∧
      p.replay s = (.error ⟨4, .setPrimaryKey, .fieldNotFound "A" "x"⟩,
        if t.contains "A" then t else ⟨t.models ++ [{ name := "A" }]⟩) ∧
      ∀ later, (⟨p.steps.take 4 ++ later⟩ : Plan).replay s = p.replay s := by
  intro s p
  have hError : (p.replay s).1 = .error ⟨4, .setPrimaryKey, .fieldNotFound "A" "x"⟩ := by decide
  obtain ⟨index, model, field, hFirst, hFailure⟩ :=
    (replay_stops_at_first_fault p s).2.2.1 _ hError
  cases hFailure
  exact ((replay_stops_at_first_fault p s).2.1 3 "A" "x" hFirst).2

end Datamodel
