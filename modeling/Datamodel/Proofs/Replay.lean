import Datamodel.Plan
import Datamodel.Proofs.Schema.Update
import Mathlib.Tactic.ByContra

/-! Replays as runs of single steps. A step that names a model changes nothing but the body of that
model, and only the setting of a key can fail. A run is a replay in which every step succeeds; it
says nothing about the places at which the steps are counted. -/
namespace Datamodel

namespace Step

/-- What the step does to the body of the model that it names. Starting over names none. -/
def change : Step → Body → Body
  | createModel _ => id
  | addField _ name type generator isUnique => (·.addField { name, type, generator, isUnique })
  | setPrimaryKey _ field => (·.markKey field)
  | addRelation _ relation => (·.addRelation relation)
  | reset => id

/-- The frame of a step. It covers steps that fail as well as steps that succeed. -/
theorem apply_snd {step : Step} {model : String} (h : step.model? = some model) (s : Schema) :
    (step.apply s).2 = s.update model step.change := by
  cases step with
  | createModel name => cases h; rfl
  | addField name field type generator isUnique => cases h; rfl
  | setPrimaryKey name field => cases h; rfl
  | addRelation name relation => cases h; rfl
  | reset => cases h

theorem apply_snd_reset (s : Schema) : (reset.apply s).2 = {} := rfl

theorem model?_eq_none_iff {step : Step} : step.model? = none ↔ step = reset := by
  cases step <;> simp [model?]

/-- A step fails exactly if it sets the key of a field that its model does not have. -/
theorem apply_error_iff {step : Step} {s : Schema} {cause : SchemaError} :
    (step.apply s).1 = .error cause ↔
      ∃ model field, step = .setPrimaryKey model field ∧
        field ∉ (s.body model).fieldNames ∧ cause = .fieldNotFound model field := by
  cases step with
  | setPrimaryKey model field =>
      by_cases h : field ∈ (s.body model).fieldNames
      · rw [apply, Schema.setPrimaryKey_of_mem h]
        simp [h]
      · rw [apply, Schema.setPrimaryKey_of_notMem h]
        constructor
        · intro hCause
          cases hCause
          exact ⟨model, field, rfl, h, rfl⟩
        · rintro ⟨_, _, hStep, _, rfl⟩
          cases hStep
          rfl
  | _ => simp [apply]

theorem apply_ok_iff {step : Step} {s : Schema} :
    (step.apply s).1 = .ok () ↔
      ∀ model field, step = .setPrimaryKey model field →
        field ∈ (s.body model).fieldNames := by
  constructor
  · intro hOk model field hStep
    by_contra hNot
    have hError := apply_error_iff.mpr ⟨model, field, hStep, hNot, rfl⟩
    rw [hOk] at hError
    cases hError
  · intro hHas
    cases hResult : (step.apply s).1 with
    | ok => rfl
    | error cause =>
        obtain ⟨model, field, hStep, hNot, _⟩ := apply_error_iff.mp hResult
        exact absurd (hHas model field hStep) hNot

end Step

/-- All of the steps succeed, one after the other, and lead from the first schema to the second. -/
inductive Replays : Schema → List Step → Schema → Prop where
  | nil (s : Schema) : Replays s [] s
  | cons {s t u : Schema} {step : Step} {steps : List Step}
      (first : step.apply s = (.ok (), t)) (rest : Replays t steps u) :
      Replays s (step :: steps) u

namespace Replays

theorem trans {s t u : Schema} {before later : List Step}
    (left : Replays s before t) (right : Replays t later u) : Replays s (before ++ later) u := by
  induction left with
  | nil => exact right
  | cons first rest ih => exact .cons first (ih right)

/-- A run through two lists of steps has a schema in between. -/
theorem append_iff {s u : Schema} {before later : List Step} :
    Replays s (before ++ later) u ↔ ∃ t, Replays s before t ∧ Replays t later u := by
  constructor
  · intro run
    induction before generalizing s with
    | nil => exact ⟨s, .nil s, run⟩
    | cons step steps ih =>
        cases run with
        | cons first rest =>
            obtain ⟨t, hBefore, hLater⟩ := ih rest
            exact ⟨t, .cons first hBefore, hLater⟩
  · rintro ⟨t, left, right⟩
    exact left.trans right

theorem singleton_iff {s t : Schema} {step : Step} :
    Replays s [step] t ↔ step.apply s = (.ok (), t) := by
  constructor
  · intro run
    cases run with
    | cons first rest =>
        cases rest
        exact first
  · exact fun h => .cons h (.nil t)

/-- The last step of a run starts where the others lead. -/
theorem concat_iff {s u : Schema} {steps : List Step} {step : Step} :
    Replays s (steps ++ [step]) u ↔ ∃ t, Replays s steps t ∧ step.apply t = (.ok (), u) := by
  simp only [append_iff, singleton_iff]

end Replays

namespace Plan

/-- Steps that are counted from any place succeed exactly if there is a run through them. -/
theorem replaySteps_ok_iff {index : Nat} {steps : List Step} {s t : Schema} :
    replaySteps index steps s = (.ok (), t) ↔ Replays s steps t := by
  induction steps generalizing index s with
  | nil =>
      constructor
      · intro h
        cases h
        exact .nil _
      · intro run
        cases run
        rfl
  | cons step steps ih =>
      cases hApply : step.apply s with
      | mk result next =>
          cases result with
          | ok =>
              rw [replaySteps, hApply]
              constructor
              · exact fun h => .cons hApply (ih.mp h)
              · intro run
                cases run with
                | cons first rest =>
                    rw [hApply] at first
                    cases first
                    exact ih.mpr rest
          | error cause =>
              rw [replaySteps, hApply]
              constructor
              · exact fun h => by cases h
              · intro run
                cases run with
                | cons first rest =>
                    rw [hApply] at first
                    cases first

/-- Behind a run the replay goes on where the run ends. -/
theorem replaySteps_append {s t : Schema} {before : List Step} (run : Replays s before t)
    (index : Nat) (later : List Step) :
    replaySteps index (before ++ later) s = replaySteps (index + before.length) later t := by
  induction run generalizing index with
  | nil => rfl
  | @cons s mid t step steps first rest ih =>
      have hIndex : index + (step :: steps).length = index + 1 + steps.length := by
        rw [List.length_cons]
        omega
      rw [List.cons_append, replaySteps, first, hIndex]
      exact ih (index + 1)

theorem replay_ok_iff {p : Plan} {s t : Schema} :
    p.replay s = (.ok (), t) ↔ Replays s p.steps t :=
  replaySteps_ok_iff

/-- Building succeeds exactly if replaying on the empty schema does, with the same schema. -/
theorem build_ok_iff {p : Plan} {t : Schema} :
    p.build = .ok t ↔ p.replay {} = (.ok (), t) := by
  unfold build
  split
  · rename_i hReplay
    simp [hReplay]
  · rename_i hReplay
    simp [hReplay]

/-- Building fails exactly if replaying on the empty schema does, for the same reason. -/
theorem build_error_iff {p : Plan} {failure : StepFailure} :
    p.build = .error failure ↔ (p.replay {}).1 = .error failure := by
  unfold build
  split
  · rename_i hReplay
    simp [hReplay]
  · rename_i hReplay
    simp [hReplay]

end Plan

end Datamodel
