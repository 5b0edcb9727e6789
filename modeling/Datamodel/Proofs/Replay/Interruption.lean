import Datamodel.Document
import Datamodel.Proofs.Plan.Storage
import Datamodel.Proofs.Replay

/-! Replays that are interrupted. What has been built so far is written out, its text is read by
somebody else, and the replay goes on with what was read. Every step keeps a schema storable, so
nothing is lost on the way. -/
namespace Datamodel

namespace Body

/-- A step brings no other type into a body than its own. -/
theorem HasProperTypes.change {b : Body} (h : b.HasProperTypes) {step : Step}
    (hStep : step.IsProper) : (step.change b).HasProperTypes := by
  cases step with
  | createModel model => exact h
  | addField model name type generator isUnique =>
      intro f hf
      rcases List.mem_append.mp hf with hOld | hNew
      · exact h f hOld
      · cases List.mem_singleton.mp hNew
        exact hStep
  | setPrimaryKey model field =>
      intro f hf
      obtain ⟨i, hi⟩ := List.mem_iff_getElem?.mp hf
      simp only [Step.change, markKey, editField, getElem?_changeFirst] at hi
      obtain ⟨g, hg, rfl⟩ := Option.map_eq_some_iff.mp hi
      have hType : g.type.IsProper := h g (List.mem_of_getElem? hg)
      split <;> exact hType
  | addRelation model relation => exact h
  | reset => exact h

end Body

namespace Schema

theorem IsStorable.apply {s : Schema} (h : s.IsStorable) {step : Step} (hStep : step.IsProper) :
    (step.apply s).2.IsStorable := by
  cases hModel : step.model? with
  | none =>
      obtain rfl := Step.model?_eq_none_iff.mp hModel
      exact isStorable_empty
  | some model =>
      rw [Step.apply_snd hModel]
      exact h.update (fun _ hBody => hBody.change hStep) model

theorem IsStorable.replaySteps {s : Schema} (h : s.IsStorable) {steps : List Step}
    (hSteps : ∀ step ∈ steps, step.IsProper) (index : Nat) :
    (Plan.replaySteps index steps s).2.IsStorable := by
  induction steps generalizing index s with
  | nil => exact h
  | cons step steps ih =>
      rw [List.forall_mem_cons] at hSteps
      have hNext := h.apply hSteps.1
      rw [Plan.replaySteps]
      split
      · rename_i hApply
        rw [hApply] at hNext
        exact ih hNext hSteps.2 (index + 1)
      · rename_i hApply
        rw [hApply] at hNext
        exact hNext

end Schema

namespace Plan

/-- The replay of a plan that is interrupted behind a number of steps, or by a failure before that.
What has been built is written out and read again; if there was no failure, the replay goes on with
what was read. -/
def resume (p : Plan) (index : Nat) (s : Schema) : Decoded (Except StepFailure Unit × Schema) := do
  let before := replaySteps 1 (p.steps.take index) s
  let loaded ← Json.parse Schema.ofValue before.2.toJson.compact
  match before.1 with
  | .ok () => return replaySteps (1 + (p.steps.take index).length) (p.steps.drop index) loaded
  | .error failure => return (.error failure, loaded)

/-- A replay that has failed does not go on. -/
theorem replaySteps_append_of_error {index : Nat} {before : List Step} {s t : Schema}
    {failure : StepFailure} (h : replaySteps index before s = (.error failure, t))
    (later : List Step) : replaySteps index (before ++ later) s = (.error failure, t) := by
  induction before generalizing index s with
  | nil => cases h
  | cons step steps ih =>
      rw [List.cons_append, replaySteps]
      rw [replaySteps] at h
      split at h
      · exact ih h
      · exact h

/-- The interruption does not show. -/
theorem resume_eq_replay {p : Plan} (hPlan : p.HasProperTypes) {s : Schema} (h : s.IsStorable)
    (index : Nat) : p.resume index s = .ok (p.replay s) := by
  have hBefore : ∀ step ∈ p.steps.take index, step.IsProper :=
    fun step hStep => hPlan step (List.mem_of_mem_take hStep)
  have hLoaded := (h.replaySteps hBefore 1).parse_compact
  rw [resume, hLoaded, Decoded.ok_bind, replay]
  cases hReplay : replaySteps 1 (p.steps.take index) s with
  | mk result reached =>
      have hSteps : p.steps = p.steps.take index ++ p.steps.drop index :=
        (List.take_append_drop index p.steps).symm
      cases result with
      | ok =>
          have run : Replays s (p.steps.take index) reached := replaySteps_ok_iff.mp hReplay
          conv_rhs => rw [hSteps, replaySteps_append run]
          rfl
      | error failure =>
          -- The replay has failed before the interruption, so it ends there with or without it.
          conv_rhs => rw [hSteps, replaySteps_append_of_error hReplay]
          rfl

end Plan

/-- A storable schema is read back from its text as it was. Every schema is storable that has been
read from a text, put together from models with proper types or built by steps with such types, and
it stays so when a body changes. So a plan that has been read can be interrupted anywhere: if the
schema is written out there and read again, the replay ends as it would have without that, with the
same document. -/
theorem Schema.storage_exact :
    (∀ s : Schema, s.IsStorable → Json.parse ofValue s.toJson.compact = .ok s) ∧
      (∀ (text : String) (s : Schema), Json.parse ofValue text = .ok s →
        s.IsStorable ∧ Json.parse ofValue s.toJson.compact = .ok s) ∧
      (∀ models : List Model, (∀ m ∈ models, m.HasProperTypes) → (ofModels models).IsStorable) ∧
      (∀ p : Plan, p.HasProperTypes → (p.replay {}).2.IsStorable) ∧
      (∀ s : Schema, s.IsStorable → ∀ (name : String) (change : Body → Body),
        (∀ b : Body, b.HasProperTypes → (change b).HasProperTypes) →
          (s.update name change).IsStorable) ∧
      ∀ (text : String) (p : Plan), Plan.ofJson text = .ok p ∨ Plan.ofToml text = .ok p →
        ∀ start : Schema, start.IsStorable → ∀ index : Nat,
          ∃ outcome, p.resume index start = .ok outcome ∧ outcome = p.replay start ∧
            outcome.2.document = (p.replay start).2.document := by
  refine ⟨fun s h => h.parse_compact, fun text s h => ?_, fun models h => isStorable_ofModels h,
    fun p h => isStorable_empty.replaySteps h 1,
    fun s h name change hChange => h.update hChange name,
    fun text p hRead start hStart index => ?_⟩
  · have hStorable := isStorable_of_parse h
    exact ⟨hStorable, hStorable.parse_compact⟩
  · exact ⟨p.replay start, Plan.resume_eq_replay (Plan.hasProperTypes_of_parse hRead) hStart index,
      rfl, rfl⟩

/-- The replay is interrupted behind the second of three steps, with names in the schema that look
like the text around them. -/
theorem Schema.storage_of_quoted_names :
    let s : Schema := ⟨[
      { name := "", relations := [{ name := "\"]", kind := .manyToMany, target := "\\" }] },
      { name := "\u0001𝄞", fields := [
        { name := "d", type := .unsupported "DateTime", generator := some .currentTime },
        { name := "d", type := .scalar .date, isPrimaryKey := true }] }]⟩
    let text := "\x7b\"steps\":[[\"create_model\",\"A\"],[\"add_field\",\"A\",\"x\",\"float\"," ++
      "null,true],[\"set_primary_key\",\"A\",\"y\"]]\x7d"
    let p : Plan := ⟨[.createModel "A", .addField "A" "x" (.scalar .float) none true,
      .setPrimaryKey "A" "y"]⟩
    s.IsStorable ∧ Json.parse ofValue s.toJson.compact = .ok s ∧ Plan.ofJson text = .ok p ∧
      ∃ outcome, p.resume 2 s = .ok outcome ∧ outcome = p.replay s ∧
        outcome.1 = .error ⟨3, .setPrimaryKey, .fieldNotFound "A" "y"⟩ := by
  intro s text p
  have hStorable : s.IsStorable := by
    refine ⟨by simp [s, IsKeyed, names], ?_⟩
    simp [s, Body.HasProperTypes, FieldType.IsProper, Scalar.ofLabel?]
  have hRead : Plan.ofJson text = .ok p := by decide +kernel
  obtain ⟨hSchema, -, -, -, -, hResume⟩ := storage_exact
  obtain ⟨outcome, hOutcome, rfl, -⟩ := hResume text p (.inl hRead) s hStorable 2
  exact ⟨hStorable, hSchema s hStorable, hRead, _, hOutcome, rfl, by decide⟩

end Datamodel
