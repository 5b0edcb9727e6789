import Datamodel.Proofs.Document.Layout
import Datamodel.Proofs.Replay.Outcome
import Datamodel.Proofs.Validation

/-! Declarations in any order. What a step does, and whether it fails, depends only on the steps
that named its model before. So a plan without resets can be replayed exactly if the steps of each
model can be replayed alone, and what it builds is known model by model. Plans that interleave the
steps of different models differently build the same models, in some order, with the same blocks,
the same notes and the same breaches of the rules. -/
namespace Datamodel

/-- The steps that name a model, in their order. -/
def stepsOf (model : String) (steps : List Step) : List Step :=
  steps.filter fun step => step.model? = some model

theorem mem_stepsOf {model : String} {steps : List Step} {step : Step} :
    step ∈ stepsOf model steps ↔ step ∈ steps ∧ step.model? = some model := by
  simp [stepsOf]

theorem stepsOf_concat_self {model : String} {step : Step} (h : step.model? = some model)
    (steps : List Step) : stepsOf model (steps ++ [step]) = stepsOf model steps ++ [step] := by
  simp [stepsOf, h]

theorem stepsOf_concat_of_ne {model : String} {step : Step} (h : step.model? ≠ some model)
    (steps : List Step) : stepsOf model (steps ++ [step]) = stepsOf model steps := by
  simp [stepsOf, h]

/-- What steps that name other models do not give is found among the steps of the model. -/
theorem filterMap_stepsOf {α : Type} {model : String} {f : Step → Option α}
    (h : ∀ step, step.model? ≠ some model → f step = none) (steps : List Step) :
    (stepsOf model steps).filterMap f = steps.filterMap f := by
  rw [stepsOf, List.filterMap_filter]
  refine List.filterMap_congr fun step _ => ?_
  by_cases hModel : step.model? = some model
  · simp [hModel]
  · simp [hModel, h step hModel]

namespace Outcome

/-- The body of a model is described by the steps that name it. -/
theorem body_stepsOf (model : String) (steps : List Step) :
    body (stepsOf model steps) model = body steps model := by
  have hFields : addedFields (stepsOf model steps) model = addedFields steps model :=
    filterMap_stepsOf (fun _ => Step.fieldOf?_eq_none) steps
  have hRelations : addedRelations (stepsOf model steps) model = addedRelations steps model :=
    filterMap_stepsOf (fun _ => Step.relationOf?_eq_none) steps
  have hKeys : ∀ name, .setPrimaryKey model name ∈ stepsOf model steps ↔
      .setPrimaryKey model name ∈ steps := by
    intro name
    simp [mem_stepsOf, Step.model?]
  simp only [body, hFields, hRelations, withKeys, hKeys]

theorem mem_modelNames {model : String} {steps : List Step} :
    model ∈ modelNames steps ↔ stepsOf model steps ≠ [] := by
  rw [modelNames, List.mem_eraseDups, List.mem_filterMap, ne_eq, List.eq_nil_iff_forall_not_mem]
  simp only [mem_stepsOf, not_forall, not_not]

theorem sinceReset_of_notMem {steps : List Step} (h : .reset ∉ steps) : sinceReset steps = steps :=
  List.rtakeWhile_eq_self_iff.mpr fun step hStep => by
    simpa using fun he : step = .reset => h (he ▸ hStep)

/-- A run from nothing without resets leads to what all of its steps describe. -/
theorem eq_schema_of_replays_of_notMem {steps : List Step} {t : Schema}
    (h : .reset ∉ steps) (run : Replays {} steps t) : t = schema steps := by
  rw [(eq_schema_of_replays run).1, sinceReset_of_notMem h]

end Outcome

/-- Whether a step fails depends on the body of its model. -/
theorem Step.apply_ok_congr {step : Step} {s t : Schema}
    (h : ∀ model, step.model? = some model → s.body model = t.body model) :
    (step.apply s).1 = .ok () ↔ (step.apply t).1 = .ok () := by
  rw [apply_ok_iff, apply_ok_iff]
  refine forall_congr' fun model => forall_congr' fun field => imp_congr_right ?_
  rintro rfl
  rw [h model rfl]

theorem Replays.exists_concat_iff {s : Schema} {steps : List Step} {step : Step} :
    (∃ u, Replays s (steps ++ [step]) u) ↔
      ∃ t, Replays s steps t ∧ (step.apply t).1 = .ok () := by
  simp only [concat_iff]
  constructor
  · rintro ⟨u, t, run, hApply⟩
    exact ⟨t, run, by rw [hApply]⟩
  · rintro ⟨t, run, hOk⟩
    exact ⟨(step.apply t).2, t, run, Prod.ext hOk rfl⟩

/-- Whether a step can be taken next is settled by the earlier steps of its model. -/
theorem apply_ok_iff_of_stepsOf {steps : List Step} (h : .reset ∉ steps) {step : Step}
    {model : String} (hModel : step.model? = some model) {s t : Schema}
    (run : Replays {} steps s) (own : Replays {} (stepsOf model steps) t) :
    (step.apply s).1 = .ok () ↔ (step.apply t).1 = .ok () := by
  refine Step.apply_ok_congr fun name hName => ?_
  obtain rfl := Option.some.inj (hModel.symm.trans hName)
  have hOwn : .reset ∉ stepsOf model steps := fun hReset => h (mem_stepsOf.mp hReset).1
  rw [Outcome.eq_schema_of_replays_of_notMem h run,
    Outcome.eq_schema_of_replays_of_notMem hOwn own, Outcome.body_schema, Outcome.body_schema,
    Outcome.body_stepsOf]

/-- Steps without a reset can be taken from nothing exactly if those of each model can be taken
alone. -/
theorem exists_replays_iff_forall_stepsOf {steps : List Step} (h : .reset ∉ steps) :
    (∃ t, Replays {} steps t) ↔ ∀ model, ∃ t, Replays {} (stepsOf model steps) t := by
  -- From the end, since whether a step can be taken is settled by the steps before it.
  induction steps using List.reverseRecOn with
  | nil => exact ⟨fun run _ => run, fun run => run ""⟩
  | append_singleton steps step ih =>
      obtain ⟨hEarlier, hStep⟩ : .reset ∉ steps ∧ step ≠ .reset := by
        simpa [eq_comm] using h
      obtain ⟨model, hModel⟩ := Option.ne_none_iff_exists'.mp (mt Step.model?_eq_none_iff.mp hStep)
      constructor
      · intro runs name
        obtain ⟨s, run, hOk⟩ := Replays.exists_concat_iff.mp runs
        obtain ⟨t, own⟩ := (ih hEarlier).mp ⟨s, run⟩ name
        by_cases hName : step.model? = some name
        · rw [stepsOf_concat_self hName, Replays.exists_concat_iff]
          exact ⟨t, own, (apply_ok_iff_of_stepsOf hEarlier hName run own).mp hOk⟩
        · rw [stepsOf_concat_of_ne hName]
          exact ⟨t, own⟩
      · intro runs
        have hOwn := runs model
        rw [stepsOf_concat_self hModel, Replays.exists_concat_iff] at hOwn
        obtain ⟨t, own, hOk⟩ := hOwn
        -- The run of the last step's own model stops one step early, those of the others are kept.
        obtain ⟨s, run⟩ : ∃ s, Replays {} steps s := by
          refine (ih hEarlier).mpr fun name => ?_
          by_cases hName : step.model? = some name
          · obtain rfl := Option.some.inj (hModel.symm.trans hName)
            exact ⟨t, own⟩
          · rw [← stepsOf_concat_of_ne hName]
            exact runs name
        exact Replays.exists_concat_iff.mpr
          ⟨s, run, (apply_ok_iff_of_stepsOf hEarlier hModel run own).mpr hOk⟩

namespace Schema

theorem names_perm {s t : Schema} (h : s.models.Perm t.models) : s.names.Perm t.names :=
  h.map _

theorem get?_congr {s t : Schema} (hKeyed : s.IsKeyed) (h : s.models.Perm t.models)
    (name : String) : s.get? name = t.get? name := by
  have hOther : t.IsKeyed := (names_perm h).nodup_iff.mp hKeyed
  refine Option.ext fun m => ?_
  rw [get?_eq_some_iff hKeyed, get?_eq_some_iff hOther, h.mem_iff]

theorem diagnostics_perm {s t : Schema} (h : s.models.Perm t.models) :
    s.diagnostics.Perm t.diagnostics :=
  h.flatMap_right _

/-- What is wrong with a model does not depend on where the models of the schema stand. -/
theorem breaches_model_congr {s t : Schema} (h : s.models.Perm t.models) (m : Model) :
    m.breaches s.names = m.breaches t.names := by
  have hRelation : m.relationBreaches s.names = m.relationBreaches t.names := by
    funext r
    simp only [Model.relationBreaches, (names_perm h).mem_iff]
  rw [Model.breaches, Model.breaches, hRelation]

theorem breaches_perm {s t : Schema} (h : s.models.Perm t.models) :
    s.breaches.Perm t.breaches := by
  have hSame : s.breaches = s.models.flatMap (·.breaches t.names) := by
    simp only [breaches, breaches_model_congr h]
  rw [hSame]
  exact h.flatMap_right _

theorem breaches_eq_nil_congr {s t : Schema} (h : s.models.Perm t.models) :
    s.breaches = [] ↔ t.breaches = [] := by
  rw [← List.perm_nil, ← List.perm_nil, (breaches_perm h).congr_left]

theorem validate_ok_congr {s t : Schema} (h : s.models.Perm t.models) :
    s.validate = .ok () ↔ t.validate = .ok () := by
  rw [Validator.validate_ok_iff_isStrict, Validator.validate_ok_iff_isStrict,
    ← breaches_eq_nil_iff, ← breaches_eq_nil_iff, breaches_eq_nil_congr h]

/-- A schema is rejected with the number and the list of its breaches, and only if there are any. -/
theorem validate_error_iff {s : Schema} {count : Nat} {errors : List Violation} :
    s.validate = .error (.invalid count errors) ↔
      count = s.breaches.length ∧ errors = s.breaches ∧ s.breaches ≠ [] := by
  rw [validate]
  by_cases h : s.breaches = []
  · simp [Validator.judge_of_breaches_eq_nil h, h]
  · simp [Validator.judge_of_breaches_ne_nil h, h, eq_comm]

theorem exists_validate_error {s t : Schema} (h : s.models.Perm t.models) {count : Nat}
    {errors : List Violation} (hErrors : s.validate = .error (.invalid count errors)) :
    ∃ others, t.validate = .error (.invalid count others) ∧ errors.Perm others := by
  obtain ⟨rfl, rfl, hSome⟩ := validate_error_iff.mp hErrors
  have hOther : t.breaches ≠ [] := mt (breaches_eq_nil_congr h).mpr hSome
  have hPerm := breaches_perm h
  exact ⟨t.breaches, validate_error_iff.mpr ⟨hPerm.length_eq, rfl, hOther⟩, hPerm⟩

end Schema

theorem Plan.replay_fst_ok_iff {p : Plan} {s : Schema} :
    (p.replay s).1 = .ok () ↔ ∃ t, Replays s p.steps t := by
  simp only [← replay_ok_iff]
  constructor
  · intro hOk
    exact ⟨(p.replay s).2, Prod.ext hOk rfl⟩
  · rintro ⟨t, hReplay⟩
    rw [hReplay]

/-- Two plans without resets in which every model has the same steps, in the same order. The steps
of different models may be interleaved in any two ways. -/
structure Plan.Reorders (p q : Plan) : Prop where
  left : .reset ∉ p.steps
  right : .reset ∉ q.steps
  same : ∀ model, stepsOf model p.steps = stepsOf model q.steps

namespace Plan.Reorders

variable {p q : Plan}

theorem exists_replays_iff (h : p.Reorders q) :
    (∃ s, Replays {} p.steps s) ↔ ∃ t, Replays {} q.steps t := by
  simp only [exists_replays_iff_forall_stepsOf h.left, exists_replays_iff_forall_stepsOf h.right,
    h.same]

theorem body_eq (h : p.Reorders q) (model : String) :
    Outcome.body p.steps model = Outcome.body q.steps model := by
  rw [← Outcome.body_stepsOf model p.steps, h.same, Outcome.body_stepsOf]

theorem modelNames_perm (h : p.Reorders q) :
    (Outcome.modelNames p.steps).Perm (Outcome.modelNames q.steps) := by
  refine (List.perm_ext_iff_of_nodup (nodup_eraseDups _) (nodup_eraseDups _)).mpr fun model => ?_
  change model ∈ Outcome.modelNames p.steps ↔ model ∈ Outcome.modelNames q.steps
  rw [Outcome.mem_modelNames, Outcome.mem_modelNames, h.same]

/-- The two runs end in the same models. -/
theorem models_perm (h : p.Reorders q) {s t : Schema} (hLeft : Replays {} p.steps s)
    (hRight : Replays {} q.steps t) : s.models.Perm t.models := by
  rw [Outcome.eq_schema_of_replays_of_notMem h.left hLeft,
    Outcome.eq_schema_of_replays_of_notMem h.right hRight]
  simp only [Outcome.schema, h.body_eq]
  exact h.modelNames_perm.map _

end Plan.Reorders

/-- A plan and another order of it are replayed from nothing both or neither. They build the same
models, in some order. Both documents open with the same block, and then they have the same blocks,
in the order of their models; the notes on the documents are the same and so are the errors that
validation finds, again in some order. -/
theorem Plan.replay_reordered {p q : Plan} (h : p.Reorders q) :
    ((p.replay {}).1 = .ok () ↔ (q.replay {}).1 = .ok ()) ∧
      ∀ s t, p.replay {} = (.ok (), s) → q.replay {} = (.ok (), t) →
        s.models.Perm t.models ∧ (∀ name, s.get? name = t.get? name) ∧
        (∃ left right : List String, left.Perm right ∧
          left = s.models.map (·.block) ∧ right = t.models.map (·.block) ∧
          s.document.text =
            Document.datasource ++ String.join (left.map ("\n\n" ++ ·)) ∧
          t.document.text =
            Document.datasource ++ String.join (right.map ("\n\n" ++ ·))) ∧
        s.document.diagnostics.Perm t.document.diagnostics ∧
        (s.validate = .ok () ↔ t.validate = .ok ()) ∧
        ∀ count errors, s.validate = .error (.invalid count errors) →
          ∃ others, t.validate = .error (.invalid count others) ∧ errors.Perm others := by
  constructor
  · rw [replay_fst_ok_iff, replay_fst_ok_iff, h.exists_replays_iff]
  · intro s t hs ht
    have hLeft := replay_ok_iff.mp hs
    have hPerm := h.models_perm hLeft (replay_ok_iff.mp ht)
    have hKeyed : s.IsKeyed := by
      rw [Outcome.eq_schema_of_replays_of_notMem h.left hLeft]
      exact Outcome.isKeyed_schema p.steps
    refine ⟨hPerm, Schema.get?_congr hKeyed hPerm,
      ⟨_, _, hPerm.map _, rfl, rfl, ?_, ?_⟩, Schema.diagnostics_perm hPerm,
      Schema.validate_ok_congr hPerm, fun count errors => Schema.exists_validate_error hPerm⟩
    · rw [Schema.document, Schema.text_eq_append_join, List.map_map]
      rfl
    · rw [Schema.document, Schema.text_eq_append_join, List.map_map]
      rfl

/-- Each of two models relates to the other, and each relation is stored nowhere. The model that is
declared last has the relation that the other plan reports first. -/
theorem Plan.replay_reordered_of_cycle :
    let owner : Relation := { name := "owner", kind := .manyToOne, target := "B" }
    let home : Relation := { name := "home", kind := .manyToOne, target := "A" }
    let p : Plan := ⟨[.addRelation "A" owner, .addField "B" "id" (.scalar .int) none false,
      .addField "A" "x" (.scalar .int) none true, .addRelation "B" home, .setPrimaryKey "B" "id"]⟩
    let q : Plan := ⟨[.addField "B" "id" (.scalar .int) none false, .addRelation "B" home,
      .setPrimaryKey "B" "id", .addRelation "A" owner, .addField "A" "x" (.scalar .int) none true]⟩
    let a : Model := {
      name := "A", relations := [owner]
      fields := [{ name := "x", type := .scalar .int, isUnique := true }] }
    let b : Model := {
      name := "B", relations := [home]
      fields := [{ name := "id", type := .scalar .int, isPrimaryKey := true }] }
    p.Reorders q ∧ p.replay {} = (.ok (), ⟨[a, b]⟩) ∧ q.replay {} = (.ok (), ⟨[b, a]⟩) ∧
      (Schema.mk [a, b]).document.diagnostics.Perm (Schema.mk [b, a]).document.diagnostics ∧
      (Schema.mk [a, b]).validate =
        .error (.invalid 2 [.missingBacking "A" "owner", .missingBacking "B" "home"]) ∧
      ∃ others, (Schema.mk [b, a]).validate = .error (.invalid 2 others) ∧
        [.missingBacking "A" "owner", .missingBacking "B" "home"].Perm others := by
  intro owner home p q a b
  have hReorders : p.Reorders q := by
    refine ⟨by simp [p], by simp [q], fun model => ?_⟩
    by_cases hA : "A" = model
    · subst hA
      simp [p, q, stepsOf, Step.model?]
    · by_cases hB : "B" = model
      · subst hB
        simp [p, q, stepsOf, Step.model?]
      · simp [p, q, stepsOf, Step.model?, hA, hB]
  have hLeft : p.replay {} = (.ok (), ⟨[a, b]⟩) := by decide
  have hRight : q.replay {} = (.ok (), ⟨[b, a]⟩) := by decide
  have hErrors : (Schema.mk [a, b]).validate =
      .error (.invalid 2 [.missingBacking "A" "owner", .missingBacking "B" "home"]) := by
    decide
  obtain ⟨-, -, -, hDiagnostics, -, hValidate⟩ :=
    (replay_reordered hReorders).2 _ _ hLeft hRight
  exact ⟨hReorders, hLeft, hRight, hDiagnostics, hErrors, hValidate _ _ hErrors⟩

end Datamodel
