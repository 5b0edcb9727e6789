import Datamodel.Model

/-!
Schemas: lists of models, each found by its own name, which is its key. Every operation keeps the
order in which the names came up first. A list of models becomes a schema by inserting them one
after the other; a model of a name that is there already replaces the earlier one in its place.
-/

namespace Datamodel

/-- Models in the order in which their names came up. The key of a model is its name: that is what
the type stands for, so no keys are kept besides the models. All that is done to a schema keeps it
so, which is shown on a table in which keys and models are apart. -/
structure Schema where
  models : List Model := []
  deriving DecidableEq, Repr

namespace Schema

def names (s : Schema) : List String :=
  s.models.map (·.name)

def get? (s : Schema) (name : String) : Option Model :=
  s.models.find? (·.name == name)

/-- Whether there is a model of the name, which is then its key. -/
def contains (s : Schema) (name : String) : Bool :=
  s.models.any (·.name == name)

def size (s : Schema) : Nat :=
  s.models.length

def isEmpty (s : Schema) : Bool :=
  s.models.isEmpty

/-- The models, with the body of the one with a name changed, and with a new model at the end if
there is none. -/
def updateModels (name : String) (change : Body → Body) : List Model → List Model
  | [] => [{ name, toBody := change {} }]
  | m :: ms =>
    if m.name = name then { m with toBody := change m.toBody } :: ms
    else m :: updateModels name change ms

/-- The schema with the body of a model changed. A model that does not exist yet starts with an
empty body. -/
def update (s : Schema) (name : String) (change : Body → Body) : Schema :=
  ⟨updateModels name change s.models⟩

theorem names_updateModels (name : String) (change : Body → Body) (models : List Model) :
    (updateModels name change models).map (·.name) =
      if name ∈ models.map (·.name) then models.map (·.name)
      else models.map (·.name) ++ [name] := by
  induction models with
  | nil => simp [updateModels]
  | cons m ms ih =>
    by_cases h : m.name = name
    · simp [updateModels, h]
    · have h' : ¬name = m.name := fun e => h e.symm
      simp only [updateModels, h, if_false, List.map_cons, ih, List.mem_cons, h', false_or]
      split <;> rfl

/-- Names keep their places, and a new one comes last. -/
theorem names_update (s : Schema) (name : String) (change : Body → Body) :
    (s.update name change).names =
      if name ∈ s.names then s.names else s.names ++ [name] :=
  names_updateModels name change s.models

theorem get?_update_self (s : Schema) (name : String) (change : Body → Body) :
    (s.update name change).get? name =
      some { name, toBody := change (((s.get? name).map (·.toBody)).getD {}) } := by
  obtain ⟨models⟩ := s
  simp only [get?, update]
  induction models with
  | nil => simp [updateModels]
  | cons m ms ih =>
    by_cases h : m.name = name
    · subst h
      simp [updateModels]
    · simpa [updateModels, h] using ih

theorem get?_update_of_ne (s : Schema) {name other : String} (h : other ≠ name)
    (change : Body → Body) : (s.update name change).get? other = s.get? other := by
  obtain ⟨models⟩ := s
  simp only [get?, update]
  induction models with
  | nil => simp [updateModels, h.symm]
  | cons m ms ih =>
    by_cases hm : m.name = name
    · subst hm
      simp [updateModels, h.symm]
    · simp only [updateModels, hm, if_false, List.find?_cons, ih]

/-- The schema with a model put under its name, in the place of an earlier one if there is one. -/
def insert (s : Schema) (m : Model) : Schema :=
  s.update m.name fun _ => m.toBody

def ofModels (models : List Model) : Schema :=
  models.foldl insert {}

/-- Every model is stored under a name of its own. -/
def IsKeyed (s : Schema) : Prop :=
  s.names.Nodup

/-- The size of a schema: how many models it has, and fields and relations in all of them. -/
structure Stats where
  models : Nat
  fields : Nat
  relations : Nat
  deriving DecidableEq, Repr

def stats (s : Schema) : Stats where
  models := s.models.length
  fields := (s.models.flatMap (·.fields)).length
  relations := (s.models.flatMap (·.relations)).length

/-- One line about the size of the schema. -/
def summary (s : Schema) : String :=
  "Schema(" ++ toString s.stats.models ++ " models, " ++ toString s.stats.fields ++
    " fields, " ++ toString s.stats.relations ++ " relations)"

end Schema

end Datamodel
