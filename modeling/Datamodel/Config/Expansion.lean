/-!
References to environment variables in a text. A reference is a dollar sign, an opening brace, a
name of at least one character and a closing brace; the name may hold anything but a closing brace.
References are replaced from left to right, and what is put in is not looked at again. A reference
to a variable that is not set stays as it is.
-/

namespace Datamodel

/-- The values of the environment variables that are set. -/
abbrev Environment :=
  String → Option String

namespace Environment

/-- The name that an opening brace at the start of the text encloses, and what follows it. -/
def enclosedName? : List Char → Option (List Char × List Char)
  | '{' :: rest =>
    match rest.takeWhile (· ≠ '}'), rest.dropWhile (· ≠ '}') with
    | n :: ns, _ :: after => some (n :: ns, after)
    | _, _ => none
  | _ => none

/-- The first reference in a text: what comes before it, its name, and what follows it. -/
def firstReference? : List Char → Option (List Char × List Char × List Char)
  | [] => none
  | c :: rest =>
    match if c = '$' then enclosedName? rest else none with
    | some (name, after) => some ([], name, after)
    | none =>
      (firstReference? rest).map fun (before, name, after) => (c :: before, name, after)

def reference (name : List Char) : List Char :=
  '$' :: '{' :: (name ++ ['}'])

def replacement (env : Environment) (name : List Char) : List Char :=
  match env (String.ofList name) with
  | some value => value.toList
  | none => reference name

theorem eq_of_enclosedName? {cs name after : List Char}
    (h : enclosedName? cs = some (name, after)) : cs = '{' :: (name ++ '}' :: after) := by
  unfold enclosedName? at h
  split at h
  · rename_i rest
    split at h
    · rename_i n ns c more hTake hDrop
      obtain ⟨rfl, rfl⟩ : n :: ns = name ∧ more = after := by simpa using h
      have hc : c = '}' := by
        have hHead := List.head?_dropWhile_not (fun x => decide (x ≠ '}')) rest
        rw [hDrop] at hHead
        simpa using hHead
      rw [hc] at hDrop
      rw [← hTake, ← hDrop, List.takeWhile_append_dropWhile]
    · simp at h
  · simp at h

theorem eq_of_firstReference? {cs before name after : List Char}
    (h : firstReference? cs = some (before, name, after)) :
    cs = before ++ (reference name ++ after) := by
  induction cs generalizing before with
  | nil => simp [firstReference?] at h
  | cons c rest ih =>
    unfold firstReference? at h
    split at h
    · rename_i n a hName
      obtain ⟨rfl, rfl, rfl⟩ : [] = before ∧ n = name ∧ a = after := by simpa using h
      split at hName
      · rename_i hc
        rw [hc, eq_of_enclosedName? hName]
        simp [reference]
      · simp at hName
    · obtain ⟨⟨b, n, a⟩, hRest, hEq⟩ := Option.map_eq_some_iff.1 h
      obtain ⟨rfl, rfl, rfl⟩ : c :: b = before ∧ n = name ∧ a = after := by simpa using hEq
      simpa using ih hRest

/-- A text with its references replaced. -/
def expandChars (env : Environment) (cs : List Char) : List Char :=
  match _h : firstReference? cs with
  | none => cs
  | some (before, name, after) => before ++ (env.replacement name ++ env.expandChars after)
termination_by cs.length
decreasing_by
  rw [eq_of_firstReference? _h]
  simp [reference]
  omega

/-- The names that a text refers to, from left to right. -/
def referencedNames (cs : List Char) : List String :=
  match _h : firstReference? cs with
  | none => []
  | some (_, name, after) => String.ofList name :: referencedNames after
termination_by cs.length
decreasing_by
  rw [eq_of_firstReference? _h]
  simp [reference]
  omega

/-- A text with its references replaced. -/
def expand (env : Environment) (s : String) : String :=
  String.ofList (env.expandChars s.toList)

end Environment

end Datamodel
