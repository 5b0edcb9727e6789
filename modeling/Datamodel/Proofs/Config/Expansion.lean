import Datamodel.Config.Expansion
import Mathlib.Data.List.Basic
import Mathlib.Data.List.TakeWhile

/-! Expanding references as one scan from left to right. A text falls into pieces, each a reference
or a single character with which no reference starts, and there is only one way to do so. The pieces
are found in the text alone. Only then are the references replaced, piece by piece, so a value is
never looked at as a part of the text. -/
namespace Datamodel.Environment

/-- The text starts with a reference: a dollar sign and an opening brace, a name of at least one
character without a closing brace in it, and a closing brace. -/
structure StartsWith (cs name after : List Char) : Prop where
  ne_nil : name ≠ []
  closing_notMem : '}' ∉ name
  eq_append : cs = '$' :: '{' :: (name ++ '}' :: after)

/-- A part of a text: a reference to a variable, or a character that stands for itself. -/
inductive Piece where
  | reference (name : String)
  | plain (c : Char)
  deriving DecidableEq, Repr

namespace Piece

/-- The piece as it stands in the text. -/
def source : Piece → List Char
  | reference name => '$' :: '{' :: (name.toList ++ ['}'])
  | plain c => [c]

/-- What stands in the place of the piece afterwards. -/
def expansion (env : Environment) : Piece → List Char
  | reference name =>
    match env name with
    | some value => value.toList
    | none => (reference name).source
  | plain c => [c]

/-- The name in a reference. -/
def name? : Piece → Option String
  | reference name => some name
  | plain _ => none

end Piece

/-- The text that pieces come from. -/
def spelled (pieces : List Piece) : String :=
  String.ofList (pieces.flatMap (·.source))

/-- The text with a value in the place of each reference to a variable that is set. -/
def filledIn (env : Environment) (pieces : List Piece) : String :=
  String.ofList (pieces.flatMap (·.expansion env))

/-- The pieces of a text, from left to right. -/
inductive Scans : List Char → List Piece → Prop where
  | done : Scans [] []
  | reference {cs name after : List Char} {pieces : List Piece}
      (hStarts : StartsWith cs name after) (rest : Scans after pieces) :
      Scans cs (.reference (String.ofList name) :: pieces)
  | plain {c : Char} {cs : List Char} {pieces : List Piece}
      (hNone : ∀ name after, ¬ StartsWith (c :: cs) name after) (rest : Scans cs pieces) :
      Scans (c :: cs) (.plain c :: pieces)

theorem enclosedName?_eq_some_iff {cs name after : List Char} :
    enclosedName? cs = some (name, after) ↔
      name ≠ [] ∧ '}' ∉ name ∧ cs = '{' :: (name ++ '}' :: after) := by
  constructor
  · intro h
    have hText := eq_of_enclosedName? h
    unfold enclosedName? at h
    split at h
    · split at h
      · rename_i hTake _
        cases h
        refine ⟨List.cons_ne_nil _ _, fun hClosing => ?_, hText⟩
        rw [← hTake] at hClosing
        simpa using List.mem_takeWhile_imp hClosing
      · cases h
    · cases h
  · rintro ⟨hName, hClosing, rfl⟩
    -- Both scans for the closing brace pass by the whole name and stop behind it.
    have hInside : ∀ c ∈ name, decide (c ≠ '}') = true := by
      intro c hc
      exact decide_eq_true fun hSame => hClosing (hSame ▸ hc)
    obtain ⟨n, ns, rfl⟩ := List.exists_cons_of_ne_nil hName
    have hTake : ((n :: ns) ++ '}' :: after).takeWhile (· ≠ '}') = n :: ns := by
      rw [List.takeWhile_append_of_pos hInside]
      simp
    have hDrop : ((n :: ns) ++ '}' :: after).dropWhile (· ≠ '}') = '}' :: after := by
      rw [List.dropWhile_append_of_pos hInside]
      simp
    rw [enclosedName?, hTake, hDrop]

theorem startsWith_iff {cs name after : List Char} :
    StartsWith cs name after ↔
      ∃ rest, cs = '$' :: rest ∧ enclosedName? rest = some (name, after) := by
  simp only [enclosedName?_eq_some_iff]
  constructor
  · rintro ⟨hName, hClosing, rfl⟩
    exact ⟨_, rfl, hName, hClosing, rfl⟩
  · rintro ⟨_, rfl, hName, hClosing, rfl⟩
    exact ⟨hName, hClosing, rfl⟩

/-- A reference ends at the first closing brace, so a text starts with one reference at most. -/
theorem StartsWith.unique {cs name after other otherAfter : List Char}
    (h : StartsWith cs name after) (hOther : StartsWith cs other otherAfter) :
    name = other ∧ after = otherAfter := by
  obtain ⟨rest, rfl, hName⟩ := startsWith_iff.mp h
  obtain ⟨_, hRest, hSame⟩ := startsWith_iff.mp hOther
  obtain rfl := (List.cons.inj hRest).2
  exact Prod.mk.inj (Option.some.inj (hName.symm.trans hSame))

theorem StartsWith.firstReference? {cs name after : List Char} (h : StartsWith cs name after) :
    firstReference? cs = some ([], name, after) := by
  obtain ⟨rest, rfl, hName⟩ := startsWith_iff.mp h
  rw [Environment.firstReference?, if_pos rfl, hName]

/-- Where no reference starts, the first one is further on. -/
theorem firstReference?_cons {c : Char} {cs : List Char}
    (h : ∀ name after, ¬ StartsWith (c :: cs) name after) :
    firstReference? (c :: cs) =
      (firstReference? cs).map fun (before, name, after) => (c :: before, name, after) := by
  have hNone : (if c = '$' then enclosedName? cs else none) = none := by
    split
    · rename_i hDollar
      refine Option.eq_none_iff_forall_ne_some.mpr fun (name, after) hName => ?_
      exact h name after (startsWith_iff.mpr ⟨cs, by rw [hDollar], hName⟩)
    · rfl
  rw [firstReference?, hNone]

section

variable (env : Environment) {c : Char} {cs name after : List Char}

theorem expandChars_of_none (h : firstReference? cs = none) : env.expandChars cs = cs := by
  rw [expandChars]
  split <;> simp_all

theorem expandChars_of_some {before : List Char}
    (h : firstReference? cs = some (before, name, after)) :
    env.expandChars cs = before ++ (env.replacement name ++ env.expandChars after) := by
  rw [expandChars]
  split <;> simp_all

theorem referencedNames_of_none (h : firstReference? cs = none) : referencedNames cs = [] := by
  rw [referencedNames]
  split <;> simp_all

theorem referencedNames_of_some {before : List Char}
    (h : firstReference? cs = some (before, name, after)) :
    referencedNames cs = String.ofList name :: referencedNames after := by
  rw [referencedNames]
  split <;> simp_all

end

/-- The first reference of a text is the first one among its pieces. -/
theorem Scans.firstReference? {cs : List Char} {pieces : List Piece} (h : Scans cs pieces) :
    (firstReference? cs = none ∧ pieces = cs.map .plain) ∨
      ∃ before name after later, firstReference? cs = some (before, name, after) ∧
        pieces = before.map .plain ++ .reference (String.ofList name) :: later ∧
        Scans after later := by
  induction h with
  | done => exact .inl ⟨rfl, rfl⟩
  | reference hStarts rest =>
      exact .inr ⟨[], _, _, _, hStarts.firstReference?, rfl, rest⟩
  | plain hNone rest ih =>
      have hFirst := firstReference?_cons hNone
      obtain ⟨hRest, rfl⟩ | ⟨before, name, after, later, hRest, rfl, hAfter⟩ := ih
      · rw [hRest] at hFirst
        exact .inl ⟨hFirst, rfl⟩
      · rw [hRest] at hFirst
        exact .inr ⟨_ :: before, name, after, later, hFirst, rfl, hAfter⟩

theorem Scans.eq_map_plain {cs : List Char} {pieces : List Piece} (h : Scans cs pieces)
    (hNone : Environment.firstReference? cs = none) : pieces = cs.map .plain := by
  obtain ⟨-, hPieces⟩ | ⟨_, _, _, _, hSome, -, -⟩ := h.firstReference?
  · exact hPieces
  · cases hNone.symm.trans hSome

theorem Scans.exists_eq_append {cs before name after : List Char} {pieces : List Piece}
    (h : Scans cs pieces) (hFirst : Environment.firstReference? cs = some (before, name, after)) :
    ∃ later, pieces = before.map .plain ++ .reference (String.ofList name) :: later ∧
      Scans after later := by
  obtain ⟨hNone, -⟩ | ⟨_, _, _, later, hSome, hPieces, hAfter⟩ := h.firstReference?
  · cases hNone.symm.trans hFirst
  · cases hFirst.symm.trans hSome
    exact ⟨later, hPieces, hAfter⟩

@[simp] theorem flatMap_expansion_plain (env : Environment) (cs : List Char) :
    (cs.map Piece.plain).flatMap (·.expansion env) = cs := by
  simp [List.flatMap_map, Piece.expansion]

theorem expansion_reference (env : Environment) (name : List Char) :
    (Piece.reference (String.ofList name)).expansion env = env.replacement name := by
  cases h : env (String.ofList name) <;>
    simp [Piece.expansion, Piece.source, replacement, Environment.reference, h]

/-- Each piece is replaced for itself. -/
theorem Scans.expandChars (env : Environment) {cs : List Char} {pieces : List Piece}
    (h : Scans cs pieces) : env.expandChars cs = pieces.flatMap (·.expansion env) := by
  -- The induction goes from reference to reference, over all plain pieces between two of them.
  induction cs using expandChars.induct generalizing pieces with
  | case1 cs hNone =>
      rw [env.expandChars_of_none hNone, h.eq_map_plain hNone, flatMap_expansion_plain]
  | case2 cs before name after hFirst ih =>
      obtain ⟨later, rfl, hAfter⟩ := h.exists_eq_append hFirst
      rw [env.expandChars_of_some hFirst, ih hAfter, List.flatMap_append,
        flatMap_expansion_plain, List.flatMap_cons, expansion_reference]

theorem Scans.expand (env : Environment) {text : String} {pieces : List Piece}
    (h : Scans text.toList pieces) : env.expand text = env.filledIn pieces := by
  rw [Environment.expand, h.expandChars, filledIn]

/-- The names that are looked up are those in the pieces. -/
theorem Scans.referencedNames {cs : List Char} {pieces : List Piece} (h : Scans cs pieces) :
    referencedNames cs = pieces.filterMap (·.name?) := by
  have hPlain (cs : List Char) : (cs.map Piece.plain).filterMap (·.name?) = [] := by
    simp [List.filterMap_map, Piece.name?]
  induction cs using referencedNames.induct generalizing pieces with
  | case1 cs hNone => rw [referencedNames_of_none hNone, h.eq_map_plain hNone, hPlain]
  | case2 cs before name after hFirst ih =>
      obtain ⟨later, rfl, hAfter⟩ := h.exists_eq_append hFirst
      rw [referencedNames_of_some hFirst, ih hAfter, List.filterMap_append, hPlain]
      rfl

/-- Nothing is lost between the pieces. -/
theorem Scans.flatMap_source {cs : List Char} {pieces : List Piece} (h : Scans cs pieces) :
    pieces.flatMap (·.source) = cs := by
  induction h with
  | done => rfl
  | reference hStarts rest ih =>
      rw [hStarts.eq_append, List.flatMap_cons, ih]
      simp [Piece.source]
  | plain hNone rest ih => rw [List.flatMap_cons, ih, Piece.source, List.singleton_append]

theorem Scans.unique {cs : List Char} {pieces other : List Piece} (h : Scans cs pieces)
    (hOther : Scans cs other) : pieces = other := by
  induction h generalizing other with
  | done =>
      cases hOther with
      | done => rfl
      | reference hStarts rest => cases hStarts.eq_append
  | reference hStarts rest ih =>
      cases hOther with
      | done => cases hStarts.eq_append
      | reference hOtherStarts otherRest =>
          obtain ⟨rfl, rfl⟩ := hStarts.unique hOtherStarts
          rw [ih otherRest]
      | plain hNone otherRest => exact (hNone _ _ hStarts).elim
  | plain hNone rest ih =>
      cases hOther with
      | reference hOtherStarts otherRest => exact (hNone _ _ hOtherStarts).elim
      | plain hOtherNone otherRest => rw [ih otherRest]

/-- Every text can be scanned. What is left to scan gets shorter with each piece. -/
theorem exists_scans (cs : List Char) : ∃ pieces, Scans cs pieces := by
  by_cases h : ∃ name after, StartsWith cs name after
  · obtain ⟨name, after, hStarts⟩ := h
    have hShorter : after.length < cs.length := by
      rw [hStarts.eq_append]
      simp
      omega
    obtain ⟨pieces, hRest⟩ := exists_scans after
    exact ⟨_, .reference hStarts hRest⟩
  · cases cs with
    | nil => exact ⟨[], .done⟩
    | cons c cs =>
        obtain ⟨pieces, hRest⟩ := exists_scans cs
        exact ⟨_, .plain (fun name after hStarts => h ⟨name, after, hStarts⟩) hRest⟩
termination_by cs.length

/-- Behind any of its pieces, a text is scanned as if it began there. -/
theorem Scans.right {before after : List Piece} {cs : List Char}
    (h : Scans cs (before ++ after)) : Scans (after.flatMap (·.source)) after := by
  induction before generalizing cs with
  | nil =>
      rw [List.nil_append] at h
      rwa [h.flatMap_source]
  | cons piece before ih =>
      cases h with
      | reference hStarts rest => exact ih rest
      | plain hNone rest => exact ih rest

/-- Without a name between them, the braces stand for themselves. -/
theorem Scans.empty_braces {cs : List Char} {pieces : List Piece} (h : Scans cs pieces) :
    Scans ('$' :: '{' :: '}' :: cs) (.plain '$' :: .plain '{' :: .plain '}' :: pieces) := by
  refine .plain ?_ (.plain ?_ (.plain ?_ h))
  · rintro name after ⟨hName, hClosing, hText⟩
    obtain ⟨n, ns, rfl⟩ := List.exists_cons_of_ne_nil hName
    obtain ⟨rfl, -⟩ : '}' = n ∧ cs = ns ++ '}' :: after := by simpa using hText
    simp at hClosing
  · rintro name after ⟨-, -, hText⟩
    simp at hText
  · rintro name after ⟨-, -, hText⟩
    simp at hText

/-- A text in which no brace is closed has no reference in it. -/
theorem scans_of_notMem {cs : List Char} (h : '}' ∉ cs) : Scans cs (cs.map .plain) := by
  induction cs with
  | nil => exact .done
  | cons c cs ih =>
      have hRest : '}' ∉ cs := fun hMem => h (List.mem_cons_of_mem c hMem)
      refine .plain (fun name after hStarts => h ?_) (ih hRest)
      rw [hStarts.eq_append]
      simp

theorem filledIn_append (env : Environment) (before after : List Piece) :
    env.filledIn (before ++ after) = env.filledIn before ++ env.filledIn after := by
  simp [filledIn]

/-- Two environments put the same into the pieces if they agree on the names in them. -/
theorem filledIn_congr {env other : Environment} {pieces : List Piece}
    (h : ∀ name ∈ pieces.filterMap (·.name?), env name = other name) :
    env.filledIn pieces = other.filledIn pieces := by
  rw [filledIn, filledIn]
  refine congrArg String.ofList (List.flatMap_congr fun piece hPiece => ?_)
  cases piece with
  | reference name =>
      have hName : env name = other name := h name (List.mem_filterMap.mpr ⟨_, hPiece, rfl⟩)
      rw [Piece.expansion, Piece.expansion, hName]
  | plain c => rfl

/-- If nothing is set, every piece stays as it stands in the text. -/
theorem filledIn_none (pieces : List Piece) :
    filledIn (fun _ => none) pieces = spelled pieces := by
  rw [filledIn, spelled]
  refine congrArg String.ofList (List.flatMap_congr fun piece _ => ?_)
  cases piece <;> rfl

/-- Braces around nothing are kept, and the text behind them is expanded. -/
theorem expand_empty_braces (env : Environment) (rest : String) :
    env.expand ("$\x7b\x7d" ++ rest) = "$\x7b\x7d" ++ env.expand rest := by
  obtain ⟨pieces, hRest⟩ := exists_scans rest.toList
  have hBraces : Scans ("$\x7b\x7d" ++ rest).toList
      ([.plain '$', .plain '{', .plain '}'] ++ pieces) := by
    simpa using hRest.empty_braces
  rw [hBraces.expand env, hRest.expand env, filledIn_append]
  rfl

theorem expand_of_notMem (env : Environment) {text : String} (h : '}' ∉ text.toList) :
    env.expand text = text := by
  rw [(scans_of_notMem h).expand env, filledIn, flatMap_expansion_plain, String.ofList_toList]

/-- What expanding a text comes to. There is one way to scan the text, the pieces make up the text,
and each is replaced for itself. From behind any piece the rest is expanded as if it stood alone,
whatever has been put in before it. Braces around nothing and braces that are not closed stay. With
none of the names in the pieces set the text stays, and what is set besides these names does not
matter; they are the names that are looked up. -/
theorem expand_eq_scan (text : String) :
    ∃ pieces, (∀ other, Scans text.toList other ↔ other = pieces) ∧ spelled pieces = text ∧
      referencedNames text.toList = pieces.filterMap (·.name?) ∧
      (∀ env, expand env text = filledIn env pieces) ∧
      (∀ env before after, pieces = before ++ after →
        expand env text = filledIn env before ++ expand env (spelled after)) ∧
      (∀ env rest, expand env ("$\x7b\x7d" ++ rest) = "$\x7b\x7d" ++ expand env rest) ∧
      (∀ env rest, '}' ∉ rest.toList → expand env ("$\x7b" ++ rest) = "$\x7b" ++ rest) ∧
      (∀ env, (∀ name ∈ pieces.filterMap (·.name?), env name = none) → expand env text = text) ∧
      ∀ env other : Environment,
        (∀ name ∈ pieces.filterMap (·.name?), env name = other name) →
          env.expand text = other.expand text := by
  obtain ⟨pieces, hScans⟩ := exists_scans text.toList
  have hText : spelled pieces = text := by
    rw [spelled, hScans.flatMap_source, String.ofList_toList]
  refine ⟨pieces, fun other => ⟨fun hOther => hOther.unique hScans, fun h => h ▸ hScans⟩, hText,
    hScans.referencedNames, fun env => hScans.expand env, ?_, ?_, ?_, ?_, ?_⟩
  · rintro env before after rfl
    have hRight : Scans (spelled after).toList after := by simpa [spelled] using hScans.right
    rw [hScans.expand env, hRight.expand env, filledIn_append]
  · exact expand_empty_braces
  · intro env rest hRest
    exact env.expand_of_notMem (by simpa using hRest)
  · intro env hNone
    rw [hScans.expand env, filledIn_congr hNone, filledIn_none, hText]
  · intro env other hSame
    rw [hScans.expand env, hScans.expand other, filledIn_congr hSame]

/-- A dollar sign before a reference stands for itself. The value of `A` looks like a reference to
`B` and is not taken for one, although `B` is set. -/
theorem expand_eq_scan_of_value_with_reference :
    let text := "$$\x7bA\x7d$\x7b\x7d"
    let env : Environment := fun name => if name = "A" then some "$\x7bB\x7d" else some "b"
    let onlyA : Environment := fun name => if name = "A" then some "$\x7bB\x7d" else none
    let onlyB : Environment := fun name => if name = "B" then some "b" else none
    let before : List Piece := [.plain '$', .reference "A"]
    let after : List Piece := [.plain '$', .plain '{', .plain '}']
    Scans text.toList (before ++ after) ∧
      env.expand text = env.filledIn before ++ env.expand (spelled after) ∧
      env.expand text = "$$\x7bB\x7d$\x7b\x7d" ∧
      '}' ∉ "A".toList ∧ env.expand ("$\x7b" ++ "A") = "$\x7b" ++ "A" ∧
      (∀ name ∈ ["A"], onlyB name = none) ∧ onlyB.expand text = text ∧
      (∀ name ∈ ["A"], env name = onlyA name) ∧ env.expand text = onlyA.expand text := by
  intro text env onlyA onlyB before after
  obtain ⟨pieces, hScans, -, -, hExpand, hResume, -, hOpen, hUnset, hAgree⟩ := expand_eq_scan text
  have hText : text.toList = ['$', '$', '{', 'A', '}', '$', '{', '}'] := by decide
  have hStarts : StartsWith ['$', '{', 'A', '}', '$', '{', '}'] ['A'] ['$', '{', '}'] :=
    ⟨by simp, by decide, rfl⟩
  have hAll : Scans text.toList (before ++ after) := by
    rw [hText]
    refine .plain ?_ (.reference hStarts Scans.done.empty_braces)
    rintro name after ⟨-, -, hSecond⟩
    simp at hSecond
  obtain rfl : before ++ after = pieces := (hScans _).mp hAll
  have hOnlyB : ∀ name ∈ ["A"], onlyB name = none := by decide
  have hOnlyA : ∀ name ∈ ["A"], env name = onlyA name := by decide
  exact ⟨hAll, hResume env before after rfl, (hExpand env).trans (by decide), by decide,
    hOpen env "A" (by decide), hOnlyB, hUnset onlyB hOnlyB, hOnlyA, hAgree env onlyA hOnlyA⟩

end Datamodel.Environment
