import Datamodel.Files.Tree

/-! The names of a path that is put together. Joining a directory and a file puts the names of the
file behind those of the directory, whether the directory is empty, ends in a slash or does neither,
and a text without a slash in front of a file goes into the first name only. -/
namespace Datamodel.Path

theorem names_of_notMem {name : String} (h : '/' ∉ name.toList) : names name = [name] := by
  simp [names, List.splitOn_eq_singleton h]

theorem names_append_slash_append (before after : String) :
    names (before ++ "/" ++ after) = names before ++ names after := by
  have hSlash : (before ++ "/" ++ after).toList = before.toList ++ '/' :: after.toList := by
    simp
  rw [names, hSlash, List.splitOn_append_cons_self, List.map_append]
  rfl

/-- Characters other than the separator belong to the first piece of what stands behind them. -/
theorem splitOn_append_of_notMem {c : Char} {front : List Char} (h : c ∉ front)
    (behind : List Char) :
    (front ++ behind).splitOn c = (behind.splitOn c).modifyHead (front ++ ·) := by
  induction front with
  | nil => exact (congrFun List.modifyHead_id (behind.splitOn c)).symm
  | cons first front ih =>
      rw [List.mem_cons, not_or] at h
      have hFirst : ¬ (first == c) = true := by simpa using Ne.symm h.1
      rw [List.cons_append, List.splitOn_cons_eq_if_modifyHead, if_neg hFirst, ih h.2,
        List.modifyHead_modifyHead]
      rfl

theorem names_append_of_notMem {front : String} (h : '/' ∉ front.toList) (behind : String) :
    names (front ++ behind) = (names behind).modifyHead (front ++ ·) := by
  obtain ⟨first, rest, hBehind⟩ :=
    List.exists_cons_of_ne_nil (List.splitOn_ne_nil '/' behind.toList)
  rw [names, names, String.toList_append, splitOn_append_of_notMem h, hBehind,
    List.modifyHead_cons, List.map_cons, List.map_cons, List.modifyHead_cons, String.ofList_append,
    String.ofList_toList]

theorem names_ne_nil (path : String) : names path ≠ [] := by
  simp [names, List.splitOn_ne_nil]

/-- The names of a path that lead to another place. -/
def proper (path : String) : List String :=
  (names path).filter (!FileTree.isIdle ·)

/-- The names on the way into a directory. An empty path has none, and a slash at the end adds
none. -/
def stem (directory : String) : List String :=
  if directory = "" ∨ directory.toList.getLast? = some '/' then (names directory).dropLast
  else names directory

theorem names_join (directory file : String) :
    names (join directory file) = stem directory ++ names file := by
  unfold join stem
  split
  · rename_i hEnd
    rcases hEnd with rfl | hEnd
    · simp [names]
    · obtain ⟨before, hBefore⟩ := List.getLast?_eq_some_iff.mp hEnd
      have hDirectory : directory = String.ofList before ++ "/" := by
        rw [← String.toList_inj, hBefore]
        simp
      have hNames : names directory = names (String.ofList before) ++ [""] := by
        rw [hDirectory, ← String.append_empty (s := String.ofList before ++ "/"),
          names_append_slash_append]
        rfl
      rw [hNames, List.dropLast_concat, hDirectory, names_append_slash_append]
  · exact names_append_slash_append directory file

theorem prefix_join (directory file : String) :
    directory.toList <+: (join directory file).toList := by
  unfold join
  split
  · simp
  · simp [String.append_assoc]

/-- A path into a directory starts at the top exactly if the directory does. -/
theorem isAbsolute_join {file : String} (h : isAbsolute file = false) (directory : String) :
    isAbsolute (join directory file) = isAbsolute directory := by
  by_cases hEmpty : directory = ""
  · subst hEmpty
    have hNowhere : isAbsolute "" = false := rfl
    rw [join, if_pos (.inl rfl), String.empty_append, h, hNowhere]
  · obtain ⟨first, rest, hFirst⟩ :=
      List.exists_cons_of_ne_nil (mt String.toList_eq_nil_iff.mp hEmpty)
    obtain ⟨behind, hJoin⟩ := prefix_join directory file
    rw [isAbsolute, isAbsolute, ← hJoin, hFirst]
    rfl

end Datamodel.Path
