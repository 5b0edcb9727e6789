import Datamodel.Proofs.Files.Tree

/-! What depends on the directories of a tree alone: where a path leads, whether a file can be
written under it, and what making a directory has to do. Files come and go without touching any of
these, so a directory that has been made once is not made again, and a write that could be done
stays one that can be done. -/
namespace Datamodel.FileTree

/-- A tree with the same working directory and the same directories, in which no place has become
empty. -/
structure KeepsDirectories (t after : FileTree) : Prop where
  workingDirectory : after.workingDirectory = t.workingDirectory
  isDirectory : ∀ l, after.isDirectory l = t.isDirectory l
  isSome : ∀ l, (t.get? l).isSome → (after.get? l).isSome

/-- Names that lead somewhere do so wherever the same directories are, and more of them do no harm.
-/
theorem walk_of_directories {t after : FileTree}
    (h : ∀ l, t.isDirectory l → after.isDirectory l) {l finish : Location} {names : List String}
    (hWalk : t.walk l names = some finish) : after.walk l names = some finish := by
  induction names generalizing l with
  | nil => exact hWalk
  | cons name names ih =>
      rw [walk, Option.ite_none_right_eq_some, Bool.and_eq_true] at hWalk ⊢
      exact ⟨⟨h l hWalk.1.1, hWalk.1.2⟩, ih hWalk.2⟩

theorem GainsDirectories.locate? {t after : FileTree} (h : t.GainsDirectories after)
    {path : String} {l : Location} (hLocate : t.locate? path = some l) :
    after.locate? path = some l := by
  rw [FileTree.locate?, Option.ite_none_right_eq_some] at hLocate ⊢
  rw [start, h.workingDirectory]
  exact ⟨hLocate.1, walk_of_directories (fun _ => h.isDirectory) hLocate.2⟩

/-- A path that leads somewhere leads where its names say, whatever is on the way. -/
theorem eq_foldl_of_walk {t : FileTree} {l finish : Location} {names : List String}
    (h : t.walk l names = some finish) : finish = names.foldl next l := by
  induction names generalizing l with
  | nil => exact (Option.some.inj h).symm
  | cons name names ih =>
      rw [walk, Option.ite_none_right_eq_some] at h
      exact ih h.2

theorem eq_foldl_of_locate? {t : FileTree} {path : String} {l : Location}
    (h : t.locate? path = some l) : l = (Path.names path).foldl next (t.start path) := by
  rw [locate?, Option.ite_none_right_eq_some] at h
  exact eq_foldl_of_walk h.2

namespace KeepsDirectories

theorem refl (t : FileTree) : t.KeepsDirectories t :=
  ⟨rfl, fun _ => rfl, fun _ h => h⟩

theorem put_file {t : FileTree} {l : Location} (h : t.isDirectory l = false)
    (content : ByteArray) : t.KeepsDirectories (t.put l (.file content)) := by
  refine ⟨rfl, isDirectory_put_file h content, fun asked hAsked => ?_⟩
  by_cases hSame : asked = l
  · rw [hSame, get?_put_file_self h]
    rfl
  · rwa [get?_put_of_ne t hSame]

theorem locate? {t after : FileTree} (h : t.KeepsDirectories after) (path : String) :
    after.locate? path = t.locate? path := by
  have hWalk (l : Location) (names : List String) : after.walk l names = t.walk l names := by
    induction names generalizing l with
    | nil => rfl
    | cons name names ih => rw [walk, walk, h.isDirectory, ih]
  rw [FileTree.locate?, FileTree.locate?, start, start, h.workingDirectory, hWalk]

theorem isSome_lookup? {t after : FileTree} (h : t.KeepsDirectories after) {path : String}
    (hThere : (t.lookup? path).isSome = true) : (after.lookup? path).isSome = true := by
  rw [lookup?, h.locate?]
  rw [lookup?] at hThere
  cases hLocate : t.locate? path with
  | none => simp [hLocate] at hThere
  | some l =>
      rw [hLocate] at hThere
      exact h.isSome l hThere

/-- A write goes through or not for reasons that lie in the directories. -/
theorem writeBytes {t after : FileTree} (h : t.KeepsDirectories after) {path : String}
    {content : ByteArray} (hWritten : (t.writeBytes path content).1 = true) (other : ByteArray) :
    ∃ l, after.locate? path = some l ∧ after.isDirectory l = false ∧
      after.writeBytes path other = (true, after.put l (.file other)) := by
  unfold FileTree.writeBytes at hWritten
  split at hWritten
  · rename_i name l hName hLocate
    split at hWritten
    · cases hWritten
    · rename_i hFree
      have hAfter : after.locate? path = some l := (h.locate? path).trans hLocate
      rw [← h.isDirectory l] at hFree
      refine ⟨l, hAfter, by simp_all, ?_⟩
      simp only [FileTree.writeBytes, hName, hAfter, if_neg hFree]
  · cases hWritten

/-- What has been made is found, name by name, and nothing is left to do. -/
theorem makeAlong {t made after : FileTree} {l : Location} {names : List String}
    (hMade : t.makeAlong l names = (true, made)) (h : made.KeepsDirectories after) :
    after.makeAlong l names = (true, after) := by
  induction names generalizing t l with
  | nil => rfl
  | cons name names ih =>
      have hGains := t.gainsDirectories_makeAlong l (name :: names)
      rw [hMade] at hGains
      rw [FileTree.makeAlong] at hMade
      split at hMade
      · cases hMade
      · rename_i hHere
        have hHere : t.isDirectory l = true ∧ isName name = true := by simpa using hHere
        -- The next place is a directory in the end, whether it was there or had to be made.
        have hNext : made.isDirectory (next l name) = true ∧
            after.makeAlong (next l name) names = (true, after) := by
          split at hMade
          · rename_i hThere
            exact ⟨hGains.isDirectory (isDirectory_iff.mpr hThere), ih hMade⟩
          · cases hMade
          · rename_i hThere
            have hPut : (t.put (next l name) .directory).isDirectory (next l name) = true :=
              isDirectory_iff.mpr (get?_put_self (by simp [hThere]) _)
            have hLater := gainsDirectories_makeAlong (t.put (next l name) .directory)
              (next l name) names
            rw [hMade] at hLater
            exact ⟨hLater.isDirectory hPut, ih hMade⟩
        have hDirectory : after.get? (next l name) = some .directory :=
          isDirectory_iff.mp ((h.isDirectory _).trans hNext.1)
        have hStart : after.isDirectory l = true :=
          (h.isDirectory l).trans (hGains.isDirectory hHere.1)
        simp only [FileTree.makeAlong, hStart, hHere.2, Bool.and_self, Bool.not_true,
          Bool.false_eq_true, if_false, hDirectory]
        exact hNext.2

/-- Making a directory a second time changes nothing. -/
theorem makeDirectories {t made after : FileTree} {path : String}
    (hMade : t.makeDirectories path = (true, made)) (h : made.KeepsDirectories after) :
    after.makeDirectories path = (true, after) := by
  have hGains := t.gainsDirectories_makeDirectories path
  rw [hMade] at hGains
  have hStart : after.start path = t.start path := by
    rw [start, start, h.workingDirectory, hGains.workingDirectory]
  unfold FileTree.makeDirectories at hMade ⊢
  split at hMade
  · rename_i hEmpty
    rw [if_pos hEmpty]
  · rename_i hEmpty
    rw [if_neg hEmpty]
    split at hMade
    · cases hMade
    · rename_i hPath
      rw [if_neg hPath]
      dsimp only at hMade ⊢
      split at hMade
      · rfl
      · rename_i last before hNames
        simp only [hStart]
        split at hMade
        · rename_i hPoints
          rw [if_pos hPoints]
          cases hAlong : t.makeAlong (t.start path) before.reverse with
          | mk done between =>
              simp only [hAlong, Prod.mk.injEq, Bool.and_eq_true] at hMade
              obtain ⟨⟨rfl, hThere⟩, rfl⟩ := hMade
              rw [makeAlong hAlong h, h.isSome_lookup? hThere]
              rfl
        · rename_i hPoints
          rw [if_neg hPoints]
          exact makeAlong hMade h

end KeepsDirectories

end Datamodel.FileTree
