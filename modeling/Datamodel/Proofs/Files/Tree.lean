import Datamodel.Files.Tree

/-! What a program can do to a tree. Making directories leaves everything in its place and adds
nothing but directories. Writing either does nothing or puts one file in a place that is not a
directory, and since paths lead through directories only, every path still leads where it led
before, so the file is found again under the path it was written to. -/
namespace Datamodel

/-- The bytes of a text are those of this text and no other. -/
theorem fromUTF8?_toUTF8 (text : String) : String.fromUTF8? text.toUTF8 = some text := by
  rw [String.toUTF8_eq_toByteArray, String.fromUTF8?, dif_pos text.isValidUTF8]
  rfl

namespace FileTree

/-- The content of the file in a place. -/
def file? (t : FileTree) (l : Location) : Option ByteArray :=
  match t.get? l with
  | some (.file content) => some content
  | _ => none

/-- A tree with the same working directory, in which every place holds what it held before, or a
directory if it held nothing. -/
structure GainsDirectories (t after : FileTree) : Prop where
  workingDirectory : after.workingDirectory = t.workingDirectory
  entry : ∀ l, after.get? l = t.get? l ∨ t.get? l = none ∧ after.get? l = some .directory

/-- What a program makes of a tree: its result, and the tree as it is afterwards. -/
def exec {α : Type} (t : FileTree) (program : StateM FileTree α) : α × FileTree :=
  Id.run (program.run t)

section Programs

variable {α β : Type} (t : FileTree) (path text : String)

@[simp] theorem exec_pure (a : α) : t.exec (pure a) = (a, t) := rfl

@[simp] theorem exec_bind (program : StateM FileTree α) (next : α → StateM FileTree β) :
    t.exec (program >>= next) = (t.exec program).2.exec (next (t.exec program).1) := rfl

@[simp] theorem exec_ite (c : Prop) [Decidable c] (program other : StateM FileTree α) :
    t.exec (if c then program else other) = if c then t.exec program else t.exec other :=
  apply_ite t.exec c program other

@[simp] theorem exec_pathExists :
    t.exec (FileAccess.pathExists path) = (t.pathExists path, t) := rfl

@[simp] theorem exec_readText : t.exec (FileAccess.readText path) = (t.readText path, t) := rfl

@[simp] theorem exec_makeDirectories :
    t.exec (FileAccess.makeDirectories path) = t.makeDirectories path := rfl

@[simp] theorem exec_writeText :
    t.exec (FileAccess.writeText path text) = t.writeText path text := rfl

end Programs

theorem isDirectory_iff {t : FileTree} {l : Location} :
    t.isDirectory l = true ↔ t.get? l = some .directory := by
  unfold isDirectory
  split <;> simp_all

theorem get?_put_self {t : FileTree} {l : Location} (h : t.get? l ≠ some .directory)
    (e : TreeEntry) : (t.put l e).get? l = some e := by
  have hOutside : l.isPrefixOf t.workingDirectory = false :=
    Bool.eq_false_iff.mpr fun hInside => h (if_pos hInside)
  simp [get?, put, hOutside, Entries.lookup_put_self]

theorem file?_put_of_ne (t : FileTree) {l asked : Location} (h : asked ≠ l) (e : TreeEntry) :
    (t.put l e).file? asked = t.file? asked := by
  rw [file?, file?, get?_put_of_ne t h]

namespace GainsDirectories

theorem refl (t : FileTree) : t.GainsDirectories t :=
  ⟨rfl, fun _ => .inl rfl⟩

theorem trans {t u v : FileTree} (first : t.GainsDirectories u) (second : u.GainsDirectories v) :
    t.GainsDirectories v := by
  refine ⟨second.workingDirectory.trans first.workingDirectory, fun l => ?_⟩
  rcases second.entry l with hSecond | ⟨hNone, hSecond⟩
  · rw [hSecond]
    exact first.entry l
  · rcases first.entry l with hFirst | ⟨-, hFirst⟩
    · exact .inr ⟨hFirst ▸ hNone, hSecond⟩
    · rw [hNone] at hFirst
      cases hFirst

theorem put {t : FileTree} {l : Location} (h : t.get? l = none) :
    t.GainsDirectories (t.put l .directory) := by
  refine ⟨rfl, fun asked => ?_⟩
  by_cases hAsked : asked = l
  · subst hAsked
    exact .inr ⟨h, get?_put_self (by simp [h]) _⟩
  · exact .inl (get?_put_of_ne t hAsked _)

/-- No file is gone or changed, and none is new. -/
theorem file?_eq {t after : FileTree} (h : t.GainsDirectories after) (l : Location) :
    after.file? l = t.file? l := by
  unfold file?
  rcases h.entry l with hSame | ⟨hNone, hNew⟩
  · rw [hSame]
  · rw [hNone, hNew]

theorem isDirectory {t after : FileTree} (h : t.GainsDirectories after) {l : Location}
    (hDirectory : t.isDirectory l) : after.isDirectory l := by
  rw [isDirectory_iff] at hDirectory ⊢
  rcases h.entry l with hSame | ⟨-, hNew⟩
  · rw [hSame, hDirectory]
  · exact hNew

end GainsDirectories

theorem gainsDirectories_makeAlong (t : FileTree) (l : Location) (names : List String) :
    t.GainsDirectories (t.makeAlong l names).2 := by
  induction names generalizing t l with
  | nil => exact .refl t
  | cons name names ih =>
      rw [makeAlong]
      split
      · exact .refl t
      · split
        · exact ih t _
        · exact .refl t
        · rename_i hFree
          exact (GainsDirectories.put hFree).trans (ih _ _)

theorem gainsDirectories_makeDirectories (t : FileTree) (path : String) :
    t.GainsDirectories (t.makeDirectories path).2 := by
  unfold makeDirectories
  split
  · exact .refl t
  · split
    · exact .refl t
    · dsimp only
      split
      · exact .refl t
      · split
        · exact gainsDirectories_makeAlong t _ _
        · exact gainsDirectories_makeAlong t _ _

/-- A write that goes wrong does nothing; one that goes well puts a file where the path leads. -/
theorem writeBytes_cases (t : FileTree) (path : String) (content : ByteArray) :
    t.writeBytes path content = (false, t) ∨
      ∃ l, t.locate? path = some l ∧ t.isDirectory l = false ∧
        t.writeBytes path content = (true, t.put l (.file content)) := by
  unfold writeBytes
  split
  · rename_i name l _ hLocate
    split
    · exact .inl rfl
    · rename_i hFree
      simp only [Bool.or_eq_true, not_or, Bool.not_eq_true] at hFree
      exact .inr ⟨l, hLocate, hFree.2, rfl⟩
  · exact .inl rfl

section Writing

variable {t : FileTree} {l : Location} (h : t.isDirectory l = false) (content : ByteArray)
include h

theorem get?_put_file_self : (t.put l (.file content)).get? l = some (.file content) :=
  get?_put_self (fun hGet => by simp [isDirectory, hGet] at h) _

/-- The directories are the same after a write. -/
theorem isDirectory_put_file (asked : Location) :
    (t.put l (.file content)).isDirectory asked = t.isDirectory asked := by
  by_cases hAsked : asked = l
  · subst hAsked
    rw [h, isDirectory, get?_put_file_self h]
  · rw [isDirectory, isDirectory, get?_put_of_ne t hAsked]

theorem walk_put_file (start : Location) (names : List String) :
    (t.put l (.file content)).walk start names = t.walk start names := by
  induction names generalizing start with
  | nil => rfl
  | cons name names ih => rw [walk, walk, isDirectory_put_file h, ih]

theorem locate?_put_file (path : String) :
    (t.put l (.file content)).locate? path = t.locate? path := by
  rw [locate?, locate?, walk_put_file h]
  rfl

end Writing

/-- A tree in which a path leads to a file with a text, and which apart from that file is as an
earlier tree: the same files in the same places, and the directories still there. -/
structure Wrote (before after : FileTree) (path text : String) (l : Location) : Prop where
  locate : after.locate? path = some l
  content : after.file? l = some text.toUTF8
  readText : after.readText path = .ok text
  others : ∀ other ≠ l, after.file? other = before.file? other
  directories : ∀ other, before.isDirectory other → after.isDirectory other

/-- Directories are made, and then a text is written. -/
theorem wrote_of_writeText {t made after : FileTree} (hMade : t.GainsDirectories made)
    {path text : String} (h : made.writeText path text = (true, after)) :
    ∃ l, Wrote t after path text l := by
  rw [writeText] at h
  rcases made.writeBytes_cases path text.toUTF8 with hNothing | ⟨l, hLocate, hFree, hPut⟩
  · rw [hNothing] at h
    cases h
  · rw [hPut] at h
    cases h
    have hGet := get?_put_file_self hFree text.toUTF8
    -- The write is into a place that was no directory, so the path leads there afterwards as well.
    have hLeads := (locate?_put_file hFree text.toUTF8 path).trans hLocate
    refine ⟨l, hLeads, ?_, ?_, ?_, ?_⟩
    · rw [file?, hGet]
    · simp only [FileTree.readText, lookup?, hLeads, Option.bind_some, hGet, fromUTF8?_toUTF8]
    · intro other hOther
      rw [file?_put_of_ne made hOther, hMade.file?_eq]
    · intro other hDirectory
      rw [isDirectory_put_file hFree]
      exact hMade.isDirectory hDirectory

/-- What a write leaves if it goes wrong. -/
theorem eq_of_writeText {t after : FileTree} {path text : String}
    (h : t.writeText path text = (false, after)) : after = t := by
  rw [writeText] at h
  rcases t.writeBytes_cases path text.toUTF8 with hNothing | ⟨l, -, -, hPut⟩
  · rw [hNothing] at h
    cases h
    rfl
  · rw [hPut] at h
    cases h

end FileTree

end Datamodel
