import Datamodel.Archive
import Datamodel.Files.Tree
import Datamodel.Proofs.Files.Path

/-! Where a directory keeps the documents of its tenants. The path for a tenant goes through the
names of the directory, one name of the tenant, and whatever an extension with slashes in it adds.
The name of the tenant starts with what the tenant is called, so two tenants never share a path, and
since no accepted name starts like a point or two points and goes no further, it always leads on. -/
namespace Datamodel

namespace Tenant

theorem isAccepted_iff {tenant : String} :
    isAccepted tenant = true ↔
      tenant ≠ "" ∧ tenant ≠ "." ∧ ¬ "..".toList <:+: tenant.toList ∧
        '/' ∉ tenant.toList ∧ '\\' ∉ tenant.toList ∧ '\x00' ∉ tenant.toList := by
  have hReserved : tenant.toList.any isReserved = false ↔
      '/' ∉ tenant.toList ∧ '\\' ∉ tenant.toList ∧ '\x00' ∉ tenant.toList := by
    simp only [List.any_eq_false, isReserved, Bool.not_eq_true, Bool.or_eq_false_iff,
      beq_eq_false_iff_ne]
    constructor
    · exact fun h => ⟨fun hc => (h _ hc).1.1 rfl, fun hc => (h _ hc).1.2 rfl,
        fun hc => (h _ hc).2 rfl⟩
    · rintro ⟨hSlash, hBackslash, hNul⟩ c hc
      exact ⟨⟨fun h => hSlash (h ▸ hc), fun h => hBackslash (h ▸ hc)⟩, fun h => hNul (h ▸ hc)⟩
  have hPoints : Text.contains tenant ".." = false ↔ ¬ "..".toList <:+: tenant.toList := by
    rw [← Bool.not_eq_true, Text.contains, Text.containsSlice_iff]
  simp only [isAccepted, Bool.and_eq_true, bne_iff_ne, Bool.not_eq_true', hPoints, hReserved,
    and_assoc]

/-- The beginnings of `..` are refused: the empty text, one point and two points. -/
theorem not_prefix_of_isAccepted {tenant : String} (h : isAccepted tenant) :
    ¬ tenant.toList <+: ['.', '.'] := by
  obtain ⟨hEmpty, hPoint, hPoints, -⟩ := isAccepted_iff.mp h
  intro hPrefix
  rcases List.prefix_cons_iff.mp hPrefix with hNil | ⟨rest, hRest, hFirst⟩
  · exact hEmpty (String.toList_eq_nil_iff.mp hNil)
  · rcases List.prefix_cons_iff.mp hFirst with rfl | ⟨last, rfl, hSecond⟩
    · exact hPoint (String.toList_inj.mp hRest)
    · rw [List.prefix_nil.mp hSecond] at hRest
      rw [hRest] at hPoints
      exact hPoints List.infix_rfl

/-- Whatever is put behind an accepted name, the result is not a name that stays in its directory or
leads out of it. -/
theorem append_leads_on {tenant : String} (h : isAccepted tenant) (behind : String) :
    tenant ++ behind ≠ "" ∧ tenant ++ behind ≠ "." ∧ tenant ++ behind ≠ ".." := by
  have hNot {name : String} (hName : name.toList <+: ['.', '.']) : tenant ++ behind ≠ name := by
    rintro rfl
    rw [String.toList_append] at hName
    exact not_prefix_of_isAccepted h ((List.prefix_append _ _).trans hName)
  exact ⟨hNot (by decide), hNot (by decide), hNot (by decide)⟩

end Tenant

namespace DirectoryArchive

variable (a : DirectoryArchive)

theorem pathFor_eq_ok_iff {tenant path : String} :
    a.pathFor tenant = .ok path ↔
      Tenant.isAccepted tenant ∧ path = Path.join a.root (a.fileName tenant) := by
  rw [pathFor, Tenant.check]
  cases Tenant.isAccepted tenant <;> simp [eq_comm]

theorem pathFor_eq_error_iff {tenant : String} {e : SchemaError} :
    a.pathFor tenant = .error e ↔
      Tenant.isAccepted tenant = false ∧ e = .invalidTenant tenant := by
  rw [pathFor, Tenant.check]
  cases Tenant.isAccepted tenant <;> simp [eq_comm]

/-- What is put behind the name of every tenant. -/
def ending : String :=
  if a.extension = "" then "" else "." ++ a.extension

theorem fileName_eq (tenant : String) : a.fileName tenant = tenant ++ a.ending := by
  unfold fileName ending
  split
  · rw [String.append_empty]
  · rw [String.append_assoc]

/-- The path of a tenant, name by name: the names of the directory, one that starts with the
tenant's, and the same ones behind it for every tenant. -/
theorem exists_names_pathFor :
    ∃ first after, ∀ tenant path, a.pathFor tenant = .ok path →
      Path.names path = Path.stem a.root ++ (tenant ++ first) :: after := by
  obtain ⟨first, after, hEnding⟩ := List.exists_cons_of_ne_nil (Path.names_ne_nil a.ending)
  refine ⟨first, after, fun tenant path hPath => ?_⟩
  obtain ⟨hAccepted, rfl⟩ := a.pathFor_eq_ok_iff.mp hPath
  have hSlash := (Tenant.isAccepted_iff.mp hAccepted).2.2.2.1
  rw [Path.names_join, fileName_eq, Path.names_append_of_notMem hSlash, hEnding,
    List.modifyHead_cons]

/-- Paths of two tenants differ, and they do not lead to the same place either: a name that depends
on the tenant is not passed over. -/
theorem eq_of_proper_eq {tenant other path otherPath : String} (hPath : a.pathFor tenant = .ok path)
    (hOther : a.pathFor other = .ok otherPath) (h : Path.proper path = Path.proper otherPath) :
    tenant = other := by
  obtain ⟨first, after, hNames⟩ := a.exists_names_pathFor
  have hProper {tenant path : String} (hPath : a.pathFor tenant = .ok path) :
      Path.proper path = (Path.stem a.root).filter (!FileTree.isIdle ·) ++
        (tenant ++ first) :: after.filter (!FileTree.isIdle ·) := by
    obtain ⟨hEmpty, hPoint, -⟩ :=
      Tenant.append_leads_on (a.pathFor_eq_ok_iff.mp hPath).1 first
    have hKept : FileTree.isIdle (tenant ++ first) = false := by
      simp only [FileTree.isIdle, hEmpty, hPoint, decide_false, Bool.or_self]
    rw [Path.proper, hNames tenant path hPath, List.filter_append, List.filter_cons_of_pos]
    simp [hKept]
  rw [hProper hPath, hProper hOther, List.append_cancel_left_eq, List.cons.injEq] at h
  exact (String.append_left_inj first).mp h.1

theorem slash_notMem_fileName {tenant : String} (hAccepted : Tenant.isAccepted tenant)
    (hExtension : '/' ∉ a.extension.toList) : '/' ∉ (a.fileName tenant).toList := by
  have hSlash := (Tenant.isAccepted_iff.mp hAccepted).2.2.2.1
  unfold fileName
  split
  · exact hSlash
  · simp [hSlash, hExtension]

/-- Without a slash in the extension the file is in the directory itself. -/
theorem names_pathFor {tenant path : String} (hExtension : '/' ∉ a.extension.toList)
    (hPath : a.pathFor tenant = .ok path) :
    Path.names path = Path.stem a.root ++ [a.fileName tenant] := by
  obtain ⟨hAccepted, rfl⟩ := a.pathFor_eq_ok_iff.mp hPath
  rw [Path.names_join, Path.names_of_notMem (a.slash_notMem_fileName hAccepted hExtension)]

theorem head?_bareExtension (extension : String) :
    (bareExtension extension).toList.head? ≠ some '.' := by
  rw [bareExtension, String.toList_ofList]
  intro hHead
  have hNot := List.head?_dropWhile_not (· = '.') extension.toList
  rw [hHead] at hNot
  simp at hNot

/-- A tenant decides over one name of a path and no more. The names that are refused are the empty
one, a single point, and those with two points in a row or one of three characters in them; nothing
else is. The paths of all others start with the directory and go through its names, then through one
name that starts with the tenant's and leads to a place of its own, and then through names that are
the same for all tenants, of which there are none if the extension has no slash in it. Two tenants
have one path only if they are one tenant, also if names that lead nowhere are passed over. -/
structure Confines (a : DirectoryArchive) : Prop where
  refused : ∀ tenant, a.pathFor tenant = .error (.invalidTenant tenant) ↔
    tenant = "" ∨ tenant = "." ∨ "..".toList <:+: tenant.toList ∨
      '/' ∈ tenant.toList ∨ '\\' ∈ tenant.toList ∨ '\x00' ∈ tenant.toList
  error : ∀ tenant e, a.pathFor tenant = .error e → e = .invalidTenant tenant
  names : ∃ after : List String, ∀ tenant path, a.pathFor tenant = .ok path →
    a.root.toList <+: path.toList ∧
      ∃ name : String, Path.names path = Path.stem a.root ++ name :: after ∧
        tenant.toList <+: name.toList ∧ name ≠ "" ∧ name ≠ "." ∧ name ≠ ".."
  injective : ∀ tenant other path otherPath, a.pathFor tenant = .ok path →
    a.pathFor other = .ok otherPath →
      (path = otherPath ↔ tenant = other) ∧
        (Path.proper path = Path.proper otherPath ↔ tenant = other)
  child : '/' ∉ a.extension.toList → ∀ tenant path, a.pathFor tenant = .ok path →
    path = Path.join a.root (a.fileName tenant) ∧
      Path.names path = Path.stem a.root ++ [a.fileName tenant]
  extension : a.extension.toList.head? ≠ some '.'

/-- Whatever the directory and the extension of an archive are. -/
theorem confines_make (root extension : String) : (make root extension).Confines := by
  generalize hMake : make root extension = a
  constructor
  case refused =>
    intro tenant
    rw [pathFor_eq_error_iff, ← Bool.not_eq_true, Tenant.isAccepted_iff]
    simp only [and_true, Classical.not_and_iff_not_or_not, ne_eq, Classical.not_not]
  case error => exact fun tenant e h => (a.pathFor_eq_error_iff.mp h).2
  case names =>
    obtain ⟨first, after, hNames⟩ := a.exists_names_pathFor
    refine ⟨after, fun tenant path hPath => ?_⟩
    obtain ⟨hAccepted, hJoin⟩ := a.pathFor_eq_ok_iff.mp hPath
    refine ⟨hJoin ▸ Path.prefix_join a.root _, tenant ++ first, hNames tenant path hPath, ?_,
      Tenant.append_leads_on hAccepted first⟩
    rw [String.toList_append]
    exact List.prefix_append _ _
  case injective =>
    intro tenant other path otherPath hPath hOther
    have hSame : tenant = other → path = otherPath := by
      rintro rfl
      exact Except.ok.inj (hPath.symm.trans hOther)
    refine ⟨⟨fun h => ?_, hSame⟩, fun h => a.eq_of_proper_eq hPath hOther h, fun h => ?_⟩
    · exact a.eq_of_proper_eq hPath hOther (congrArg Path.proper h)
    · rw [hSame h]
  case child =>
    exact fun hExtension tenant path hPath =>
      ⟨(a.pathFor_eq_ok_iff.mp hPath).2, a.names_pathFor hExtension hPath⟩
  case extension =>
    rw [← hMake]
    exact head?_bareExtension extension

/-- Points where a name and an extension meet, and slashes in the extension. -/
example : (make "out/" "..tar/gz").pathFor ".a." = .ok "out/.a..tar/gz" :=
  (pathFor_eq_ok_iff _).mpr (by decide +kernel)

end DirectoryArchive

end Datamodel
