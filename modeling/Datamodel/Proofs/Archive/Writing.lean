import Datamodel.Archive
import Datamodel.Proofs.Files.Directories

/-! What storing a document does. In memory a refused tenant changes nothing; the document of an
accepted one is the one that is found afterwards, and those of the others stay. In a directory a
refused tenant leaves the files alone. For an accepted one the directory is made and the file is
written into it, and if either cannot be done, no file is gone or changed. A document that is there
already stands in the way of none. -/
namespace Datamodel

namespace MemoryArchive

variable (m : MemoryArchive) {tenant : String} (text : String)

theorem write_of_refused (h : Tenant.isAccepted tenant = false) :
    m.write tenant text = (.error (.invalidTenant tenant), m) := by
  simp [write, Tenant.check, h]

theorem write_of_accepted (h : Tenant.isAccepted tenant) :
    m.write tenant text = (.ok tenant, ⟨Entries.put tenant text m.documents⟩) := by
  simp [write, Tenant.check, h]

theorem get?_write_self (h : Tenant.isAccepted tenant) :
    (m.write tenant text).2.get? tenant = some text := by
  rw [m.write_of_accepted text h]
  exact Entries.lookup_put_self tenant text m.documents

theorem get?_write_of_ne {other : String} (h : other ≠ tenant) :
    (m.write tenant text).2.get? other = m.get? other := by
  cases hAccepted : Tenant.isAccepted tenant with
  | false => rw [m.write_of_refused text hAccepted]
  | true =>
      rw [m.write_of_accepted text hAccepted]
      exact Entries.lookup_put_of_ne h text m.documents

/-- The tenants are those for which there is a document. -/
theorem mem_tenants_iff {m : MemoryArchive} {tenant : String} :
    tenant ∈ m.tenants ↔ ∃ text, m.get? tenant = some text := by
  rw [← Option.isSome_iff_exists, get?, List.lookup_isSome_iff, tenants, List.mem_map]
  refine exists_congr fun entry => and_congr_right fun _ => ?_
  rw [beq_iff_eq, eq_comm]

end MemoryArchive

namespace DirectoryArchive

open FileTree

variable (a : DirectoryArchive) (tenant text : String) (t : FileTree)

theorem exec_write_of_refused {e : SchemaError} (h : a.pathFor tenant = .error e) :
    t.exec (a.write tenant text) = (.error e, t) := by
  simp [write, h]

/-- The directory of the archive cannot be made, or the file cannot be written then. -/
def IsBlocked (path : String) : Prop :=
  (t.makeDirectories a.root).1 = false ∨
    ((t.makeDirectories a.root).2.writeText path text).1 = false

/-- Behind the check of the name only the files can stand in the way, and then none is touched. -/
theorem exec_write_of_accepted {path : String} (h : a.pathFor tenant = .ok path) :
    (∃ after l, t.exec (a.write tenant text) = (.ok path, after) ∧ t.Wrote after path text l) ∨
      ∃ place after, t.exec (a.write tenant text) = (.error (.inaccessible place), after) ∧
        a.IsBlocked text t path ∧ t.GainsDirectories after := by
  have hGains := t.gainsDirectories_makeDirectories a.root
  cases hMake : t.makeDirectories a.root with
  | mk made between =>
      rw [hMake] at hGains
      cases made with
      | false =>
          refine .inr ⟨a.root, between, ?_, .inl (by rw [hMake]), hGains⟩
          simp [write, h, hMake]
      | true =>
          cases hWrite : between.writeText path text with
          | mk done after =>
              cases done with
              | false =>
                  obtain rfl := eq_of_writeText hWrite
                  refine .inr ⟨path, after, ?_, .inr (by rw [hMake, hWrite]), hGains⟩
                  simp [write, h, hMake, hWrite]
              | true =>
                  obtain ⟨l, hWrote⟩ := wrote_of_writeText hGains hWrite
                  refine .inl ⟨after, l, ?_, hWrote⟩
                  simp [write, h, hMake, hWrite]

theorem not_isBlocked_iff {a : DirectoryArchive} {text : String} {t : FileTree} {path : String} :
    ¬ a.IsBlocked text t path ↔
      ∃ now, t.makeDirectories a.root = (true, now) ∧ (now.writeText path text).1 = true := by
  cases hMake : t.makeDirectories a.root with
  | mk made now => cases made <;> simp [IsBlocked, hMake]

/-- If nothing stands in the way, the document is stored. All paths lead where they led before, and
what could be stored before can still be stored. -/
theorem exec_write_of_free {path : String} (h : a.pathFor tenant = .ok path)
    (hFree : ¬ a.IsBlocked text t path) :
    ∃ after l, t.exec (a.write tenant text) = (.ok path, after) ∧ t.Wrote after path text l ∧
      (∀ other place, t.locate? other = some place → after.locate? other = some place) ∧
      ∀ otherText other, ¬ a.IsBlocked otherText t other →
        ¬ a.IsBlocked otherText after other := by
  obtain ⟨now, hMade, hWrite⟩ := not_isBlocked_iff.mp hFree
  have hGains := t.gainsDirectories_makeDirectories a.root
  rw [hMade] at hGains
  obtain ⟨place, -, hPlace, hPut⟩ :=
    (KeepsDirectories.refl now).writeBytes hWrite text.toUTF8
  have hKeeps := KeepsDirectories.put_file hPlace text.toUTF8
  have hDone : now.writeText path text = (true, now.put place (.file text.toUTF8)) := hPut
  obtain ⟨l, hWrote⟩ := wrote_of_writeText hGains hDone
  refine ⟨_, l, by simp [write, h, hMade, hDone], hWrote, fun other place hLocate => ?_,
    fun otherText other hOther => ?_⟩
  · exact (hKeeps.locate? other).trans (hGains.locate? hLocate)
  · obtain ⟨same, hSame, hOtherWrite⟩ := not_isBlocked_iff.mp hOther
    obtain rfl : same = now := (Prod.mk.inj (hSame.symm.trans hMade)).2
    obtain ⟨_, _, _, hAgain⟩ := hKeeps.writeBytes hOtherWrite otherText.toUTF8
    exact not_isBlocked_iff.mpr
      ⟨_, KeepsDirectories.makeDirectories hMade hKeeps, by rw [FileTree.writeText, hAgain]⟩

end DirectoryArchive

end Datamodel
