import Datamodel.Proofs.Archive.Directory
import Datamodel.Proofs.Archive.Writing

/-! A directory as good as a memory. If the same documents are stored in an archive in a directory
and in one in memory, the two accept and refuse the same tenants, and afterwards the files are
exactly the documents in memory, each under the path of its tenant. What carries this from one
document to the next is that different tenants have different places, and that a document which is
there does not stand in the way of another. -/
namespace Datamodel

/-- A document that is to be stored for a tenant. -/
structure Delivery where
  tenant : String
  text : String
  deriving DecidableEq, Repr

/-- The content of the file that a path leads to. -/
def FileTree.fileAt? (t : FileTree) (path : String) : Option ByteArray :=
  (t.locate? path).bind t.file?

/-- The archive after documents have been stored one after the other. -/
def MemoryArchive.storeAll (m : MemoryArchive) (deliveries : List Delivery) : MemoryArchive :=
  deliveries.foldl (fun m d => (m.write d.tenant d.text).2) m

namespace DirectoryArchive

open FileTree

variable (a : DirectoryArchive)

/-- The files after documents have been stored one after the other. -/
def storeAll (t : FileTree) (deliveries : List Delivery) : FileTree :=
  deliveries.foldl (fun t d => (t.exec (a.write d.tenant d.text)).2) t

/-- The files are the documents of an archive in memory: the path of a tenant leads to a file
exactly if there is a document for the tenant, the file has its text, and there are no other files.
-/
structure Agrees (t : FileTree) (m : MemoryArchive) : Prop where
  documents : ∀ tenant path, a.pathFor tenant = .ok path →
    t.fileAt? path = (m.get? tenant).map String.toUTF8
  refused : ∀ tenant e, a.pathFor tenant = .error e → m.get? tenant = none
  files : ∀ l, (t.file? l).isSome ↔
    ∃ tenant ∈ m.tenants, ∃ path, a.pathFor tenant = .ok path ∧ t.locate? path = some l

variable {a}

/-- Every tenant has a file of its own in one directory. -/
theorem eq_append_of_locate? (hExtension : '/' ∉ a.extension.toList) {t : FileTree}
    {tenant path : String} {l : Location} (hPath : a.pathFor tenant = .ok path)
    (hLocate : t.locate? path = some l) :
    l = (Path.stem a.root).foldl next (t.start a.root) ++ [a.fileName tenant] := by
  obtain ⟨hAccepted, hJoin⟩ := a.pathFor_eq_ok_iff.mp hPath
  have hName := a.slash_notMem_fileName hAccepted hExtension
  have hRelative : Path.isAbsolute (a.fileName tenant) = false := by
    refine decide_eq_false fun hHead => hName ?_
    exact List.mem_of_mem_head? hHead
  have hStart : t.start path = t.start a.root := by
    rw [start, start, hJoin, Path.isAbsolute_join hRelative]
  obtain ⟨hEmpty, hPoint, hPoints⟩ := Tenant.append_leads_on hAccepted a.ending
  rw [← fileName_eq] at hEmpty hPoint hPoints
  rw [eq_foldl_of_locate? hLocate, a.names_pathFor hExtension hPath, List.foldl_append, hStart]
  simp [next, isIdle, hEmpty, hPoint, hPoints]

theorem eq_of_locate? (hExtension : '/' ∉ a.extension.toList) {t : FileTree}
    {tenant other path otherPath : String} {l : Location} (hPath : a.pathFor tenant = .ok path)
    (hOther : a.pathFor other = .ok otherPath) (hLocate : t.locate? path = some l)
    (hSame : t.locate? otherPath = some l) : tenant = other := by
  have hPlaces := (eq_append_of_locate? hExtension hPath hLocate).symm.trans
    (eq_append_of_locate? hExtension hOther hSame)
  rw [List.append_cancel_left_eq, List.cons.injEq, fileName_eq, fileName_eq] at hPlaces
  exact (String.append_left_inj a.ending).mp hPlaces.1

/-- What storing documents keeps up between the files and an archive in memory. Every document is
in the file of its tenant, every file is that of a document, and what could be stored at the start
can still be stored. -/
structure Mirrors (a : DirectoryArchive) (start t : FileTree) (m : MemoryArchive) : Prop where
  stored : ∀ tenant text, m.get? tenant = some text → ∃ path l, a.pathFor tenant = .ok path ∧
    t.locate? path = some l ∧ t.file? l = some text.toUTF8
  files : ∀ l, (t.file? l).isSome →
    ∃ tenant ∈ m.tenants, ∃ path, a.pathFor tenant = .ok path ∧ t.locate? path = some l
  free : ∀ text path, ¬ a.IsBlocked text start path → ¬ a.IsBlocked text t path

namespace Mirrors

variable {start t : FileTree} {m : MemoryArchive}

theorem empty (h : ∀ l, start.file? l = none) : a.Mirrors start start {} := by
  refine ⟨fun tenant text hGet => ?_, fun l hFile => ?_, fun _ _ hFree => hFree⟩
  · cases hGet
  · rw [h] at hFile
    cases hFile

theorem agrees (h : a.Mirrors start t m) (hExtension : '/' ∉ a.extension.toList) :
    a.Agrees t m := by
  constructor
  case documents =>
    intro tenant path hPath
    cases hGet : m.get? tenant with
    | some text =>
        obtain ⟨other, l, hOther, hLocate, hFile⟩ := h.stored tenant text hGet
        obtain rfl : other = path := Except.ok.inj (hOther.symm.trans hPath)
        simp [fileAt?, hLocate, hFile]
    | none =>
        -- A file under the path would be that of some document, and so of this very tenant.
        rw [fileAt?, Option.map_none, Option.bind_eq_none_iff]
        refine fun l hLocate => Option.not_isSome_iff_eq_none.mp fun hFile => ?_
        obtain ⟨other, hMem, otherPath, hOther, hSame⟩ := h.files l hFile
        obtain rfl := eq_of_locate? hExtension hPath hOther hLocate hSame
        obtain ⟨text, hText⟩ := MemoryArchive.mem_tenants_iff.mp hMem
        rw [hGet] at hText
        cases hText
  case refused =>
    intro tenant e hRefused
    cases hGet : m.get? tenant with
    | none => rfl
    | some text =>
        obtain ⟨path, _, hPath, -⟩ := h.stored tenant text hGet
        rw [hPath] at hRefused
        cases hRefused
  case files =>
    refine fun l => ⟨h.files l, ?_⟩
    rintro ⟨tenant, hMem, path, hPath, hLocate⟩
    obtain ⟨text, hGet⟩ := MemoryArchive.mem_tenants_iff.mp hMem
    obtain ⟨other, place, hOther, hPlace, hFile⟩ := h.stored tenant text hGet
    obtain rfl : other = path := Except.ok.inj (hOther.symm.trans hPath)
    obtain rfl : place = l := Option.some.inj (hPlace.symm.trans hLocate)
    rw [hFile]
    rfl

/-- One more document for a tenant that is refused. -/
theorem write_refused (h : a.Mirrors start t m) {tenant : String}
    (hRefused : Tenant.isAccepted tenant = false) (text : String) :
    a.Mirrors start (t.exec (a.write tenant text)).2 (m.write tenant text).2 := by
  rw [a.exec_write_of_refused tenant text t (a.pathFor_eq_error_iff.mpr ⟨hRefused, rfl⟩),
    m.write_of_refused text hRefused]
  exact h

/-- One more document for a tenant that is accepted. -/
theorem write_accepted (h : a.Mirrors start t m) (hExtension : '/' ∉ a.extension.toList)
    {tenant text path : String} (hPath : a.pathFor tenant = .ok path)
    (hFree : ¬ a.IsBlocked text start path) :
    (t.exec (a.write tenant text)).1 = .ok path ∧
      a.Mirrors start (t.exec (a.write tenant text)).2 (m.write tenant text).2 := by
  have hAccepted := (a.pathFor_eq_ok_iff.mp hPath).1
  obtain ⟨after, l, hWrite, hWrote, hLeads, hStillFree⟩ :=
    a.exec_write_of_free tenant text t hPath (h.free text path hFree)
  rw [hWrite]
  refine ⟨rfl, ?_, ?_, fun otherText other hOther =>
    hStillFree otherText other (h.free otherText other hOther)⟩
  · intro other otherText hGet
    by_cases hOther : other = tenant
    · subst hOther
      rw [m.get?_write_self text hAccepted] at hGet
      cases hGet
      exact ⟨path, l, hPath, hWrote.locate, hWrote.content⟩
    · rw [m.get?_write_of_ne text hOther] at hGet
      obtain ⟨otherPath, place, hOtherPath, hLocate, hFile⟩ := h.stored other otherText hGet
      have hAfter := hLeads otherPath place hLocate
      have hPlace : place ≠ l := fun hSame =>
        hOther (eq_of_locate? hExtension hOtherPath hPath hAfter (hSame ▸ hWrote.locate))
      exact ⟨otherPath, place, hOtherPath, hAfter, (hWrote.others place hPlace).trans hFile⟩
  · intro place hFile
    by_cases hPlace : place = l
    · have hMem : tenant ∈ (m.write tenant text).2.tenants :=
        MemoryArchive.mem_tenants_iff.mpr ⟨text, m.get?_write_self text hAccepted⟩
      exact ⟨tenant, hMem, path, hPath, hPlace ▸ hWrote.locate⟩
    · rw [hWrote.others place hPlace] at hFile
      obtain ⟨other, hMem, otherPath, hOtherPath, hLocate⟩ := h.files place hFile
      refine ⟨other, ?_, otherPath, hOtherPath, hLeads otherPath place hLocate⟩
      obtain ⟨otherText, hGet⟩ := MemoryArchive.mem_tenants_iff.mp hMem
      rw [MemoryArchive.mem_tenants_iff]
      by_cases hOther : other = tenant
      · subst hOther
        exact ⟨text, m.get?_write_self text hAccepted⟩
      · exact ⟨otherText, (m.get?_write_of_ne text hOther).trans hGet⟩

theorem write (h : a.Mirrors start t m) (hExtension : '/' ∉ a.extension.toList) {d : Delivery}
    (hFree : ∀ path, a.pathFor d.tenant = .ok path → ¬ a.IsBlocked d.text start path) :
    a.Mirrors start (t.exec (a.write d.tenant d.text)).2 (m.write d.tenant d.text).2 := by
  cases hPath : a.pathFor d.tenant with
  | ok path => exact (h.write_accepted hExtension hPath (hFree path hPath)).2
  | error e => exact h.write_refused (a.pathFor_eq_error_iff.mp hPath).1 d.text

theorem storeAll (h : a.Mirrors start t m) (hExtension : '/' ∉ a.extension.toList)
    {deliveries : List Delivery} (hFree : ∀ d ∈ deliveries, ∀ path,
      a.pathFor d.tenant = .ok path → ¬ a.IsBlocked d.text start path) :
    a.Mirrors start (a.storeAll t deliveries) (m.storeAll deliveries) := by
  induction deliveries generalizing t m with
  | nil => exact h
  | cons d deliveries ih =>
      rw [List.forall_mem_cons] at hFree
      exact ih (h.write hExtension hFree.1) hFree.2

end Mirrors

/-- What one delivery does to the files and to an archive in memory. Either both archives accept it,
and each says where the document is, or both refuse the tenant and stay as they are. In either case
the documents of other tenants stay. -/
structure Delivers (a : DirectoryArchive) (t : FileTree) (m : MemoryArchive) (d : Delivery) :
    Prop where
  outcome :
    (∃ path, a.pathFor d.tenant = .ok path ∧ (t.exec (a.write d.tenant d.text)).1 = .ok path ∧
        (m.write d.tenant d.text).1 = .ok d.tenant) ∨
      t.exec (a.write d.tenant d.text) = (.error (.invalidTenant d.tenant), t) ∧
        m.write d.tenant d.text = (.error (.invalidTenant d.tenant), m)
  others : ∀ other path, other ≠ d.tenant → a.pathFor other = .ok path →
    (t.exec (a.write d.tenant d.text)).2.fileAt? path = t.fileAt? path ∧
      (m.write d.tenant d.text).2.get? other = m.get? other

theorem Mirrors.delivers {start t : FileTree} {m : MemoryArchive} (h : a.Mirrors start t m)
    (hExtension : '/' ∉ a.extension.toList) {d : Delivery}
    (hFree : ∀ path, a.pathFor d.tenant = .ok path → ¬ a.IsBlocked d.text start path) :
    a.Delivers t m d := by
  constructor
  case outcome =>
    cases hPath : a.pathFor d.tenant with
    | ok path =>
        refine .inl ⟨path, rfl, (h.write_accepted hExtension hPath (hFree path hPath)).1, ?_⟩
        rw [m.write_of_accepted d.text (a.pathFor_eq_ok_iff.mp hPath).1]
    | error e =>
        obtain ⟨hRefused, rfl⟩ := a.pathFor_eq_error_iff.mp hPath
        exact .inr ⟨a.exec_write_of_refused d.tenant d.text t hPath,
          m.write_of_refused d.text hRefused⟩
  case others =>
    intro other path hOther hPath
    have hKept := m.get?_write_of_ne d.text hOther
    have hBefore := (h.agrees hExtension).documents other path hPath
    have hAfter := ((h.write hExtension hFree).agrees hExtension).documents other path hPath
    exact ⟨by rw [hAfter, hKept, hBefore], hKept⟩

/-- An archive in a directory does what one in memory does. The files start without a document, the
extension has no slash in it, and for every tenant that is accepted the directory can be made and
the file be written at the start. Then all goes well in the whole run: of every delivery, both
archives accept or both refuse it, and after every part of the run the files are exactly the
documents in memory. -/
theorem directory_refines_memory {a : DirectoryArchive} {start : FileTree}
    {deliveries : List Delivery} (hExtension : '/' ∉ a.extension.toList)
    (hEmpty : ∀ l, start.file? l = none)
    (hFree : ∀ d ∈ deliveries, ∀ path, a.pathFor d.tenant = .ok path →
      ¬ a.IsBlocked d.text start path) :
    (∀ before, before <+: deliveries →
        a.Agrees (a.storeAll start before) (MemoryArchive.storeAll {} before)) ∧
      ∀ before d, before ++ [d] <+: deliveries →
        a.Delivers (a.storeAll start before) (MemoryArchive.storeAll {} before) d := by
  have hMirrors {before : List Delivery} (hBefore : before <+: deliveries) :
      a.Mirrors start (a.storeAll start before) (MemoryArchive.storeAll {} before) :=
    (Mirrors.empty hEmpty).storeAll hExtension fun d hd => hFree d (hBefore.subset hd)
  refine ⟨fun before hBefore => (hMirrors hBefore).agrees hExtension, fun before d hNext => ?_⟩
  have hBefore : before <+: deliveries := (List.prefix_append before [d]).trans hNext
  exact (hMirrors hBefore).delivers hExtension (hFree d (hNext.subset (by simp)))

/-- Two tenants in a directory that has to be made, one of them twice, and one that is refused
between. -/
theorem directory_refines_memory_of_two_tenants :
    let a := make "out/x" ".prisma"
    let deliveries : List Delivery :=
      [⟨"acme", "one"⟩, ⟨"b.c", "two"⟩, ⟨"../acme", "three"⟩, ⟨"acme", "four"⟩]
    let after := a.storeAll {} deliveries
    (∀ l, ({} : FileTree).file? l = none) ∧
      (∀ d ∈ deliveries, ∀ path, a.pathFor d.tenant = .ok path →
        ¬ a.IsBlocked d.text {} path) ∧
      after.fileAt? "out/x/acme.prisma" = some "four".toUTF8 ∧
      after.fileAt? "out/x/b.c.prisma" = some "two".toUTF8 ∧
      (MemoryArchive.storeAll {} (deliveries.take 2)).write "../acme" "three" =
        (.error (.invalidTenant "../acme"), MemoryArchive.storeAll {} (deliveries.take 2)) := by
  intro a deliveries after
  have hEmpty : ∀ l, ({} : FileTree).file? l = none := by
    intro l
    cases l <;> rfl
  have hWritable : ∀ d ∈ deliveries, Tenant.isAccepted d.tenant →
      (({} : FileTree).makeDirectories a.root).1 = true ∧
        ((({} : FileTree).makeDirectories a.root).2.writeText
          (Path.join a.root (a.fileName d.tenant)) d.text).1 = true := by
    decide +kernel
  have hFree : ∀ d ∈ deliveries, ∀ path, a.pathFor d.tenant = .ok path →
      ¬ a.IsBlocked d.text {} path := by
    intro d hd path hPath
    obtain ⟨hAccepted, rfl⟩ := a.pathFor_eq_ok_iff.mp hPath
    obtain ⟨hRoot, hFile⟩ := hWritable d hd hAccepted
    simp [IsBlocked, hRoot, hFile]
  obtain ⟨hAgrees, hDelivers⟩ := directory_refines_memory (by decide +kernel) hEmpty hFree
  have hAfter := hAgrees deliveries List.prefix_rfl
  refine ⟨hEmpty, hFree,
    hAfter.documents "acme" _ (a.pathFor_eq_ok_iff.mpr (by decide +kernel)),
    hAfter.documents "b.c" _ (a.pathFor_eq_ok_iff.mpr (by decide +kernel)), ?_⟩
  rcases (hDelivers (deliveries.take 2) ⟨"../acme", "three"⟩ (by decide)).outcome with
    ⟨path, hAccepted, -⟩ | ⟨-, hRefused⟩
  · exact absurd (a.pathFor_eq_ok_iff.mp hAccepted).1 (by decide +kernel)
  · exact hRefused

end DirectoryArchive

end Datamodel
