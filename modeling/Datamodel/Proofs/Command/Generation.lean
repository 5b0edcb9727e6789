import Datamodel.Command.Run
import Datamodel.Proofs.Archive.Writing

/-! Storing the document of a plan. The command first loads the plan and builds its schema, then it
looks at the name of the tenant, and only then does it touch a file or a directory. So whatever goes
wrong before leaves no trace, and if all goes well there is one file more or another text in it. -/
namespace Datamodel

open FileTree

namespace FileTree

theorem pathExists_of_readText {t : FileTree} {path text : String}
    (h : t.readText path = .ok text) : t.pathExists path = true := by
  unfold readText at h
  unfold pathExists
  split at h <;> simp_all

end FileTree

namespace Plan

/-- The path leads to the text of a plan that builds the schema. -/
def Yields (t : FileTree) (path : String) (s : Schema) : Prop :=
  ∃ text p, t.readText path = .ok text ∧ parse (notationOf path) text = .ok p ∧ p.build = .ok s

/-- Loading looks at the tree and leaves it alone. -/
theorem exec_load (t : FileTree) (path : String) :
    t.exec (load path) =
      (if t.pathExists path then
        match t.readText path with
        | .error fault => .error (.unreadable fault)
        | .ok text => parse (notationOf path) text
      else .error (.planMissing path), t) := by
  unfold load
  cases hExists : t.pathExists path with
  | false => simp [hExists]
  | true => cases hRead : t.readText path <;> simp [hExists, hRead]

theorem exec_load_ok_iff {t : FileTree} {path : String} {p : Plan} :
    (t.exec (load path)).1 = .ok p ↔
      ∃ text, t.readText path = .ok text ∧ parse (notationOf path) text = .ok p := by
  rw [exec_load]
  cases hRead : t.readText path with
  | error fault => cases t.pathExists path <;> simp
  | ok text => simp [pathExists_of_readText hRead]

theorem exec_loadSchema (t : FileTree) (path : String) :
    t.exec (loadSchema path) =
      (match (t.exec (load path)).1 with
      | .error e => .error e
      | .ok p =>
        match p.build with
        | .error failure => .error (.stepFailed failure)
        | .ok s => .ok s, t) := by
  have hTree : (t.exec (load path)).2 = t := by rw [exec_load]
  rw [loadSchema, exec_bind, hTree]
  cases (t.exec (load path)).1 with
  | error e => rfl
  | ok p => cases hBuild : p.build <;> simp [hBuild]

theorem exec_loadSchema_ok_iff {t : FileTree} {path : String} {s : Schema} :
    (t.exec (loadSchema path)).1 = .ok s ↔ Yields t path s := by
  have hYields : Yields t path s ↔ ∃ p, (t.exec (load path)).1 = .ok p ∧ p.build = .ok s := by
    simp only [Yields, exec_load_ok_iff]
    constructor
    · rintro ⟨text, p, hRead, hParse, hBuild⟩
      exact ⟨p, ⟨text, hRead, hParse⟩, hBuild⟩
    · rintro ⟨p, ⟨text, hRead, hParse⟩, hBuild⟩
      exact ⟨text, p, hRead, hParse, hBuild⟩
  rw [hYields, exec_loadSchema]
  cases (t.exec (load path)).1 with
  | error e => simp
  | ok p => cases hBuild : p.build <;> simp [hBuild]

theorem Yields.exec_ne_error {t : FileTree} {path : String} {s : Schema} (h : Yields t path s)
    (e : CommandError) : (t.exec (loadSchema path)).1 ≠ .error e := by
  rw [exec_loadSchema_ok_iff.mpr h]
  simp

theorem Yields.eq {t : FileTree} {path : String} {s other : Schema} (h : Yields t path s)
    (hOther : Yields t path other) : s = other :=
  Except.ok.inj ((exec_loadSchema_ok_iff.mpr h).symm.trans (exec_loadSchema_ok_iff.mpr hOther))

end Plan

namespace Command

variable (c : Config) (plan tenant : String) (directory : Option String) (t : FileTree)

theorem exec_print :
    t.exec (print plan) =
      (match (t.exec (Plan.loadSchema plan)).1 with
      | .error e => .failed "" e
      | .ok s => { output := s.text ++ "\n" }, t) := by
  have hTree : (t.exec (Plan.loadSchema plan)).2 = t := by rw [Plan.exec_loadSchema]
  rw [print, exec_bind, hTree]
  cases (t.exec (Plan.loadSchema plan)).1 with
  | error e => rfl
  | ok s => rfl

theorem exec_print_failure_iff {e : CommandError} :
    (t.exec (print plan)).1.failure = some e ↔ (t.exec (Plan.loadSchema plan)).1 = .error e := by
  rw [exec_print]
  cases (t.exec (Plan.loadSchema plan)).1 <;> simp [Report.failed]

theorem exec_print_of_yields {s : Schema} (h : Plan.Yields t plan s) :
    t.exec (print plan) = ({ output := s.text ++ "\n" }, t) := by
  rw [exec_print, Plan.exec_loadSchema_ok_iff.mpr h]

/-- The ways in which storing a document can end, with the reason if it fails and with the tree that
it leaves: the plan yields no schema, the archive refuses the tenant, the archive cannot make its
directory or write the file, or the document is stored. -/
inductive Ending (archive : DirectoryArchive) : Option CommandError → FileTree → Prop where
  | unloaded {e : CommandError} (load : (t.exec (Plan.loadSchema plan)).1 = .error e) :
      Ending archive (some e) t
  | refused {s : Schema} {e : SchemaError} (yields : Plan.Yields t plan s)
      (refused : archive.pathFor tenant = .error e) : Ending archive (some (.schema e)) t
  | inaccessible {s : Schema} {path place : String} {after : FileTree}
      (yields : Plan.Yields t plan s) (accepted : archive.pathFor tenant = .ok path)
      (blocked : archive.IsBlocked s.text t path) (gains : t.GainsDirectories after) :
      Ending archive (some (.schema (.inaccessible place))) after
  | stored {s : Schema} {path : String} {l : Location} {after : FileTree}
      (yields : Plan.Yields t plan s) (accepted : archive.pathFor tenant = .ok path)
      (wrote : t.Wrote after path s.text l) : Ending archive none after

namespace Ending

variable {plan tenant t} {archive : DirectoryArchive} {failure : Option CommandError}
  {after : FileTree}

theorem of_none (h : Ending plan tenant t archive none after) :
    ∃ s path l, Plan.Yields t plan s ∧ archive.pathFor tenant = .ok path ∧
      t.Wrote after path s.text l := by
  cases h with
  | stored yields accepted wrote => exact ⟨_, _, _, yields, accepted, wrote⟩

theorem file?_eq {e : CommandError} (h : Ending plan tenant t archive (some e) after)
    (l : Location) : after.file? l = t.file? l := by
  cases h with
  | unloaded => rfl
  | refused => rfl
  | inaccessible _ _ _ gains => exact gains.file?_eq l

theorem eq_of_ne_inaccessible {e : CommandError}
    (h : Ending plan tenant t archive (some e) after)
    (hPlace : ∀ place, e ≠ .schema (.inaccessible place)) : after = t := by
  cases h with
  | unloaded => rfl
  | refused => rfl
  | inaccessible => exact absurd rfl (hPlace _)

/-- The plan is looked at before the tenant. -/
theorem of_error {e : CommandError} (h : Ending plan tenant t archive failure after)
    (hLoad : (t.exec (Plan.loadSchema plan)).1 = .error e) : failure = some e ∧ after = t := by
  cases h with
  | unloaded load =>
      rw [load] at hLoad
      cases hLoad
      exact ⟨rfl, rfl⟩
  | refused yields => exact absurd hLoad (yields.exec_ne_error e)
  | inaccessible yields => exact absurd hLoad (yields.exec_ne_error e)
  | stored yields => exact absurd hLoad (yields.exec_ne_error e)

theorem of_refused {s : Schema} {e : SchemaError} (h : Ending plan tenant t archive failure after)
    (hYields : Plan.Yields t plan s) (hRefused : archive.pathFor tenant = .error e) :
    failure = some (.schema e) ∧ after = t := by
  cases h with
  | unloaded load => exact absurd load (hYields.exec_ne_error _)
  | refused _ refused =>
      rw [refused] at hRefused
      cases hRefused
      exact ⟨rfl, rfl⟩
  | inaccessible _ accepted =>
      rw [accepted] at hRefused
      cases hRefused
  | stored _ accepted =>
      rw [accepted] at hRefused
      cases hRefused

theorem eq_none {s : Schema} {path : String} (h : Ending plan tenant t archive failure after)
    (hYields : Plan.Yields t plan s) (hPath : archive.pathFor tenant = .ok path)
    (hFree : ¬ archive.IsBlocked s.text t path) : failure = none := by
  cases h with
  | unloaded load => exact absurd load (hYields.exec_ne_error _)
  | refused _ refused =>
      rw [hPath] at refused
      cases refused
  | inaccessible yields accepted blocked =>
      obtain rfl := yields.eq hYields
      rw [hPath] at accepted
      cases accepted
      exact absurd blocked hFree
  | stored => rfl

end Ending

theorem ending_generate :
    Ending plan tenant t (archiveFor c directory)
      (t.exec (generate c plan tenant directory)).1.failure
      (t.exec (generate c plan tenant directory)).2 := by
  have hTree : (t.exec (Plan.loadSchema plan)).2 = t := by rw [Plan.exec_loadSchema]
  simp only [generate, exec_bind, hTree]
  cases hLoad : (t.exec (Plan.loadSchema plan)).1 with
  | error e => exact .unloaded hLoad
  | ok s =>
      have hYields := Plan.exec_loadSchema_ok_iff.mp hLoad
      simp only [exec_bind]
      -- Up to here the tree has only been read.
      cases hPath : (archiveFor c directory).pathFor tenant with
      | error e =>
          rw [DirectoryArchive.exec_write_of_refused _ _ _ _ hPath]
          exact .refused hYields hPath
      | ok path =>
          rcases DirectoryArchive.exec_write_of_accepted _ tenant s.text t hPath with
            ⟨after, l, hWrite, hWrote⟩ | ⟨place, after, hWrite, hBlocked, hGains⟩
          · rw [hWrite]
            exact .stored hYields hPath hWrote
          · rw [hWrite]
            exact .inaccessible hYields hPath hBlocked hGains

/-- Storing is all or nothing. If it goes well, the plan builds a schema, the path for the tenant
leads to a file with the text of that schema, which is what printing writes before its line break,
and all other files are as before. If it fails, no file is gone, changed or new, and nothing at all
has changed unless the archive was at fault: neither if the plan cannot be read, nor if a step of it
fails, nor if the tenant is refused. What stops printing stops storing as well, and so does a name
that the archive has no path for; otherwise only the files can stand in the way. -/
theorem generate_all_or_nothing (c : Config) (plan tenant : String) (directory : Option String)
    (t : FileTree) :
    let archive := archiveFor c directory
    let report := (t.exec (generate c plan tenant directory)).1
    let after := (t.exec (generate c plan tenant directory)).2
    (report.failure = none →
        ∃ s path l, Plan.Yields t plan s ∧
          t.exec (print plan) = ({ output := s.text ++ "\n" }, t) ∧
          archive.pathFor tenant = .ok path ∧ t.Wrote after path s.text l) ∧
      (∀ e, report.failure = some e →
        (∀ l, after.file? l = t.file? l) ∧
          ((∀ place, e ≠ .schema (.inaccessible place)) → after = t)) ∧
      (∀ e, (t.exec (print plan)).1.failure = some e → report.failure = some e ∧ after = t) ∧
      (∀ s e, Plan.Yields t plan s → archive.pathFor tenant = .error e →
        report.failure = some (.schema e) ∧ after = t) ∧
      ∀ s path, Plan.Yields t plan s → archive.pathFor tenant = .ok path →
        ¬ archive.IsBlocked s.text t path → report.failure = none := by
  intro archive report after
  have hEnding : Ending plan tenant t archive report.failure after :=
    ending_generate c plan tenant directory t
  refine ⟨fun hNone => ?_, fun e hSome => ?_, fun e hPrint => ?_,
    fun s e => hEnding.of_refused, fun s path => hEnding.eq_none⟩
  · rw [hNone] at hEnding
    obtain ⟨s, path, l, hYields, hPath, hWrote⟩ := hEnding.of_none
    exact ⟨s, path, l, hYields, exec_print_of_yields plan t hYields, hPath, hWrote⟩
  · rw [hSome] at hEnding
    exact ⟨hEnding.file?_eq, hEnding.eq_of_ne_inaccessible⟩
  · exact hEnding.of_error ((exec_print_failure_iff plan t).mp hPrint)

/-- The same plan is stored for one tenant, in a directory that was not there, and for another whose
name would lead out of it. -/
theorem generate_all_or_nothing_of_two_tenants :
    let t : FileTree := { entries := [
      (["plan.json"], .file "\x7b\"steps\":[[\"create_model\",\"A\"]]\x7d".toUTF8),
      (["new", "acme.prisma"], .file "old".toUTF8)] }
    (t.exec (generate {} "plan.json" "acme" (some "new/out"))).1.failure = none ∧
      (∃ s l, Plan.Yields t "plan.json" s ∧
        t.Wrote (t.exec (generate {} "plan.json" "acme" (some "new/out"))).2
          "new/out/acme.prisma" s.text l) ∧
      (t.exec (generate {} "plan.json" "../acme" (some "new"))).1.failure =
        some (.schema (.invalidTenant "../acme")) ∧
      (t.exec (generate {} "plan.json" "../acme" (some "new"))).2 = t := by
  intro t
  have hStored : (t.exec (generate {} "plan.json" "acme" (some "new/out"))).1.failure = none := by
    decide +kernel
  have hRefused : (t.exec (generate {} "plan.json" "../acme" (some "new"))).1.failure =
      some (.schema (.invalidTenant "../acme")) := by
    decide +kernel
  have hFor : (archiveFor {} (some "new/out")).pathFor "acme" = .ok "new/out/acme.prisma" := by
    rw [DirectoryArchive.pathFor, Tenant.check, if_pos (by decide +kernel)]
    exact congrArg Except.ok (by decide +kernel)
  obtain ⟨s, path, l, hYields, -, hPath, hWrote⟩ :=
    (generate_all_or_nothing {} "plan.json" "acme" (some "new/out") t).1 hStored
  obtain rfl := Except.ok.inj (hFor.symm.trans hPath)
  have hSame := (generate_all_or_nothing {} "plan.json" "../acme" (some "new") t).2.1 _ hRefused
  exact ⟨hStored, ⟨s, l, hYields, hWrote⟩, hRefused, hSame.2 (by simp)⟩

end Command

end Datamodel
