import Datamodel.Document
import Datamodel.Proofs.Archive.Refinement
import Datamodel.Proofs.Entries
import Datamodel.Proofs.Schema.Session

/-! What an archive in memory holds after any history. Documents are stored as they are given, or a
schema that is being built is saved from time to time. The archive is told by the documents that
were handed to it: each tenant keeps the place of the first one and has the text of the last one. A
document is a text, so what is done to the schema later does not reach it. -/
namespace Datamodel

namespace MemoryArchive

theorem documents_write (a : MemoryArchive) (tenant text : String) :
    (a.write tenant text).2.documents =
      if Tenant.isAccepted tenant then Entries.put tenant text a.documents else a.documents := by
  cases h : Tenant.isAccepted tenant with
  | false => rw [a.write_of_refused text h, if_neg Bool.false_ne_true]
  | true => rw [a.write_of_accepted text h, if_pos rfl]

theorem storeAll_concat (a : MemoryArchive) (deliveries : List Delivery) (d : Delivery) :
    a.storeAll (deliveries ++ [d]) = ((a.storeAll deliveries).write d.tenant d.text).2 := by
  rw [storeAll, List.foldl_append]
  rfl

/-- The documents are those of the accepted tenants, put in one after the other. -/
theorem documents_storeAll (deliveries : List Delivery) :
    (storeAll {} deliveries).documents =
      Entries.putAll ((deliveries.filter (Tenant.isAccepted ·.tenant)).map fun d =>
        (d.tenant, d.text)) := by
  induction deliveries using List.reverseRecOn with
  | nil => rfl
  | append_singleton deliveries d ih =>
      rw [storeAll_concat, documents_write, ih, List.filter_append]
      cases h : Tenant.isAccepted d.tenant with
      | false => simp [h]
      | true => simp [h, Entries.putAll_concat]

theorem get?_storeAll_of_ne (a : MemoryArchive) {deliveries : List Delivery} {tenant : String}
    (h : ∀ d ∈ deliveries, d.tenant ≠ tenant) :
    (a.storeAll deliveries).get? tenant = a.get? tenant := by
  induction deliveries generalizing a with
  | nil => rfl
  | cons d deliveries ih =>
      rw [List.forall_mem_cons] at h
      exact (ih _ h.2).trans (a.get?_write_of_ne d.text (Ne.symm h.1))

/-- What an archive says about itself is what has been handed to it: the last document of each
tenant that is accepted, and these tenants in the order in which they came up. -/
structure Keeps (a : MemoryArchive) (deliveries : List Delivery) : Prop where
  get? : ∀ tenant, a.get? tenant =
    if Tenant.isAccepted tenant then
      (deliveries.filter (·.tenant == tenant)).getLast?.map (·.text)
    else none
  tenants : a.tenants = ((deliveries.map (·.tenant)).filter Tenant.isAccepted).eraseDups
  distinct : a.tenants.Nodup
  size : a.size = a.tenants.length
  isEmpty : a.isEmpty ↔ a.tenants = []
  rewritten : ∀ tenant ∈ a.tenants, ∀ text, (a.write tenant text).2.tenants = a.tenants

theorem tenants_write_of_mem {a : MemoryArchive} {tenant : String} (h : tenant ∈ a.tenants)
    (text : String) : (a.write tenant text).2.tenants = a.tenants := by
  rw [tenants, documents_write]
  split
  · rw [Entries.map_fst_put]
    exact if_pos h
  · rfl

theorem filter_accepted (tenant : String) (deliveries : List Delivery) :
    (deliveries.filter (Tenant.isAccepted ·.tenant)).filter (·.tenant == tenant) =
      if Tenant.isAccepted tenant then deliveries.filter (·.tenant == tenant) else [] := by
  rw [List.filter_filter]
  cases h : Tenant.isAccepted tenant with
  | false =>
      rw [if_neg Bool.false_ne_true, List.filter_eq_nil_iff]
      intro d _ hBoth
      simp only [Bool.and_eq_true, beq_iff_eq] at hBoth
      rw [hBoth.1, h] at hBoth
      exact Bool.false_ne_true hBoth.2
  | true =>
      rw [if_pos rfl]
      refine List.filter_congr fun d _ => ?_
      by_cases hTenant : d.tenant = tenant
      · simp [hTenant, h]
      · simp [hTenant]

theorem keeps_storeAll (deliveries : List Delivery) :
    (storeAll {} deliveries).Keeps deliveries := by
  have hTenants : (storeAll {} deliveries).tenants =
      ((deliveries.map (·.tenant)).filter Tenant.isAccepted).eraseDups := by
    rw [tenants, documents_storeAll, Entries.map_fst_putAll, List.map_map, List.filter_map]
    rfl
  constructor
  case get? =>
    intro tenant
    rw [MemoryArchive.get?, documents_storeAll, Entries.lookup_putAll, List.filter_map,
      List.getLast?_map, Option.map_map]
    have hLast := congrArg (fun ds => ds.getLast?.map (·.text)) (filter_accepted tenant deliveries)
    refine hLast.trans ?_
    split <;> rfl
  case tenants => exact hTenants
  case distinct =>
    rw [hTenants]
    exact nodup_eraseDups _
  case size => simp [MemoryArchive.size, MemoryArchive.tenants]
  case isEmpty => simp [MemoryArchive.isEmpty, MemoryArchive.tenants]
  case rewritten => exact fun tenant h => tenants_write_of_mem h

end MemoryArchive

namespace History

open Session (Operation)

/-- What can happen to a schema that is being built and to an archive. A document is stored as it is
given, which may be that of another schema, or it is the one of the schema that is being built. -/
inductive Event where
  | build (op : Operation)
  | store (d : Delivery)
  | save (tenant : String)

/-- A schema that is being built, and an archive for documents. -/
structure State where
  schema : Schema := {}
  archive : MemoryArchive := {}

namespace Event

/-- The tenant that the event is for, if it is to store something. -/
def tenant? : Event → Option String
  | build _ => none
  | store d => some d.tenant
  | save tenant => some tenant

/-- What the event hands to the archive. -/
def delivery? (s : Schema) : Event → Option Delivery
  | build _ => none
  | store d => some d
  | save tenant => some ⟨tenant, s.text⟩

/-- What the event does to the schema. -/
def schemaAfter (s : Schema) : Event → Schema
  | build op => op.apply s
  | store _ => s
  | save _ => s

/-- The answer of the archive, if it is asked, and what is there afterwards. -/
def apply (w : State) : Event → Option (Except SchemaError String) × State
  | build op => (none, { w with schema := op.apply w.schema })
  | store d =>
    let (answer, archive) := w.archive.write d.tenant d.text
    (some answer, { w with archive })
  | save tenant =>
    let (answer, archive) := w.archive.write tenant w.schema.text
    (some answer, { w with archive })

end Event

/-- The state after a history. -/
def run (w : State) (events : List Event) : State :=
  events.foldl (fun w e => (e.apply w).2) w

/-- What a history hands to the archive, with the document of the schema as it is at the time. -/
def deliveries (s : Schema) : List Event → List Delivery
  | [] => []
  | e :: es => (e.delivery? s).toList ++ deliveries (e.schemaAfter s) es

theorem Event.apply_snd (e : Event) (w : State) :
    (e.apply w).2 =
      ⟨e.schemaAfter w.schema, w.archive.storeAll (e.delivery? w.schema).toList⟩ := by
  cases e <;> rfl

/-- The schema is built as if there were no archive, and the archive has what it was handed. -/
theorem run_eq (w : State) (events : List Event) :
    run w events = ⟨events.foldl Event.schemaAfter w.schema,
      w.archive.storeAll (deliveries w.schema events)⟩ := by
  induction events generalizing w with
  | nil => rfl
  | cons e events ih =>
      rw [run, List.foldl_cons]
      refine (ih _).trans ?_
      rw [e.apply_snd, deliveries, MemoryArchive.storeAll, MemoryArchive.storeAll,
        MemoryArchive.storeAll, List.foldl_append]
      rfl

theorem run_append (w : State) (before later : List Event) :
    run w (before ++ later) = run (run w before) later :=
  List.foldl_append

/-- Every document is handed over by an event that is for its tenant. -/
theorem exists_event_of_mem_deliveries {s : Schema} {events : List Event} {d : Delivery}
    (h : d ∈ deliveries s events) : ∃ e ∈ events, e.tenant? = some d.tenant := by
  induction events generalizing s with
  | nil => cases h
  | cons e events ih =>
      rw [deliveries, List.mem_append] at h
      rcases h with hFirst | hRest
      · refine ⟨e, List.mem_cons_self, ?_⟩
        cases e <;> simp_all [Event.delivery?, Event.tenant?]
      · obtain ⟨other, hMem, hTenant⟩ := ih hRest
        exact ⟨other, List.mem_cons_of_mem e hMem, hTenant⟩

/-- Storing and saving are answered alike. -/
theorem Event.apply_of_tenant? {e : Event} {tenant : String} (h : e.tenant? = some tenant)
    (w : State) :
    ∃ text, e.delivery? w.schema = some ⟨tenant, text⟩ ∧
      e.apply w = (some (w.archive.write tenant text).1,
        { w with archive := (w.archive.write tenant text).2 }) := by
  cases e with
  | build op => cases h
  | store d =>
      cases h
      exact ⟨d.text, rfl, rfl⟩
  | save tenant =>
      cases h
      exact ⟨w.schema.text, rfl, rfl⟩

/-- A document that was saved stays until something else comes for its tenant. -/
theorem get?_run_save (w : State) {tenant : String} (hAccepted : Tenant.isAccepted tenant = true)
    {later : List Event} (hLater : ∀ e ∈ later, e.tenant? ≠ some tenant) :
    (run w (.save tenant :: later)).archive.get? tenant = some w.schema.text := by
  have hOthers : ∀ d ∈ deliveries w.schema later, d.tenant ≠ tenant := by
    rintro d hd rfl
    obtain ⟨e, hMem, hTenant⟩ := exists_event_of_mem_deliveries hd
    exact hLater e hMem hTenant
  have hArchive : (run w (.save tenant :: later)).archive =
      (w.archive.write tenant w.schema.text).2.storeAll (deliveries w.schema later) := by
    rw [run_eq]
    rfl
  rw [hArchive, MemoryArchive.get?_storeAll_of_ne _ hOthers]
  exact w.archive.get?_write_self w.schema.text hAccepted

/-- What an archive in memory holds after any history that it starts without documents. Each tenant
that is accepted has the last document that was handed over for it, and the tenants stand in the
order of their first ones. An accepted tenant is answered with its name; a refused one with an
error, and then all is as it was. A saved document is the one of the schema at that moment, whatever
happens to the schema later, until the tenant is given another one. -/
theorem archive_keeps_last (s : Schema) (events : List Event) :
    (run ⟨s, {}⟩ events).archive.Keeps (deliveries s events) ∧
      (∀ (e : Event) (tenant : String), e.tenant? = some tenant →
        (Tenant.isAccepted tenant = true →
          (e.apply (run ⟨s, {}⟩ events)).1 = some (.ok tenant)) ∧
        (Tenant.isAccepted tenant = false →
          e.apply (run ⟨s, {}⟩ events) =
            (some (.error (.invalidTenant tenant)), run ⟨s, {}⟩ events))) ∧
      ∀ (tenant : String) (later : List Event), Tenant.isAccepted tenant = true →
        (∀ e ∈ later, e.tenant? ≠ some tenant) →
          (run ⟨s, {}⟩ (events ++ .save tenant :: later)).archive.get? tenant =
            some (run ⟨s, {}⟩ events).schema.text := by
  refine ⟨?_, fun e tenant hTenant => ⟨fun hAccepted => ?_, fun hRefused => ?_⟩,
    fun tenant later hAccepted hLater => ?_⟩
  · rw [run_eq]
    exact MemoryArchive.keeps_storeAll _
  · obtain ⟨text, -, hApply⟩ := Event.apply_of_tenant? hTenant (run ⟨s, {}⟩ events)
    rw [hApply, MemoryArchive.write_of_accepted _ text hAccepted]
  · obtain ⟨text, -, hApply⟩ := Event.apply_of_tenant? hTenant (run ⟨s, {}⟩ events)
    rw [hApply, MemoryArchive.write_of_refused _ text hRefused]
  · rw [run_append]
    exact get?_run_save _ hAccepted hLater

/-- The document of a schema takes the place of a draft that was stored before, and stays although
the schema is discarded. Another tenant is written in between, and one is refused. -/
theorem archive_keeps_last_of_rewrite :
    let x : Field := { name := "x", type := .scalar .int }
    let before : List Event := [
      .build (.createModel "A"), .store ⟨"acme", "draft"⟩, .store ⟨"b", "one"⟩,
      .store ⟨"../b", "two"⟩, .build (.addField "A" x)]
    let later : List Event := [.build .reset, .store ⟨"b", "three"⟩, .build (.createModel "B")]
    let after : State := run ⟨{}, {}⟩ (before ++ .save "acme" :: later)
    Tenant.isAccepted "acme" = true ∧ (∀ e ∈ later, e.tenant? ≠ some "acme") ∧
      after.archive.get? "acme" = some (Schema.mk [{ name := "A", fields := [x] }]).text ∧
      after.archive.tenants = ["acme", "b"] ∧ after.archive.get? "b" = some "three" ∧
      (Event.save "acme").tenant? = some "acme" ∧
      ((Event.save "acme").apply after).1 = some (.ok "acme") ∧
      Tenant.isAccepted "../b" = false ∧
      (Event.save "../b").apply after = (some (.error (.invalidTenant "../b")), after) := by
  intro x before later after
  have hAccepted : Tenant.isAccepted "acme" = true := by decide
  have hRefused : Tenant.isAccepted "../b" = false := by decide
  have hLater : ∀ e ∈ later, e.tenant? ≠ some "acme" := by simp [later, Event.tenant?]
  obtain ⟨-, -, hSaved⟩ := archive_keeps_last {} before
  obtain ⟨hKeeps, hAnswer, -⟩ := archive_keeps_last {} (before ++ .save "acme" :: later)
  refine ⟨hAccepted, hLater, hSaved "acme" later hAccepted hLater, hKeeps.tenants.trans ?_,
    (hKeeps.get? "b").trans ?_, rfl, (hAnswer (.save "acme") "acme" rfl).1 hAccepted, hRefused,
    (hAnswer (.save "../b") "../b" rfl).2 hRefused⟩
  · decide
  · decide

end History

end Datamodel
