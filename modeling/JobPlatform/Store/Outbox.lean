import JobPlatform.Store.Runs

/-!
Contract: jobs, outbox events and creation audits come in threes.

Owns:
- `Aligned`: the tables list the same jobs in the same order, and the customers their audits;
- its preservation by every repository call, and the bijections it gives;
- `Written`: every event is as `create_job` wrote it, but for its publication;
- `SameMembers`: what a call that creates nothing leaves alone.
-/

namespace JobPlatform.Store

open JobPlatform.Foundation
open Repository

/-- `payload["job_id"]` of an outbox event. -/
def OutboxRow.jobId? (event : OutboxRow) : Option Json :=
  match event.payload with
  | .obj fields => Json.field? "job_id" fields
  | _ => none

/-- The audit event of a created job. -/
def AuditEventRow.IsJobCreated (audit : AuditEventRow) : Prop :=
  audit.entityType = "job" ∧ audit.action = "created"

/-- The audit event of a created customer. -/
def AuditEventRow.IsCustomerCreated (audit : AuditEventRow) : Prop :=
  audit.entityType = "customer" ∧ audit.action = "created"

instance (audit : AuditEventRow) : Decidable audit.IsJobCreated :=
  inferInstanceAs (Decidable (_ ∧ _))

instance (audit : AuditEventRow) : Decidable audit.IsCustomerCreated :=
  inferInstanceAs (Decidable (_ ∧ _))

/-- The event names the job. -/
def OutboxRow.Names (event : OutboxRow) (jobId : Uuid) : Prop :=
  event.jobId? = some (.str jobId.str)

theorem OutboxRow.Names.unique {event : OutboxRow} {left right : Uuid} (one : event.Names left)
    (other : event.Names right) : left = right := by
  unfold Names at one other
  rw [one] at other
  injection other with same
  injection same with same
  exact Uuid.str_injective same

/-- The event of a new job names it. -/
theorem newEvent_names (jobId : Uuid) (correlationId : Option String) (eventId : Uuid)
    (now : Time) : (newEvent jobId correlationId eventId now).Names jobId := by
  unfold OutboxRow.Names OutboxRow.jobId? newEvent outboxPayload
  cases correlationId with
  | none => rfl
  | some text =>
      by_cases present : text ≠ ""
      · simp [present, Json.field?]
      · simp [present, Json.field?]

/-- Events and audits list the jobs in order, and the other audits the customers. -/
structure Database.Aligned (db : Database) : Prop where
  events : db.jobOutbox.rows.map OutboxRow.jobId? =
    db.jobs.rows.map fun job => some (.str job.id.str)
  audits : (db.auditEvents.rows.filter (decide ·.IsJobCreated)).map AuditEventRow.entityId =
    db.jobs.rows.map JobRow.id
  customers :
    (db.auditEvents.rows.filter (decide ·.IsCustomerCreated)).map AuditEventRow.entityId =
      db.customers.rows.map CustomerRow.id

theorem Database.aligned_empty : Database.empty.Aligned := ⟨rfl, rfl, rfl⟩

/-- What a call that creates nothing leaves alone. -/
structure SameMembers (before after : Database) : Prop where
  customers : after.customers = before.customers
  jobs : after.jobs.rows.map JobRow.id = before.jobs.rows.map JobRow.id
  events : after.jobOutbox.rows.map (fun event => (event.id, event.payload)) =
    before.jobOutbox.rows.map fun event => (event.id, event.payload)
  jobAudits : after.auditEvents.rows.filter (decide ·.IsJobCreated) =
    before.auditEvents.rows.filter (decide ·.IsJobCreated)
  customerAudits : after.auditEvents.rows.filter (decide ·.IsCustomerCreated) =
    before.auditEvents.rows.filter (decide ·.IsCustomerCreated)

theorem SameMembers.refl (db : Database) : SameMembers db db := ⟨rfl, rfl, rfl, rfl, rfl⟩

/-- The call is `create_customer` or `create_job`. -/
def RepoCall.Creates : RepoCall → Prop
  | .createCustomer .. => True
  | .createJob .. => True
  | _ => False

theorem sameMembers_of_jobUpdate {db after : Database} {jobId : Uuid} {clause : JobRow → Truth}
    {set : JobRow → JobRow} {fixed : ∀ row, (set row).id = row.id} {row : Option JobRow}
    (update : JobUpdate db jobId clause set fixed row after) : SameMembers db after := by
  cases update with
  | hit => exact ⟨rfl, Database.map_setJob fixed, rfl, rfl, rfl⟩
  | miss => exact .refl db

theorem sameMembers_of_eventUpdate {db after : Database} {eventId : Uuid}
    {clause : OutboxRow → Truth} {set : OutboxRow → OutboxRow}
    {fixed : ∀ row, (set row).id = row.id} {row : Option OutboxRow}
    (update : EventUpdate db eventId clause set fixed row after)
    (kept : ∀ row, (set row).payload = row.payload) : SameMembers db after := by
  cases update with
  | hit =>
      refine ⟨rfl, rfl, Database.map_setEvents fun row => ?_, rfl, rfl⟩
      rw [fixed, kept]
  | miss => exact .refl db

/-- No worker operation adds or removes a member. -/
theorem sameMembers_of_effect {inputs : Inputs} {db after : Database} {call : RepoCall}
    {value : call.Result} (effect : Effect inputs db call value after) (other : ¬ call.Creates) :
    SameMembers db after := by
  cases effect with
  | customerCreated => exact absurd trivial other
  | jobCreated => exact absurd trivial other
  | eventsClaimed => exact ⟨rfl, rfl, Database.map_setEvents fun _ => rfl, rfl, rfl⟩
  | eventPublished _ update => exact sameMembers_of_eventUpdate update fun _ => rfl
  | eventFailed _ update => exact sameMembers_of_eventUpdate update fun _ => rfl
  | jobRead => exact .refl db
  | jobClaimed _ update => exact sameMembers_of_jobUpdate update
  | leaseRenewed _ update => exact sameMembers_of_jobUpdate update
  | jobCompleted found holds completion =>
      have audits := Table.rows_of_insert? completion.audited
      refine ⟨completion.customers, ?_, by rw [completion.jobOutbox], ?_, ?_⟩
      · rw [completion.jobs]
        exact Database.map_setJob fun _ => rfl
      · rw [audits, List.filter_append]
        simp [AuditEventRow.IsJobCreated]
      · rw [audits, List.filter_append]
        simp [AuditEventRow.IsCustomerCreated]
  | jobFailed _ update => exact sameMembers_of_jobUpdate update

/-- Alignment looks only at the members. -/
theorem Database.Aligned.congr {db after : Database} (aligned : db.Aligned)
    (same : SameMembers db after) : after.Aligned := by
  have eventJobs : after.jobOutbox.rows.map OutboxRow.jobId? =
      db.jobOutbox.rows.map OutboxRow.jobId? := by
    have mapped := congrArg (List.map fun entry : Uuid × Json =>
      match entry.2 with
      | .obj fields => Json.field? "job_id" fields
      | _ => none) same.events
    rw [List.map_map, List.map_map] at mapped
    exact mapped
  have jobIds : after.jobs.rows.map (fun job => some (Json.str job.id.str)) =
      db.jobs.rows.map fun job => some (.str job.id.str) := by
    have mapped := congrArg (List.map fun id : Uuid => some (Json.str id.str)) same.jobs
    rw [List.map_map, List.map_map] at mapped
    exact mapped
  constructor
  · rw [eventJobs, jobIds]
    exact aligned.events
  · rw [same.jobAudits, same.jobs]
    exact aligned.audits
  · rw [same.customerAudits, same.customers]
    exact aligned.customers

/-- Every repository call keeps the alignment. -/
theorem Database.Aligned.effect {inputs : Inputs} {db after : Database} {call : RepoCall}
    {value : call.Result} (aligned : db.Aligned) (effect : Effect inputs db call value after) :
    after.Aligned := by
  by_cases other : call.Creates
  · cases effect with
    | customerCreated inserted audited =>
        constructor
        · exact aligned.events
        · rw [Table.rows_of_insert? audited, List.filter_append]
          simp [AuditEventRow.IsJobCreated, ← aligned.audits]
        · rw [Table.rows_of_insert? audited, Table.rows_of_insert? inserted, List.filter_append]
          simp [AuditEventRow.IsCustomerCreated, ← aligned.customers]
    | jobCreated inserted queued audited =>
        constructor
        · rw [Table.rows_of_insert? queued, Table.rows_of_insert? inserted, List.map_append,
            List.map_append, aligned.events, List.map_singleton, newEvent_names]
          rfl
        · rw [Table.rows_of_insert? audited, Table.rows_of_insert? inserted, List.filter_append]
          simp [AuditEventRow.IsJobCreated, ← aligned.audits, newJob]
        · rw [Table.rows_of_insert? audited, List.filter_append]
          simp [AuditEventRow.IsCustomerCreated, ← aligned.customers]
    | _ => exact other.elim
  · exact aligned.congr (sameMembers_of_effect effect other)

/-! ### The written events -/

/-- The event has the type, the version and the payload that `create_job` writes. -/
structure OutboxRow.Written (event : OutboxRow) : Prop where
  eventType : event.eventType = "job.created"
  version : event.version = 1
  payload : ∃ jobId correlationId, event.payload = outboxPayload jobId correlationId

/-- Every event is as it was written. -/
def Database.Written (db : Database) : Prop := ∀ event ∈ db.jobOutbox.rows, event.Written

theorem newEvent_written (jobId : Uuid) (correlationId : Option String) (eventId : Uuid)
    (now : Time) : (newEvent jobId correlationId eventId now).Written :=
  ⟨rfl, rfl, jobId, correlationId, rfl⟩

theorem Database.written_empty : Database.empty.Written := by
  intro event member
  cases member

theorem written_of_eventChange {inputs : Inputs} {eventId : Uuid} {call : RepoCall}
    {value : call.Result} {before after : Option OutboxRow}
    (change : EventChange inputs eventId call value before after)
    (kept : ∀ event, before = some event → event.Written) :
    ∀ event, after = some event → event.Written := by
  intro event isEvent
  cases change with
  | same => exact kept event isEvent
  | created =>
      cases isEvent
      exact newEvent_written _ _ _ _
  | claimed =>
      cases isEvent
      have written := kept _ rfl
      exact ⟨written.eventType, written.version, written.payload⟩
  | published =>
      cases isEvent
      have written := kept _ rfl
      exact ⟨written.eventType, written.version, written.payload⟩
  | failed =>
      cases isEvent
      have written := kept _ rfl
      exact ⟨written.eventType, written.version, written.payload⟩

/-- Every repository call keeps what is written of the events. -/
theorem Database.Written.effect {inputs : Inputs} {db after : Database} {call : RepoCall}
    {value : call.Result} (written : db.Written) (effect : Effect inputs db call value after) :
    after.Written := by
  intro event member
  refine written_of_eventChange (eventChange_of_effect effect event.id) ?_ event
    (Database.event?_eq_some.mpr ⟨member, rfl⟩)
  intro old found
  exact written old (Database.event?_eq_some.mp found).1

/-! ### The bijections -/

/-- Lists with equal, distinct keys match one to one. -/
theorem existsUnique_of_map_eq {α β κ : Type} {left : List α} {right : List β} {f : α → κ}
    {g : β → κ} (same : left.map f = right.map g) (distinct : (right.map g).Nodup) :
    (∀ b ∈ right, ∃! a, a ∈ left ∧ f a = g b) ∧ ∀ a ∈ left, ∃! b, b ∈ right ∧ f a = g b := by
  constructor
  · intro b member
    obtain ⟨a, inLeft, isKey⟩ := List.mem_map.mp (same ▸ List.mem_map_of_mem member)
    refine ⟨a, ⟨inLeft, isKey⟩, ?_⟩
    rintro other ⟨otherIn, otherKey⟩
    exact List.inj_on_of_nodup_map (same ▸ distinct) otherIn inLeft (otherKey.trans isKey.symm)
  · intro a member
    obtain ⟨b, inRight, isKey⟩ := List.mem_map.mp (same ▸ List.mem_map_of_mem member)
    refine ⟨b, ⟨inRight, isKey.symm⟩, ?_⟩
    rintro other ⟨otherIn, otherKey⟩
    exact List.inj_on_of_nodup_map distinct otherIn inRight (otherKey.symm.trans isKey.symm)

theorem nodup_jobIds (db : Database) : (db.jobs.rows.map JobRow.id).Nodup := by
  refine List.pairwise_map.mpr (db.jobs.unique.imp ?_)
  intro left right apart same
  exact apart same

theorem nodup_emails (db : Database) : (db.customers.rows.map CustomerRow.email).Nodup := by
  refine List.pairwise_map.mpr (db.customers.unique.imp ?_)
  intro left right apart same
  exact apart (.inr same)

theorem nodup_customerIds (db : Database) : (db.customers.rows.map CustomerRow.id).Nodup := by
  refine List.pairwise_map.mpr (db.customers.unique.imp ?_)
  intro left right apart same
  exact apart (.inl same)

/-- Jobs, outbox events and job-created audits correspond one to one, the event's `job_id` being
the job's id; emails are unique; customers and their audits correspond one to one. -/
structure Database.Bijection (db : Database) : Prop where
  eventOfJob : ∀ job ∈ db.jobs.rows, ∃! event, event ∈ db.jobOutbox.rows ∧ event.Names job.id
  jobOfEvent : ∀ event ∈ db.jobOutbox.rows, ∃! job, job ∈ db.jobs.rows ∧ event.Names job.id
  auditOfJob : ∀ job ∈ db.jobs.rows,
    ∃! audit, audit ∈ db.auditEvents.rows.filter (decide ·.IsJobCreated) ∧ audit.entityId = job.id
  jobOfAudit : ∀ audit ∈ db.auditEvents.rows.filter (decide ·.IsJobCreated),
    ∃! job, job ∈ db.jobs.rows ∧ audit.entityId = job.id
  emails : (db.customers.rows.map CustomerRow.email).Nodup
  auditOfCustomer : ∀ customer ∈ db.customers.rows,
    ∃! audit, audit ∈ db.auditEvents.rows.filter (decide ·.IsCustomerCreated) ∧
      audit.entityId = customer.id
  customerOfAudit : ∀ audit ∈ db.auditEvents.rows.filter (decide ·.IsCustomerCreated),
    ∃! customer, customer ∈ db.customers.rows ∧ audit.entityId = customer.id

theorem Database.Aligned.bijection {db : Database} (aligned : db.Aligned) : db.Bijection := by
  have distinct : (db.jobs.rows.map fun job => some (Json.str job.id.str)).Nodup := by
    have injective : Function.Injective fun id : Uuid => some (Json.str id.str) := by
      intro left right same
      injection same with same
      injection same with same
      exact Uuid.str_injective same
    have mapped := (nodup_jobIds db).map injective
    rwa [List.map_map] at mapped
  obtain ⟨eventOfJob, jobOfEvent⟩ := existsUnique_of_map_eq aligned.events distinct
  obtain ⟨auditOfJob, jobOfAudit⟩ := existsUnique_of_map_eq aligned.audits (nodup_jobIds db)
  obtain ⟨auditOfCustomer, customerOfAudit⟩ :=
    existsUnique_of_map_eq aligned.customers (nodup_customerIds db)
  exact ⟨eventOfJob, jobOfEvent, auditOfJob, jobOfAudit, nodup_emails db, auditOfCustomer,
    customerOfAudit⟩

/-- The event of a job in an aligned database. -/
theorem Database.Aligned.event_of_job {db : Database} (aligned : db.Aligned) {job : JobRow}
    (member : job ∈ db.jobs.rows) : ∃ event ∈ db.jobOutbox.rows, event.Names job.id :=
  (aligned.bijection.eventOfJob job member).exists

end JobPlatform.Store
