import ContentApproval.Properties.Finality

/-!
# The trail

What the audit log and the outbox hold for each request (`Trail`). The tables are those of
a registry, so the entries and events of a request are those of its case
(`Represents.auditEntriesOf`, `Represents.eventsOf`), and there are no others.
-/

namespace ContentApproval

open Transactions ApprovalService

/-! ## Entries and events of one request -/

/-- The audit entries of a request. -/
def Store.auditEntriesOf (σ : Store) (ws id : String) : List AuditLogEntry :=
  σ.auditLogEntries.filter (fun e => e.workspaceId == ws && e.approvalRequestId == id)

/-- The outbox events of a request. -/
def Store.eventsOf (σ : Store) (ws id : String) : List OutboxEvent :=
  σ.outboxEvents.filter (fun o => o.workspaceId == ws && o.approvalRequestId == id)

/-- The audit entry of the create. -/
structure CreatedEntry (row : ApprovalRequestRow) (e : AuditLogEntry) : Prop where
  action : e.action.value = "created"
  actor : e.actorUserId = row.createdByUserId

/-- The event of the create, on the request with these reviewers. -/
structure CreatedEvent (row : ApprovalRequestRow) (reviewerUserIds : List String)
    (o : OutboxEvent) : Prop where
  eventType : o.eventType = "approval_request.created"
  payload : o.payload = .obj [("id", .str row.id), ("workspace_id", .str row.workspaceId),
    ("source_type", .str row.sourceType.value), ("source_id", .str row.sourceId),
    ("status", .str "pending"), ("reviewer_user_ids", .arr (reviewerUserIds.map .str))]

/-- The details are exactly the comment and the reason that are not null: null if neither is
there, and else an object with one field for each that is. -/
structure ExactDetails (comment reason : Option String) (details : Option Json) : Prop where
  absent : details = none ↔ comment = none ∧ reason = none
  fields : ∀ d ∈ details, ∃ fields : List (String × Json), d = .obj fields ∧
    (fields.map Prod.fst).Nodup ∧ ∀ name value, (name, value) ∈ fields ↔
      (name = "comment" ∧ ∃ c, comment = some c ∧ value = .str c) ∨
        (name = "reason" ∧ ∃ r, reason = some r ∧ value = .str r)

/-- The audit entry of the decision that made the row final. -/
structure DecisionEntry (row : ApprovalRequestRow) (e : AuditLogEntry) : Prop where
  action : e.action.value = row.status.value
  actor : row.decidedByUserId = some e.actorUserId
  details : ExactDetails row.decisionComment row.decisionReason e.details

/-- The event of the decision that made the row final. -/
structure DecisionEvent (row : ApprovalRequestRow) (o : OutboxEvent) : Prop where
  eventType : o.eventType = "approval_request." ++ row.status.value
  payload : ∃ actor, row.decidedByUserId = some actor ∧
    o.payload = .obj [("id", .str row.id), ("workspace_id", .str row.workspaceId),
      ("status", .str row.status.value), ("decided_by_user_id", .str actor)]

/-- The trail is complete and exact. -/
structure Trail (σ : Store) : Prop where
  /-- A pending request was created, and nothing else happened to it. -/
  pending : ∀ row ∈ σ.approvalRequests, row.status = .pending →
    ∃ e o, σ.auditEntriesOf row.workspaceId row.id = [e] ∧
      σ.eventsOf row.workspaceId row.id = [o] ∧ CreatedEntry row e ∧
        CreatedEvent row (σ.reviewerIds row.workspaceId row.id) o
  /-- A final request was created and decided. -/
  final : ∀ row ∈ σ.approvalRequests, row.status ≠ .pending →
    ∃ e o e' o', (σ.auditEntriesOf row.workspaceId row.id).Perm [e, e'] ∧
      (σ.eventsOf row.workspaceId row.id).Perm [o, o'] ∧ CreatedEntry row e ∧
        CreatedEvent row (σ.reviewerIds row.workspaceId row.id) o ∧ DecisionEntry row e' ∧
          DecisionEvent row o'
  /-- Every entry belongs to a request of its workspace. -/
  entries : ∀ e ∈ σ.auditLogEntries, ∃ row ∈ σ.approvalRequests,
    row.workspaceId = e.workspaceId ∧ row.id = e.approvalRequestId
  /-- Every event belongs to a request of its workspace. -/
  events : ∀ o ∈ σ.outboxEvents, ∃ row ∈ σ.approvalRequests,
    row.workspaceId = o.workspaceId ∧ row.id = o.approvalRequestId

/-! ## The trail of a case -/

section Case

variable (k : Case)

theorem Case.mem_auditEntries {k : Case} {e : AuditLogEntry} (h : e ∈ k.auditEntries) :
    e.workspaceId = k.workspaceId ∧ e.approvalRequestId = k.requestId := by
  rcases List.mem_cons.mp h with rfl | h
  · exact ⟨rfl, rfl⟩
  · obtain ⟨v, -, rfl⟩ := List.mem_map.mp h
    exact ⟨rfl, rfl⟩

theorem Case.mem_events {k : Case} {o : OutboxEvent} (h : o ∈ k.events) :
    o.workspaceId = k.workspaceId ∧ o.approvalRequestId = k.requestId := by
  rcases List.mem_cons.mp h with rfl | h
  · exact ⟨rfl, rfl⟩
  · obtain ⟨v, -, rfl⟩ := List.mem_map.mp h
    exact ⟨rfl, rfl⟩

theorem Case.createdEntry : CreatedEntry k.row k.creation.auditEntry :=
  ⟨rfl, k.row_createdByUserId.symm⟩

theorem Case.createdEvent : CreatedEvent k.row k.creation.payload.reviewerUserIds
    k.creation.event := by
  refine ⟨rfl, ?_⟩
  unfold Case.row
  split <;> rfl

/-- What `_decide` records are the exact details. -/
theorem exactDetails_decisionDetails (comment reason : Option String) :
    ExactDetails comment reason (decisionDetails comment reason) := by
  cases comment with
  | none =>
    cases reason with
    | none => exact ⟨by simp [decisionDetails], fun d hd => by cases hd⟩
    | some r =>
      refine ⟨by simp [decisionDetails], fun d hd => ⟨[("reason", .str r)], ?_, by simp, by simp⟩⟩
      exact (Option.some.inj hd).symm
  | some c =>
    cases reason with
    | none =>
      refine ⟨by simp [decisionDetails], fun d hd => ⟨[("comment", .str c)], ?_, by simp, by simp⟩⟩
      exact (Option.some.inj hd).symm
    | some r =>
      refine ⟨by simp [decisionDetails],
        fun d hd => ⟨[("comment", .str c), ("reason", .str r)], ?_, by simp, by simp⟩⟩
      exact (Option.some.inj hd).symm

theorem Decision.auditAction_value (d : Decision) : d.auditAction.value = d.newStatus.value := by
  cases d <;> rfl

theorem Decision.eventType_value (d : Decision) :
    d.eventType.value = "approval_request." ++ d.newStatus.value := by
  cases d <;> decide

variable {k} {v : Verdict}

theorem Case.decisionEntry (h : k.verdict = some v) :
    DecisionEntry k.row (v.auditEntry k.workspaceId k.requestId) := by
  rw [Case.row_settled h]
  exact ⟨v.decision.auditAction_value, rfl, exactDetails_decisionDetails v.comment v.reason⟩

theorem Case.decisionEvent (h : k.verdict = some v) :
    DecisionEvent k.row (v.event k.workspaceId k.requestId) := by
  rw [Case.row_settled h]
  exact ⟨v.decision.eventType_value, v.actorUserId, rfl, rfl⟩

end Case

/-! ## The trail of a registry -/

namespace Represents

variable {cases : Registry} {σ : Store}

/-- The rows that name a request by workspace and id are those of its case. -/
theorem filter_rows {β : Type} {rows : Case → List β} {ws id : β → String}
    (htag : ∀ k : Case, ∀ b ∈ rows k, ws b = k.workspaceId ∧ id b = k.requestId)
    (h : Represents cases σ) {k : Case} (hk : k ∈ cases) {table : List β}
    (htable : table.Perm (cases.flatMap rows)) :
    (table.filter (fun b => ws b == k.workspaceId && id b == k.requestId)).Perm (rows k) := by
  have hself := filter_flatMap_self (fun a b hb => (htag a b hb).2) h.ids hk
  refine (htable.filter _).trans (.of_eq ?_)
  rw [← hself]
  refine List.filter_congr fun b hb => ?_
  obtain ⟨k', hk', hb⟩ := List.mem_flatMap.mp hb
  obtain ⟨hws, hid⟩ := htag k' b hb
  rw [hws, hid]
  by_cases hsame : k'.requestId = k.requestId
  · obtain rfl := h.eq_of_id hk' hk hsame
    simp
  · simp [hsame]

theorem auditEntriesOf (h : Represents cases σ) {k : Case} (hk : k ∈ cases) :
    (σ.auditEntriesOf k.workspaceId k.requestId).Perm k.auditEntries :=
  h.filter_rows (fun _ _ he => Case.mem_auditEntries he) hk h.auditEntries

theorem eventsOf (h : Represents cases σ) {k : Case} (hk : k ∈ cases) :
    (σ.eventsOf k.workspaceId k.requestId).Perm k.events :=
  h.filter_rows (fun _ _ ho => Case.mem_events ho) hk h.events

/-- The trail of the tables of a registry. -/
theorem trail (h : Represents cases σ) : Trail σ where
  pending row hrow hp := by
    rw [h.requests] at hrow
    obtain ⟨k, hk, rfl⟩ := List.mem_map.mp hrow
    have hnone := k.status_pending.mp hp
    have hentries := h.auditEntriesOf hk
    have hevents := h.eventsOf hk
    simp only [Case.auditEntries, Case.events, hnone, Option.toList_none, List.map_nil,
      List.perm_singleton] at hentries hevents
    rw [k.row_workspaceId, k.row_id, Store.reviewerIds, h.reviewerIds_eq hk]
    exact ⟨_, _, hentries, hevents, k.createdEntry, k.createdEvent⟩
  final row hrow hfinal := by
    rw [h.requests] at hrow
    obtain ⟨k, hk, rfl⟩ := List.mem_map.mp hrow
    obtain ⟨v, hv⟩ := Option.ne_none_iff_exists'.mp (fun hnone => hfinal (k.status_pending.mpr hnone))
    have hentries := h.auditEntriesOf hk
    have hevents := h.eventsOf hk
    simp only [Case.auditEntries, Case.events, hv, Option.toList_some, List.map_cons,
      List.map_nil] at hentries hevents
    rw [k.row_workspaceId, k.row_id, Store.reviewerIds, h.reviewerIds_eq hk]
    exact ⟨_, _, _, _, hentries, hevents, k.createdEntry, k.createdEvent, Case.decisionEntry hv,
      Case.decisionEvent hv⟩
  entries e he := by
    obtain ⟨k, hk, he⟩ := List.mem_flatMap.mp (h.auditEntries.mem_iff.mp he)
    obtain ⟨hws, hid⟩ := Case.mem_auditEntries he
    refine ⟨k.row, by rw [h.requests]; exact List.mem_map_of_mem hk, ?_, ?_⟩
    · rw [hws, k.row_workspaceId]
    · rw [hid, k.row_id]
  events o ho := by
    obtain ⟨k, hk, ho⟩ := List.mem_flatMap.mp (h.events.mem_iff.mp ho)
    obtain ⟨hws, hid⟩ := Case.mem_events ho
    refine ⟨k.row, by rw [h.requests]; exact List.mem_map_of_mem hk, ?_, ?_⟩
    · rw [hws, k.row_workspaceId]
    · rw [hid, k.row_id]

end Represents

/-- **The trail is complete and exact** in every store that a run of any calls reaches. -/
theorem trail_complete_and_exact {ι : Type} [DecidableEq ι] {app : App} {call : ι → Call}
    {w : ApiWorld ι} {ls : List (ι × Transactions.Action)}
    (h : Run approvalDb (ApiWorld.start app call Store.empty) ls w) : Trail w.store := by
  obtain ⟨cases, hrep⟩ := (ApiWorld.sound ⟨[], represents_empty⟩ h).inv
  exact hrep.trail

theorem trail_complete_and_exact_sample : ∃ ls w,
    Run approvalDb (ApiWorld.start Sample.app Sample.calls Store.empty) ls w ∧
      w.store.approvalRequests.map ApprovalRequestRow.status = [.approved] ∧ Trail w.store := by
  obtain ⟨ls, w, h, hstore, -⟩ := Run.serveAll
    approvalDb (fun i => request Sample.app (Sample.calls i)) [0, 1] (by decide)
    (w := ApiWorld.start Sample.app Sample.calls Store.empty) (fun _ => rfl) (fun _ _ => rfl)
  refine ⟨ls, w, h, ?_, trail_complete_and_exact h⟩
  rw [hstore]
  decide +kernel

end ContentApproval
