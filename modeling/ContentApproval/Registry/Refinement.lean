import ContentApproval.Registry.Cases
import ContentApproval.Transactions.RelyGuarantee

/-!
# The store refines the registry

`Represents`: the five tables hold the rows of the cases of a registry and nothing else.
`Commits`: the writes that a transaction of the service may commit. Each such commit is
one step of the registry (`Represents.commit`), so the tables of a store that was built
up by such commits are those of a registry (`approvalDiscipline`).
-/

namespace ContentApproval

open Transactions

/-! ## Lists of rows with distinct keys -/

section Keyed

variable {α β κ : Type} [DecidableEq κ] {key : α → κ} {tag : β → κ} {rows : α → List β}

theorem filter_rows_self (htag : ∀ a, ∀ b ∈ rows a, tag b = key a) (a : α) :
    (rows a).filter (fun b => tag b == key a) = rows a :=
  List.filter_eq_self.mpr fun b hb => by simp [htag a b hb]

theorem filter_flatMap_ne (htag : ∀ a, ∀ b ∈ rows a, tag b = key a) {k : κ} {l : List α}
    (h : k ∉ l.map key) : (l.flatMap rows).filter (fun b => tag b == k) = [] := by
  refine List.filter_eq_nil_iff.mpr fun b hb => ?_
  obtain ⟨a, ha, hb⟩ := List.mem_flatMap.mp hb
  simp only [htag a b hb, beq_iff_eq]
  rintro rfl
  exact h (List.mem_map_of_mem ha)

/-- The rows with the key of `a` are the rows of `a`. -/
theorem filter_flatMap_self (htag : ∀ a, ∀ b ∈ rows a, tag b = key a) {l : List α}
    (hl : (l.map key).Nodup) {a : α} (ha : a ∈ l) :
    (l.flatMap rows).filter (fun b => tag b == key a) = rows a := by
  obtain ⟨before, after, rfl⟩ := List.append_of_mem ha
  simp only [List.map_append, List.map_cons, List.nodup_append, List.nodup_cons,
    List.mem_cons] at hl
  obtain ⟨-, ⟨hafter, -⟩, hdisj⟩ := hl
  have hbefore : key a ∉ before.map key := fun h => hdisj _ h _ (Or.inl rfl) rfl
  rw [List.flatMap_append, List.flatMap_cons, List.filter_append, List.filter_append,
    filter_flatMap_ne htag hbefore, filter_flatMap_ne htag hafter, filter_rows_self htag]
  simp

end Keyed

/-! ## Inserting many rows -/

namespace NewRow

def approvalRequest? : NewRow → Option ApprovalRequestRow
  | approvalRequest row => some row
  | _ => none

def reviewer? : NewRow → Option ApprovalRequestReviewer
  | reviewer row => some row
  | _ => none

def auditLogEntry? : NewRow → Option AuditLogEntry
  | auditLogEntry row => some row
  | _ => none

def outboxEvent? : NewRow → Option OutboxEvent
  | outboxEvent row => some row
  | _ => none

def idempotencyKey? : NewRow → Option IdempotencyKey
  | idempotencyKey row => some row
  | _ => none

end NewRow

/-- The store with more rows. -/
def Store.insertAll (σ : Store) (rows : List NewRow) : Store where
  approvalRequests := σ.approvalRequests ++ rows.filterMap NewRow.approvalRequest?
  approvalRequestReviewers := σ.approvalRequestReviewers ++ rows.filterMap NewRow.reviewer?
  auditLogEntries := σ.auditLogEntries ++ rows.filterMap NewRow.auditLogEntry?
  outboxEvents := σ.outboxEvents ++ rows.filterMap NewRow.outboxEvent?
  idempotencyKeys := σ.idempotencyKeys ++ rows.filterMap NewRow.idempotencyKey?

theorem view_inserts (σ : Store) (rows : List NewRow) :
    approvalDb.view σ (rows.map .insert) = σ.insertAll rows := by
  induction rows generalizing σ with
  | nil => simp [Store.insertAll]
  | cons row rows ih =>
    rw [List.map_cons, Database.view_cons, ih]
    cases row <;> simp [approvalDb, Store.apply, Store.insert, Store.insertAll,
      List.filterMap_cons, NewRow.approvalRequest?, NewRow.reviewer?, NewRow.auditLogEntry?,
      NewRow.outboxEvent?, NewRow.idempotencyKey?]

/-! ## The tables of a registry -/

def IdempotencyKey.primaryKey (r : IdempotencyKey) : String × String × String :=
  (r.workspaceId, r.route, r.idempotencyKey)

/-- The tables hold the rows of the cases and nothing else. -/
structure Represents (cases : Registry) (σ : Store) : Prop where
  requests : σ.approvalRequests = cases.map Case.row
  reviewers : σ.approvalRequestReviewers = cases.flatMap (fun k => k.creation.reviewerRows)
  auditEntries : σ.auditLogEntries.Perm (cases.flatMap Case.auditEntries)
  events : σ.outboxEvents.Perm (cases.flatMap Case.events)
  ledger : σ.idempotencyKeys.Perm (cases.flatMap Case.ledgerRows)
  ids : (cases.map Case.requestId).Nodup
  keys : (σ.idempotencyKeys.map IdempotencyKey.primaryKey).Nodup

theorem represents_empty : Represents [] Store.empty := by
  constructor <;> simp [Store.empty]

namespace Represents

variable {cases : Registry} {σ : Store}

theorem eq_of_id (h : Represents cases σ) {k k' : Case} (hk : k ∈ cases) (hk' : k' ∈ cases)
    (hid : k.requestId = k'.requestId) : k = k' :=
  List.inj_on_of_nodup_map h.ids hk hk' hid

/-- The request that `(workspace_id, id)` names is the row of a case. -/
theorem request?_eq_some (h : Represents cases σ) {ws id : String} {r : ApprovalRequestRow} :
    σ.request? ws id = some r ↔
      ∃ k ∈ cases, k.workspaceId = ws ∧ k.requestId = id ∧ k.row = r := by
  constructor
  · intro hr
    obtain ⟨hmem, hws, hid⟩ := Store.request?_some hr
    rw [h.requests] at hmem
    obtain ⟨k, hk, rfl⟩ := List.mem_map.mp hmem
    exact ⟨k, hk, by simpa using hws, by simpa using hid, rfl⟩
  · rintro ⟨k, hk, rfl, rfl, rfl⟩
    cases hfind : σ.request? k.workspaceId k.requestId with
    | none =>
      rw [Store.request?, List.find?_eq_none, h.requests] at hfind
      simpa using hfind _ (List.mem_map_of_mem hk)
    | some r =>
      obtain ⟨hmem, -, hid⟩ := Store.request?_some hfind
      rw [h.requests] at hmem
      obtain ⟨k', hk', rfl⟩ := List.mem_map.mp hmem
      rw [h.eq_of_id hk' hk (by simpa using hid)]

theorem reviewersOf_eq (h : Represents cases σ) {k : Case} (hk : k ∈ cases) :
    σ.reviewersOf k.workspaceId k.requestId = k.creation.reviewerRows := by
  have htag : ∀ a : Case, ∀ b ∈ a.creation.reviewerRows, b.approvalRequestId = a.requestId := by
    intro a b hb
    obtain ⟨_, _, rfl⟩ := List.mem_map.mp hb
    rfl
  have hself := filter_flatMap_self htag h.ids hk
  rw [Store.reviewersOf, h.reviewers]
  conv_rhs => rw [← hself]
  refine List.filter_congr fun r hr => ?_
  obtain ⟨k', hk', hr⟩ := List.mem_flatMap.mp hr
  obtain ⟨_, _, rfl⟩ := List.mem_map.mp hr
  by_cases hid : k'.requestId = k.requestId
  · obtain rfl := h.eq_of_id hk' hk hid
    simp [Case.workspaceId, Case.requestId]
  · have : (k'.creation.requestId == k.requestId) = false := by
      simpa [Case.requestId] using hid
    simp [this]

theorem reviewerIds_eq (h : Represents cases σ) {k : Case} (hk : k ∈ cases) :
    (σ.reviewersOf k.workspaceId k.requestId).map ApprovalRequestReviewer.reviewerUserId =
      k.creation.payload.reviewerUserIds := by
  rw [h.reviewersOf_eq hk, Creation.reviewerRows, List.map_map]
  exact List.map_id _

end Represents

/-! ## Commits -/

/-- The writes that a transaction of the service may commit on a store. -/
inductive Commits (σ : Store) : List Write → Prop
  | quiet : Commits σ []
  | creation (c : Creation) : Commits σ c.writes
  | verdict {ws id : String} {row : ApprovalRequestRow} (v : Verdict)
    (hrow : σ.request? ws id = some row)
    (entitled : v.decision.Entitled row.createdByUserId
      ((σ.reviewersOf ws id).map ApprovalRequestReviewer.reviewerUserId) v.actorUserId)
    (shown : v.shown.Perm
      ((σ.reviewersOf ws id).map ApprovalRequestReviewer.reviewerUserId)) :
    Commits σ (v.writes ws id row)

theorem Creation.view_writes (c : Creation) (σ : Store) :
    approvalDb.view σ c.writes =
      ⟨σ.approvalRequests ++ [c.row], σ.approvalRequestReviewers ++ c.reviewerRows,
        σ.auditLogEntries ++ [c.auditEntry], σ.outboxEvents ++ [c.event],
        σ.idempotencyKeys ++ [c.ledgerRow]⟩ := by
  rw [Creation.writes, view_inserts]
  simp [Store.insertAll, Creation.newRows, List.filterMap_cons, NewRow.approvalRequest?,
    NewRow.reviewer?, NewRow.auditLogEntry?, NewRow.outboxEvent?, NewRow.idempotencyKey?,
    List.filterMap_map, Function.comp_def]

theorem Verdict.view_writes (v : Verdict) (ws id : String) (row : ApprovalRequestRow) (σ : Store) :
    approvalDb.view σ (v.writes ws id row) =
      ⟨(σ.update ws id v.values).approvalRequests, σ.approvalRequestReviewers,
        σ.auditLogEntries ++ [v.auditEntry ws id], σ.outboxEvents ++ [v.event ws id],
        σ.idempotencyKeys ++ (v.ledgerRow? ws id row).toList⟩ := by
  have hledger : ((v.ledgerRow? ws id row).toList.map NewRow.idempotencyKey).filterMap
      NewRow.idempotencyKey? = (v.ledgerRow? ws id row).toList := by
    rw [List.filterMap_map]
    exact List.filterMap_some
  have hother : ∀ {β : Type} (f : NewRow → Option β), (∀ r, f (.idempotencyKey r) = none) →
      ((v.ledgerRow? ws id row).toList.map NewRow.idempotencyKey).filterMap f = [] := by
    intro β f hf
    simp [List.filterMap_map, hf]
  rw [Verdict.writes, Database.view_cons, view_inserts]
  simp only [Store.insertAll, Verdict.newRows, List.filterMap_cons, hledger,
    NewRow.approvalRequest?, NewRow.reviewer?, NewRow.auditLogEntry?, NewRow.outboxEvent?,
    hother NewRow.approvalRequest? (fun _ => rfl), hother NewRow.reviewer? (fun _ => rfl),
    hother NewRow.auditLogEntry? (fun _ => rfl), hother NewRow.outboxEvent? (fun _ => rfl),
    NewRow.idempotencyKey?, List.append_nil]
  rfl

/-- A fresh ledger key keeps the keys of the ledger distinct. -/
theorem keys_nodup_append {σ : Store} {r : IdempotencyKey}
    (hσ : (σ.idempotencyKeys.map IdempotencyKey.primaryKey).Nodup)
    (hr : σ.has (NewRow.idempotencyKey r).primaryKey = false) :
    ((σ.idempotencyKeys ++ [r]).map IdempotencyKey.primaryKey).Nodup := by
  rw [List.map_append, List.nodup_append]
  refine ⟨hσ, by simp, ?_⟩
  intro a ha b hb hab
  obtain ⟨r', hr', rfl⟩ := List.mem_map.mp ha
  obtain rfl : b = r.primaryKey := by simpa using hb
  simp only [NewRow.primaryKey, Store.has, List.any_eq_false] at hr
  simp only [IdempotencyKey.primaryKey, Prod.mk.injEq] at hab
  exact hr r' hr' (by simp [hab])

/-- A case that is pending in the store is only filed. -/
theorem Represents.pending_case {cases : Registry} {σ : Store} (h : Represents cases σ)
    {ws id : String} {row : ApprovalRequestRow} (hrow : σ.request? ws id = some row)
    (hpending : ∃ r ∈ σ.approvalRequests, r.workspaceId = ws ∧ r.id = id ∧ r.status = .pending) :
    ∃ c : Creation, Case.filed c ∈ cases ∧ c.workspaceId = ws ∧ c.requestId = id ∧
      c.row = row := by
  obtain ⟨k, hk, rfl, rfl, rfl⟩ := h.request?_eq_some.mp hrow
  obtain ⟨r, hr, -, hid, hp⟩ := hpending
  rw [h.requests] at hr
  obtain ⟨k', hk', rfl⟩ := List.mem_map.mp hr
  obtain rfl := h.eq_of_id hk' hk (by simpa using hid)
  rw [Case.status_pending] at hp
  have hfiled := Case.eq_filed hp
  refine ⟨k'.creation, hfiled ▸ hk', rfl, rfl, ?_⟩
  unfold Case.row
  rw [hp]

/-- The tables after a creation with a new id and a new key. -/
theorem Represents.file {cases : Registry} {σ : Store} (h : Represents cases σ) {c : Creation}
    (hid : σ.has (NewRow.approvalRequest c.row).primaryKey = false)
    (hkey : σ.has (NewRow.idempotencyKey c.ledgerRow).primaryKey = false) :
    Represents (cases ++ [Case.filed c]) (approvalDb.view σ c.writes) := by
  rw [c.view_writes]
  constructor
  · simp [h.requests, Case.filed, Case.row]
  · simp [h.reviewers, Case.filed]
  · simpa [Case.filed, Case.auditEntries] using h.auditEntries.append_right _
  · simpa [Case.filed, Case.events] using h.events.append_right _
  · simpa [Case.filed, Case.ledgerRows] using h.ledger.append_right _
  · rw [List.map_append, List.nodup_append]
    refine ⟨h.ids, by simp, ?_⟩
    rintro a ha b hb rfl
    obtain ⟨k, hk, rfl⟩ := List.mem_map.mp ha
    simp only [List.map_cons, List.map_nil, List.mem_singleton] at hb
    simp only [NewRow.primaryKey, Store.has, List.any_eq_false, h.requests, List.mem_map] at hid
    have hne : k.row.id ≠ c.row.id := by simpa using hid _ ⟨k, hk, rfl⟩
    exact hne (by rw [Case.row_id]; exact hb)
  · exact keys_nodup_append h.keys hkey

/-- The tables after a verdict whose key, if it has one, is new. -/
theorem Represents.settle {before after : Registry} {σ : Store} {c : Creation} {v : Verdict}
    (h : Represents (before ++ Case.filed c :: after) σ)
    (entitled : v.decision.Entitled c.actorUserId c.payload.reviewerUserIds v.actorUserId)
    (shown : v.shown.Perm c.payload.reviewerUserIds)
    (hkey : ∀ r ∈ v.ledgerRow? c.workspaceId c.requestId c.row,
      σ.has (NewRow.idempotencyKey r).primaryKey = false) :
    Represents (before ++ Case.settled c v entitled shown :: after)
      (approvalDb.view σ (v.writes c.workspaceId c.requestId c.row)) := by
  have hids := h.ids
  simp only [List.map_append, List.map_cons, List.nodup_append, List.nodup_cons,
    List.mem_cons] at hids
  obtain ⟨-, ⟨hafter, -⟩, hdisj⟩ := hids
  rw [v.view_writes]
  constructor
  · simp only [Store.update, h.requests, List.map_append, List.map_cons, List.map_map]
    have hother : ∀ l : Registry, c.requestId ∉ l.map Case.requestId →
        l.map ((fun r => if r.workspaceId = c.workspaceId ∧ r.id = c.requestId then
          r.decided v.values else r) ∘ Case.row) = l.map Case.row := by
      intro l hl
      refine List.map_congr_left fun k hk => if_neg ?_
      rintro ⟨-, hid⟩
      exact hl (by rw [← hid, Case.row_id]; exact List.mem_map_of_mem hk)
    rw [hother before (fun hm => hdisj _ hm _ (Or.inl rfl) rfl), hother after hafter]
    congr 2
    exact if_pos ⟨rfl, rfl⟩
  · simp [h.reviewers, Case.filed, Case.settled]
  · refine (h.auditEntries.append_right _).trans ?_
    simp only [List.flatMap_append, List.flatMap_cons, Case.auditEntries, Case.filed,
      Case.settled, Option.toList_none, Option.toList_some, List.map_nil, List.map_cons,
      List.append_assoc, List.cons_append, List.nil_append]
    exact (List.perm_append_comm.cons _).append_left _
  · refine (h.events.append_right _).trans ?_
    simp only [List.flatMap_append, List.flatMap_cons, Case.events, Case.filed,
      Case.settled, Option.toList_none, Option.toList_some, List.map_nil, List.map_cons,
      List.append_assoc, List.cons_append, List.nil_append]
    exact (List.perm_append_comm.cons _).append_left _
  · refine (h.ledger.append_right _).trans ?_
    simp only [List.flatMap_append, List.flatMap_cons, Case.ledgerRows, Case.filed,
      Case.settled, Option.toList_none, Option.toList_some, List.flatMap_nil,
      List.append_assoc, List.cons_append, List.nil_append]
    exact (List.perm_append_comm.cons _).append_left _
  · simpa [Case.filed, Case.settled, Case.requestId] using h.ids
  · cases hl : v.ledgerRow? c.workspaceId c.requestId c.row with
    | none => simpa [hl] using h.keys
    | some r => simpa using keys_nodup_append h.keys (hkey r hl)

/-- **Refinement.** A commit of the service is a step of the registry. -/
theorem Represents.commit {cases : Registry} {σ : Store} {δ : List Write}
    (h : Represents cases σ) (hc : Commits σ δ) (hheld : Held δ σ) :
    ∃ cases', Registry.Step cases cases' ∧ Represents cases' (approvalDb.view σ δ) := by
  cases hc with
  | quiet => exact ⟨cases, .stay _, h⟩
  | creation c =>
    have hid := hheld.fresh (.approvalRequest c.row)
      (List.mem_map_of_mem (by simp [Creation.newRows]))
    have hkey := hheld.fresh (.idempotencyKey c.ledgerRow)
      (List.mem_map_of_mem (by simp [Creation.newRows]))
    exact ⟨_, .file cases c, h.file hid hkey⟩
  | @verdict ws id row v hrow entitled shown =>
    have hpending : ∃ r ∈ σ.approvalRequests,
        r.workspaceId = ws ∧ r.id = id ∧ r.status = .pending := by
      rcases hheld.pending ws id v.values List.mem_cons_self with hp | ⟨r, hr, -⟩
      · exact hp
      · cases hl : v.ledgerRow? ws id row <;> simp [Verdict.writes, Verdict.newRows, hl] at hr
    obtain ⟨c, hc, rfl, rfl, rfl⟩ := h.pending_case hrow hpending
    rw [show c.workspaceId = (Case.filed c).workspaceId from rfl,
      show c.requestId = (Case.filed c).requestId from rfl, h.reviewerIds_eq hc] at entitled shown
    obtain ⟨before, after, rfl⟩ := List.append_of_mem hc
    refine ⟨_, .settle before after c v entitled shown, h.settle entitled shown fun r hr => ?_⟩
    refine hheld.fresh (.idempotencyKey r) (List.mem_cons_of_mem _ (List.mem_map_of_mem ?_))
    rw [Option.mem_def] at hr
    simp [Verdict.newRows, hr]

/-- The tables are those of some registry. -/
def Store.Registered (σ : Store) : Prop := ∃ cases, Represents cases σ

/-- The transactions of the service, as they appear to one another. -/
def approvalDiscipline : Discipline approvalDb where
  Inv := Store.Registered
  Commits := Commits
  inv_commit := by
    rintro σ δ ⟨cases, h⟩ hc hheld
    obtain ⟨cases', -, h'⟩ := h.commit hc hheld
    exact ⟨cases', h'⟩

end ContentApproval
