import ContentApproval.Specs.Endpoints
import ContentApproval.Transactions.Relational

/-!
# What a call reads and writes

Every statement of a call names the workspace of its path, and every row that it inserts
is of that workspace and has the ids that the call has generated (`request_within`). The
reply of such a statement depends on nothing but the rows of the workspace and on whether
those ids are in use (`exec_alike`), and it changes nothing else (`exec_foreign`).
-/

namespace ContentApproval

open Transactions SqlApprovalRequestRepository AsyncSession ApprovalService Idempotency
  AuthDependencies

/-! ## The rows of a workspace -/

/-- The rows of one workspace, in all five tables. -/
def Store.rowsOf (σ : Store) (ws : String) : Store where
  approvalRequests := σ.approvalRequests.filter (fun r => r.workspaceId == ws)
  approvalRequestReviewers := σ.approvalRequestReviewers.filter (fun r => r.workspaceId == ws)
  auditLogEntries := σ.auditLogEntries.filter (fun r => r.workspaceId == ws)
  outboxEvents := σ.outboxEvents.filter (fun r => r.workspaceId == ws)
  idempotencyKeys := σ.idempotencyKeys.filter (fun r => r.workspaceId == ws)

/-- The key is an id that the service generates. -/
def PrimaryKey.Generated : PrimaryKey → Prop
  | .approvalRequest _ => True
  | .auditLogEntry _ => True
  | .outboxEvent _ => True
  | _ => False

/-- The keys of the rows that a call with these ids inserts. -/
def Env.keys (env : Env) : List PrimaryKey :=
  [.approvalRequest env.requestId, .auditLogEntry env.auditId, .outboxEvent env.eventId]

theorem Env.keys_generated {env : Env} {k : PrimaryKey} (h : k ∈ env.keys) : k.Generated := by
  simp only [keys, List.mem_cons, List.not_mem_nil, or_false] at h
  obtain rfl | rfl | rfl := h <;> trivial

/-- A row of the workspace, with no other ids than the generated ones. -/
structure NewRow.Within (ws : String) (env : Env) (row : NewRow) : Prop where
  workspaceId : row.workspaceId = ws
  generated : row.primaryKey.Generated → row.primaryKey ∈ env.keys

/-- A statement of a call in the workspace. -/
def Statement.Within (ws : String) (env : Env) : Statement → Prop
  | .selectRequest ws' _ => ws' = ws
  | .selectReviewers keys _ => ∀ k ∈ keys, k.1 = ws
  | .countRequests ws' _ => ws' = ws
  | .selectPage ws' _ _ _ => ws' = ws
  | .selectKey ws' _ _ => ws' = ws
  | .updatePending ws' _ _ => ws' = ws
  | .insert row => row.Within ws env
  | .log _ => True

/-- The requests that a statement of the workspace replies are of the workspace. -/
def Statement.Gives (ws : String) : (s : Statement) → Reply s → Prop
  | .selectRequest _ _, (row? : Option ApprovalRequestRow) => ∀ row ∈ row?, row.workspaceId = ws
  | .selectPage _ _ _ _, (rows : List ApprovalRequestRow) => ∀ row ∈ rows, row.workspaceId = ws
  | _, _ => True

/-- Two stores that a call in the workspace can not tell apart. -/
structure Store.Alike (ws : String) (env : Env) (σ τ : Store) : Prop where
  rows : σ.rowsOf ws = τ.rowsOf ws
  has : ∀ k ∈ env.keys, σ.has k = τ.has k

namespace Store

variable (σ : Store) (ws : String)

theorem find?_rowsOf {α : Type} (rows : List α) (workspaceId : α → String) (q : α → Bool) :
    (rows.filter (fun r => workspaceId r == ws)).find? (fun r => workspaceId r == ws && q r) =
      rows.find? (fun r => workspaceId r == ws && q r) := by
  rw [List.find?_filter]
  refine congrArg (fun p => rows.find? p) (funext fun r => ?_)
  cases workspaceId r == ws <;> simp

theorem filter_rowsOf {α : Type} (rows : List α) (workspaceId : α → String) {q : α → Bool}
    (hq : ∀ r, q r = true → workspaceId r = ws) :
    (rows.filter (fun r => workspaceId r == ws)).filter q = rows.filter q := by
  rw [List.filter_filter]
  refine List.filter_congr fun r _ => ?_
  cases hr : q r with
  | false => rfl
  | true => simp [hq r hr]

theorem request?_rowsOf (id : String) : (σ.rowsOf ws).request? ws id = σ.request? ws id :=
  find?_rowsOf ws σ.approvalRequests ApprovalRequestRow.workspaceId fun r => r.id == id

theorem matching_rowsOf (status : Option ApprovalStatus) :
    (σ.rowsOf ws).matching ws status = σ.matching ws status := by
  refine filter_rowsOf ws σ.approvalRequests ApprovalRequestRow.workspaceId fun r hr => ?_
  rw [Bool.and_eq_true, beq_iff_eq] at hr
  exact hr.1

theorem key?_rowsOf (route key : String) : (σ.rowsOf ws).key? ws route key = σ.key? ws route key := by
  have hfind := find?_rowsOf ws σ.idempotencyKeys IdempotencyKey.workspaceId
    fun r => r.route == route && r.idempotencyKey == key
  simpa only [key?, rowsOf, Bool.and_assoc] using hfind

theorem pendingCount_rowsOf (id : String) :
    (σ.rowsOf ws).pendingCount ws id = σ.pendingCount ws id := by
  rw [pendingCount, pendingCount, List.countP_eq_length_filter, List.countP_eq_length_filter]
  refine congrArg List.length
    (filter_rowsOf ws σ.approvalRequests ApprovalRequestRow.workspaceId fun r hr => ?_)
  simp only [Bool.and_eq_true, beq_iff_eq] at hr
  exact hr.1.1

/-- The keys of a workspace that its rows are known by. -/
theorem has_rowsOf {row : NewRow} (h : row.workspaceId = ws) (hk : ¬ row.primaryKey.Generated) :
    (σ.rowsOf ws).has row.primaryKey = σ.has row.primaryKey := by
  subst h
  cases row with
  | reviewer row =>
    rw [Bool.eq_iff_iff]
    simp only [NewRow.primaryKey, NewRow.workspaceId, has, rowsOf, List.any_eq_true,
      List.mem_filter, Bool.and_eq_true, beq_iff_eq]
    grind
  | idempotencyKey row =>
    rw [Bool.eq_iff_iff]
    simp only [NewRow.primaryKey, NewRow.workspaceId, has, rowsOf, List.any_eq_true,
      List.mem_filter, Bool.and_eq_true, beq_iff_eq]
    grind
  | _ => exact absurd trivial hk

theorem hasParent_rowsOf {row : NewRow} (h : row.workspaceId = ws) :
    (σ.rowsOf ws).hasParent row = σ.hasParent row := by
  subst h
  cases row <;>
    simp only [hasParent, NewRow.foreignKey, NewRow.workspaceId, Option.all_some, Option.all_none,
      request?_rowsOf]

theorem rowsOf_insert (row : NewRow) : (σ.insert row).rowsOf ws =
    if row.workspaceId = ws then (σ.rowsOf ws).insert row else σ.rowsOf ws := by
  by_cases h : row.workspaceId = ws
  · rw [if_pos h]
    cases row <;> simp_all [insert, rowsOf, NewRow.workspaceId, List.filter_append]
  · rw [if_neg h]
    cases row <;> simp_all [insert, rowsOf, NewRow.workspaceId, List.filter_append]

theorem rowsOf_update (ws' id : String) (values : DecisionValues) :
    (σ.update ws' id values).rowsOf ws = (σ.rowsOf ws).update ws' id values := by
  simp only [update, rowsOf, List.filter_map]
  congr 2
  refine List.filter_congr fun r _ => ?_
  simp only [Function.comp_apply]
  split <;> rfl

/-- An update of a row of another workspace. -/
theorem rowsOf_update_ne {ws' : String} (h : ws' ≠ ws) (id : String) (values : DecisionValues) :
    (σ.update ws' id values).rowsOf ws = σ.rowsOf ws := by
  rw [rowsOf_update]
  have hrows : (σ.rowsOf ws).approvalRequests.map
      (fun r => if r.workspaceId = ws' ∧ r.id = id then r.decided values else r) =
      (σ.rowsOf ws).approvalRequests := by
    refine (List.map_congr_left fun r hr => if_neg ?_).trans (List.map_id _)
    rintro ⟨rfl, -⟩
    simp only [rowsOf, List.mem_filter, beq_iff_eq] at hr
    exact h hr.2
  rw [update, hrows]

end Store

/-! ## One statement -/

section Exec

variable {ws : String} {env : Env} {s : Statement} {σ τ : Store}

theorem page_workspaceId {status : Option ApprovalStatus} {limit offset : Nat}
    {r : ApprovalRequestRow} (hr : r ∈ σ.page ws status limit offset) : r.workspaceId = ws := by
  have hsort := List.mem_of_mem_drop (List.mem_of_mem_take hr)
  rw [List.mem_insertionSort] at hsort
  have hmatch := (List.mem_filter.mp hsort).2
  rw [Bool.and_eq_true, beq_iff_eq] at hmatch
  exact hmatch.1

/-- The rows that a statement of the workspace replies are of the workspace. -/
theorem exec_gives (hs : s.Within ws env) (σ : Store) :
    Statement.Gives ws s (approvalDb.exec s σ).1 := by
  cases s with
  | selectRequest ws' id =>
    intro row hrow
    exact (Store.request?_some hrow).2.1.trans hs
  | selectPage ws' status limit offset =>
    intro row hrow
    exact (page_workspaceId hrow).trans hs
  | _ => trivial

theorem Store.Alike.insert (h : σ.Alike ws env τ) {row : NewRow} (hrow : row.Within ws env) :
    (σ.insert row).Alike ws env (τ.insert row) where
  rows := by rw [rowsOf_insert, rowsOf_insert, if_pos hrow.workspaceId, if_pos hrow.workspaceId, h.rows]
  has k hk := by rw [has_insert, has_insert, h.has k hk]

theorem Store.Alike.update (h : σ.Alike ws env τ) (id : String) (values : DecisionValues) :
    (σ.update ws id values).Alike ws env (τ.update ws id values) where
  rows := by rw [rowsOf_update, rowsOf_update, h.rows]
  has k hk := by rw [has_update, has_update, h.has k hk]

theorem Store.Alike.has_row (h : σ.Alike ws env τ) {row : NewRow} (hrow : row.Within ws env) :
    σ.has row.primaryKey = τ.has row.primaryKey := by
  by_cases hg : row.primaryKey.Generated
  · exact h.has _ (hrow.generated hg)
  · rw [← has_rowsOf σ ws hrow.workspaceId hg, h.rows, has_rowsOf τ ws hrow.workspaceId hg]

/-- **Two stores with the same rows of a workspace** reply the same to its statements, and
stay alike. -/
theorem exec_alike (hs : s.Within ws env) (h : σ.Alike ws env τ) :
    (approvalDb.exec s σ).1 = (approvalDb.exec s τ).1 ∧
      (approvalDb.view σ (approvalDb.exec s σ).2).Alike ws env
        (approvalDb.view τ (approvalDb.exec s τ).2) := by
  cases s with
  | selectRequest ws' id =>
    obtain rfl : ws' = ws := hs
    refine ⟨?_, h⟩
    change σ.request? ws' id = τ.request? ws' id
    rw [← Store.request?_rowsOf, h.rows, Store.request?_rowsOf]
  | selectReviewers keys order =>
    refine ⟨congrArg order.arrange ?_, h⟩
    have hkeys : ∀ r : ApprovalRequestReviewer,
        decide ((r.workspaceId, r.approvalRequestId) ∈ keys) = true → r.workspaceId = ws :=
      fun r hr => hs _ (of_decide_eq_true hr)
    have hrows := congrArg Store.approvalRequestReviewers h.rows
    rw [← Store.filter_rowsOf ws σ.approvalRequestReviewers _ hkeys,
      ← Store.filter_rowsOf ws τ.approvalRequestReviewers _ hkeys]
    exact congrArg (List.filter _) hrows
  | countRequests ws' status =>
    obtain rfl : ws' = ws := hs
    refine ⟨congrArg List.length ?_, h⟩
    rw [← Store.matching_rowsOf, h.rows, Store.matching_rowsOf]
  | selectPage ws' status limit offset =>
    obtain rfl : ws' = ws := hs
    refine ⟨?_, h⟩
    change σ.page ws' status limit offset = τ.page ws' status limit offset
    rw [Store.page, Store.page, ← Store.matching_rowsOf, h.rows, Store.matching_rowsOf]
  | selectKey ws' route key =>
    obtain rfl : ws' = ws := hs
    refine ⟨?_, h⟩
    change σ.key? ws' route key = τ.key? ws' route key
    rw [← Store.key?_rowsOf, h.rows, Store.key?_rowsOf]
  | updatePending ws' id values =>
    obtain rfl : ws' = ws := hs
    have hcount : σ.pendingCount ws' id = τ.pendingCount ws' id := by
      rw [← Store.pendingCount_rowsOf, h.rows, Store.pendingCount_rowsOf]
    refine ⟨hcount, ?_⟩
    simp only [approvalDb, Store.exec, hcount]
    split
    · exact h
    · exact h.update id values
  | insert row =>
    have hhas := h.has_row hs
    have hparent : σ.hasParent row = τ.hasParent row := by
      rw [← Store.hasParent_rowsOf σ ws hs.workspaceId, h.rows,
        Store.hasParent_rowsOf τ ws hs.workspaceId]
    simp only [approvalDb, Store.exec, hhas, hparent]
    split
    · exact ⟨trivial, h.insert hs⟩
    · exact ⟨trivial, h⟩
  | log record => exact ⟨rfl, h⟩

/-- What a statement of one workspace does to the rows of another. -/
theorem exec_foreign (hs : s.Within ws env) {ws' : String} (hne : ws ≠ ws') :
    (approvalDb.view σ (approvalDb.exec s σ).2).rowsOf ws' = σ.rowsOf ws' := by
  cases s with
  | updatePending ws₁ id values =>
    obtain rfl : ws₁ = ws := hs
    simp only [approvalDb, Store.exec]
    split
    · rfl
    · exact σ.rowsOf_update_ne ws' hne id values
  | insert row =>
    simp only [approvalDb, Store.exec]
    split
    · refine (σ.rowsOf_insert ws' row).trans (if_neg ?_)
      rw [hs.workspaceId]
      exact hne
    · rfl
  | _ => rfl

/-- The ids that a statement of a call may bring into use. -/
theorem exec_has (hs : s.Within ws env) {k : PrimaryKey} (hk : k.Generated)
    (h : (approvalDb.view σ (approvalDb.exec s σ).2).has k = true) :
    σ.has k = true ∨ k ∈ env.keys := by
  cases s with
  | updatePending ws₁ id values =>
    simp only [approvalDb, Store.exec] at h
    split at h
    · exact Or.inl h
    · exact Or.inl ((σ.has_update ws₁ id values k).symm.trans h)
  | insert row =>
    simp only [approvalDb, Store.exec] at h
    split at h
    · have hins := (σ.has_insert row k).symm.trans h
      rw [Bool.or_eq_true, beq_iff_eq] at hins
      refine hins.imp_right ?_
      rintro rfl
      exact hs.generated hk
    · exact Or.inl h
  | _ => exact Or.inl h

/-- A store with rows of one workspace only keeps that under the statements of the workspace. -/
theorem exec_only (hs : s.Within ws env) (h : σ.rowsOf ws = σ) :
    (approvalDb.view σ (approvalDb.exec s σ).2).rowsOf ws =
      approvalDb.view σ (approvalDb.exec s σ).2 := by
  cases s with
  | updatePending ws₁ id values =>
    simp only [approvalDb, Store.exec]
    split
    · exact h
    · refine (σ.rowsOf_update ws ws₁ id values).trans ?_
      rw [h]
      rfl
  | insert row =>
    simp only [approvalDb, Store.exec]
    split
    · refine (σ.rowsOf_insert ws row).trans ?_
      rw [if_pos hs.workspaceId, h]
      rfl
    · exact h
  | _ => exact h

end Exec

/-! ## The programs of a call -/

/-- The program sends only statements of the workspace and leaves only rows of it to flush, and
what it returns satisfies `P`. -/
def Tx.Within {α : Type} (ws : String) (env : Env) (P : α → Prop) (m : Tx α) : Prop :=
  ∀ pending : List NewRow, (∀ row ∈ pending, row.Within ws env) →
    (m pending).Only (Statement.Within ws env) (Statement.Gives ws)
      (fun p => P p.1 ∧ ∀ row ∈ p.2, row.Within ws env)

namespace Tx.Within

variable {ws : String} {env : Env} {α β : Type}

theorem pure {P : α → Prop} {a : α} (h : P a) : Tx.Within ws env P (pure a) :=
  fun _ hp => ⟨h, hp⟩

theorem throw {P : α → Prop} (e : Exn) : Tx.Within ws env P (throw e) :=
  fun _ _ => trivial

theorem bind {P : α → Prop} {Q : β → Prop} {m : Tx α} {f : α → Tx β}
    (hm : Tx.Within ws env P m) (hf : ∀ a, P a → Tx.Within ws env Q (f a)) :
    Tx.Within ws env Q (m >>= f) :=
  fun pending hp => (hm pending hp).bind fun p h => hf p.1 h.1 p.2 h.2

theorem send {s : Statement} (hs : s.Within ws env) :
    Tx.Within ws env (Statement.Gives ws s) (StateT.lift (send s)) :=
  fun _ hp => ⟨hs, fun _ hr => ⟨hr, hp⟩⟩

theorem add {row : NewRow} (hrow : row.Within ws env) :
    Tx.Within ws env (fun _ => True) (add row) := by
  intro pending hp
  refine ⟨trivial, fun r hr => ?_⟩
  rcases List.mem_append.mp hr with hr | hr
  · exact hp r hr
  · rwa [List.mem_singleton.mp hr]

theorem insertAll {rows : List NewRow} (h : ∀ row ∈ rows, row.Within ws env) :
    (insertAll rows).Only (Statement.Within ws env) (Statement.Gives ws) (fun _ => True) := by
  induction rows with
  | nil => trivial
  | cons row rows ih =>
    rw [insertAll_cons]
    refine ⟨h row List.mem_cons_self, fun inserted _ => ?_⟩
    change Bool at inserted
    cases inserted with
    | false => trivial
    | true => exact ih fun r hr => h r (List.mem_cons_of_mem _ hr)

theorem flush : Tx.Within ws env (fun _ => True) flush := by
  intro pending hp
  rw [flush_eq]
  refine (insertAll hp).bind fun _ _ => ⟨trivial, fun row hrow => ?_⟩
  cases hrow

theorem execute {s : Statement} (hs : s.Within ws env) :
    Tx.Within ws env (Statement.Gives ws s) (execute s) :=
  flush.bind fun _ _ => send hs

theorem logRecord (record : LogRecord) : Tx.Within ws env (fun _ => True) (logRecord record) :=
  fun _ hp => ⟨trivial, fun _ _ => ⟨trivial, hp⟩⟩

end Tx.Within

section Functions

variable {ws : String} {env : Env}

theorem selectinload_within (order : RowOrder) {rows : List ApprovalRequestRow}
    (h : ∀ row ∈ rows, row.workspaceId = ws) :
    Tx.Within ws env (fun _ => True) (selectinload order rows) := by
  have hselect : (Statement.selectReviewers (rows.map fun row => (row.workspaceId, row.id))
      order).Within ws env := by
    intro k hk
    obtain ⟨row, hrow, rfl⟩ := List.mem_map.mp hk
    exact h row hrow
  cases rows with
  | nil => exact Tx.Within.pure (P := fun _ => True) trivial
  | cons row rows => exact Tx.Within.execute hselect

theorem get_within (site : Nat) (id : String) :
    Tx.Within ws env (fun _ => True) (get env site ws id) := by
  have hselect : (Statement.selectRequest ws id).Within ws env := rfl
  refine (Tx.Within.execute hselect).bind fun row? hrow => ?_
  refine (selectinload_within _ fun row hmem => ?_).bind fun _ _ => Tx.Within.pure trivial
  exact hrow row (Option.mem_toList.mp hmem)

theorem transition_within (id : String) (status : ApprovalStatus) (actor : String)
    (comment reason : Option String) :
    Tx.Within ws env (fun _ => True) (transition env ws id status actor comment reason) := by
  have hupdate : ∀ values, (Statement.updatePending ws id values).Within ws env := fun _ => rfl
  refine (Tx.Within.execute (hupdate _)).bind fun rowcount _ => ?_
  split
  · refine (get_within 1 id).bind fun updated _ => ?_
    cases updated with
    | none => exact Tx.Within.throw _
    | some updated => exact Tx.Within.pure trivial
  · refine (get_within 2 id).bind fun current _ => ?_
    cases current <;> exact Tx.Within.throw _

theorem list_within (status : Option ApprovalStatus) (limit offset : Nat) :
    Tx.Within ws env (fun _ => True) (list env ws status limit offset) := by
  have hcount : (Statement.countRequests ws status).Within ws env := rfl
  have hpage : (Statement.selectPage ws status limit offset).Within ws env := rfl
  refine (Tx.Within.execute hcount).bind fun total _ => ?_
  refine (Tx.Within.execute hpage).bind fun rows hrows => ?_
  exact (selectinload_within _ hrows).bind fun _ _ => Tx.Within.pure trivial

theorem recordAuditEntry_within (id actor : String) (action : AuditAction)
    (details : Option Json) :
    Tx.Within ws env (fun _ => True) (recordAuditEntry env ws id actor action details) :=
  Tx.Within.add ⟨rfl, fun _ => by simp [Env.keys, NewRow.primaryKey]⟩

theorem recordOutboxEvent_within (id eventType : String) (payload : Json) :
    Tx.Within ws env (fun _ => True) (recordOutboxEvent env ws id eventType payload) :=
  Tx.Within.add ⟨rfl, fun _ => by simp [Env.keys, NewRow.primaryKey]⟩

theorem create_within (actor : String) (sourceType : SourceType) (sourceId title : String)
    (description : Option String) (reviewerUserIds : List String) :
    Tx.Within ws env (fun _ => True) (create env env.requestId ws actor sourceType sourceId title
      description reviewerUserIds) := by
  have hreviewers : Tx.Within ws env (fun _ => True)
      (reviewerUserIds.forM (fun reviewerId => add (.reviewer ⟨ws, env.requestId, reviewerId⟩))) := by
    intro pending hp
    rw [forM_add_eq]
    refine ⟨trivial, fun row hrow => ?_⟩
    rcases List.mem_append.mp hrow with hrow | hrow
    · exact hp row hrow
    · obtain ⟨reviewerId, -, rfl⟩ := List.mem_map.mp hrow
      exact ⟨rfl, fun h => h.elim⟩
  have hrow : ∀ row : ApprovalRequestRow, row.workspaceId = ws → row.id = env.requestId →
      (NewRow.approvalRequest row).Within ws env :=
    fun row hws hid => ⟨hws, fun _ => by simp [Env.keys, NewRow.primaryKey, hid]⟩
  refine (Tx.Within.add (hrow _ rfl rfl)).bind fun _ _ => ?_
  refine hreviewers.bind fun _ _ => ?_
  exact Tx.Within.flush.bind fun _ _ => Tx.Within.pure trivial

theorem createRequest_within (actor : String) (sourceType : SourceType) (sourceId title : String)
    (description : Option String) (reviewerUserIds : List String) :
    Tx.Within ws env (fun _ => True) (createRequest env ws actor sourceType sourceId title
      description reviewerUserIds) := by
  refine (create_within actor sourceType sourceId title description reviewerUserIds).bind
    fun request _ => ?_
  refine (recordAuditEntry_within _ _ _ _).bind fun _ _ => ?_
  refine (recordOutboxEvent_within _ _ _).bind fun _ _ => ?_
  exact (Tx.Within.logRecord _).bind fun _ _ => Tx.Within.pure trivial

theorem requireEntitled_within (id : String) (request : ApprovalRequest) (actor : String)
    (d : Decision) : Tx.Within ws env (fun _ => True) (requireEntitled id request actor d) := by
  have hreviewer : Tx.Within ws env (fun _ => True) (requireReviewer request actor) := by
    unfold requireReviewer
    split
    · exact Tx.Within.throw _
    · exact Tx.Within.pure trivial
  cases d with
  | approve => exact hreviewer
  | reject => exact hreviewer
  | cancel =>
    simp only [requireEntitled, requireCreator]
    split
    · exact Tx.Within.throw _
    · exact Tx.Within.pure trivial

theorem getOrRaise_within (id : String) :
    Tx.Within ws env (fun _ => True) (getOrRaise env ws id) := by
  refine (get_within 0 id).bind fun request _ => ?_
  cases request with
  | none => exact Tx.Within.throw _
  | some request => exact Tx.Within.pure trivial

theorem decideRequest_within (d : Decision) (id actor : String) (comment reason : Option String) :
    Tx.Within ws env (fun _ => True) (decideRequest env d ws id actor comment reason) := by
  refine (getOrRaise_within id).bind fun request _ => ?_
  refine (requireEntitled_within id request actor d).bind fun _ _ => ?_
  refine (transition_within id d.newStatus actor comment reason).bind fun updated _ => ?_
  refine (recordAuditEntry_within _ _ _ _).bind fun _ _ => ?_
  refine (recordOutboxEvent_within _ _ _).bind fun _ _ => ?_
  exact (Tx.Within.logRecord _).bind fun _ _ => Tx.Within.pure trivial

theorem runIdempotent_within (sha256 : String → String) (route : String)
    (key : Option String) (payload : Json) {handler : Tx (ApprovalRequestOut × Nat)}
    (h : Tx.Within ws env (fun _ => True) handler) :
    Tx.Within ws env (fun _ => True) (runIdempotent sha256 env ws route key payload handler) := by
  cases key with
  | none => exact h
  | some key =>
    have hselect : (Statement.selectKey ws route key).Within ws env := rfl
    have hrow : ∀ row : IdempotencyKey, row.workspaceId = ws →
        (NewRow.idempotencyKey row).Within ws env := fun row hws => ⟨hws, fun h => h.elim⟩
    refine (Tx.Within.send hselect).bind fun existing? _ => ?_
    change Option IdempotencyKey at existing?
    cases existing? with
    | some existing =>
      dsimp only
      split
      · exact Tx.Within.throw _
      · unfold replay
        split
        · exact Tx.Within.pure trivial
        · exact Tx.Within.throw _
    | none =>
      refine h.bind fun result _ => ?_
      refine (Tx.Within.add (hrow _ rfl)).bind fun _ _ => ?_
      refine Tx.Within.bind (P := fun _ => True) ?_ fun _ _ => Tx.Within.pure trivial
      intro pending hp
      refine (Tx.Within.flush pending hp).catchError fun e => ?_
      cases e <;> exact trivial

theorem requireAction_within (action : Action) (provider : AuthProvider)
    (authorization : Option String) (ws' : String) :
    Tx.Within ws env (fun _ => True) (requireAction action provider authorization ws') := by
  intro pending hp
  rw [requireAction_eq]
  cases provider.authenticate authorization with
  | error e =>
    cases e with
    | invalidCredentials message => exact ⟨trivial, fun _ _ => trivial⟩
    | other detail => exact trivial
  | ok principal =>
    dsimp only
    split_ifs
    · exact ⟨trivial, fun _ _ => trivial⟩
    · exact ⟨trivial, fun _ _ => trivial⟩
    · exact ⟨trivial, hp⟩

theorem params_within {α : Type} (v : Validated α) :
    Tx.Within ws env (fun _ => True) (orRequestValidationError v) := by
  cases v with
  | ok a => exact Tx.Within.pure trivial
  | error es => exact Tx.Within.throw _

end Functions

section Calls

variable (app : App) (call : Call)

theorem endpoint_within (P : Principal) (document : Option Json) :
    Tx.Within call.workspaceId call.env (fun _ => True) (endpoint app call P document) := by
  cases hop : call.operation with
  | create key body =>
    unfold endpoint
    rw [hop]
    refine (params_within _).bind fun params _ => ?_
    refine (runIdempotent_within _ _ _ _ ?_).bind fun _ _ => Tx.Within.pure trivial
    exact (createRequest_within _ _ _ _ _ _).bind fun _ _ => Tx.Within.pure trivial
  | list status limit offset =>
    unfold endpoint
    rw [hop]
    refine (params_within _).bind fun params _ => ?_
    exact (list_within _ _ _).bind fun _ _ => Tx.Within.pure trivial
  | get id =>
    unfold endpoint
    rw [hop]
    exact (getOrRaise_within id).bind fun _ _ => Tx.Within.pure trivial
  | decide d id key body =>
    rw [endpoint_decide hop]
    refine (params_within _).bind fun params _ => ?_
    refine (runIdempotent_within _ _ _ _ ?_).bind fun _ _ => Tx.Within.pure trivial
    exact (decideRequest_within _ _ _ _ _).bind fun _ _ => Tx.Within.pure trivial

theorem parseBody_within (ws : String) (env : Env) (body : RawBody) :
    Tx.Within ws env (fun _ => True) (parseBody body) := by
  cases body with
  | malformed pos => exact Tx.Within.throw _
  | _ => exact Tx.Within.pure trivial

/-- **Every statement of a call is within its workspace**, also those after its answer. -/
theorem request_within : (request app call).Only (Statement.Within call.workspaceId call.env)
    (Statement.Gives call.workspaceId)
    (fun r => r.2.Only (Statement.Within call.workspaceId call.env)
      (Statement.Gives call.workspaceId) (fun _ => True)) := by
  have hhandle : Tx.Within call.workspaceId call.env (fun _ => True) (handle app call) := by
    refine (parseBody_within _ _ _).bind fun document _ => ?_
    refine (requireAction_within _ _ _ _).bind fun P _ => ?_
    exact endpoint_within app call P document
  refine (hhandle [] fun row hrow => by cases hrow).bind fun p hp => ?_
  exact Tx.Within.insertAll hp.2

theorem transaction_within : (request app call).transaction.Only
    (Statement.Within call.workspaceId call.env) (Statement.Gives call.workspaceId)
    (fun _ => True) :=
  (request_within app call).bind fun _ h => h

end Calls

/-! ## A call that is served -/

section Served

variable (app : App) {call : Call} {σ τ : Store}

/-- What every statement of a call keeps, the call keeps. -/
theorem serve_keeps {I : Store → Prop}
    (hI : ∀ s v, s.Within call.workspaceId call.env → I v →
      I (approvalDb.view v (approvalDb.exec s v).2)) (hσ : I σ) :
    I ((request app call).serve approvalDb σ).1 := by
  rw [(Prog.serve_eq_eval _ σ).1]
  have hend := (transaction_within app call).keeps
    (fun s v hs hv => ⟨exec_gives hs v, hI s v hs hv⟩) hσ
  cases ((request app call).transaction.eval approvalDb σ).1 with
  | ok u => exact hend
  | error e => exact hσ

/-- A call in another workspace. -/
theorem serve_foreign {ws : String} (h : call.workspaceId ≠ ws) :
    ((request app call).serve approvalDb σ).1.rowsOf ws = σ.rowsOf ws :=
  serve_keeps app (I := fun v => v.rowsOf ws = σ.rowsOf ws)
    (fun _ _ hs hv => (exec_foreign hs h).trans hv) rfl

/-- The ids in use after a call. -/
theorem serve_has {k : PrimaryKey} (hk : k.Generated)
    (h : ((request app call).serve approvalDb σ).1.has k = true) :
    σ.has k = true ∨ k ∈ call.env.keys :=
  serve_keeps app (I := fun v => v.has k = true → σ.has k = true ∨ k ∈ call.env.keys)
    (fun _ _ hs hv hh => (exec_has hs hk hh).elim hv Or.inr) Or.inl h

theorem serve_only (h : σ.rowsOf call.workspaceId = σ) :
    ((request app call).serve approvalDb σ).1.rowsOf call.workspaceId =
      ((request app call).serve approvalDb σ).1 :=
  serve_keeps app (I := fun v => v.rowsOf call.workspaceId = v)
    (fun _ _ hs hv => exec_only hs hv) h

/-- **A call on two stores that are alike for it**: the same response, and the same rows of its
workspace afterwards. -/
theorem serve_alike (h : σ.Alike call.workspaceId call.env τ) :
    ((request app call).serve approvalDb σ).2.1.response? =
        ((request app call).serve approvalDb τ).2.1.response? ∧
      ((request app call).serve approvalDb σ).1.rowsOf call.workspaceId =
        ((request app call).serve approvalDb τ).1.rowsOf call.workspaceId := by
  have hexec : ∀ s v v', s.Within call.workspaceId call.env →
      v.Alike call.workspaceId call.env v' →
      Statement.Gives call.workspaceId s (approvalDb.exec s v).1 ∧
        (approvalDb.exec s v).1 = (approvalDb.exec s v').1 ∧
        (approvalDb.view v (approvalDb.exec s v).2).Alike call.workspaceId call.env
          (approvalDb.view v' (approvalDb.exec s v').2) :=
    fun s v v' hs hv => ⟨exec_gives hs v, exec_alike hs hv⟩
  have hanswer := ((request_within app call).eval_eq hexec h).1
  obtain ⟨hend, hrows, -⟩ := (transaction_within app call).eval_eq hexec h
  refine ⟨by rw [Prog.response?_serve, Prog.response?_serve, hanswer], ?_⟩
  rw [(Prog.serve_eq_eval _ σ).1, (Prog.serve_eq_eval _ τ).1, hend]
  cases ((request app call).transaction.eval approvalDb τ).1 with
  | ok u => exact hrows.rows
  | error e => exact h.rows

end Served

end ContentApproval
