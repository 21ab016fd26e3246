import ContentApproval.Specs.Locality
import ContentApproval.Specs.Pages
import ContentApproval.Specs.Programs
import ContentApproval.Specs.Validation
import ContentApproval.Transactions.Sequential

/-!
# Calls that nobody interferes with

The result, the writes and the statements of the functions of the service when no other
transaction commits between their statements: `run_getRequest`, `run_listRequests`,
`run_createRequest` and `run_decideRequest`, with the ways in which a decision can fail.
-/

namespace ContentApproval

open Transactions SqlApprovalRequestRepository AsyncSession ApprovalService Idempotency

/-! ## Reading a request -/

namespace Store

variable (σ : Store)

/-- The reviewers of a row in the order in which the `site`-th read of a call lists them. -/
def shown (env : Env) (site : Nat) (row : ApprovalRequestRow) : List String :=
  reviewersOfRow (σ.loaded (env.rowOrder site) [row]) row

theorem shown_eq_listed (env : Env) (site : Nat) (row : ApprovalRequestRow) :
    σ.shown env site row = σ.listed env site row.workspaceId row.id :=
  reviewersOfRow_listed env site row σ

theorem shown_perm (env : Env) (site : Nat) (row : ApprovalRequestRow) :
    (σ.shown env site row).Perm (σ.reviewerIds row.workspaceId row.id) :=
  reviewersOfRow_perm (env.rowOrder site) (List.mem_singleton_self _) σ

/-- The statements of `get`. -/
def reads (env : Env) (site : Nat) (ws id : String) : List Statement :=
  .selectRequest ws id :: (σ.request? ws id).toList.map
    (fun row => .selectReviewers [(row.workspaceId, row.id)] (env.rowOrder site))

end Store

section Reading

variable {σ : Store} {δ : List Write}

theorem run_get (env : Env) (site : Nat) (ws id : String) :
    (get env site ws id []).run approvalDb σ δ =
      ⟨.ok (((approvalDb.view σ δ).request? ws id).map (fun row =>
        toEntity fresh row ((approvalDb.view σ δ).shown env site row)), []), δ,
        (approvalDb.view σ δ).reads env site ws id⟩ := by
  rw [get_eq]
  refine Prog.run_exec ?_
  have hfound : (approvalDb.exec (.selectRequest ws id) (approvalDb.view σ δ)) =
      ((approvalDb.view σ δ).request? ws id, []) := rfl
  rw [hfound, List.append_nil]
  dsimp only
  cases (approvalDb.view σ δ).request? ws id with
  | none => rfl
  | some row =>
    refine Prog.run_exec ?_
    rw [toEntity_load]
    exact congrArg (fun δ => Outcome.mk _ δ _) (List.append_nil δ)

theorem run_getRequest {env : Env} {ws id : String} {row : ApprovalRequestRow}
    (hrow : σ.request? ws id = some row) : (getRequest env ws id []).run approvalDb σ [] =
      ⟨.ok (toEntity fresh row (σ.shown env 0 row), []), [], σ.reads env 0 ws id⟩ := by
  have hget := @run_get σ [] env 0 ws id
  rw [Database.view_nil, hrow] at hget
  refine (Prog.run_bind_ok hget rfl).trans ?_
  exact congrArg (Outcome.mk _ _) (List.append_nil _)

theorem run_getRequest_missing {env : Env} {ws id : String} (hrow : σ.request? ws id = none) :
    (getRequest env ws id []).run approvalDb σ [] =
      ⟨.error (.approvalRequestNotFoundError id), [], σ.reads env 0 ws id⟩ := by
  have hget := @run_get σ [] env 0 ws id
  rw [Database.view_nil, hrow] at hget
  refine (Prog.run_bind_ok hget rfl).trans ?_
  exact congrArg (Outcome.mk _ _) (List.append_nil _)

/-- The statements of `list`. -/
def Store.lists (σ : Store) (env : Env) (ws : String) (filter : Option ApprovalStatus)
    (limit offset : Nat) : List Statement :=
  .countRequests ws filter :: .selectPage ws filter limit offset ::
    if (σ.page ws filter limit offset).isEmpty then []
    else [.selectReviewers ((σ.page ws filter limit offset).map (fun row =>
      (row.workspaceId, row.id))) (env.rowOrder 0)]

/-- `list_requests` in a session with nothing to flush. -/
theorem listRequests_eq (env : Env) (ws : String) (filter : Option ApprovalStatus)
    (limit offset : Nat) : listRequests env ws filter limit offset [] =
      .exec (.countRequests ws filter) (fun total : Nat => .exec (.selectPage ws filter limit offset)
        (fun rows : List ApprovalRequestRow => (selectinload (env.rowOrder 0) rows []).bind
          (fun p => .ret ((rows.map (fun row => toEntity fresh row (reviewersOfRow p.1 row)),
            total), p.2)))) := by
  have hload : ∀ reviewers, (fun row => toEntity env.dialect.load row
      (reviewersOfRow reviewers row)) = fun row => toEntity fresh row
        (reviewersOfRow reviewers row) :=
    fun reviewers => funext fun row => toEntity_load _ _ _
  simp only [← hload]
  rfl

theorem run_listRequests (env : Env) (ws : String) (filter : Option ApprovalStatus)
    (limit offset : Nat) : (listRequests env ws filter limit offset []).run approvalDb σ [] =
      ⟨.ok (((σ.page ws filter limit offset).map (fun row => toEntity fresh row
        (reviewersOfRow (σ.loaded (env.rowOrder 0) (σ.page ws filter limit offset)) row)),
        (σ.matching ws filter).length), []), [], σ.lists env ws filter limit offset⟩ := by
  rw [listRequests_eq]
  refine Prog.run_exec (Prog.run_exec ?_)
  change ((selectinload (env.rowOrder 0) (σ.page ws filter limit offset) []).bind (fun p => .ret
    (((σ.page ws filter limit offset).map (fun row => toEntity fresh row (reviewersOfRow p.1 row)),
      (σ.matching ws filter).length), p.2))).run approvalDb σ [] = _
  cases σ.page ws filter limit offset <;> rfl

end Reading

/-! ## Inserting rows -/

/-- The rows can be inserted one after the other. -/
def Store.Admits (σ : Store) : List NewRow → Prop
  | [] => True
  | row :: rows => (σ.has row.primaryKey = false ∧ σ.hasParent row = true) ∧
    (σ.insert row).Admits rows

theorem Store.hasParent_insert {σ : Store} {row : NewRow} (new : NewRow)
    (h : σ.hasParent row = true) : (σ.insert new).hasParent row = true := by
  unfold hasParent at h ⊢
  cases hkey : row.foreignKey with
  | none => rfl
  | some k =>
    rw [hkey, Option.all_some] at h
    rw [Option.all_some]
    cases new with
    | approvalRequest r =>
      change (List.find? _ (σ.approvalRequests ++ [r])).isSome = true
      rw [List.find?_append, Option.isSome_or]
      exact Bool.or_eq_true_iff.mpr (Or.inl h)
    | _ => exact h

/-- Rows with new and distinct keys whose requests are there. -/
theorem Store.admits {σ : Store} {rows : List NewRow}
    (hnew : ∀ row ∈ rows, σ.has row.primaryKey = false)
    (hkeys : (rows.map NewRow.primaryKey).Nodup)
    (hparent : ∀ row ∈ rows, σ.hasParent row = true) : σ.Admits rows := by
  induction rows generalizing σ with
  | nil => trivial
  | cons row rows ih =>
    rw [List.map_cons, List.nodup_cons] at hkeys
    refine ⟨⟨hnew row List.mem_cons_self, hparent row List.mem_cons_self⟩, ih ?_ hkeys.2 ?_⟩
    · intro row' hrow'
      rw [has_insert, hnew row' (List.mem_cons_of_mem _ hrow'), Bool.false_or]
      refine beq_eq_false_iff_ne.mpr fun heq => hkeys.1 ?_
      rw [heq]
      exact List.mem_map_of_mem hrow'
    · exact fun row' hrow' => hasParent_insert row (hparent row' (List.mem_cons_of_mem _ hrow'))

theorem run_insertAll {σ : Store} {rows : List NewRow} {δ : List Write}
    (h : (approvalDb.view σ δ).Admits rows) : (insertAll rows).run approvalDb σ δ =
      ⟨.ok (), δ ++ rows.map .insert, rows.map .insert⟩ := by
  induction rows generalizing δ with
  | nil => exact congrArg (fun δ => Outcome.mk _ δ _) (List.append_nil δ).symm
  | cons row rows ih =>
    have hexec : approvalDb.exec (.insert row) (approvalDb.view σ δ) = (true, [.insert row]) :=
      if_pos h.1
    rw [insertAll_cons]
    refine Prog.run_exec ?_
    rw [hexec]
    have hview : approvalDb.view σ (δ ++ [.insert row]) = (approvalDb.view σ δ).insert row :=
      approvalDb.view_append σ δ _
    have hrest := ih (δ := δ ++ [.insert row]) (hview ▸ h.2)
    rw [List.append_assoc] at hrest
    exact hrest

theorem run_ledgerFlush {σ : Store} {rows : List NewRow} {δ : List Write}
    (h : (approvalDb.view σ δ).Admits rows) : (ledgerFlush rows).run approvalDb σ δ =
      ⟨.ok ((), []), δ ++ rows.map .insert, rows.map .insert⟩ := by
  refine Prog.run_catchError_ok _ ?_
  have hrun := Prog.run_bind_ok (f := fun u => .ret (u, ([] : List NewRow))) (run_insertAll h) rfl
  rwa [List.append_nil] at hrun

/-! ## Creating a request -/

/-- No id that the call generates is in use. -/
def Env.New (env : Env) (σ : Store) : Prop := ∀ k ∈ env.keys, σ.has k = false

section Create

variable {σ : Store} {c : Creation}

/-- The rows that are left to the last flush of a create. -/
def Creation.lastRows (c : Creation) : List NewRow :=
  [.auditLogEntry c.auditEntry, .outboxEvent c.event, .idempotencyKey c.ledgerRow]

theorem Creation.writes_eq (c : Creation) :
    c.writes = c.firstRows.map .insert ++ c.lastRows.map .insert := by
  rw [← List.map_append]
  rfl

theorem Store.Registered.no_reviewers (hσ : σ.Registered) {ws id user : String}
    (h : σ.has (.approvalRequest id) = false) : σ.has (.reviewer ws id user) = false := by
  obtain ⟨cases, hrep⟩ := hσ
  simp only [Store.has, List.any_eq_false, hrep.requests, hrep.reviewers] at h ⊢
  intro r hr
  obtain ⟨k, hk, hr⟩ := List.mem_flatMap.mp hr
  obtain ⟨user', -, rfl⟩ := List.mem_map.mp hr
  have hid : k.requestId ≠ id := by simpa using h k.row (List.mem_map_of_mem hk)
  have hne : k.creation.requestId ≠ id := hid
  simp [hne]

/-- Neither the request nor a reviewer of it is in the store. -/
structure Store.Unused (σ : Store) (ws id : String) : Prop where
  request : σ.has (.approvalRequest id) = false
  reviewers : ∀ user, σ.has (.reviewer ws id user) = false

theorem Store.Unused.admits {env : Env} {id ws user : String} {p : ApprovalRequestCreate}
    (h : σ.Unused ws id) (hdistinct : p.reviewerUserIds.Nodup) :
    σ.Admits (createdRows env id ws user p) := by
  refine ⟨⟨h.request, rfl⟩, Store.admits ?_ ?_ ?_⟩
  · intro row hrow
    obtain ⟨reviewer, -, rfl⟩ := List.mem_map.mp hrow
    rw [Store.has_insert]
    exact Bool.or_eq_false_iff.mpr ⟨h.reviewers reviewer, rfl⟩
  · rw [List.map_map]
    refine hdistinct.map ?_
    intro reviewer reviewer' heq
    exact (PrimaryKey.reviewer.inj heq).2.2
  · intro row hrow
    obtain ⟨reviewer, -, rfl⟩ := List.mem_map.mp hrow
    change (List.find? _ (σ.approvalRequests ++ [createdRow env id ws user p])).isSome = true
    rw [List.find?_isSome]
    exact ⟨createdRow env id ws user p, List.mem_append_right _ List.mem_cons_self,
      by simp [createdRow]⟩

/-- The rows of a create with new ids can be inserted. -/
theorem Creation.admits (hσ : σ.Registered) (hnew : c.env.New σ)
    (hkey : σ.key? c.workspaceId "create" c.idempotencyKey = none) : σ.Admits c.newRows := by
  have hid : σ.has (.approvalRequest c.requestId) = false := hnew _ List.mem_cons_self
  have hledger : σ.has (.idempotencyKey c.workspaceId "create" c.idempotencyKey) = false := by
    rw [← Store.key?_isSome, hkey]
    rfl
  refine ⟨⟨hid, rfl⟩, Store.admits ?_ ?_ ?_⟩
  · intro row hrow
    have hold : σ.has row.primaryKey = false ∧ row.primaryKey ≠ .approvalRequest c.requestId := by
      rcases List.mem_append.mp hrow with hrow | hrow
      · obtain ⟨r, hr, rfl⟩ := List.mem_map.mp hrow
        obtain ⟨user, -, rfl⟩ := List.mem_map.mp hr
        exact ⟨hσ.no_reviewers hid, by simp [NewRow.primaryKey]⟩
      · simp only [List.mem_cons, List.not_mem_nil, or_false] at hrow
        obtain rfl | rfl | rfl := hrow
        · exact ⟨hnew _ (by simp [Env.keys, NewRow.primaryKey, auditEntry]),
            by simp [NewRow.primaryKey]⟩
        · exact ⟨hnew _ (by simp [Env.keys, NewRow.primaryKey, event]),
            by simp [NewRow.primaryKey]⟩
        · exact ⟨hledger, by simp [NewRow.primaryKey]⟩
    rw [Store.has_insert, hold.1, Bool.false_or]
    exact beq_eq_false_iff_ne.mpr hold.2.symm
  · have hreviewers : (c.reviewerRows.map NewRow.reviewer).map NewRow.primaryKey =
        c.payload.reviewerUserIds.map (PrimaryKey.reviewer c.workspaceId c.requestId) := by
      simp [reviewerRows, NewRow.primaryKey, Function.comp_def]
    rw [List.map_append, hreviewers]
    refine List.nodup_append.mpr ⟨?_, by simp [NewRow.primaryKey], ?_⟩
    · refine c.valid.reviewers_nodup.map ?_
      intro user user' h
      exact (PrimaryKey.reviewer.inj h).2.2
    · rintro _ hk _ hk' rfl
      obtain ⟨user, -, rfl⟩ := List.mem_map.mp hk
      simp [NewRow.primaryKey] at hk'
  · intro row hrow
    have hparent : ((σ.insert (.approvalRequest c.row)).request? c.workspaceId
        c.requestId).isSome = true := by
      change (List.find? _ (σ.approvalRequests ++ [c.row])).isSome = true
      rw [List.find?_isSome]
      exact ⟨c.row, List.mem_append_right _ List.mem_cons_self, by simp [Creation.row]⟩
    rcases List.mem_append.mp hrow with hrow | hrow
    · obtain ⟨r, hr, rfl⟩ := List.mem_map.mp hrow
      obtain ⟨user, -, rfl⟩ := List.mem_map.mp hr
      exact hparent
    · simp only [List.mem_cons, List.not_mem_nil, or_false] at hrow
      obtain rfl | rfl | rfl := hrow
      · exact hparent
      · exact hparent
      · rfl

theorem Store.Admits.split {σ : Store} {rows rows' : List NewRow} (h : σ.Admits (rows ++ rows')) :
    σ.Admits rows ∧ (approvalDb.view σ (rows.map .insert)).Admits rows' := by
  induction rows generalizing σ with
  | nil => exact ⟨trivial, h⟩
  | cons row rows ih =>
    obtain ⟨hfirst, hrest⟩ := ih h.2
    exact ⟨⟨h.1, hfirst⟩, hrest⟩

/-- The rows of the first flush only need an unused request id. -/
theorem Creation.firstRows_admits (hσ : σ.Registered)
    (h : σ.has (.approvalRequest c.requestId) = false) : σ.Admits c.firstRows := by
  have hunused : σ.Unused c.workspaceId c.requestId := ⟨h, fun _ => hσ.no_reviewers h⟩
  rw [← c.firstRows_eq]
  exact hunused.admits c.valid.reviewers_nodup

/-- Each of the rows can be inserted once those before it are. -/
theorem Store.Admits.insertable {rows pre : List NewRow} {row : NewRow} (h : σ.Admits rows)
    (hpre : pre ++ [row] <+: rows) :
    (approvalDb.view σ (pre.map .insert)).has row.primaryKey = false ∧
      (approvalDb.view σ (pre.map .insert)).hasParent row = true := by
  obtain ⟨rest, rfl⟩ := hpre
  exact h.split.1.split.2.1

theorem run_createRequest (h : σ.Admits c.firstRows) :
    (createRequest c.env c.workspaceId c.actorUserId c.payload.sourceType c.payload.sourceId
      c.payload.title c.payload.description c.payload.reviewerUserIds []).run approvalDb σ [] =
      ⟨.ok (toEntity fresh c.row c.payload.reviewerUserIds,
        [.auditLogEntry c.auditEntry, .outboxEvent c.event]), c.firstRows.map .insert,
        c.firstRows.map .insert ++ [.log c.logged]⟩ := by
  rw [createRequest_eq]
  refine Prog.run_bind_ok (run_insertAll (δ := []) h) (Prog.run_exec ?_)
  exact congrArg (fun δ => Outcome.mk _ δ _) (List.append_nil _)

end Create

/-! ## Deciding a request -/

section Decide

variable {σ : Store} {v : Verdict} {ws id : String} {row : ApprovalRequestRow}

/-- The statements of a decision after its check. -/
def Verdict.decides (v : Verdict) (σ : Store) (site : Nat) (ws id : String) : List Statement :=
  .updatePending ws id v.values :: σ.reads v.env site ws id

theorem run_transition (hσ : σ.Registered) (hrow : σ.request? ws id = some row)
    (hp : row.status = .pending) :
    (transition v.env ws id v.decision.newStatus v.actorUserId v.comment v.reason []).run
      approvalDb σ [] =
      ⟨.ok (toEntity fresh (row.decided v.values) (σ.shown v.env 1 row), []),
        [.update ws id v.values], v.decides σ 1 ws id⟩ := by
  have hcount : σ.pendingCount ws id = 1 := by rw [hσ.pendingCount_eq hrow, if_pos hp]
  have hupdated : (σ.update ws id v.values).request? ws id = some (row.decided v.values) := by
    obtain ⟨-, rfl, rfl⟩ := Store.request?_some hrow
    rw [Store.request?_update, hrow, Option.map_some, if_pos ⟨rfl, rfl⟩]
  have hreads : (σ.update ws id v.values).reads v.env 1 ws id = σ.reads v.env 1 ws id := by
    rw [Store.reads, Store.reads, hupdated, hrow]
    rfl
  have hget := @run_get σ [.update ws id v.values] v.env 1 ws id
  change _ = Outcome.mk (.ok (((σ.update ws id v.values).request? ws id).map _, _)) _
    ((σ.update ws id v.values).reads v.env 1 ws id) at hget
  rw [hupdated, hreads] at hget
  rw [transition_eq]
  refine Prog.run_exec ?_
  change (afterUpdate v.env ws id (σ.pendingCount ws id)).run approvalDb σ
    (if σ.pendingCount ws id = 0 then [] else [.update ws id v.values]) = _
  rw [hcount]
  refine (Prog.run_bind_ok hget rfl).trans ?_
  exact congrArg (Outcome.mk _ _) (List.append_nil _)

theorem run_transition_late (hσ : σ.Registered) (hrow : σ.request? ws id = some row)
    (hp : row.status ≠ .pending) :
    (transition v.env ws id v.decision.newStatus v.actorUserId v.comment v.reason []).run
      approvalDb σ [] =
      ⟨.error (.invalidTransitionError id row.status), [], v.decides σ 2 ws id⟩ := by
  have hcount : σ.pendingCount ws id = 0 := by rw [hσ.pendingCount_eq hrow, if_neg hp]
  have hget := @run_get σ [] v.env 2 ws id
  rw [Database.view_nil, hrow] at hget
  rw [transition_eq]
  refine Prog.run_exec ?_
  change (afterUpdate v.env ws id (σ.pendingCount ws id)).run approvalDb σ
    (if σ.pendingCount ws id = 0 then [] else [.update ws id v.values]) = _
  rw [hcount]
  refine (Prog.run_bind_ok hget rfl).trans ?_
  exact congrArg (Outcome.mk _ _) (List.append_nil _)

theorem run_decideRequest_missing (hrow : σ.request? ws id = none) :
    (decideRequest v.env v.decision ws id v.actorUserId v.comment v.reason []).run approvalDb σ [] =
      ⟨.error (.approvalRequestNotFoundError id), [], σ.reads v.env 0 ws id⟩ := by
  have hget := @run_get σ [] v.env 0 ws id
  rw [Database.view_nil, hrow] at hget
  rw [decideRequest_eq]
  refine (Prog.run_bind_ok hget rfl).trans ?_
  exact congrArg (Outcome.mk _ _) (List.append_nil _)

/-- A decision on a request that is there, up to its check. -/
theorem run_decideRequest_found (hrow : σ.request? ws id = some row)
    {r : Except Exn (ApprovalRequest × List NewRow)} {δ : List Write} {t : List Statement}
    (hrest : ((requireEntitled id (toEntity fresh row (σ.shown v.env 0 row)) v.actorUserId
      v.decision []).bind (fun q => decideInternal v.env ws id v.decision.newStatus v.actorUserId
        v.comment v.reason v.decision.auditAction v.decision.eventType q.2)).run approvalDb σ [] =
      ⟨r, δ, t⟩) :
    (decideRequest v.env v.decision ws id v.actorUserId v.comment v.reason []).run approvalDb σ [] =
      ⟨r, δ, σ.reads v.env 0 ws id ++ t⟩ := by
  have hget := @run_get σ [] v.env 0 ws id
  rw [Database.view_nil, hrow] at hget
  rw [decideRequest_eq]
  exact Prog.run_bind_ok hget hrest

theorem run_decideRequest_refused (hrow : σ.request? ws id = some row)
    (hdenied : ¬ v.decision.Entitled row.createdByUserId (σ.reviewerIds ws id) v.actorUserId) :
    (decideRequest v.env v.decision ws id v.actorUserId v.comment v.reason []).run
      approvalDb σ [] = ⟨.error (.notAuthorizedForDecisionError id v.actorUserId
        v.decision.refusal), [], σ.reads v.env 0 ws id⟩ := by
  obtain ⟨-, rfl, rfl⟩ := Store.request?_some hrow
  have hentity : ¬ v.decision.Entitled row.createdByUserId (σ.shown v.env 0 row)
      v.actorUserId := fun h => hdenied (h.perm (σ.shown_perm v.env 0 row))
  have hrun : (requireEntitled row.id (toEntity fresh row (σ.shown v.env 0 row)) v.actorUserId
      v.decision []).run approvalDb σ [] = ⟨.error (.notAuthorizedForDecisionError row.id
        v.actorUserId v.decision.refusal), [], []⟩ :=
    congrArg (fun p => p.run approvalDb σ []) (@requireEntitled_refused v.decision
      (toEntity fresh row (σ.shown v.env 0 row)) row.id v.actorUserId rfl hentity [])
  refine (run_decideRequest_found hrow (Prog.run_bind_error _ hrun)).trans ?_
  exact congrArg (Outcome.mk _ _) (List.append_nil _)

theorem run_decideRequest_denied (hrow : σ.request? ws id = some row)
    (hdenied : ¬ v.decision.Entitled row.createdByUserId (σ.reviewerIds ws id) v.actorUserId) :
    ∃ reason, (decideRequest v.env v.decision ws id v.actorUserId v.comment v.reason []).run
      approvalDb σ [] = ⟨.error (.notAuthorizedForDecisionError id v.actorUserId reason), [],
        σ.reads v.env 0 ws id⟩ :=
  ⟨v.decision.refusal, run_decideRequest_refused hrow hdenied⟩

theorem requireEntitled_shown (hrow : σ.request? ws id = some row)
    (hentitled : v.decision.Entitled row.createdByUserId (σ.reviewerIds ws id) v.actorUserId) :
    requireEntitled id (toEntity fresh row (σ.shown v.env 0 row)) v.actorUserId v.decision [] =
      .ret ((), []) := by
  obtain ⟨-, rfl, rfl⟩ := Store.request?_some hrow
  exact @requireEntitled_ok v.decision (toEntity fresh row (σ.shown v.env 0 row)) v.actorUserId
    (hentitled.perm (σ.shown_perm v.env 0 row).symm) row.id []

theorem run_decideRequest_late (hσ : σ.Registered) (hrow : σ.request? ws id = some row)
    (hentitled : v.decision.Entitled row.createdByUserId (σ.reviewerIds ws id) v.actorUserId)
    (hp : row.status ≠ .pending) :
    (decideRequest v.env v.decision ws id v.actorUserId v.comment v.reason []).run approvalDb σ [] =
      ⟨.error (.invalidTransitionError id row.status), [],
        σ.reads v.env 0 ws id ++ v.decides σ 2 ws id⟩ := by
  refine run_decideRequest_found hrow ?_
  rw [requireEntitled_shown hrow hentitled, Prog.bind, decideInternal_eq]
  exact Prog.run_bind_error _ (run_transition_late hσ hrow hp)

theorem run_decideRequest (hσ : σ.Registered) (hrow : σ.request? ws id = some row)
    (hentitled : v.decision.Entitled row.createdByUserId (σ.reviewerIds ws id) v.actorUserId)
    (hp : row.status = .pending) :
    (decideRequest v.env v.decision ws id v.actorUserId v.comment v.reason []).run approvalDb σ [] =
      ⟨.ok (toEntity fresh (row.decided v.values) (σ.shown v.env 1 row),
        [.auditLogEntry (v.auditEntry ws id), .outboxEvent (v.event ws id)]),
        [.update ws id v.values], σ.reads v.env 0 ws id ++ (v.decides σ 1 ws id ++
          [.log (decisionLogged ws id v.actorUserId v.decision.auditAction
            v.decision.newStatus)])⟩ := by
  refine run_decideRequest_found hrow ?_
  rw [requireEntitled_shown hrow hentitled, Prog.bind, decideInternal_eq]
  exact Prog.run_bind_ok (run_transition hσ hrow hp) (Prog.run_exec rfl)

end Decide

end ContentApproval
