import ContentApproval.Specs.Repository

/-!
# What the service functions do among other transactions

`createRequest_wp` and `decideRequest_wp`: what the service has written, what it has
left to flush and what it knows of the store when it returns, and what a decision that
raises knows of it (`DecisionFailure`).
-/

namespace ContentApproval

open Transactions SqlApprovalRequestRepository AsyncSession ApprovalService

/-! ## Programs -/

theorem forM_add_eq (f : String → NewRow) (ids : List String) (pending : List NewRow) :
    (ids.forM (fun id => add (f id))) pending = .ret ((), pending ++ ids.map f) := by
  induction ids generalizing pending with
  | nil => simp [tx_pure]
  | cons id ids ih =>
    change (add (f id) >>= fun _ => ids.forM (fun id => add (f id))) pending = _
    rw [tx_bind, add_eq, Prog.bind, ih]
    simp

/-- The row of a new request. -/
def createdRow (env : Env) (requestId ws user : String) (p : ApprovalRequestCreate) :
    ApprovalRequestRow where
  id := requestId
  workspaceId := ws
  sourceType := p.sourceType
  sourceId := p.sourceId
  title := p.title
  description := p.description
  status := .pending
  createdByUserId := user
  createdAt := env.createdAt
  updatedAt := env.updatedAt
  decidedByUserId := none
  decidedAt := none
  decisionComment := none
  decisionReason := none

/-- The rows that `create` flushes. -/
def createdRows (env : Env) (requestId ws user : String) (p : ApprovalRequestCreate) : List NewRow :=
  .approvalRequest (createdRow env requestId ws user p) ::
    p.reviewerUserIds.map (fun id => .reviewer ⟨ws, requestId, id⟩)

/-- `create` in a session with nothing to flush. -/
theorem create_eq (env : Env) (requestId ws user : String) (p : ApprovalRequestCreate) :
    create env requestId ws user p.sourceType p.sourceId p.title p.description p.reviewerUserIds [] =
      (insertAll (createdRows env requestId ws user p)).bind (fun _ =>
        .ret (toEntity fresh (createdRow env requestId ws user p) p.reviewerUserIds, [])) := by
  unfold create
  rw [tx_bind, add_eq, Prog.bind, tx_bind, forM_add_eq, Prog.bind, tx_bind, flush_eq,
    Prog.bind_assoc]
  rfl

/-- The rows that a create flushes first. -/
def Creation.firstRows (c : Creation) : List NewRow :=
  .approvalRequest c.row :: c.reviewerRows.map .reviewer

theorem Creation.firstRows_eq (c : Creation) :
    createdRows c.env c.env.requestId c.workspaceId c.actorUserId c.payload = c.firstRows := by
  rw [firstRows, reviewerRows, List.map_map]
  rfl

def Creation.logged (c : Creation) : LogRecord :=
  ⟨.info, logger, "approval request created", [("workspace_id", c.workspaceId),
    ("request_id", c.requestId), ("actor_user_id", c.actorUserId)], none⟩

/-- `create_request` in a session with nothing to flush. -/
theorem createRequest_eq (c : Creation) :
    createRequest c.env c.workspaceId c.actorUserId c.payload.sourceType c.payload.sourceId
      c.payload.title c.payload.description c.payload.reviewerUserIds [] =
      (insertAll c.firstRows).bind (fun _ => .exec (.log c.logged) (fun _ =>
        .ret (toEntity fresh c.row c.payload.reviewerUserIds,
          [.auditLogEntry c.auditEntry, .outboxEvent c.event]))) := by
  unfold createRequest
  rw [tx_bind, create_eq, c.firstRows_eq, Prog.bind_assoc]
  rfl

/-- The log record of a decision. -/
def decisionLogged (ws id actor : String) (action : AuditAction) (status : ApprovalStatus) :
    LogRecord :=
  ⟨.info, logger, "approval request " ++ action.value, [("workspace_id", ws), ("request_id", id),
    ("actor_user_id", actor), ("new_status", status.value)], none⟩

/-- `_decide` in a session with nothing to flush. -/
theorem decideInternal_eq (v : Verdict) (ws id : String) :
    decideInternal v.env ws id v.decision.newStatus v.actorUserId v.comment v.reason
      v.decision.auditAction v.decision.eventType [] =
      (transition v.env ws id v.decision.newStatus v.actorUserId v.comment v.reason []).bind
        (fun p => .exec (.log (decisionLogged ws id v.actorUserId v.decision.auditAction
            p.1.status))
          (fun _ => .ret (p.1, p.2 ++ [.auditLogEntry (v.auditEntry ws id)] ++
            [.outboxEvent { v.event ws id with
              payload := decisionPayload ws id p.1.status v.actorUserId }]))) := rfl

/-- `approve_request`, `reject_request` and `cancel_request` in such a session. -/
theorem decideRequest_eq (env : Env) (d : Decision) (ws id actor : String)
    (comment reason : Option String) :
    decideRequest env d ws id actor comment reason [] =
      (get env 0 ws id []).bind (fun p => match p.1 with
        | none => .throw (.approvalRequestNotFoundError id)
        | some request => (requireEntitled id request actor d p.2).bind (fun q =>
          decideInternal env ws id d.newStatus actor comment reason d.auditAction d.eventType
            q.2)) := by
  unfold decideRequest getOrRaise
  rw [tx_bind, tx_bind, Prog.bind_assoc]
  refine congrArg (Prog.bind _) (funext fun p => ?_)
  obtain ⟨_ | _, _⟩ := p <;> rfl

theorem requireEntitled_ok {d : Decision} {request : ApprovalRequest} {actor : String}
    (h : d.Entitled request.createdByUserId request.reviewerUserIds actor) (id : String)
    (pending : List NewRow) : requireEntitled id request actor d pending = .ret ((), pending) := by
  have hreviewer : request.reviewerUserIds = [] ∨ actor ∈ request.reviewerUserIds →
      requireReviewer request actor pending = .ret ((), pending) := by
    intro h
    unfold requireReviewer
    rw [if_neg (by tauto), tx_pure]
  cases d with
  | approve => exact hreviewer h
  | reject => exact hreviewer h
  | cancel =>
    have hactor : actor = request.createdByUserId := h
    simp only [requireEntitled, requireCreator]
    rw [if_neg (not_not.mpr hactor), tx_pure]

theorem requireEntitled_refused {d : Decision} {request : ApprovalRequest} {id actor : String}
    (hid : request.id = id)
    (h : ¬ d.Entitled request.createdByUserId request.reviewerUserIds actor)
    (pending : List NewRow) : requireEntitled id request actor d pending =
      .throw (.notAuthorizedForDecisionError id actor d.refusal) := by
  have hreviewer : ¬ (request.reviewerUserIds = [] ∨ actor ∈ request.reviewerUserIds) →
      requireReviewer request actor pending = .throw (.notAuthorizedForDecisionError id actor
        "user is not a listed reviewer for this request") := by
    intro h
    unfold requireReviewer
    rw [if_pos (by tauto), tx_throw, hid]
  cases d with
  | approve => exact hreviewer h
  | reject => exact hreviewer h
  | cancel =>
    have hactor : actor ≠ request.createdByUserId := h
    simp only [requireEntitled, requireCreator]
    rw [if_pos hactor, tx_throw]
    rfl

/-- Entitlement does not depend on the order of the reviewers. -/
theorem Decision.Entitled.perm {d : Decision} {createdBy actor : String} {l l' : List String}
    (h : l.Perm l') (hd : d.Entitled createdBy l actor) : d.Entitled createdBy l' actor := by
  have hmem : l = [] ∨ actor ∈ l → l' = [] ∨ actor ∈ l' := by
    rintro (rfl | hm)
    · exact Or.inl h.symm.eq_nil
    · exact Or.inr (h.mem_iff.mp hm)
  cases d with
  | approve => exact hmem hd
  | reject => exact hmem hd
  | cancel => exact hd

/-! ## Preconditions -/

section Specs

variable {D : Discipline approvalDb} {J : List Write → Store → Prop}

/-- The actor may take the decision on the request of the store. -/
def Store.Entitles (σ : Store) (ws id : String) (d : Decision) (actor : String) : Prop :=
  ∃ r, σ.request? ws id = some r ∧ d.Entitled r.createdByUserId (σ.reviewerIds ws id) actor

/-- Who was entitled stays entitled. -/
theorem Store.Evolves.entitles {σ σ' : Store} (h : σ.Evolves σ') {ws id : String} {d : Decision}
    {actor : String} (he : σ.Entitles ws id d actor) : σ'.Entitles ws id d actor := by
  obtain ⟨r, hr, he⟩ := he
  obtain ⟨r', hr', hb⟩ := h.request hr
  refine ⟨r', hr', ?_⟩
  rw [hb.createdByUserId, Store.reviewerIds, h.reviewers hr]
  exact he

/-- What a decision that raises knows of the store `σ` it began in and the store `σ'` it
ends in. -/
inductive DecisionFailure (σ σ' : Store) (ws id : String) (d : Decision) (actor : String) :
    Exn → Prop
  | notFound (h : σ.request? ws id = none) :
    DecisionFailure σ σ' ws id d actor (.approvalRequestNotFoundError id)
  | denied {r : ApprovalRequestRow} (h : σ'.request? ws id = some r)
    (hd : ¬ d.Entitled r.createdByUserId (σ'.reviewerIds ws id) actor) :
    DecisionFailure σ σ' ws id d actor (.notAuthorizedForDecisionError id actor d.refusal)
  | late {r : ApprovalRequestRow} (h : σ'.request? ws id = some r) (hr : r.status ≠ .pending)
    (he : σ'.Entitles ws id d actor) :
    DecisionFailure σ σ' ws id d actor (.invalidTransitionError id r.status)

/-- A decision among other transactions, with the order in which its response lists the
reviewers. -/
theorem decideRequest_listed_wp (hD : Approves D) (v : Verdict) {ws id : String}
    {Q : Except Exn (ApprovalRequest × List NewRow) → List Write → Store → Prop} {σ : Store}
    (hJ : ∀ σ₁, Here D J [] σ₁ → σ₁.Entitles ws id v.decision v.actorUserId →
      J [.update ws id v.values] σ₁)
    (hok : ∀ σ₁ row, Here D J [.update ws id v.values] σ₁ → σ₁.request? ws id = some row →
      σ₁.Entitles ws id v.decision v.actorUserId →
      Q (.ok (toEntity v.env.dialect.load (row.decided v.values) (σ₁.listed v.env 1 ws id),
        [.auditLogEntry (v.auditEntry ws id), .outboxEvent (v.event ws id)]))
        [.update ws id v.values] σ₁)
    (herr : ∀ σ₁ e, Here D J [] σ₁ → DecisionFailure σ σ₁ ws id v.decision v.actorUserId e →
      Q (.error e) [] σ₁) :
    Wp D J (decideRequest v.env v.decision ws id v.actorUserId v.comment v.reason []) Q [] σ := by
  rw [decideRequest_eq]
  refine Wp.bind (get_listed_wp hD (by simp [NoInserts]) ?_ ?_)
  · intro σ₁ σ₂ h₁ hnone h₂ σ₃ h₃
    refine herr σ₃ _ (here h₃) (.notFound ?_)
    rw [Option.eq_none_iff_forall_ne_some]
    intro r hr
    obtain ⟨r', hr', -⟩ := (hD.env h₁.env).request hr
    rw [Database.view_nil, hr'] at hnone
    cases hnone
  · intro σ₁ σ₂ row h₁ hrow h₂
    rw [Database.view_nil] at hrow
    have hshown := σ₂.listed_perm v.env 0 ws id
    obtain ⟨r, hr, hb⟩ := (hD.env h₂.env).request hrow
    have hid : row.id = id := (Store.request?_some hrow).2.2
    by_cases hent : v.decision.Entitled row.createdByUserId (σ₂.listed v.env 0 ws id)
        v.actorUserId
    · have he : σ₂.Entitles ws id v.decision v.actorUserId :=
        ⟨r, hr, by rw [hb.createdByUserId]; exact hent.perm hshown⟩
      have hreq := @requireEntitled_ok v.decision (toEntity v.env.dialect.load row
        (σ₂.listed v.env 0 ws id)) v.actorUserId hent id []
      simp only [hreq, Prog.bind]
      rw [decideInternal_eq]
      refine Wp.bind (transition_listed_wp hD rfl hr ?_ ?_ ?_)
      · intro σ₃ h₃
        exact hJ σ₃ (here h₃) ((hD.env h₃.env).entitles he)
      · intro σ₃ row' h₃ hev hrow'
        refine Wp.read (fun _ => rfl) fun σ₄ h₄ => fun σ₅ h₅ => ?_
        have hrow₅ := hD.own_env (h₄.env.trans h₅.env) List.mem_cons_self hrow'
        have hq := hok σ₅ row' (here h₅) hrow₅
          (((hev.trans (hD.env h₄.env)).trans (hD.env h₅.env)).entitles he)
        rw [(hD.env (h₄.env.trans h₅.env)).listed hrow'] at hq
        exact hq
      · intro σ₃ row' h₃ hev hrow' hp
        exact herr σ₃ _ h₃ (.late hrow' hp (hev.entitles he))
    · have hreq := @requireEntitled_refused v.decision
        (toEntity v.env.dialect.load row (σ₂.listed v.env 0 ws id)) id v.actorUserId hid hent []
      simp only [hreq, Prog.bind]
      intro σ₃ h₃
      obtain ⟨r₃, hr₃, hb₃⟩ := (hD.env h₃.env).request hr
      refine herr σ₃ _ (here h₃) (.denied hr₃ ?_)
      rw [hb₃.createdByUserId, hb.createdByUserId, Store.reviewerIds, (hD.env h₃.env).reviewers hr]
      exact fun hd => hent (hd.perm hshown.symm)

theorem decideRequest_wp (hD : Approves D) (v : Verdict) {ws id : String}
    {Q : Except Exn (ApprovalRequest × List NewRow) → List Write → Store → Prop} {σ : Store}
    (hJ : ∀ σ₁, Here D J [] σ₁ → σ₁.Entitles ws id v.decision v.actorUserId →
      J [.update ws id v.values] σ₁)
    (hok : ∀ σ₁ row shown, Here D J [.update ws id v.values] σ₁ → σ₁.request? ws id = some row →
      σ₁.Entitles ws id v.decision v.actorUserId → shown.Perm (σ₁.reviewerIds ws id) →
      Q (.ok (toEntity v.env.dialect.load (row.decided v.values) shown,
        [.auditLogEntry (v.auditEntry ws id), .outboxEvent (v.event ws id)]))
        [.update ws id v.values] σ₁)
    (herr : ∀ σ₁ e, Here D J [] σ₁ → DecisionFailure σ σ₁ ws id v.decision v.actorUserId e →
      Q (.error e) [] σ₁) :
    Wp D J (decideRequest v.env v.decision ws id v.actorUserId v.comment v.reason []) Q [] σ :=
  decideRequest_listed_wp hD v hJ
    (fun σ₁ row h₁ hrow he => hok σ₁ row _ h₁ hrow he (σ₁.listed_perm v.env 1 ws id)) herr

/-- A create among other transactions: a row of its first flush that could not be inserted ends
it. -/
theorem createRequest_raises_wp (hJ : InsertStable J) (c : Creation)
    {Q : Except Exn (ApprovalRequest × List NewRow) → List Write → Store → Prop} {σ : Store}
    (hok : ∀ σ₁, Here D J (c.firstRows.map .insert) σ₁ →
      Q (.ok (toEntity fresh c.row c.payload.reviewerUserIds,
        [.auditLogEntry c.auditEntry, .outboxEvent c.event])) (c.firstRows.map .insert) σ₁)
    (herr : ∀ pre row σ₁ σ₂, pre ++ [row] <+: c.firstRows → Here D J (pre.map .insert) σ₁ →
      ¬ ((approvalDb.view σ₁ (pre.map .insert)).has row.primaryKey = false ∧
        (approvalDb.view σ₁ (pre.map .insert)).hasParent row = true) →
      Found D J (pre.map .insert) σ₁ σ₂ → Q (.error .integrityError) (pre.map .insert) σ₂) :
    Wp D J (createRequest c.env c.workspaceId c.actorUserId c.payload.sourceType
      c.payload.sourceId c.payload.title c.payload.description c.payload.reviewerUserIds []) Q
      [] σ := by
  rw [createRequest_eq]
  refine Wp.bind (insertAll_wp hJ (fun _ => True) (fun _ _ _ => trivial) trivial ?_ ?_)
  · intro σ₁ h₁ _
    refine Wp.read (fun _ => rfl) fun σ₂ h₂ => fun σ₃ h₃ => ?_
    exact hok σ₃ (here h₃)
  · exact fun pre row σ₁ σ₂ hpre h₁ _ hfail h₂ => herr pre row σ₁ σ₂ hpre h₁ hfail h₂

theorem createRequest_wp (hJ : InsertStable J) (c : Creation)
    {Q : Except Exn (ApprovalRequest × List NewRow) → List Write → Store → Prop} {σ : Store}
    (hok : ∀ σ₁, Here D J (c.firstRows.map .insert) σ₁ →
      Q (.ok (toEntity fresh c.row c.payload.reviewerUserIds,
        [.auditLogEntry c.auditEntry, .outboxEvent c.event])) (c.firstRows.map .insert) σ₁)
    (herr : ∀ δ σ₁, Here D J δ σ₁ → Q (.error .integrityError) δ σ₁) :
    Wp D J (createRequest c.env c.workspaceId c.actorUserId c.payload.sourceType
      c.payload.sourceId c.payload.title c.payload.description c.payload.reviewerUserIds []) Q
      [] σ :=
  createRequest_raises_wp hJ c hok fun _ _ _ σ₂ _ _ _ h₂ => herr _ σ₂ (here h₂)

end Specs

end ContentApproval
