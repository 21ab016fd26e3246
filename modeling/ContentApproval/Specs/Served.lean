import ContentApproval.Registry.Ledger
import ContentApproval.Specs.Undisturbed

/-!
# Whole calls that nobody interferes with

What an authorized and valid call commits, answers and sends when it is served alone in a
store that was built up by the service: `serve_get`, `serve_list`, and for the calls with a
body `serve_found`, `serve_created`, `serve_undecided` and `serve_decided`. A caller who may
not call the endpoint is told so (`serve_denied`).
-/

namespace ContentApproval

open Transactions SqlApprovalRequestRepository AsyncSession ApprovalService Idempotency

/-! ## The answer and the end of a transaction -/

section Ends

variable {α : Type} {m : Prog Reply Exn (α × List NewRow)} {f : α → Answer} {σ : Store} {a : α}
  {pending : List NewRow} {δ : List Write} {t : List Statement}

/-- An endpoint that has returned `a` and left some rows to the last flush. -/
theorem serve_ok (h : m.run approvalDb σ [] = ⟨.ok (a, pending), δ, t⟩)
    (hadmits : (approvalDb.view σ δ).Admits pending) :
    (m.bind (fun p => .ret (f p.1, insertAll p.2))).serve approvalDb σ =
      (approvalDb.view σ (δ ++ pending.map .insert), .committed (f a) (δ ++ pending.map .insert),
        t ++ pending.map .insert) := by
  have hbody : (m.bind (fun p => .ret (f p.1, insertAll p.2))).run approvalDb σ [] =
      ⟨.ok (f a, insertAll pending), δ, t ++ []⟩ := Prog.run_bind_ok h rfl
  rw [Prog.serve_of_run hbody (run_insertAll hadmits), List.append_nil]

theorem serve_error {e : Exn} (h : m.run approvalDb σ [] = ⟨.error e, δ, t⟩) :
    (m.bind (fun p => .ret (f p.1, insertAll p.2))).serve approvalDb σ = (σ, .failed e, t) :=
  Prog.serve_of_raise (Prog.run_bind_error _ h)

end Ends

/-! ## Calls that are not allowed -/

/-- The check of the caller raises. -/
theorem serve_refused {app : App} {call : Call} {σ : Store} {document : Option Json}
    (hdoc : call.operation.body.document? = some document) {e : Exn} {t : List Statement}
    (h : (AuthDependencies.requireAction call.operation.requiredAction app.provider
      call.authorization call.workspaceId []).run approvalDb σ [] = ⟨.error e, [], t⟩) :
    (request app call).serve approvalDb σ = (σ, .failed e, t) := by
  have hrun : (handle app call []).run approvalDb σ [] = ⟨.error e, [], t⟩ := by
    unfold handle
    rw [tx_bind, parseBody_eq, hdoc, Prog.bind, tx_bind]
    exact Prog.run_bind_error _ h
  exact Prog.serve_of_raise (Prog.run_bind_error _ hrun)

/-- What the check of a caller raises who may not call the endpoint. -/
theorem requireAction_denied {Body : Type} {app : App} {call : Call Body} {P : Principal}
    (hauth : app.provider.authenticate call.authorization = .ok P) (hby : ¬ call.By app P) :
    ∃ record detail, AuthDependencies.requireAction call.operation.requiredAction app.provider
      call.authorization call.workspaceId [] =
        .exec (.log record) (fun _ => .throw (.httpException 403 detail)) := by
  rw [requireAction_eq, hauth]
  dsimp only
  split_ifs with hws haction
  · exact ⟨_, _, rfl⟩
  · exact ⟨_, _, rfl⟩
  · exact absurd ⟨hauth, not_not.mp hws, Bool.not_eq_false _ ▸ haction⟩ hby

theorem serve_denied {app : App} {call : Call} {P : Principal} {σ : Store}
    (hauth : app.provider.authenticate call.authorization = .ok P) (hby : ¬ call.By app P)
    {document : Option Json} (hdoc : call.operation.body.document? = some document) :
    ∃ record detail, (request app call).serve approvalDb σ =
      (σ, .failed (.httpException 403 detail), [.log record]) := by
  obtain ⟨record, detail, hdenied⟩ := requireAction_denied hauth hby
  refine ⟨record, detail, serve_refused hdoc ?_⟩
  rw [hdenied]
  rfl

/-- A caller whose credentials the provider rejects. -/
theorem serve_unauthorized {app : App} {call : Call} {σ : Store} {message : String}
    (hauth : app.provider.authenticate call.authorization = .error (.invalidCredentials message))
    {document : Option Json} (hdoc : call.operation.body.document? = some document) :
    (request app call).serve approvalDb σ = (σ, .failed (.httpException 401 message),
      [.log ⟨.warning, AuthDependencies.logger, "authentication failed", [("reason", message)],
        none⟩]) := by
  refine serve_refused hdoc ?_
  rw [requireAction_eq, hauth]
  rfl

/-- The provider raises something else. -/
theorem serve_authentication_error {app : App} {call : Call} {σ : Store} {detail : String}
    (hauth : app.provider.authenticate call.authorization = .error (.other detail))
    {document : Option Json} (hdoc : call.operation.body.document? = some document) :
    (request app call).serve approvalDb σ = (σ, .failed (.unexpected detail), []) := by
  refine serve_refused hdoc ?_
  rw [requireAction_eq, hauth]
  rfl

/-! ## Reading -/

section Reading

variable {app : App} {call : Call} {P : Principal} {σ : Store}

theorem serve_get (hby : call.By app P) {id : String} (hop : call.operation = .get id)
    {row : ApprovalRequestRow} (hrow : σ.request? call.workspaceId id = some row) :
    (request app call).serve approvalDb σ = (σ, .committed ⟨200, .request (.ofEntity
      (toEntity fresh row (σ.shown call.env 0 row)))⟩ [], σ.reads call.env 0 call.workspaceId id) := by
  rw [request_get hby hop]
  refine (serve_ok (f := fun e => ⟨200, .request (.ofEntity e)⟩) (run_getRequest hrow) trivial).trans ?_
  simp only [List.map_nil, List.append_nil, Database.view_nil]

theorem serve_get_missing (hby : call.By app P) {id : String} (hop : call.operation = .get id)
    (hrow : σ.request? call.workspaceId id = none) : (request app call).serve approvalDb σ =
      (σ, .failed (.approvalRequestNotFoundError id), σ.reads call.env 0 call.workspaceId id) := by
  rw [request_get hby hop]
  exact serve_error (f := fun e => ⟨200, .request (.ofEntity e)⟩) (run_getRequest_missing hrow)

theorem serve_list (hby : call.By app P) {status : Option String} {limit offset : QueryInt}
    {filter : Option ApprovalStatus} {l o : Nat}
    (hop : call.operation = .list status limit offset)
    (hparams : listParameters status limit offset = .ok (filter, l, o)) :
    (request app call).serve approvalDb σ = (σ, .committed (listAnswer call.env
      (σ.page call.workspaceId filter l o)
      (σ.loaded (call.env.rowOrder 0) (σ.page call.workspaceId filter l o))
      (σ.matching call.workspaceId filter).length l o) [],
      σ.lists call.env call.workspaceId filter l o) := by
  have hrun : (afterPage call.env (σ.matching call.workspaceId filter).length l o
      (σ.page call.workspaceId filter l o)).run approvalDb σ [] = ⟨.ok (listAnswer call.env
        (σ.page call.workspaceId filter l o)
        (σ.loaded (call.env.rowOrder 0) (σ.page call.workspaceId filter l o))
        (σ.matching call.workspaceId filter).length l o, .ret ()), [],
        if (σ.page call.workspaceId filter l o).isEmpty then []
        else [.selectReviewers ((σ.page call.workspaceId filter l o).map (fun row =>
          (row.workspaceId, row.id))) (call.env.rowOrder 0)]⟩ := by
    cases σ.page call.workspaceId filter l o <;> rfl
  rw [request_list hby hop hparams]
  refine (Prog.serve_of_run (Prog.run_exec (Prog.run_exec hrun)) rfl).trans ?_
  rw [List.append_nil]
  rfl

end Reading

/-! ## The ledger -/

section Keyed

variable {sha256 : String → String} {env : Env} {ws route : String} {key : Option String}
  {payload : Json} {handler : Tx (ApprovalRequestOut × Nat)} {σ : Store} {δ : List Write}
  {t : List Statement}

/-- The lookup of a call that has a key. -/
def keyLookup (ws route : String) (key : Option String) : List Statement :=
  key.toList.map (.selectKey ws route)

/-- The ledger row of a call that has a key. -/
def keyRows (sha256 : String → String) (env : Env) (ws route : String) (key : Option String)
    (payload : Json) (result : ApprovalRequestOut × Nat) : List NewRow :=
  key.toList.map (fun k => .idempotencyKey ⟨ws, route, k, fingerprint sha256 payload, result.2,
    result.1.modelDump, env.keyCreatedAt⟩)

/-- The handler raises. -/
theorem run_new_error (hkey : ∀ k ∈ key, σ.key? ws route k = none) {fp : String} {e : Exn}
    (h : (handler []).run approvalDb σ [] = ⟨.error e, δ, t⟩) :
    (runIdempotentWith env ws route key fp handler []).run approvalDb σ [] =
      ⟨.error e, δ, keyLookup ws route key ++ t⟩ := by
  cases key with
  | none => exact h
  | some k =>
    rw [runIdempotentWith_some]
    refine Prog.run_exec ?_
    change (afterLookup env ws route k fp handler (σ.key? ws route k)).run approvalDb σ [] = _
    rw [hkey k rfl]
    exact Prog.run_bind_error _ h

variable {result : ApprovalRequestOut × Nat} {pending : List NewRow}

/-- The handler returns; then the rows that it has left are flushed with the ledger row, or
without a key after the answer. -/
theorem serve_new (hkey : ∀ k ∈ key, σ.key? ws route k = none)
    (h : (handler []).run approvalDb σ [] = ⟨.ok (result, pending), δ, t⟩)
    (hadmits : (approvalDb.view σ δ).Admits
      (pending ++ keyRows sha256 env ws route key payload result)) :
    ((runIdempotent sha256 env ws route key payload handler []).bind
      (fun p => .ret (respond p))).serve approvalDb σ =
      (approvalDb.view σ (δ ++ (pending ++ keyRows sha256 env ws route key payload result).map .insert),
        .committed ⟨result.2, .request result.1⟩
          (δ ++ (pending ++ keyRows sha256 env ws route key payload result).map .insert),
        keyLookup ws route key ++ (t ++
          (pending ++ keyRows sha256 env ws route key payload result).map .insert)) := by
  cases key with
  | none =>
    rw [keyRows, Option.toList_none, List.map_nil, List.append_nil] at hadmits ⊢
    exact serve_ok (f := fun r => ⟨r.2, .request r.1⟩) h hadmits
  | some k =>
    have hrun : (runIdempotent sha256 env ws route (some k) payload handler []).run approvalDb σ [] =
        ⟨.ok (result, []),
          δ ++ (pending ++ keyRows sha256 env ws route (some k) payload result).map .insert,
          .selectKey ws route k :: (t ++ ((pending ++ keyRows sha256 env ws route (some k) payload
            result).map .insert ++ []))⟩ := by
      rw [runIdempotent_some]
      refine Prog.run_exec ?_
      change (afterLookup env ws route k (fingerprint sha256 payload) handler
        (σ.key? ws route k)).run approvalDb σ [] = _
      rw [hkey k rfl]
      exact Prog.run_bind_ok h (Prog.run_bind_ok (run_ledgerFlush hadmits) rfl)
    refine (serve_ok (f := fun r => ⟨r.2, .request r.1⟩) hrun trivial).trans ?_
    simp only [List.map_nil, List.append_nil]
    rfl

end Keyed

/-! ## Creating -/

section Create

variable {app : App} {call : Call} {P : Principal} {σ : Store} {key : String} {body : RawBody}
  {document : Option Json} {payload : ApprovalRequestCreate}

/-- What a create call is accepted with. -/
def Call.creation (app : App) (call : Call) (P : Principal) (key : String)
    (payload : ApprovalRequestCreate)
    (accepted : ∃ fields, ApprovalRequestCreate.modelValidate fields = .ok payload) : Creation :=
  ⟨call.env, call.workspaceId, P.userId, payload, key, fingerprint app.sha256 payload.modelDump,
    accepted⟩

/-- The statements of a create that runs its handler. -/
def Creation.sends (c : Creation) : List Statement :=
  .selectKey c.workspaceId "create" c.idempotencyKey ::
    (c.firstRows.map .insert ++ [.log c.logged] ++ c.lastRows.map .insert)

theorem serve_created (hby : call.By app P) (hop : call.operation = .create (some key) body)
    (hdoc : body.document? = some document) (hkey : KeyAccepted key)
    (hpayload : validateBody ApprovalRequestCreate.modelValidate document = .ok payload)
    (hσ : σ.Registered) (hnew : call.env.New σ)
    (hledger : σ.key? call.workspaceId "create" key = none)
    {accepted : ∃ fields, ApprovalRequestCreate.modelValidate fields = .ok payload} {c : Creation}
    (hc : c = call.creation app P key payload accepted) : (request app call).serve approvalDb σ =
      (approvalDb.view σ c.writes, .committed ⟨201, .request c.out⟩ c.writes, c.sends) := by
  have henv : c.env = call.env := by rw [hc]; rfl
  have hws : c.workspaceId = call.workspaceId := by rw [hc]; rfl
  have hk : c.idempotencyKey = key := by rw [hc]; rfl
  have hadmits : σ.Admits (c.firstRows ++ c.lastRows) :=
    Creation.admits hσ (by rw [henv]; exact hnew) (by rw [hws, hk]; exact hledger)
  obtain ⟨hfirst, hlast⟩ := hadmits.split
  have hhandler := Prog.run_bind_ok (run_createRequest hfirst) (f := fun p =>
    .ret ((ApprovalRequestOut.ofEntity p.1, 201), p.2)) rfl
  subst hc
  rw [request_create hby hop hdoc hkey hpayload]
  refine (serve_new (fun k (hk : k ∈ some key) => Option.some.inj hk ▸ hledger) hhandler
    hlast).trans ?_
  rw [Creation.writes_eq, Creation.sends, List.append_nil]
  rfl

end Create

/-! ## Deciding -/

section Decide

variable {app : App} {call : Call} {P : Principal} {σ : Store} {d : Decision} {id : String}
  {key : Option String} {body : RawBody} {document : Option Json} {b : DecisionBody}

/-- What a decision call is accepted with. -/
def Call.verdict (app : App) (call : Call) (P : Principal) (d : Decision) (key : Option String)
    (b : DecisionBody) (shown : List String) (accepted : d.Accepts b.comment b.reason) : Verdict :=
  ⟨call.env, d, P.userId, b.comment, b.reason, shown,
    key.map (fun k => (k, fingerprint app.sha256 b.payload)), accepted⟩

/-- The handler of a decision raises. -/
theorem serve_undecided (hby : call.By app P) (hop : call.operation = .decide d id key body)
    (hdoc : body.document? = some document) (hkey : ∀ k ∈ key, KeyAccepted k)
    (hb : d.readBody document = .ok b)
    (hledger : ∀ k ∈ key, σ.key? call.workspaceId (d.route id) k = none) {e : Exn}
    {δ : List Write} {t : List Statement}
    (h : (decideRequest call.env d call.workspaceId id P.userId b.comment b.reason []).run
      approvalDb σ [] = ⟨.error e, δ, t⟩) : (request app call).serve approvalDb σ =
      (σ, .failed e, keyLookup call.workspaceId (d.route id) key ++ t) := by
  have hhandler := Prog.run_bind_error (fun p : ApprovalRequest × List NewRow => .ret
    ((ApprovalRequestOut.ofEntity p.1, 200), p.2)) h
  rw [request_decide hby hop hdoc hkey hb]
  refine serve_error (f := fun r => ⟨r.2, .request r.1⟩) (run_new_error (δ := δ) hledger ?_)
  exact hhandler

/-- The rows of a decision with new ids can be inserted. -/
theorem Verdict.admits {v : Verdict} {ws : String} {row : ApprovalRequestRow}
    (haudit : σ.has (.auditLogEntry v.env.auditId) = false)
    (hevent : σ.has (.outboxEvent v.env.eventId) = false) (hrow : σ.request? ws id = some row)
    (hledger : ∀ k ∈ v.key, σ.key? ws (v.decision.route id) k.1 = none) :
    (σ.update ws id v.values).Admits (v.newRows ws id row) := by
  have hparent : ((σ.update ws id v.values).request? ws id).isSome = true := by
    rw [Store.request?_update, hrow]
    rfl
  refine Store.admits ?_ ?_ ?_
  · intro r hr
    rw [Store.has_update]
    rcases List.mem_cons.mp hr with rfl | hr
    · exact haudit
    rcases List.mem_cons.mp hr with rfl | hr
    · exact hevent
    obtain ⟨r', hr', rfl⟩ := List.mem_map.mp hr
    obtain ⟨k, fp, hk, rfl⟩ := ledgerRow?_some (Option.mem_toList.mp hr')
    change σ.has (.idempotencyKey _ _ _) = false
    rw [← Store.key?_isSome, hledger _ hk]
    rfl
  · cases hl : v.ledgerRow? ws id row <;> simp [newRows, hl, NewRow.primaryKey]
  · intro r hr
    rcases List.mem_cons.mp hr with rfl | hr
    · exact hparent
    rcases List.mem_cons.mp hr with rfl | hr
    · exact hparent
    obtain ⟨r', -, rfl⟩ := List.mem_map.mp hr
    rfl

/-- The statements of a decision that goes through. -/
def Verdict.sends (v : Verdict) (σ : Store) (ws id : String) (row : ApprovalRequestRow)
    (key : Option String) : List Statement :=
  keyLookup ws (v.decision.route id) key ++ (σ.reads v.env 0 ws id ++ (v.decides σ 1 ws id ++
    [.log (decisionLogged ws id v.actorUserId v.decision.auditAction v.decision.newStatus)]) ++
    (v.newRows ws id row).map .insert)

theorem serve_decided (hby : call.By app P) (hop : call.operation = .decide d id key body)
    (hdoc : body.document? = some document) (hkey : ∀ k ∈ key, KeyAccepted k)
    (hb : d.readBody document = .ok b) (hσ : σ.Registered)
    (haudit : σ.has (.auditLogEntry call.env.auditId) = false)
    (hevent : σ.has (.outboxEvent call.env.eventId) = false)
    (hledger : ∀ k ∈ key, σ.key? call.workspaceId (d.route id) k = none)
    {row : ApprovalRequestRow} (hrow : σ.request? call.workspaceId id = some row)
    (hentitled : d.Entitled row.createdByUserId (σ.reviewerIds call.workspaceId id) P.userId)
    (hp : row.status = .pending) {accepted : d.Accepts b.comment b.reason} {v : Verdict}
    (hv : v = call.verdict app P d key b (σ.shown call.env 1 row) accepted) :
    (request app call).serve approvalDb σ = (approvalDb.view σ (v.writes call.workspaceId id row),
      .committed ⟨200, .request (v.out row)⟩ (v.writes call.workspaceId id row),
      v.sends σ call.workspaceId id row key) := by
  have hactor : v.actorUserId = P.userId := by rw [hv]; rfl
  have hdecision : v.decision = d := by rw [hv]; rfl
  have henv : v.env = call.env := by rw [hv]; rfl
  have hkeys : ∀ k ∈ v.key, σ.key? call.workspaceId (v.decision.route id) k.1 = none := by
    intro k hk
    rw [hv] at hk
    obtain ⟨k', hk', rfl⟩ := Option.map_eq_some_iff.mp hk
    rw [hdecision]
    exact hledger k' hk'
  have hadmits := Verdict.admits (henv ▸ haudit) (henv ▸ hevent) hrow hkeys
  have hdecide := run_decideRequest (v := v) hσ hrow (by rw [hdecision, hactor]; exact hentitled) hp
  have hhandler := Prog.run_bind_ok hdecide (f := fun p =>
    .ret ((ApprovalRequestOut.ofEntity p.1, 200), p.2)) rfl
  have hrows : keyRows app.sha256 call.env call.workspaceId (d.route id) key b.payload
      (v.out row, 200) = (v.ledgerRow? call.workspaceId id row).toList.map .idempotencyKey := by
    subst hv
    cases key <;> rfl
  have hout : ApprovalRequestOut.ofEntity (toEntity fresh (row.decided v.values)
      (σ.shown v.env 1 row)) = v.out row := by
    rw [Verdict.out, toEntity_load]
    subst hv
    rfl
  rw [hout] at hhandler
  subst hv
  rw [request_decide hby hop hdoc hkey hb]
  refine (serve_new hledger hhandler ?_).trans ?_
  · rw [hrows]
    exact hadmits
  · rw [hrows, Verdict.sends, List.append_nil]
    rfl

end Decide

/-! ## Calls whose key is in the ledger -/

theorem afterLookup_stored (env : Env) (ws route key fp : String)
    (handler : Tx (ApprovalRequestOut × Nat)) {r : IdempotencyKey} {out : ApprovalRequestOut}
    (hout : ApprovalRequestOut.modelValidate r.responseBody = some out) :
    afterLookup env ws route key fp handler (some r) =
      if r.requestFingerprint ≠ fp then .throw keyReused
      else .ret ((out, r.responseStatus), []) := by
  unfold afterLookup
  dsimp only
  rw [hout]

/-- A request that looks up a key and finds it is replayed, or refused because its fingerprint
is another one. -/
theorem serve_keyed {env : Env} {ws route key fp : String} {handler : Tx (ApprovalRequestOut × Nat)}
    {σ : Store} {r : IdempotencyKey} (hfound : σ.key? ws route key = some r)
    {out : ApprovalRequestOut} (hout : ApprovalRequestOut.modelValidate r.responseBody = some out) :
    Prog.serve approvalDb (.exec (.selectKey ws route key) (fun existing? =>
      (afterLookup env ws route key fp handler existing?).bind (fun p => .ret (respond p)))) σ =
      (σ, if r.requestFingerprint ≠ fp then .failed keyReused
        else .committed ⟨r.responseStatus, .request out⟩ [], [.selectKey ws route key]) := by
  have hnext : (afterLookup env ws route key fp handler
      (approvalDb.exec (.selectKey ws route key) σ).1).bind (fun p => .ret (respond p)) =
      if r.requestFingerprint ≠ fp then .throw keyReused
      else .ret (⟨r.responseStatus, .request out⟩, .ret ()) := by
    change (afterLookup env ws route key fp handler (σ.key? ws route key)).bind _ = _
    rw [hfound, afterLookup_stored _ _ _ _ _ _ hout]
    split_ifs <;> rfl
  by_cases hfp : r.requestFingerprint = fp
  · rw [if_neg (not_not.mpr hfp)] at hnext ⊢
    have hrun : Prog.run approvalDb (.exec (.selectKey ws route key) (fun existing? =>
        (afterLookup env ws route key fp handler existing?).bind (fun p => .ret (respond p)))) σ [] =
          ⟨.ok (⟨r.responseStatus, .request out⟩, .ret ()), [], [.selectKey ws route key]⟩ :=
      Prog.run_exec_ret hnext
    exact Prog.serve_of_run hrun rfl
  · rw [if_pos hfp] at hnext ⊢
    refine Prog.serve_of_raise (δ := []) (Prog.run_exec ?_)
    exact congrArg (fun p => p.run approvalDb σ []) hnext

/-- The call is replayed, or refused because its body is another one. -/
theorem serve_found {app : App} {call : Call} {P : Principal} {σ : Store} (hby : call.By app P)
    {route key : String} (hkey : call.operation.ledgerKey = some (route, key)) (hok : KeyAccepted key)
    {payload : Json} (hbody : call.operation.normalized = some payload) {r : IdempotencyKey}
    (hfound : σ.key? call.workspaceId route key = some r) {out : ApprovalRequestOut}
    (hout : ApprovalRequestOut.modelValidate r.responseBody = some out) :
    (request app call).serve approvalDb σ = (σ,
      if r.requestFingerprint ≠ fingerprint app.sha256 payload then .failed keyReused
      else .committed ⟨r.responseStatus, .request out⟩ [],
      [.selectKey call.workspaceId route key]) := by
  obtain ⟨handler, hprogram⟩ := request_keyed hby hkey hok hbody
  rw [hprogram]
  exact serve_keyed hfound hout

end ContentApproval
