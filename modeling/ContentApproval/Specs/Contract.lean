import ContentApproval.Specs.Endpoints

/-!
# What a call promises

`Effect` says what the answer of a call rests on: a creation, a verdict, a row of the
ledger that is replayed, or nothing but reads. `contract` is the promise of a call to the
other calls and to its client; `request_meets` proves it for every call, and
`ApiWorld.sound` draws the conclusion for every interleaving of calls.
-/

namespace ContentApproval

open Transactions SqlApprovalRequestRepository AsyncSession ApprovalService Idempotency
  AuthDependencies

/-! ## Effects -/

/-- `P` is the caller, and may call the endpoint. -/
structure Call.By {Body : Type} (app : App) (call : Call Body) (P : Principal) : Prop where
  authenticated : app.provider.authenticate call.authorization = .ok P
  workspace : P.workspaceId = call.workspaceId
  action : P.hasAction call.operation.requiredAction = true

/-- The caller passes the authorization of its call. -/
theorem Call.By.requireAction {Body : Type} {app : App} {call : Call Body} {P : Principal}
    (hby : call.By app P)
    (pending : List NewRow) : requireAction call.operation.requiredAction app.provider
      call.authorization call.workspaceId pending = .ret (P, pending) := by
  rw [requireAction_eq, hby.authenticated]
  dsimp only
  rw [if_neg (not_not.mpr hby.workspace), if_neg (by rw [hby.action]; decide)]

/-- A call whose body parses and whose caller passes is its endpoint. -/
theorem request_by {app : App} {call : Call} {P : Principal} (hby : call.By app P)
    {document : Option Json} (hdoc : call.operation.body.document? = some document) :
    request app call = (endpoint app call P document []).bind
      (fun p => .ret (p.1, insertAll p.2)) := by
  have hparse : parseBody call.operation.body [] = .ret (document, []) := by
    rw [parseBody_eq, hdoc]
  change (handle app call []).bind _ = _
  unfold handle
  rw [tx_bind, hparse, Prog.bind, tx_bind, hby.requireAction, Prog.bind]

/-- What an answer to `P` rests on, with everything that the transaction writes. -/
inductive Effect (app : App) (call : Call) (P : Principal) (σ : Store) :
    Answer → List Write → Prop
  | read (a : Answer) (hop : call.operation.IsRead) : Effect app call P σ a []
  | created (c : Creation) {key : String} {body : RawBody}
    (hop : call.operation = .create (some key) body) (henv : c.env = call.env)
    (hws : c.workspaceId = call.workspaceId) (hactor : c.actorUserId = P.userId)
    (hkey : c.idempotencyKey = key)
    (hbody : call.operation.normalized = some c.payload.modelDump)
    (hfp : c.fingerprint = fingerprint app.sha256 c.payload.modelDump) :
    Effect app call P σ ⟨201, .request c.out⟩ c.writes
  | decided (v : Verdict) {id : String} {key : Option String} {body : RawBody} {payload : Json}
    {row row' : ApprovalRequestRow} (hop : call.operation = .decide v.decision id key body)
    (henv : v.env = call.env) (hactor : v.actorUserId = P.userId)
    (hkey : v.key = key.map (fun k => (k, fingerprint app.sha256 payload)))
    (hbody : call.operation.normalized = some payload)
    (hid : row.workspaceId = call.workspaceId ∧ row.id = id)
    (hrow : σ.request? call.workspaceId id = some row') (hbecomes : row.Becomes row')
    (entitled : v.decision.Entitled row.createdByUserId (σ.reviewerIds call.workspaceId id)
      v.actorUserId)
    (shown : v.shown.Perm (σ.reviewerIds call.workspaceId id)) :
    Effect app call P σ ⟨200, .request (v.out row)⟩ (v.writes call.workspaceId id row)
  | replayed {route key : String} {payload : Json} {existing : IdempotencyKey}
    {out : ApprovalRequestOut} (hkey : call.operation.ledgerKey = some (route, key))
    (hbody : call.operation.normalized = some payload)
    (hfound : σ.key? call.workspaceId route key = some existing)
    (hfp : existing.requestFingerprint = fingerprint app.sha256 payload)
    (hout : ApprovalRequestOut.modelValidate existing.responseBody = some out) :
    Effect app call P σ ⟨existing.responseStatus, .request out⟩ []

namespace Effect

variable {app : App} {call : Call} {P : Principal} {σ σ' : Store} {a : Answer} {w : List Write}

/-- What an answer rests on stays. -/
theorem evolves (h : Effect app call P σ a w) (hev : σ.Evolves σ') : Effect app call P σ' a w := by
  cases h with
  | read a hop => exact .read a hop
  | created c hop henv hws hactor hkey hbody hfp =>
    exact .created c hop henv hws hactor hkey hbody hfp
  | @decided v id key body payload row row' hop henv hactor hkey hbody hid hrow hbecomes entitled
      shown =>
    obtain ⟨r', hr', hb⟩ := hev.request hrow
    have hids : σ'.reviewerIds call.workspaceId id = σ.reviewerIds call.workspaceId id := by
      rw [Store.reviewerIds, hev.reviewers hrow, Store.reviewerIds]
    rw [← hids] at entitled shown
    exact .decided v hop henv hactor hkey hbody hid hr' (hbecomes.trans hb) entitled shown
  | replayed hkey hbody hfound hfp hout =>
    exact .replayed hkey hbody (hev.key hfound) hfp hout

/-- The writes of a call are writes that the service may commit. -/
theorem commits (h : Effect app call P σ a w) (hσ : σ.Registered) (hheld : Held w σ) :
    Commits σ w := by
  cases h with
  | read a hop => exact .quiet
  | created c => exact .creation c
  | @decided v id key body payload row row' hop henv hactor hkey hbody hid hrow hbecomes entitled
      shown =>
    have hp := hσ.pending_of_held hheld List.mem_cons_self hrow
    have hsame : row' = row := by
      rcases hbecomes with h | ⟨-, values, hv, rfl⟩
      · exact h
      · exact absurd hp hv
    rw [hsame] at hrow
    exact .verdict v hrow entitled shown
  | replayed => exact .quiet

end Effect

/-! ## The contract -/

/-- What a call promises of the updates that it holds uncommitted. -/
def HoldsUpdate (app : App) (call : Call) (σ : Store) (ws id : String)
    (values : DecisionValues) : Prop :=
  ∃ P d key body, call.By app P ∧ call.operation = .decide d id key body ∧
    ws = call.workspaceId ∧ values.status = d.newStatus ∧ values.decidedByUserId = P.userId ∧
    σ.Entitles ws id d P.userId

/-- Of the writes `w` of a transaction, the first one and the ledger row are already among
its writes `δ` so far. -/
structure Anchored (w δ : List Write) : Prop where
  first : ∀ x ∈ w.head?, x ∈ δ
  ledger : ∀ row, Write.insert (.idempotencyKey row) ∈ w →
    Write.insert (.idempotencyKey row) ∈ δ

theorem Anchored.self (w : List Write) : Anchored w w :=
  ⟨fun _ hx => List.mem_of_mem_head? hx, fun _ h => h⟩

/-- The contract of a call. -/
def contract (app : App) (call : Call) : Contract approvalDiscipline Exn Answer where
  During δ σ := ∀ ws id values, Write.update ws id values ∈ δ →
    HoldsUpdate app call σ ws id values
  Answered a δ σ := ∃ P w, call.By app P ∧ Effect app call P σ a w ∧ Anchored w δ
  Done a δ σ := ∃ P, call.By app P ∧ Effect app call P σ a δ
  Failed _ _ := True
  during_env h he ws id values hu := by
    obtain ⟨P, d, key, body, hby, hop, hws, hst, hact, hent⟩ := h ws id values hu
    exact ⟨P, d, key, body, hby, hop, hws, hst, hact,
      (approves_approvalDiscipline.envStep he).entitles hent⟩
  answered_env h he := by
    obtain ⟨P, w, hby, heff, hw⟩ := h
    exact ⟨P, w, hby, heff.evolves (approves_approvalDiscipline.envStep he), hw⟩
  done_env h he := by
    obtain ⟨P, hby, heff⟩ := h
    exact ⟨P, hby, heff.evolves (approves_approvalDiscipline.envStep he)⟩
  failed_env _ _ := trivial

theorem during_insertStable (app : App) (call : Call) :
    InsertStable (contract app call).During := by
  intro δ σ row h ws id values hu
  rcases List.mem_append.mp hu with hu | hu
  · exact h ws id values hu
  · simp at hu

theorem open_insertStable (app : App) (call : Call) (a : Answer) :
    InsertStable ((contract app call).Open a) := by
  rintro δ σ row ⟨hd, P, w, hby, heff, hw⟩
  exact ⟨during_insertStable app call row hd, P, w, hby, heff,
    fun x hx => List.mem_append_left _ (hw.first x hx),
    fun r hr => List.mem_append_left _ (hw.ledger r hr)⟩

section Meets

variable {app : App} {call : Call}

/-- Where a call stands when its endpoint has returned. -/
def Returned (app : App) (call : Call) : Except Exn (Answer × List NewRow) → List Write → Store →
    Prop
  | .ok (a, pending), δ, σ => ∃ P, call.By app P ∧
    Effect app call P σ a (δ ++ pending.map .insert) ∧ Anchored (δ ++ pending.map .insert) δ
  | .error _, _, _ => True

/-- The rest of the transaction after the answer commits what the answer rests on. -/
theorem exit_wp {a : Answer} {pending : List NewRow} {δ : List Write} {σ : Store} {P : Principal}
    (hby : call.By app P) (heff : Effect app call P σ a (δ ++ pending.map .insert)) :
    Wp approvalDiscipline ((contract app call).Open a) (insertAll pending)
      ((contract app call).ExitPost a) δ σ := by
  refine insertAll_wp (open_insertStable app call a)
    (fun σ => Effect app call P σ a (δ ++ pending.map .insert)) ?_ heff ?_ ?_
  · intro pre σ₁ σ₂ _ he h₁
    exact h₁.evolves (approves_approvalDiscipline.envStep he)
  · intro σ₁ h₁ heff₁
    have hc := heff₁.commits h₁.inv h₁.held
    exact ⟨hc, P, hby, heff₁.evolves (Store.Registered.evolves h₁.inv hc h₁.held)⟩
  · intro pre row σ₁ σ₂ _ _ _ _ _
    trivial

theorem Wp.requireAction {D : Discipline approvalDb} {J : List Write → Store → Prop}
    {action : Action} {provider : AuthProvider} {authorization : Option String} {ws : String}
    {Q : Except Exn (Principal × List NewRow) → List Write → Store → Prop} {σ : Store}
    (hok : ∀ P σ₁, provider.authenticate authorization = .ok P → P.workspaceId = ws →
      P.hasAction action = true → Found D J [] σ σ₁ → Q (.ok (P, [])) [] σ₁)
    (herr : ∀ e σ₁, Found D J [] σ σ₁ → Q (.error e) [] σ₁) :
    Wp D J (requireAction action provider authorization ws []) Q [] σ := by
  have hlog : ∀ record e, Wp D J (.exec (.log record) (fun _ => .throw e)) Q [] σ :=
    fun record e => Wp.read (fun _ => rfl) fun σ₁ h₁ => fun σ₂ h₂ =>
      herr e σ₂ (Found.of_env h₁.env h₂)
  rw [requireAction_eq]
  cases hauth : provider.authenticate authorization with
  | error e =>
    cases e with
    | invalidCredentials message => exact hlog _ _
    | other detail => exact fun σ₁ h₁ => herr _ σ₁ h₁
  | ok P =>
    dsimp only
    split_ifs with hws ha
    · exact hlog _ _
    · exact hlog _ _
    · exact fun σ₁ h₁ => hok P σ₁ hauth (not_not.mp hws) (by simpa using ha) h₁

/-- The flush of `run_idempotent`: it is done, or a row could not be inserted. -/
theorem ledgerFlush_raises_wp {D : Discipline approvalDb} (hD : Approves D)
    {J : List Write → Store → Prop} (hJ : InsertStable J) (F : Store → Prop)
    (hF : ∀ {σ₁ σ₂}, σ₁.Evolves σ₂ → F σ₁ → F σ₂) {rows : List NewRow} {δ : List Write} {σ : Store}
    {Q : Except Exn (Unit × List NewRow) → List Write → Store → Prop} (h0 : F σ)
    (hok : ∀ σ₁, Here D J (δ ++ rows.map .insert) σ₁ → F σ₁ →
      Q (.ok ((), [])) (δ ++ rows.map .insert) σ₁)
    (herr : ∀ pre row σ₁ σ₂, pre ++ [row] <+: rows → Here D J (δ ++ pre.map .insert) σ₁ → F σ₁ →
      ¬ ((approvalDb.view σ₁ (δ ++ pre.map .insert)).has row.primaryKey = false ∧
        (approvalDb.view σ₁ (δ ++ pre.map .insert)).hasParent row = true) →
      Found D J (δ ++ pre.map .insert) σ₁ σ₂ →
      Q (.error keyInProgress) (δ ++ pre.map .insert) σ₂) :
    Wp D J (ledgerFlush rows) Q δ σ := by
  refine Wp.catchError (Wp.bind (insertAll_wp hJ F (fun _ he => hF (hD.envStep he)) h0 ?_ ?_))
  · intro σ₁ h₁ hF₁ σ₂ h₂
    exact hok σ₂ (here h₂) (hF (hD.env h₂.env) hF₁)
  · intro pre row σ₁ σ₂ hpre h₁ hF₁ hfail h₂ σ₃ h₃
    exact herr pre row σ₁ σ₃ hpre h₁ hF₁ hfail (Found.of_env h₂.env h₃)

/-- A keyed call, with the ways in which it raises: the key was used for another body, the stored
response is not valid, the handler raises, or a row of the flush could not be inserted. `F` is what
the handler leaves behind. -/
theorem runIdempotent_raises_wp {D : Discipline approvalDb} (hD : Approves D)
    {J : List Write → Store → Prop} (hJ : InsertStable J) {sha256 : String → String} {env : Env}
    {ws route key : String} {payload : Json} {handler : Tx (ApprovalRequestOut × Nat)}
    {σ : Store} (F : ApprovalRequestOut × Nat → List NewRow → List Write → Store → Prop)
    (hF : ∀ {result pending δ σ₁ σ₂}, σ₁.Evolves σ₂ → F result pending δ σ₁ →
      F result pending δ σ₂)
    {Q : Except Exn ((ApprovalRequestOut × Nat) × List NewRow) → List Write → Store → Prop}
    (hreplay : ∀ σ₁ existing out, Here D J [] σ₁ → σ₁.key? ws route key = some existing →
      existing.requestFingerprint = fingerprint sha256 payload →
      ApprovalRequestOut.modelValidate existing.responseBody = some out →
      Q (.ok ((out, existing.responseStatus), [])) [] σ₁)
    (hreused : ∀ σ₁ existing, Here D J [] σ₁ → σ₁.key? ws route key = some existing →
      existing.requestFingerprint ≠ fingerprint sha256 payload → Q (.error keyReused) [] σ₁)
    (hinvalid : ∀ σ₁ existing, Here D J [] σ₁ → σ₁.key? ws route key = some existing →
      ApprovalRequestOut.modelValidate existing.responseBody = none →
      Q (.error (.unexpected "stored response body")) [] σ₁)
    (hhandler : ∀ σ₁, Found D J [] σ σ₁ → σ₁.key? ws route key = none →
      Wp D J (handler []) (fun r δ σ₂ =>
        match r with
        | .ok (result, pending) => F result pending δ σ₂
        | .error e => Q (.error e) δ σ₂) [] σ₁)
    (hdone : ∀ (result : ApprovalRequestOut × Nat) pending δ σ₁, F result pending δ σ₁ →
      Here D J (δ ++ (pending ++ [NewRow.idempotencyKey ⟨ws, route, key,
        fingerprint sha256 payload, result.2, result.1.modelDump, env.keyCreatedAt⟩]).map .insert)
        σ₁ →
      Q (.ok (result, [])) (δ ++ (pending ++ [NewRow.idempotencyKey ⟨ws, route, key,
        fingerprint sha256 payload, result.2, result.1.modelDump, env.keyCreatedAt⟩]).map .insert)
        σ₁)
    (hflush : ∀ (result : ApprovalRequestOut × Nat) pending δ pre row σ₁ σ₂,
      σ.key? ws route key = none →
      pre ++ [row] <+: pending ++ [NewRow.idempotencyKey ⟨ws, route, key,
        fingerprint sha256 payload, result.2, result.1.modelDump, env.keyCreatedAt⟩] →
      Here D J (δ ++ pre.map .insert) σ₁ → F result pending δ σ₁ →
      ¬ ((approvalDb.view σ₁ (δ ++ pre.map .insert)).has row.primaryKey = false ∧
        (approvalDb.view σ₁ (δ ++ pre.map .insert)).hasParent row = true) →
      Found D J (δ ++ pre.map .insert) σ₁ σ₂ →
      Q (.error keyInProgress) (δ ++ pre.map .insert) σ₂) :
    Wp D J (runIdempotent sha256 env ws route (some key) payload handler []) Q [] σ := by
  rw [runIdempotent_some]
  refine Wp.read (fun _ => rfl) fun σ₁ h₁ => ?_
  change Wp D J (afterLookup env ws route key _ handler (σ₁.key? ws route key)) Q [] σ₁
  cases hkey : σ₁.key? ws route key with
  | some existing =>
    have hkey' : ∀ {σ₂}, Found D J [] σ₁ σ₂ → σ₂.key? ws route key = some existing :=
      fun h₂ => (hD.env h₂.env).key hkey
    simp only [afterLookup]
    split_ifs with hfp
    · exact fun σ₂ h₂ => hreused σ₂ existing (here h₂) (hkey' h₂) hfp
    · cases hout : ApprovalRequestOut.modelValidate existing.responseBody with
      | none => exact fun σ₂ h₂ => hinvalid σ₂ existing (here h₂) (hkey' h₂) hout
      | some out =>
        exact fun σ₂ h₂ => hreplay σ₂ existing out (here h₂) (hkey' h₂) (not_not.mp hfp) hout
  | none =>
    -- A key that is not there now was never there.
    have hbefore : σ.key? ws route key = none := by
      rw [Option.eq_none_iff_forall_ne_some]
      intro r hr
      rw [(hD.env h₁.env).key hr] at hkey
      cases hkey
    refine Wp.bind ((hhandler σ₁ h₁ hkey).mono fun r δ σ₂ hinv hheld hduring hr => ?_)
    cases r with
    | error e => exact hr
    | ok p =>
      obtain ⟨result, pending⟩ := p
      refine Wp.bind (ledgerFlush_raises_wp hD hJ (F result pending δ) hF hr ?_ ?_)
      · intro σ₃ h₃ hF₃ σ₄ h₄
        exact hdone result pending δ σ₄ (hF (hD.env h₄.env) hF₃) (here h₄)
      · exact fun pre row σ₃ σ₄ => hflush result pending δ pre row σ₃ σ₄ hbefore

/-- A keyed call: it replays, it raises, or it runs its handler and enters the result. `F`
is what the handler leaves behind. -/
theorem runIdempotent_wp {D : Discipline approvalDb} (hD : Approves D)
    {J : List Write → Store → Prop} (hJ : InsertStable J) {sha256 : String → String} {env : Env}
    {ws route key : String} {payload : Json} {handler : Tx (ApprovalRequestOut × Nat)}
    {σ : Store} (F : ApprovalRequestOut × Nat → List NewRow → List Write → Store → Prop)
    (hF : ∀ {result pending δ σ₁ σ₂}, σ₁.Evolves σ₂ → F result pending δ σ₁ →
      F result pending δ σ₂)
    {Q : Except Exn ((ApprovalRequestOut × Nat) × List NewRow) → List Write → Store → Prop}
    (hreplay : ∀ σ₁ existing out, Here D J [] σ₁ → σ₁.key? ws route key = some existing →
      existing.requestFingerprint = fingerprint sha256 payload →
      ApprovalRequestOut.modelValidate existing.responseBody = some out →
      Q (.ok ((out, existing.responseStatus), [])) [] σ₁)
    (hhandler : ∀ σ₁, Found D J [] σ σ₁ → Wp D J (handler []) (fun r δ σ₂ =>
      match r with
      | .ok (result, pending) => F result pending δ σ₂
      | .error _ => True) [] σ₁)
    (hdone : ∀ (result : ApprovalRequestOut × Nat) pending δ σ₁, F result pending δ σ₁ →
      Here D J (δ ++ (pending ++ [NewRow.idempotencyKey ⟨ws, route, key,
        fingerprint sha256 payload, result.2, result.1.modelDump, env.keyCreatedAt⟩]).map .insert)
        σ₁ →
      Q (.ok (result, [])) (δ ++ (pending ++ [NewRow.idempotencyKey ⟨ws, route, key,
        fingerprint sha256 payload, result.2, result.1.modelDump, env.keyCreatedAt⟩]).map .insert)
        σ₁)
    (herr : ∀ e δ₁ σ₁, Here D J δ₁ σ₁ → Q (.error e) δ₁ σ₁) :
    Wp D J (runIdempotent sha256 env ws route (some key) payload handler []) Q [] σ := by
  refine runIdempotent_raises_wp hD hJ F hF hreplay (fun σ₁ _ h₁ _ _ => herr _ _ σ₁ h₁)
    (fun σ₁ _ h₁ _ _ => herr _ _ σ₁ h₁) (fun σ₁ h₁ _ => ?_) hdone
    (fun _ _ _ _ _ _ σ₂ _ _ _ _ _ h₂ => herr _ _ σ₂ (here h₂))
  refine (hhandler σ₁ h₁).mono fun r δ σ₂ hinv hheld hduring hr => ?_
  cases r with
  | error e => exact herr e δ σ₂ ⟨.refl _ _, hinv, hheld, hduring⟩
  | ok p => exact hr

theorem create_meets {P : Principal} (hby : call.By app P) {key : Option String} {body : RawBody}
    (hop : call.operation = .create key body) {document : Option Json}
    (hdoc : body.document? = some document) {σ : Store} :
    Wp approvalDiscipline (contract app call).During (endpoint app call P document [])
      (Returned app call) [] σ := by
  unfold endpoint
  rw [hop]
  dsimp only
  rw [orRequestValidationError_bind]
  cases hparams : (requiredIdempotencyKey key).both
      (validateBody ApprovalRequestCreate.modelValidate document) with
  | error es => exact fun σ₁ h₁ => trivial
  | ok params =>
    obtain ⟨k, payload⟩ := params
    obtain ⟨hk, hpayload⟩ := both_ok hparams
    obtain rfl := requiredIdempotencyKey_ok hk
    obtain ⟨fields, -, hfields⟩ := validateBody_ok hpayload
    let c : Creation := ⟨call.env, call.workspaceId, P.userId, payload, k,
      fingerprint app.sha256 payload.modelDump, fields, hfields⟩
    have hbody : call.operation.normalized = some c.payload.modelDump := by
      simp [hop, Operation.normalized, hdoc, hpayload, Except.toOption, c]
    have heff : ∀ σ, Effect app call P σ ⟨201, .request c.out⟩ c.writes :=
      fun σ => .created c hop rfl rfl rfl rfl hbody rfl
    refine Wp.bind (runIdempotent_wp approves_approvalDiscipline (during_insertStable app call)
      (fun result pending δ _ => result = (c.out, 201) ∧
        pending = [.auditLogEntry c.auditEntry, .outboxEvent c.event] ∧
        δ = c.firstRows.map .insert) (fun _ h => h) ?_ ?_ ?_ ?_)
    · intro σ₁ existing out h₁ hkey hfp hout σ₂ h₂
      refine ⟨P, hby, ?_, .self []⟩
      have hkey₂ := (approves_approvalDiscipline.env h₂.env).key hkey
      exact .replayed (by rw [hop]; rfl) hbody hkey₂ hfp hout
    · intro σ₁ h₁
      refine Wp.bind (createRequest_wp (during_insertStable app call) c ?_ ?_)
      · intro σ₂ h₂ σ₃ h₃
        exact ⟨rfl, rfl, rfl⟩
      · intro δ σ₂ h₂
        trivial
    · rintro result pending δ σ₁ ⟨rfl, rfl, rfl⟩ h₁ σ₂ h₂
      have hwrites : c.firstRows.map Write.insert ++ ([NewRow.auditLogEntry c.auditEntry,
          .outboxEvent c.event] ++ [NewRow.idempotencyKey c.ledgerRow]).map Write.insert =
          c.writes := by
        simp [Creation.writes, Creation.newRows, Creation.firstRows]
      refine ⟨P, hby, ?_, ?_⟩
      · exact (List.append_nil _).symm ▸ hwrites ▸ heff σ₂
      · exact (List.append_nil _).symm ▸ .self _
    · intro e δ σ₁ h₁
      trivial

/-- The service part of a decision, with the key its ledger row will have. -/
theorem decideHandler_wp {P : Principal} {d : Decision} {id : String} {key : Option String}
    {body : RawBody} (hop : call.operation = .decide d id key body) (hby : call.By app P)
    {document : Option Json} (hdoc : body.document? = some document) {b : DecisionBody}
    (hb : d.readBody document = .ok b) {σ : Store} :
    Wp approvalDiscipline (contract app call).During
      (decideRequest call.env d call.workspaceId id P.userId b.comment b.reason [])
      (fun r δ σ => match r with
        | .ok (entity, pending) => ∃ (v : Verdict) (row : ApprovalRequestRow),
          v.env = call.env ∧ v.decision = d ∧
          v.key = key.map (fun k => (k, fingerprint app.sha256 b.payload)) ∧
          ApprovalRequestOut.ofEntity entity = v.out row ∧
          δ = [.update call.workspaceId id v.values] ∧
          pending = [.auditLogEntry (v.auditEntry call.workspaceId id),
            .outboxEvent (v.event call.workspaceId id)] ∧
          Effect app call P σ ⟨200, .request (v.out row)⟩ (v.writes call.workspaceId id row)
        | .error _ => True) [] σ := by
  let v : Verdict := ⟨call.env, d, P.userId, b.comment, b.reason, [],
    key.map (fun k => (k, fingerprint app.sha256 b.payload)), Decision.readBody_accepts hb⟩
  have hbody : call.operation.normalized = some b.payload := by
    simp [hop, Operation.normalized, hdoc, hb, Except.toOption]
  refine decideRequest_wp approves_approvalDiscipline v ?_ ?_ ?_
  · intro σ₁ _ hent ws id' values hu
    simp only [List.mem_singleton, Write.update.injEq] at hu
    obtain ⟨rfl, rfl, rfl⟩ := hu
    exact ⟨P, d, key, body, hby, hop, rfl, rfl, rfl, hent⟩
  · intro σ₁ row shown h₁ hrow hent hshown
    obtain ⟨row', hrow', hent⟩ := hent
    rw [hrow] at hrow'
    obtain rfl := Option.some.inj hrow'
    let v' : Verdict := { v with shown := shown }
    refine ⟨v', row, rfl, rfl, rfl, rfl, rfl, rfl, ?_⟩
    exact .decided v' hop rfl rfl rfl hbody (Store.request?_some hrow).2 hrow (.refl _) hent hshown
  · intro σ₁ e _ _
    trivial

theorem decide_meets {P : Principal} (hby : call.By app P) {d : Decision} {id : String}
    {key : Option String} {body : RawBody} (hop : call.operation = .decide d id key body)
    {document : Option Json} (hdoc : body.document? = some document) {σ : Store} :
    Wp approvalDiscipline (contract app call).During (endpoint app call P document [])
      (Returned app call) [] σ := by
  rw [endpoint_decide hop, orRequestValidationError_bind]
  cases hparams : (optionalIdempotencyKey key).both (d.readBody document) with
  | error es => exact fun σ₁ h₁ => trivial
  | ok params =>
    obtain ⟨key', b⟩ := params
    obtain ⟨hkey, hb⟩ := both_ok hparams
    obtain rfl := optionalIdempotencyKey_ok hkey
    have hbody : call.operation.normalized = some b.payload := by
      simp [hop, Operation.normalized, hdoc, hb, Except.toOption]
    cases key with
    | none =>
      change Wp _ _ (((decideRequest call.env d call.workspaceId id P.userId b.comment b.reason
        []).bind (fun p => .ret ((ApprovalRequestOut.ofEntity p.1, 200), p.2))).bind
          (fun p => .ret (Answer.mk p.1.2 (.request p.1.1), p.2))) _ _ _
      refine Wp.bind (Wp.bind ((decideHandler_wp hop hby hdoc hb).mono ?_))
      intro r δ σ₁ _ _ _ hr
      cases r with
      | error e => trivial
      | ok p =>
        obtain ⟨entity, pending⟩ := p
        obtain ⟨v, row, henv, hd, hkey, hout, rfl, rfl, heff⟩ := hr
        intro σ₂ h₂ σ₃ h₃
        have hev := approves_approvalDiscipline.env (h₂.env.trans h₃.env)
        have hledger : v.ledgerRow? call.workspaceId id row = none := by
          simp [Verdict.ledgerRow?, hkey]
        refine ⟨P, hby, ?_, by simp, by simp⟩
        rw [hout]
        have hwrites := heff.evolves hev
        simpa [Verdict.writes, Verdict.newRows, hledger] using hwrites
    | some k =>
      refine Wp.bind (runIdempotent_wp approves_approvalDiscipline (during_insertStable app call)
        (fun result pending δ σ => ∃ (v : Verdict) (row : ApprovalRequestRow),
          v.env = call.env ∧ v.decision = d ∧
          v.key = some (k, fingerprint app.sha256 b.payload) ∧ result = (v.out row, 200) ∧
          δ = [.update call.workspaceId id v.values] ∧
          pending = [.auditLogEntry (v.auditEntry call.workspaceId id),
            .outboxEvent (v.event call.workspaceId id)] ∧
          Effect app call P σ ⟨200, .request (v.out row)⟩ (v.writes call.workspaceId id row))
        ?_ ?_ ?_ ?_ ?_)
      · rintro result pending δ σ₁ σ₂ hev ⟨v, row, h₁, h₂, h₃, h₄, h₅, h₆, heff⟩
        exact ⟨v, row, h₁, h₂, h₃, h₄, h₅, h₆, heff.evolves hev⟩
      · intro σ₁ existing out h₁ hkey hfp hout σ₂ h₂
        refine ⟨P, hby, ?_, .self []⟩
        have hkey₂ := (approves_approvalDiscipline.env h₂.env).key hkey
        exact .replayed (by rw [hop]; rfl) hbody hkey₂ hfp hout
      · intro σ₁ h₁
        refine Wp.bind ((decideHandler_wp hop hby hdoc hb).mono ?_)
        intro r δ σ₂ _ _ _ hr
        cases r with
        | error e => trivial
        | ok p =>
          obtain ⟨entity, pending⟩ := p
          obtain ⟨v, row, henv, hd, hkey, hout, hδ, hpending, heff⟩ := hr
          intro σ₃ h₃
          exact ⟨v, row, henv, hd, hkey, by rw [← hout], hδ, hpending,
            heff.evolves (approves_approvalDiscipline.env h₃.env)⟩
      · rintro result pending δ σ₁ ⟨v, row, henv, hd, hkey, rfl, rfl, rfl, heff⟩ h₁ σ₂ h₂
        have hledger : v.ledgerRow? call.workspaceId id row = some ⟨call.workspaceId,
            d.route id, k, fingerprint app.sha256 b.payload, 200, (v.out row).modelDump,
            call.env.keyCreatedAt⟩ := by
          simp [Verdict.ledgerRow?, hkey, hd, henv]
        have hwrites : [Write.update call.workspaceId id v.values] ++
            ([NewRow.auditLogEntry (v.auditEntry call.workspaceId id),
              .outboxEvent (v.event call.workspaceId id)] ++ [NewRow.idempotencyKey ⟨call.workspaceId,
                d.route id, k, fingerprint app.sha256 b.payload, 200, (v.out row).modelDump,
                call.env.keyCreatedAt⟩]).map Write.insert =
            v.writes call.workspaceId id row := by
          simp [Verdict.writes, Verdict.newRows, hledger]
        refine ⟨P, hby, ?_, ?_⟩
        · have heff₂ := heff.evolves (approves_approvalDiscipline.env h₂.env)
          rw [← hwrites] at heff₂
          simpa using heff₂
        · exact (List.append_nil _).symm ▸ .self _
      · intro e δ σ₁ h₁
        trivial

theorem endpoint_meets {P : Principal} (hby : call.By app P) {document : Option Json}
    (hdoc : call.operation.body.document? = some document) {σ : Store} :
    Wp approvalDiscipline (contract app call).During (endpoint app call P document [])
      (Returned app call) [] σ := by
  have hread : call.operation.IsRead → Wp approvalDiscipline (contract app call).During
      (endpoint app call P document []) (Returned app call) [] σ := by
    intro hop
    refine Wp.only_reads (fun s hs => hs.reads) (endpoint_reads hop document) ?_ ?_
    · rintro ⟨a, pending⟩ σ₁ h₁ rfl
      exact ⟨P, hby, .read a hop, .self []⟩
    · intro e σ₁ h₁
      trivial
  cases hop : call.operation with
  | create key body => exact create_meets hby hop (by rw [hop] at hdoc; exact hdoc)
  | list status limit offset => exact hread (by rw [hop]; trivial)
  | get id => exact hread (by rw [hop]; trivial)
  | decide d id key body => exact decide_meets hby hop (by rw [hop] at hdoc; exact hdoc)

theorem handle_meets (σ : Store) :
    Wp approvalDiscipline (contract app call).During (handle app call []) (Returned app call)
      [] σ := by
  unfold handle
  rw [tx_bind, parseBody_eq]
  cases hdoc : call.operation.body.document? with
  | none => cases call.operation.body <;> exact fun σ₁ h₁ => trivial
  | some document =>
    simp only [Prog.bind]
    rw [tx_bind]
    refine Wp.bind (Wp.requireAction ?_ ?_)
    · intro P σ₁ hauth hws haction h₁
      exact endpoint_meets ⟨hauth, hws, haction⟩ hdoc
    · intro e σ₁ h₁
      trivial

/-- **Every call keeps its contract.** -/
theorem request_meets (app : App) (call : Call) : (contract app call).Meets (request app call) := by
  refine ⟨fun σ _ ws id values hu => (by cases hu), fun σ _ => Wp.bind ?_⟩
  refine (handle_meets σ).mono fun r δ σ₁ _ _ _ hr => ?_
  cases r with
  | error e => trivial
  | ok a =>
    obtain ⟨P, hby, heff, hhead⟩ := hr
    intro σ₂ h₂
    have heff₂ := heff.evolves (approves_approvalDiscipline.env h₂.env)
    exact ⟨⟨P, _, hby, heff₂, hhead⟩, exit_wp hby heff₂⟩

end Meets

/-! ## Every interleaving -/

section Runs

variable {ι : Type} {app : App} {call : ι → Call} {w : ApiWorld ι}

theorem ApiWorld.sound_start {σ : Store} (hσ : σ.Registered) :
    (ApiWorld.start app call σ).Sound (fun i => contract app (call i)) :=
  World.Sound.start hσ fun i => request_meets app (call i)

/-- **The calls keep their contracts in every interleaving**, from any store that was
built up by the service. -/
theorem ApiWorld.sound [DecidableEq ι] {σ : Store} (hσ : σ.Registered)
    {ls : List (ι × Transactions.Action)} (h : Run approvalDb (ApiWorld.start app call σ) ls w) :
    w.Sound (fun i => contract app (call i)) :=
  (ApiWorld.sound_start hσ).run h

/-- What an answer rests on from the moment it is sent. -/
theorem World.Sound.answered (hw : w.Sound (fun i => contract app (call i))) {i : ι}
    {a : Answer} {exit : Prog Reply Exn Unit} {δ : List Write}
    (hi : w.session i = .answered a exit δ) :
    Held δ w.store ∧ ∃ P ws, (call i).By app P ∧ Effect app (call i) P w.store a ws ∧
      Anchored ws δ := by
  have hh := hw.holds i
  have hheld := hw.held i
  simp only [World.held, hi, Session.writes] at hheld
  rw [hi] at hh
  exact ⟨hheld, hh.1.2⟩

/-- What an answer rests on from the commit on, with exactly the writes of the session. -/
theorem World.Sound.committed (hw : w.Sound (fun i => contract app (call i))) {i : ι}
    {a : Answer} {δ : List Write} (hi : w.session i = .committed a δ) :
    ∃ P, (call i).By app P ∧ Effect app (call i) P w.store a δ := by
  have hh := hw.holds i
  rw [hi] at hh
  exact hh

end Runs

end ContentApproval
