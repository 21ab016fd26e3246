import ContentApproval.Specs.Served
import ContentApproval.Transactions.Serial

/-!
# What a call does at its commit

Between the statements of a call other calls commit, and yet, at the moment of its own commit,
a call that writes or replays does exactly what it would do if it were served alone on the
store of that moment (`valid_commit`). What it has read until then is still so, because rows
that it relies on no longer change: a request that it decides was pending and is held, the
reviewers never change, and neither does a row of the ledger.

`Exact` is what the answer of a decision says beyond its effect: which body it came from, and in
which order it lists the reviewers.
-/

namespace ContentApproval

open Transactions SqlApprovalRequestRepository AsyncSession ApprovalService Idempotency
  AuthDependencies

/-! ## Exact answers -/

/-- The answer of a decision on the request that has this row in the store. -/
structure Decides (app : App) (call : Call) (d : Decision) (id : String) (key : Option String)
    (body : RawBody) (a : Answer) (σ : Store) : Prop where
  shown : ∃ P document b row row' accepted, call.By app P ∧ body.document? = some document ∧
    d.readBody document = .ok b ∧ σ.request? call.workspaceId id = some row' ∧ row.Becomes row' ∧
    a = ⟨200, .request ((call.verdict app P d key b
      (σ.listed call.env 1 call.workspaceId id) accepted).out row)⟩

/-- A decision whose key is not in the ledger answers what its own body and the row say. -/
def DecidesExactly (app : App) (call : Call) (a : Answer) (σ : Store) : Prop :=
  ∀ d id key body, call.operation = .decide d id key body →
    (∃ k ∈ key, (σ.key? call.workspaceId (d.route id) k).isSome = true) ∨
      Decides app call d id key body a σ

/-- What is known of an answer beyond its effect. -/
structure Exact (app : App) (call : Call) (a : Answer) (σ : Store) : Prop where
  accepted : ∀ route key, call.operation.ledgerKey = some (route, key) → KeyAccepted key
  decides : DecidesExactly app call a σ

theorem Decides.evolves {app : App} {call : Call} {d : Decision} {id : String}
    {key : Option String} {body : RawBody} {a : Answer} {σ σ' : Store}
    (h : Decides app call d id key body a σ) (hev : σ.Evolves σ') :
    Decides app call d id key body a σ' := by
  obtain ⟨P, document, b, row, row', accepted, hby, hdoc, hb, hrow, hbecomes, ha⟩ := h.shown
  obtain ⟨row'', hrow'', hbecomes'⟩ := hev.request hrow
  rw [← hev.listed hrow] at ha
  exact ⟨P, document, b, row, row'', accepted, hby, hdoc, hb, hrow'', hbecomes.trans hbecomes', ha⟩

theorem DecidesExactly.evolves {app : App} {call : Call} {a : Answer} {σ σ' : Store}
    (h : DecidesExactly app call a σ) (hev : σ.Evolves σ') : DecidesExactly app call a σ' := by
  intro d id key body hop
  refine (h d id key body hop).imp ?_ fun hd => hd.evolves hev
  rintro ⟨k, hk, hfound⟩
  obtain ⟨r, hr⟩ := Option.isSome_iff_exists.mp hfound
  exact ⟨k, hk, by rw [hev.key hr]; rfl⟩

theorem Exact.evolves {app : App} {call : Call} {a : Answer} {σ σ' : Store}
    (h : Exact app call a σ) (hev : σ.Evolves σ') : Exact app call a σ' :=
  ⟨h.accepted, h.decides.evolves hev⟩

section Wp

variable {app : App} {call : Call}

/-- A precondition without a promise for the time in between. -/
abbrev Ensures {α : Type} (p : Prog Reply Exn α) (Q : Except Exn α → List Write → Store → Prop)
    (δ : List Write) (σ : Store) : Prop := Wp approvalDiscipline (fun _ _ => True) p Q δ σ

theorem Ensures.of_only {α : Type} {p : Prog Reply Exn α} {P : α → Prop} {δ : List Write}
    {σ : Store} (h : p.Only (fun _ => True) (fun _ _ => True) P) :
    Ensures p (Answers fun a _ => P a) δ σ := by
  induction p generalizing δ σ with
  | ret a => exact fun _ _ => h
  | throw e => exact fun _ _ => trivial
  | exec s k ih => exact fun _ _ => ⟨trivial, ih _ (h.2 _ trivial)⟩

/-- The decision that a call takes is the one of its body. -/
theorem decide_exact {P : Principal} (hby : call.By app P) {d : Decision} {id : String}
    {key : Option String} {body : RawBody} (hop : call.operation = .decide d id key body)
    {document : Option Json} (hdoc : body.document? = some document) {σ : Store} :
    Ensures (endpoint app call P document []) (Answers fun p σ =>
      (∃ k ∈ key, (σ.key? call.workspaceId (d.route id) k).isSome = true) ∨
        Decides app call d id key body p.1 σ) [] σ := by
  rw [endpoint_decide hop, orRequestValidationError_bind]
  cases hparams : (optionalIdempotencyKey key).both (d.readBody document) with
  | error es => exact fun σ₁ h₁ => trivial
  | ok params =>
    obtain ⟨key', b⟩ := params
    obtain ⟨hkey, hb⟩ := both_ok hparams
    obtain rfl := optionalIdempotencyKey_ok hkey
    let v : Verdict := call.verdict app P d key b [] (Decision.readBody_accepts hb)
    have hhandler : ∀ σ, Ensures (decideRequest call.env d call.workspaceId id P.userId b.comment
        b.reason []) (Answers fun p σ => Decides app call d id key body
          ⟨200, .request (.ofEntity p.1)⟩ σ) [] σ := by
      intro σ
      refine decideRequest_listed_wp approves_approvalDiscipline v (fun _ _ _ => trivial) ?_
        fun _ _ _ _ => trivial
      intro σ₁ row h₁ hrow _
      exact ⟨P, document, b, row, row, Decision.readBody_accepts hb, hby, hdoc, hb, hrow, .refl _,
        rfl⟩
    have hresult : ∀ σ, Ensures ((do
        let request ← decideRequest call.env d call.workspaceId id P.userId b.comment b.reason
        return (ApprovalRequestOut.ofEntity request, 200) : Tx (ApprovalRequestOut × Nat)) [])
        (Answers fun p σ => Decides app call d id key body ⟨p.1.2, .request p.1.1⟩ σ) [] σ := by
      intro σ
      refine Wp.bind ((hhandler σ).mono fun r δ σ₁ _ _ _ hr => ?_)
      cases r with
      | error e => trivial
      | ok p => exact fun σ₂ h₂ => hr.evolves (approves_approvalDiscipline.env h₂.env)
    cases key with
    | none =>
      refine Wp.bind ((hresult σ).mono fun r δ σ₁ _ _ _ hr => ?_)
      cases r with
      | error e => trivial
      | ok p => exact fun σ₂ h₂ => Or.inr (hr.evolves (approves_approvalDiscipline.env h₂.env))
    | some k =>
      refine Wp.bind (runIdempotent_wp approves_approvalDiscipline (fun _ _ => trivial)
        (fun result _ _ σ => Decides app call d id (some k) body ⟨result.2, .request result.1⟩ σ)
        (fun hev h => h.evolves hev) ?_ ?_ ?_ fun _ _ _ _ => trivial)
      · intro σ₁ existing out h₁ hfound _ _ σ₂ h₂
        refine Or.inl ⟨k, rfl, ?_⟩
        rw [(approves_approvalDiscipline.env h₂.env).key hfound]
        rfl
      · intro σ₁ h₁
        refine (hresult σ₁).mono fun r δ σ₂ _ _ _ hr => ?_
        cases r with
        | error e => trivial
        | ok p => exact hr
      · intro result pending δ σ₁ h h₁ σ₂ h₂
        exact Or.inr (h.evolves (approves_approvalDiscipline.env h₂.env))

/-- A promise about the answer of the endpoint is one about the answer of the call. -/
theorem request_ensures {F : Answer → Store → Prop}
    (hF : ∀ {a σ σ'}, σ.Evolves σ' → F a σ → F a σ')
    (hend : ∀ P document σ, call.By app P → call.operation.body.document? = some document →
      Ensures (endpoint app call P document []) (Answers fun p σ => F p.1 σ) [] σ) (σ : Store) :
    Ensures (request app call) (Answers fun r σ => F r.1 σ) [] σ := by
  have hhandle : Ensures (handle app call []) (Answers fun p σ => F p.1 σ) [] σ := by
    unfold handle
    rw [tx_bind, parseBody_eq]
    cases hdoc : call.operation.body.document? with
    | none => cases call.operation.body <;> exact fun _ _ => trivial
    | some document =>
      simp only [Prog.bind]
      rw [tx_bind]
      refine Wp.bind (Wp.requireAction ?_ ?_)
      · intro P σ₁ hauth hws haction h₁
        exact hend P document σ₁ ⟨hauth, hws, haction⟩ hdoc
      · intro e σ₁ h₁
        trivial
  refine Wp.bind (hhandle.mono fun r δ σ₁ _ _ _ hr => ?_)
  cases r with
  | error e => trivial
  | ok p => exact fun σ₂ h₂ => hF (approves_approvalDiscipline.env h₂.env) hr

/-- **The answer of every call is exact.** -/
theorem request_exact (app : App) (call : Call) (σ : Store) :
    Ensures (request app call) (Answers fun r σ => Exact app call r.1 σ) [] σ := by
  have haccepted : Ensures (request app call) (Answers fun _ _ => ∀ route key,
      call.operation.ledgerKey = some (route, key) → KeyAccepted key) [] σ := by
    cases hkey : call.operation.ledgerKey with
    | none =>
      refine Wp.trivial fun r δ σ => ?_
      cases r with
      | error e => trivial
      | ok a => exact fun route key h => by cases h
    | some k =>
      obtain ⟨route, key⟩ := k
      refine (Ensures.of_only (request_keyed_only hkey)).mono fun r δ σ _ _ _ hr => ?_
      cases r with
      | error e => trivial
      | ok a => exact fun route' key' h => by cases h; exact hr.1
  have hdecides : Ensures (request app call) (Answers fun r σ => DecidesExactly app call r.1 σ)
      [] σ := by
    refine request_ensures (fun hev h => h.evolves hev) (fun P document σ₁ hby hdoc => ?_) σ
    cases hop : call.operation with
    | decide d id key body =>
      refine (decide_exact hby hop (by rw [hop] at hdoc; exact hdoc)).mono fun r δ σ _ _ _ hr => ?_
      cases r with
      | error e => trivial
      | ok p => exact fun d' id' key' body' h => by rw [hop] at h; cases h; exact hr
    | _ =>
      refine Wp.trivial fun r δ σ => ?_
      cases r with
      | error e => trivial
      | ok p => exact fun d id key body h => by rw [hop] at h; cases h
  refine (haccepted.and hdecides).mono fun r δ σ _ _ _ hr => ?_
  cases r with
  | error e => trivial
  | ok a => exact ⟨hr.1, hr.2⟩

end Wp

/-! ## At the commit -/

theorem Exact.stable {app : App} {call : Call} {a : Answer} {δ : List Write} {σ σ' : Store}
    (h : Exact app call a σ) (he : approvalDiscipline.EnvStep δ σ σ') : Exact app call a σ' :=
  h.evolves (approves_approvalDiscipline.envStep he)

/-- The contract of a call with what is known of its answers besides. -/
def exactContract (app : App) (call : Call) : Contract approvalDiscipline Exn Answer :=
  (contract app call).also (Exact app call) Exact.stable

theorem request_meets_exact (app : App) (call : Call) :
    (exactContract app call).Meets (request app call) :=
  (request_meets app call).also (Exact app call) Exact.stable (request_exact app call)

section Commit

variable {app : App} {call : Call} {P : Principal} {σ : Store}

/-- The caller of a call is determined by its credentials. -/
theorem Call.By.eq {P' : Principal} (h : call.By app P) (h' : call.By app P') : P = P' :=
  Except.ok.inj (h.authenticated.symm.trans h'.authenticated)

/-- The ids of rows that a transaction holds are not in use. -/
theorem Creation.new_of_held {c : Creation} (h : Held c.writes σ) : c.env.New σ := by
  intro k hk
  simp only [Env.keys, List.mem_cons, List.not_mem_nil, or_false] at hk
  obtain rfl | rfl | rfl := hk
  · exact h.fresh (.approvalRequest c.row) (List.mem_map_of_mem (by simp [newRows]))
  · exact h.fresh (.auditLogEntry c.auditEntry) (List.mem_map_of_mem (by simp [newRows]))
  · exact h.fresh (.outboxEvent c.event) (List.mem_map_of_mem (by simp [newRows]))

theorem Verdict.new_of_held {v : Verdict} {ws id : String} {row : ApprovalRequestRow}
    (h : Held (v.writes ws id row) σ) : σ.has (.auditLogEntry v.env.auditId) = false ∧
      σ.has (.outboxEvent v.env.eventId) = false :=
  ⟨h.fresh (.auditLogEntry (v.auditEntry ws id)) (by simp [writes, newRows]),
    h.fresh (.outboxEvent (v.event ws id)) (by simp [writes, newRows])⟩

/-- A creation at its commit: no id and no key that it writes is there yet. -/
theorem Creation.valid_commit {c : Creation} {key : String} {body : RawBody} (hby : call.By app P)
    (hop : call.operation = .create (some key) body) (henv : c.env = call.env)
    (hws : c.workspaceId = call.workspaceId) (hactor : c.actorUserId = P.userId)
    (hkey : c.idempotencyKey = key) (hbody : call.operation.normalized = some c.payload.modelDump)
    (hfp : c.fingerprint = Idempotency.fingerprint app.sha256 c.payload.modelDump)
    (haccepted : KeyAccepted key) (hσ : σ.Registered) (hheld : Held c.writes σ) :
    Valid approvalDb (request app call) σ ⟨201, .request c.out⟩ c.writes := by
  obtain ⟨document, hdoc, payload, hpayload, hdump⟩ : ∃ document, body.document? = some document ∧
      ∃ payload, validateBody ApprovalRequestCreate.modelValidate document = .ok payload ∧
        payload.modelDump = c.payload.modelDump := by
    rw [hop] at hbody
    obtain ⟨document, hdoc, hbody⟩ := Option.bind_eq_some_iff.mp hbody
    obtain ⟨payload, hpayload, hdump⟩ := Option.map_eq_some_iff.mp hbody
    exact ⟨document, hdoc, payload, ok_of_toOption hpayload, hdump⟩
  obtain rfl := ApprovalRequestCreate.modelDump_injective (congrArg Json.canonical hdump)
  have hnew : call.env.New σ := henv ▸ c.new_of_held hheld
  have hledger : σ.key? call.workspaceId "create" key = none := by
    rw [← hws, ← hkey]
    exact hheld.key?_eq_none rfl c.mem_writes_ledgerRow
  have hc : c = call.creation app P key c.payload c.accepted := by
    obtain ⟨env, ws, actor, payload, k, fp, accepted⟩ := c
    dsimp only at henv hws hactor hkey hfp
    rw [henv, hws, hactor, hkey, hfp]
    rfl
  exact congrArg (fun r => r.2.1)
    (serve_created hby hop hdoc haccepted hpayload hσ hnew hledger hc)

/-- An answer says with which verdict its row was decided. -/
theorem Verdict.eq_of_out {v v' : Verdict} {row row' : ApprovalRequestRow} (henv : v.env = v'.env)
    (hd : v.decision = v'.decision) (hactor : v.actorUserId = v'.actorUserId)
    (hkey : v.key = v'.key) (h : v.out row = v'.out row') : v = v' := by
  have hcomment : v.comment = v'.comment := congrArg ApprovalRequestOut.decisionComment h
  have hreason : v.reason = v'.reason := congrArg ApprovalRequestOut.decisionReason h
  have hshown : v.shown = v'.shown := congrArg ApprovalRequestOut.reviewerUserIds h
  obtain ⟨env, d, actor, comment, reason, shown, key, accepted⟩ := v
  dsimp only at henv hd hactor hkey hcomment hreason hshown
  subst henv hd hactor hkey hcomment hreason hshown
  rfl

theorem Verdict.writes_congr {v : Verdict} {ws id : String} {row row' : ApprovalRequestRow}
    (h : v.out row = v.out row') : v.writes ws id row = v.writes ws id row' := by
  simp only [writes, newRows, ledgerRow?, h]

/-- A decision at its commit: its row is pending, and the ledger has no row with its key. -/
theorem Verdict.valid_commit {v : Verdict} {σ' : Store} {id : String} {key : Option String}
    {body : RawBody} {payload : Json} {row : ApprovalRequestRow} (hby : call.By app P)
    (hop : call.operation = .decide v.decision id key body) (henv : v.env = call.env)
    (hactor : v.actorUserId = P.userId)
    (hkey : v.key = key.map (fun k => (k, fingerprint app.sha256 payload)))
    (hbody : call.operation.normalized = some payload)
    (hev : σ.Evolves σ') (hentitled : v.decision.Entitled row.createdByUserId
      (σ'.reviewerIds call.workspaceId id) v.actorUserId)
    (hexact : Exact app call ⟨200, .request (v.out row)⟩ σ) (hσ : σ.Registered)
    (hheld : Held (v.writes call.workspaceId id row) σ) :
    Valid approvalDb (request app call) σ ⟨200, .request (v.out row)⟩
      (v.writes call.workspaceId id row) := by
  have hledger : ∀ k ∈ key, σ.key? call.workspaceId (v.decision.route id) k = none := by
    rintro k rfl
    have hrow : v.ledgerRow? call.workspaceId id row = some ⟨call.workspaceId,
        v.decision.route id, k, fingerprint app.sha256 payload, 200, (v.out row).modelDump,
        v.env.keyCreatedAt⟩ := by
      simp [ledgerRow?, hkey]
    exact hheld.key?_eq_none rfl (mem_writes_ledgerRow hrow)
  rcases hexact.decides v.decision id key body hop with ⟨k, hk, hfound⟩ | hd
  · rw [hledger k hk] at hfound
    cases hfound
  obtain ⟨P', document, b, row₁, row', accepted, hby', hdoc, hb, hrow', hbecomes, hanswer⟩ :=
    hd.shown
  obtain rfl := hby.eq hby'
  have hp := hσ.pending_of_held hheld List.mem_cons_self hrow'
  have hsame : row' = row₁ := by
    rcases hbecomes with h | ⟨-, values, hv, rfl⟩
    · exact h
    · exact absurd hp hv
  subst hsame
  have hpayload : payload = b.payload := by
    simpa [hop, Operation.normalized, hdoc, hb, Except.toOption, eq_comm] using hbody
  subst hpayload
  simp only [Answer.mk.injEq, true_and, AnswerBody.request.injEq] at hanswer
  have hcreator : row.createdByUserId = row'.createdByUserId :=
    congrArg ApprovalRequestOut.createdByUserId hanswer
  have hlisted : σ.listed call.env 1 call.workspaceId id = σ.shown call.env 1 row' := by
    obtain ⟨-, hws, hid⟩ := Store.request?_some hrow'
    rw [Store.shown_eq_listed, hws, hid]
  rw [hlisted] at hanswer
  have hv : v = call.verdict app P v.decision key b (σ.shown call.env 1 row') accepted :=
    eq_of_out henv rfl hactor hkey hanswer
  have hout : v.out row = v.out row' := hanswer.trans (congrArg (fun v => out v row') hv.symm)
  rw [writes_congr hout, hout]
  rw [hcreator, hactor, Store.reviewerIds, hev.reviewers hrow'] at hentitled
  have haccepted : ∀ k ∈ key, KeyAccepted k := by
    rintro k rfl
    exact hexact.accepted (v.decision.route id) k (by rw [hop]; rfl)
  obtain ⟨haudit, hevent⟩ := Verdict.new_of_held hheld
  rw [henv] at haudit hevent
  exact congrArg (fun r => r.2.1) (serve_decided hby hop hdoc haccepted hb hσ haudit hevent hledger
    hrow' hentitled hp hv)

/-- **A call that does not only read does at its commit what it would do alone.** -/
theorem valid_commit {a : Answer} {δ : List Write} (hread : ¬ call.operation.IsRead)
    (hby : call.By app P) (heff : Effect app call P (approvalDb.view σ δ) a δ)
    (hexact : Exact app call a σ) (hσ : σ.Registered) (hc : Commits σ δ) (hheld : Held δ σ) :
    Valid approvalDb (request app call) σ a δ := by
  cases heff with
  | read a hop => exact absurd hop hread
  | created c hop henv hws hactor hkey hbody hfp =>
    exact c.valid_commit hby hop henv hws hactor hkey hbody hfp
      (hexact.accepted "create" _ (by rw [hop]; rfl))
      hσ hheld
  | @decided v id key body payload row row' hop henv hactor hkey hbody hid hrow hbecomes entitled
      shown =>
    exact v.valid_commit hby hop henv hactor hkey hbody (hσ.evolves hc hheld) entitled hexact hσ
      hheld
  | replayed hkey hbody hfound hfp hout =>
    rw [Database.view_nil] at hfound
    have hserved := serve_found hby hkey (hexact.accepted _ _ hkey) hbody hfound hout
    rw [if_neg (not_not.mpr hfp)] at hserved
    exact congrArg (fun r => r.2.1) hserved

end Commit

/-! ## At the first statement -/

section First

variable {app : App} {call : Call}

/-- A call that only reads sends nothing that writes, and is answered only if its caller may
make it. -/
theorem request_reads (hop : call.operation.IsRead) : (request app call).Only
    (fun s => ∀ v, (approvalDb.exec s v).2 = []) (fun _ _ => True)
    (fun r => r.2 = .ret () ∧ ∃ P, call.By app P) := by
  have hend : ∀ P document, (endpoint app call P document []).Only
      (fun s => ∀ v, (approvalDb.exec s v).2 = []) (fun _ _ => True) (fun p => p.2 = []) :=
    fun P document => (endpoint_reads hop document).mono (fun s hs => hs.reads) fun _ hp => hp
  have hauth : (AuthDependencies.requireAction call.operation.requiredAction app.provider
      call.authorization call.workspaceId []).Only (fun s => ∀ v, (approvalDb.exec s v).2 = [])
      (fun _ _ => True) (fun p => call.By app p.1 ∧ p.2 = []) := by
    rw [requireAction_eq]
    cases hprincipal : app.provider.authenticate call.authorization with
    | error e =>
      cases e with
      | invalidCredentials message => exact ⟨fun _ => rfl, fun _ _ => trivial⟩
      | other detail => trivial
    | ok P =>
      dsimp only
      split_ifs with hws haction
      · exact ⟨fun _ => rfl, fun _ _ => trivial⟩
      · exact ⟨fun _ => rfl, fun _ _ => trivial⟩
      · exact ⟨⟨hprincipal, not_not.mp hws, by simpa using haction⟩, rfl⟩
  have hhandle : (handle app call []).Only (fun s => ∀ v, (approvalDb.exec s v).2 = [])
      (fun _ _ => True) (fun p => p.2 = [] ∧ ∃ P, call.By app P) := by
    unfold handle
    rw [tx_bind, parseBody_eq]
    cases call.operation.body.document? with
    | none => cases call.operation.body <;> trivial
    | some document =>
      rw [Prog.bind, tx_bind]
      refine hauth.bind fun p hp => ?_
      obtain ⟨P, pending⟩ := p
      obtain ⟨hby, rfl⟩ := hp
      exact (hend P document).mono (fun _ hs => hs) fun q hq => ⟨hq, P, hby⟩
  refine hhandle.bind fun p hp => ?_
  obtain ⟨a, pending⟩ := p
  obtain ⟨rfl, hby⟩ := hp
  exact ⟨rfl, hby⟩

theorem serve_reads (hop : call.operation.IsRead) (σ : Store) :
    ((request app call).serve approvalDb σ).1 = σ := by
  rw [(Prog.serve_eq_eval _ σ).1]
  have htransaction : (request app call).transaction.Only
      (fun s => ∀ v, (approvalDb.exec s v).2 = []) (fun _ _ => True) (fun _ => True) :=
    (request_reads hop).bind fun r hr => by rw [hr.1]; trivial
  have hkept := htransaction.keeps (I := fun v => v = σ)
    (fun s v hs hv => ⟨trivial, by rw [hs, Database.view_nil, hv]⟩) rfl
  cases ((request app call).transaction.eval approvalDb σ).1 with
  | ok u => exact hkept
  | error e => rfl

/-- The program of a read of one request after its first statement. -/
def afterRow (env : Env) (id : String) : Option ApprovalRequestRow → Request Reply Exn Answer
  | none => .throw (.approvalRequestNotFoundError id)
  | some row => .exec (.selectReviewers [(row.workspaceId, row.id)] (env.rowOrder 0))
      (fun reviewers : List ApprovalRequestReviewer => .ret (⟨200, .request (.ofEntity
        (toEntity env.dialect.load row (reviewersOfRow reviewers row)))⟩, .ret ()))

theorem request_get_eq {P : Principal} (hby : call.By app P) {id : String}
    (hop : call.operation = .get id) : request app call =
      .exec (.selectRequest call.workspaceId id) (afterRow call.env id) := by
  rw [request_get hby hop]
  change (((get call.env 0 call.workspaceId id []).bind _).bind _) = _
  rw [get_eq]
  refine congrArg (Prog.exec _) (funext fun row? => ?_)
  change Option ApprovalRequestRow at row?
  cases row? <;> rfl

/-- **A read of one request answers what the request was at its first statement.** The reviewers
are read later, but they never change. -/
theorem get_atFirst {id : String} (hop : call.operation = .get id) :
    AtFirst approvalDiscipline (request app call) := by
  have hread : call.operation.IsRead := by rw [hop]; trivial
  refine ⟨fun r hr => ?_, serve_reads hread, fun {s k σ} hp hσ => ?_⟩
  · obtain ⟨P, hby⟩ : ∃ P, call.By app P := by
      have honly := @request_reads app call hread
      rw [hr] at honly
      exact honly.2
    rw [request_get_eq hby hop] at hr
    cases hr
  · by_cases hcaller : ∃ P, call.By app P
    · obtain ⟨P, hby⟩ := hcaller
      obtain ⟨rfl, hk⟩ := Prog.exec.inj (hp.symm.trans (request_get_eq hby hop))
      obtain rfl := eq_of_heq hk
      change Wp _ _ (afterRow call.env id (σ.request? call.workspaceId id)) _ [] σ
      cases hrow : σ.request? call.workspaceId id with
      | none => exact fun _ _ => trivial
      | some row =>
        refine Wp.read (fun _ => rfl) fun σ₁ h₁ σ₂ h₂ => ?_
        have hserved := serve_get hby hop hrow
        have hshown : reviewersOfRow (σ₁.loaded (call.env.rowOrder 0) [row]) row =
            σ.shown call.env 0 row := by
          obtain ⟨-, hws, hid⟩ := Store.request?_some hrow
          have hev := approves_approvalDiscipline.env h₁.env
          change σ₁.shown call.env 0 row = _
          rw [Store.shown_eq_listed, Store.shown_eq_listed, hws, hid, hev.listed hrow]
        rw [← hshown, ← toEntity_load] at hserved
        exact congrArg (fun r => r.2.1) hserved
    · have honly := @request_reads app call hread
      rw [hp] at honly
      exact Ensures.of_only ((honly.2 _ trivial).mono (fun _ _ => trivial)
        fun r hr => (hcaller hr.2).elim)

end First

/-! ## Where a call takes effect -/

/-- A read of one request takes effect at its first statement, a call that writes at its commit.
A list call reads its total, its page and its reviewers at three moments. -/
def Call.point (call : Call) : Option Point :=
  match call.operation with
  | .list _ _ _ => none
  | .get _ => some .firstStatement
  | .create _ _ => some .commit
  | .decide _ _ _ _ => some .commit

theorem Call.point_isSome (call : Call) : call.point.isSome = true ↔
    ∀ status limit offset, call.operation ≠ .list status limit offset := by
  unfold Call.point
  cases call.operation <;> simp

theorem Effect.silent {app : App} {call : Call} {P : Principal} {σ : Store} {a : Answer}
    {δ : List Write} (h : Effect app call P σ a δ) (hop : call.operation.IsRead) : δ = [] := by
  cases h with
  | read => rfl
  | replayed => rfl
  | created c hcreate => rw [hcreate] at hop; exact hop.elim
  | decided v hdecide => rw [hdecide] at hop; exact hop.elim

/-- **Every call takes effect at its point.** -/
theorem takesEffect (app : App) (call : Call) :
    TakesEffect (exactContract app call) (request app call) call.point := by
  have hsilent : call.operation.IsRead → (exactContract app call).Silent := by
    rintro hop a δ σ ⟨P, hby, heff⟩
    exact heff.silent hop
  have hcommit : ¬ call.operation.IsRead →
      AtCommit (exactContract app call) (request app call) := by
    rintro hop a δ σ hσ hheld hc ⟨-, -, hexact⟩ ⟨P, hby, heff⟩
    exact valid_commit hop hby heff hexact hσ hc hheld
  unfold Call.point
  cases hop : call.operation with
  | list status limit offset => exact hsilent (by rw [hop]; trivial)
  | get id => exact ⟨get_atFirst hop, hsilent (by rw [hop]; trivial)⟩
  | create key body => exact hcommit (by rw [hop]; exact not_false)
  | decide d id key body => exact hcommit (by rw [hop]; exact not_false)

end ContentApproval
