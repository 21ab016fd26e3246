import ContentApproval.Specs.Contract

/-!
# The programs of valid calls

A call that is authorized and valid is the program of its endpoint with the parameters
filled in: `request_create`, `request_get` and `request_decide`. For a call with a key,
`request_keyed` says as much without the handler.
-/

namespace ContentApproval

open Transactions AsyncSession ApprovalService Idempotency

/-- The answer of an endpoint that went through `run_idempotent`, and the rest of its
transaction. -/
def respond (p : (ApprovalRequestOut × Nat) × List NewRow) : Answer × Prog Reply Exn Unit :=
  (⟨p.1.2, .request p.1.1⟩, insertAll p.2)

/-- The key has an accepted length. -/
def KeyAccepted (key : String) : Prop := validateLength 1 255 keyLoc key = .ok key

section Programs

variable {app : App} {call : Call} {P : Principal} {document : Option Json}

theorem request_get (hby : call.By app P) {id : String} (hop : call.operation = .get id) :
    request app call = (getOrRaise call.env call.workspaceId id []).bind
      (fun p => .ret (⟨200, .request (.ofEntity p.1)⟩, insertAll p.2)) := by
  have hdoc : call.operation.body.document? = some none := by rw [hop]; rfl
  have hend : endpoint app call P none = getApprovalRequest call.env call.workspaceId id := by
    unfold endpoint
    rw [hop]
  rw [request_by hby hdoc, hend]
  change ((getOrRaise call.env call.workspaceId id []).bind (fun p => .ret
    ((⟨200, .request (ApprovalRequestOut.ofEntity p.1)⟩ : Answer), p.2))).bind _ = _
  rw [Prog.bind_assoc]
  rfl

theorem request_create (hby : call.By app P) {key : String} {body : RawBody}
    (hop : call.operation = .create (some key) body) (hdoc : body.document? = some document)
    (hkey : KeyAccepted key) {payload : ApprovalRequestCreate}
    (hpayload : validateBody ApprovalRequestCreate.modelValidate document = .ok payload) :
    request app call = (runIdempotent app.sha256 call.env call.workspaceId "create" (some key)
      payload.modelDump (do
        let request ← createRequest call.env call.workspaceId P.userId payload.sourceType
          payload.sourceId payload.title payload.description payload.reviewerUserIds
        return (ApprovalRequestOut.ofEntity request, 201)) []).bind
      (fun p => .ret (respond p)) := by
  have hdoc' : call.operation.body.document? = some document := by rw [hop]; exact hdoc
  have hparams : (requiredIdempotencyKey (some key)).both
      (validateBody ApprovalRequestCreate.modelValidate document) = .ok (key, payload) := by
    rw [hpayload, requiredIdempotencyKey, hkey]
    rfl
  have hend : endpoint app call P document [] = createApprovalRequest app call.env
      call.workspaceId payload key P [] := by
    unfold endpoint
    rw [hop]
    dsimp only
    rw [orRequestValidationError_bind, hparams]
  rw [request_by hby hdoc', hend]
  unfold createApprovalRequest
  rw [tx_bind, Prog.bind_assoc]
  rfl

theorem request_decide (hby : call.By app P) {d : Decision} {id : String} {key : Option String}
    {body : RawBody} (hop : call.operation = .decide d id key body)
    (hdoc : body.document? = some document) (hkey : ∀ k ∈ key, KeyAccepted k) {b : DecisionBody}
    (hb : d.readBody document = .ok b) :
    request app call = (runIdempotent app.sha256 call.env call.workspaceId (d.route id) key
      b.payload (do
        let request ← decideRequest call.env d call.workspaceId id P.userId b.comment b.reason
        return (ApprovalRequestOut.ofEntity request, 200)) []).bind
      (fun p => .ret (respond p)) := by
  have hdoc' : call.operation.body.document? = some document := by rw [hop]; exact hdoc
  have hparams : (optionalIdempotencyKey key).both (d.readBody document) = .ok (key, b) := by
    rw [hb]
    cases key with
    | none => rfl
    | some k =>
      rw [optionalIdempotencyKey, show validateLength 1 255 keyLoc k = _ from hkey k rfl]
      rfl
  rw [request_by hby hdoc', endpoint_decide hop, orRequestValidationError_bind, hparams]
  dsimp only
  unfold decisionEndpoint
  rw [tx_bind, Prog.bind_assoc]
  rfl

/-- A call with a key looks the key up and then replays, refuses or runs its handler. -/
theorem request_keyed (hby : call.By app P) {route key : String}
    (hkey : call.operation.ledgerKey = some (route, key)) (hok : KeyAccepted key) {payload : Json}
    (hbody : call.operation.normalized = some payload) :
    ∃ handler, request app call = .exec (.selectKey call.workspaceId route key)
      (fun existing? => (afterLookup call.env call.workspaceId route key
        (fingerprint app.sha256 payload) handler existing?).bind (fun p => .ret (respond p))) := by
  cases hop : call.operation with
  | create k body =>
    rw [hop] at hkey hbody
    obtain ⟨k', rfl, hk⟩ := Option.map_eq_some_iff.mp hkey
    obtain ⟨rfl, rfl⟩ := Prod.mk.inj hk
    obtain ⟨document, hdoc, hbody⟩ := Option.bind_eq_some_iff.mp hbody
    obtain ⟨m, hm, rfl⟩ := Option.map_eq_some_iff.mp hbody
    have hprogram := request_create hby hop hdoc hok (ok_of_toOption hm)
    rw [runIdempotent_some] at hprogram
    exact ⟨_, hprogram⟩
  | decide d id k body =>
    rw [hop] at hkey hbody
    obtain ⟨k', rfl, hk⟩ := Option.map_eq_some_iff.mp hkey
    obtain ⟨rfl, rfl⟩ := Prod.mk.inj hk
    obtain ⟨document, hdoc, hbody⟩ := Option.bind_eq_some_iff.mp hbody
    obtain ⟨b, hb, rfl⟩ := Option.map_eq_some_iff.mp hbody
    have hprogram := request_decide hby hop hdoc (fun _ h => Option.some.inj h ▸ hok)
      (ok_of_toOption hb)
    rw [runIdempotent_some] at hprogram
    exact ⟨_, hprogram⟩
  | list _ _ _ => rw [hop] at hkey; cases hkey
  | get _ => rw [hop] at hkey; cases hkey

/-- A call with a key leaves nothing to flush after its answer. -/
theorem afterLookup_pending (env : Env) (ws route key fp : String)
    (handler : Tx (ApprovalRequestOut × Nat)) (existing? : Option IdempotencyKey) :
    (afterLookup env ws route key fp handler existing?).Only (fun _ => True) (fun _ _ => True)
      (fun p => p.2 = []) := by
  unfold afterLookup
  cases existing? with
  | some existing =>
    dsimp only
    split_ifs
    · trivial
    · split
      · exact rfl
      · trivial
  | none =>
    have hflush : ∀ rows, (ledgerFlush rows).Only (fun _ => True) (fun _ _ => True)
        (fun q => q.2 = []) := by
      intro rows
      refine (((insertAll rows).only_true).bind fun _ _ => ?_).catchError fun e => ?_
      · exact rfl
      · split <;> trivial
    exact (Prog.only_true _).bind fun p _ => (hflush _).bind fun q hq => hq

/-- The endpoint of a call with a key raises, or it has accepted the key and looks it up. -/
theorem endpoint_keyed {route key : String} (hkey : call.operation.ledgerKey = some (route, key))
    (P : Principal) (document : Option Json) :
    (∃ e, endpoint app call P document [] = .throw e) ∨ (KeyAccepted key ∧ ∃ fp handler,
      endpoint app call P document [] = .exec (.selectKey call.workspaceId route key)
        (fun existing? => (afterLookup call.env call.workspaceId route key fp handler
          existing?).bind (fun p => .ret (⟨p.1.2, .request p.1.1⟩, p.2)))) := by
  cases hop : call.operation with
  | create k body =>
    rw [hop] at hkey
    obtain ⟨k', rfl, hk⟩ := Option.map_eq_some_iff.mp hkey
    obtain ⟨rfl, rfl⟩ := Prod.mk.inj hk
    unfold endpoint
    rw [hop]
    dsimp only
    rw [orRequestValidationError_bind]
    cases hparams : (requiredIdempotencyKey (some k')).both
        (validateBody ApprovalRequestCreate.modelValidate document) with
    | error es => exact Or.inl ⟨_, rfl⟩
    | ok params =>
      obtain ⟨k, payload⟩ := params
      obtain ⟨hok, -⟩ := both_ok hparams
      obtain rfl := Option.some.inj (requiredIdempotencyKey_ok hok)
      dsimp only
      unfold createApprovalRequest
      rw [tx_bind, runIdempotent_some]
      exact Or.inr ⟨hok, _, _, rfl⟩
  | decide d id k body =>
    rw [hop] at hkey
    obtain ⟨k', rfl, hk⟩ := Option.map_eq_some_iff.mp hkey
    obtain ⟨rfl, rfl⟩ := Prod.mk.inj hk
    rw [endpoint_decide hop, orRequestValidationError_bind]
    cases hparams : (optionalIdempotencyKey (some k')).both (d.readBody document) with
    | error es => exact Or.inl ⟨_, rfl⟩
    | ok params =>
      obtain ⟨k, b⟩ := params
      obtain ⟨hok, -⟩ := both_ok hparams
      obtain rfl := optionalIdempotencyKey_ok hok
      obtain ⟨k, hk, hkk⟩ := map_ok hok
      obtain rfl := Option.some.inj hkk
      dsimp only
      unfold decisionEndpoint
      rw [tx_bind, runIdempotent_some]
      exact Or.inr ⟨hk, _, _, rfl⟩
  | list _ _ _ => rw [hop] at hkey; cases hkey
  | get _ => rw [hop] at hkey; cases hkey

/-- A call with a key that is answered has had its key accepted and has nothing left to do. -/
theorem request_keyed_only {route key : String}
    (hkey : call.operation.ledgerKey = some (route, key)) :
    (request app call).Only (fun _ => True) (fun _ _ => True)
      (fun q => KeyAccepted key ∧ q.2 = .ret ()) := by
  have hauth : (AuthDependencies.requireAction call.operation.requiredAction app.provider
      call.authorization call.workspaceId []).Only (fun _ => True) (fun _ _ => True)
      (fun p => p.2 = []) := by
    rw [requireAction_eq]
    cases app.provider.authenticate call.authorization with
    | error e =>
      cases e with
      | invalidCredentials message => exact ⟨trivial, fun _ _ => trivial⟩
      | other detail => trivial
    | ok P =>
      dsimp only
      split_ifs
      · exact ⟨trivial, fun _ _ => trivial⟩
      · exact ⟨trivial, fun _ _ => trivial⟩
      · exact rfl
  have hend : ∀ P document, (endpoint app call P document []).Only (fun _ => True)
      (fun _ _ => True) (fun p => KeyAccepted key ∧ p.2 = []) := by
    intro P document
    rcases endpoint_keyed hkey P document with ⟨e, he⟩ | ⟨hok, fp, handler, hprogram⟩
    · rw [he]
      trivial
    · rw [hprogram]
      exact ⟨trivial, fun existing? _ =>
        (afterLookup_pending _ _ _ _ _ _ _).bind fun p hp => ⟨hok, hp⟩⟩
  change ((handle app call []).bind (fun p => .ret (p.1, insertAll p.2))).Only _ _ _
  refine Prog.Only.bind (P := fun p => KeyAccepted key ∧ p.2 = []) ?_ fun p hp =>
    ⟨hp.1, by rw [hp.2]; rfl⟩
  unfold handle
  rw [tx_bind, parseBody_eq]
  cases call.operation.body.document? with
  | none => cases call.operation.body <;> trivial
  | some document =>
    rw [Prog.bind, tx_bind]
    refine hauth.bind fun q hq => ?_
    rw [hq]
    exact hend q.1 document

end Programs

end ContentApproval
