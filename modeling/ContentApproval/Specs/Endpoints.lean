import ContentApproval.Specs.Service

/-!
# The programs of the endpoints

The endpoints written out as programs: what `run_idempotent` does after its lookup in the
ledger, what a body is read as, when the parameters of an endpoint are accepted, and the
three decision endpoints as one.
-/

namespace ContentApproval

open Transactions SqlApprovalRequestRepository AsyncSession ApprovalService Idempotency
  AuthDependencies

/-! ## Programs -/

/-- The flush of `run_idempotent` with its `except`. -/
def ledgerFlush (pending : List NewRow) : Prog Reply Exn (Unit × List NewRow) :=
  ((insertAll pending).bind (fun u => .ret (u, []))).catchError (fun e => match e with
    | .integrityError => .throw keyInProgress
    | e => .throw e)

/-- `run_idempotent` after the lookup in the ledger. -/
def afterLookup (env : Env) (ws route key fp : String) (handler : Tx (ApprovalRequestOut × Nat))
    (existing? : Option IdempotencyKey) :
    Prog Reply Exn ((ApprovalRequestOut × Nat) × List NewRow) :=
  match existing? with
  | some existing =>
    if existing.requestFingerprint ≠ fp then .throw keyReused
    else match ApprovalRequestOut.modelValidate existing.responseBody with
      | some result => .ret ((result, existing.responseStatus), [])
      | none => .throw (.unexpected "stored response body")
  | none => (handler []).bind (fun p =>
    (ledgerFlush (p.2 ++ [.idempotencyKey ⟨ws, route, key, fp, p.1.2, p.1.1.modelDump,
      env.keyCreatedAt⟩])).bind (fun q => .ret (p.1, q.2)))

theorem runIdempotentWith_some (env : Env) (ws route key fp : String)
    (handler : Tx (ApprovalRequestOut × Nat)) :
    runIdempotentWith env ws route (some key) fp handler [] =
      .exec (.selectKey ws route key) (afterLookup env ws route key fp handler) := by
  refine congrArg (Prog.exec _) (funext fun existing? => ?_)
  change Option IdempotencyKey at existing?
  cases existing? with
  | none =>
    simp only [afterLookup, Prog.bind, Prog.pure_eq]
    refine congrArg (Prog.bind _) (funext fun p => ?_)
    obtain ⟨⟨result, code⟩, pending⟩ := p
    refine congrArg (fun x : Prog Reply Exn (Unit × List NewRow) =>
      x.bind (fun q => .ret ((result, code), q.2))) (congrArg (Prog.catchError _) ?_)
    funext e
    cases e <;> rfl
  | some existing =>
    simp only [afterLookup, Prog.bind, Prog.pure_eq]
    by_cases h : existing.requestFingerprint = fp
    · simp only [h, ne_eq, not_true_eq_false, if_false, replay]
      cases ApprovalRequestOut.modelValidate existing.responseBody <;> rfl
    · simp only [h, ne_eq, not_false_eq_true, if_true]
      rfl

theorem runIdempotent_some (sha256 : String → String) (env : Env) (ws route key : String)
    (payload : Json) (handler : Tx (ApprovalRequestOut × Nat)) :
    runIdempotent sha256 env ws route (some key) payload handler [] =
      .exec (.selectKey ws route key)
        (afterLookup env ws route key (fingerprint sha256 payload) handler) :=
  runIdempotentWith_some env ws route key _ handler

theorem runIdempotent_none (sha256 : String → String) (env : Env) (ws route : String)
    (payload : Json) (handler : Tx (ApprovalRequestOut × Nat)) :
    runIdempotent sha256 env ws route none payload handler [] = handler [] := rfl

theorem requireAction_eq (action : Action) (provider : AuthProvider)
    (authorization : Option String) (ws : String) (pending : List NewRow) :
    requireAction action provider authorization ws pending =
      match provider.authenticate authorization with
      | .ok principal =>
        if principal.workspaceId ≠ ws then
          .exec (.log ⟨.warning, AuthDependencies.logger, "workspace mismatch",
            [("workspace_id", ws), ("actor_user_id", principal.userId),
              ("required_action", action.value)], none⟩)
            (fun _ => .throw (.httpException 403 "Not authorized for this workspace"))
        else if principal.hasAction action = false then
          .exec (.log ⟨.warning, AuthDependencies.logger, "missing required action",
            [("workspace_id", ws), ("actor_user_id", principal.userId),
              ("required_action", action.value)], none⟩)
            (fun _ => .throw (.httpException 403 ("Missing required action: " ++ action.value)))
        else .ret (principal, pending)
      | .error (.invalidCredentials message) =>
        .exec (.log ⟨.warning, AuthDependencies.logger, "authentication failed",
          [("reason", message)], none⟩) (fun _ => .throw (.httpException 401 message))
      | .error (.other detail) => .throw (.unexpected detail) := by
  unfold requireAction getPrincipal
  cases provider.authenticate authorization with
  | error e => cases e <;> rfl
  | ok principal =>
    by_cases hws : principal.workspaceId = ws
    · by_cases ha : principal.hasAction action = false
      · simp only [hws, ha, ne_eq, not_true_eq_false, if_false, if_true, tx_bind, tx_pure,
          Prog.bind]
        rfl
      · simp only [hws, ha, ne_eq, not_true_eq_false, reduceCtorEq, if_false, tx_bind, tx_pure,
          Prog.bind]
    · simp only [hws, ne_eq, not_false_eq_true, if_true, tx_bind, tx_pure, Prog.bind]
      rfl

/-! ## The normalized body of a call -/

/-- What a decision endpoint takes from its body. -/
structure DecisionBody where
  comment : Option String
  reason : Option String
  payload : Json

/-- The body models of the three decisions. -/
def Decision.readBody (document : Option Json) : Decision → Validated DecisionBody
  | approve => (validateBody ApproveRequest.modelValidate document).map
    (fun p => ⟨p.comment, none, p.modelDump⟩)
  | reject => (validateBody DecisionReasonRequest.modelValidate document).map
    (fun p => ⟨none, some p.reason, p.modelDump⟩)
  | cancel => (validateBody DecisionReasonRequest.modelValidate document).map
    (fun p => ⟨none, some p.reason, p.modelDump⟩)

/-- The document of a body that parses. -/
def RawBody.document? : RawBody → Option (Option Json)
  | absent => some none
  | malformed _ => none
  | json document => some (some document)

/-- The normalized payload that `run_idempotent` is called with. -/
def Operation.normalized : Operation → Option Json
  | create _ body => body.document?.bind (fun document =>
    (validateBody ApprovalRequestCreate.modelValidate document).toOption.map
      ApprovalRequestCreate.modelDump)
  | decide decision _ _ body => body.document?.bind (fun document =>
    (decision.readBody document).toOption.map DecisionBody.payload)
  | _ => none

/-- The route and the key under which a call is entered in the ledger. -/
def Operation.ledgerKey : Operation → Option (String × String)
  | create key _ => key.map (fun k => ("create", k))
  | decide decision requestId key _ => key.map (fun k => (decision.route requestId, k))
  | _ => none

/-- The operation only reads. -/
def Operation.IsRead : Operation → Prop
  | list _ _ _ => True
  | get _ => True
  | _ => False

theorem parseBody_eq (body : RawBody) (pending : List NewRow) :
    parseBody body pending = match body.document? with
      | some document => .ret (document, pending)
      | none => match body with
        | .malformed pos => .throw (.invalid
          [⟨"json_invalid", [.field "body", .index pos], "JSON decode error", .obj []⟩])
        | _ => .throw (.invalid []) := by
  cases body <;> rfl

theorem validateBody_ok {α : Type} {validate : List (String × Json) → Validated α}
    {document : Option Json} {a : α} (h : validateBody validate document = .ok a) :
    ∃ fields, document = some (.obj fields) ∧ validate fields = .ok a := by
  unfold validateBody at h
  split at h
  · cases h
  · cases h
  · exact ⟨_, rfl, h⟩
  · cases h

theorem both_ok {α β : Type} {x : Validated α} {y : Validated β} {a : α} {b : β}
    (h : x.both y = .ok (a, b)) : x = .ok a ∧ y = .ok b := by
  cases x <;> cases y <;> cases h
  exact ⟨rfl, rfl⟩

theorem map_ok {α β : Type} {x : Validated α} {f : α → β} {b : β} (h : x.map f = .ok b) :
    ∃ a, x = .ok a ∧ f a = b := by
  cases x with
  | error e => cases h
  | ok a => exact ⟨a, rfl, Except.ok.inj h⟩

theorem ok_of_toOption {α : Type} {x : Validated α} {a : α} (h : x.toOption = some a) :
    x = .ok a := by
  cases x with
  | error e => cases h
  | ok b => exact congrArg Except.ok (Option.some.inj h)

theorem Decision.readBody_accepts {d : Decision} {document : Option Json} {b : DecisionBody}
    (h : d.readBody document = .ok b) : d.Accepts b.comment b.reason := by
  cases d with
  | approve =>
    obtain ⟨p, hp, rfl⟩ := map_ok h
    obtain ⟨fields, -, hfields⟩ := validateBody_ok hp
    exact ⟨rfl, fields, hfields⟩
  | reject =>
    obtain ⟨p, hp, rfl⟩ := map_ok h
    obtain ⟨fields, -, hfields⟩ := validateBody_ok hp
    exact ⟨rfl, p.reason, fields, rfl, hfields⟩
  | cancel =>
    obtain ⟨p, hp, rfl⟩ := map_ok h
    obtain ⟨fields, -, hfields⟩ := validateBody_ok hp
    exact ⟨rfl, p.reason, fields, rfl, hfields⟩

theorem requiredIdempotencyKey_ok {key : Option String} {k : String}
    (h : requiredIdempotencyKey key = .ok k) : key = some k := by
  cases key with
  | none => cases h
  | some s =>
    simp only [requiredIdempotencyKey, validateLength] at h
    split_ifs at h
    · cases h
    · cases h
    · rw [Except.ok.inj h]

theorem optionalIdempotencyKey_ok {key key' : Option String}
    (h : optionalIdempotencyKey key = .ok key') : key = key' := by
  cases key with
  | none => exact Except.ok.inj h
  | some s =>
    obtain ⟨k, hk, rfl⟩ := map_ok h
    simp only [validateLength] at hk
    split_ifs at hk
    · cases hk
    · cases hk
    · rw [Except.ok.inj hk]

/-- The parameters of an endpoint. -/
theorem orRequestValidationError_bind {α β : Type} (v : Validated α) (f : α → Tx β)
    (pending : List NewRow) : (orRequestValidationError v >>= f) pending =
      match v with
      | .ok a => f a pending
      | .error es => .throw (.invalid es) := by
  cases v <;> rfl

/-- The three decision endpoints with their bodies. -/
theorem endpoint_decide {app : App} {call : Call} {P : Principal} {document : Option Json}
    {d : Decision} {id : String} {key : Option String} {body : RawBody}
    (hop : call.operation = .decide d id key body) :
    endpoint app call P document = (do
      let (key, b) ← orRequestValidationError
        ((optionalIdempotencyKey key).both (d.readBody document))
      decisionEndpoint app call.env d call.workspaceId id b.payload key
        (decideRequest call.env d call.workspaceId id P.userId b.comment b.reason)) := by
  funext pending
  unfold endpoint
  rw [hop]
  cases d
  all_goals
    simp only [orRequestValidationError_bind, Decision.readBody]
    cases optionalIdempotencyKey key <;> cases validateBody _ document <;> rfl

/-! ## The reading endpoints -/

/-- A `SELECT`. -/
def Statement.IsSelect : Statement → Prop
  | .selectRequest _ _ => True
  | .selectReviewers _ _ => True
  | .countRequests _ _ => True
  | .selectPage _ _ _ _ => True
  | .selectKey _ _ _ => True
  | _ => False

theorem Statement.IsSelect.reads {s : Statement} (h : s.IsSelect) (v : Store) :
    (approvalDb.exec s v).2 = [] := by
  cases s <;> first | rfl | exact h.elim

/-- The reading endpoints send nothing but `SELECT`s and leave nothing to flush. -/
theorem endpoint_reads {app : App} {call : Call} {P : Principal} (hop : call.operation.IsRead)
    (document : Option Json) :
    (endpoint app call P document []).Only Statement.IsSelect (fun _ _ => True)
      (fun p => p.2 = []) := by
  have hload : ∀ order rows, (selectinload order rows []).Only Statement.IsSelect (fun _ _ => True)
      (fun p => p.2 = []) := by
    intro order rows
    cases rows with
    | nil => rfl
    | cons row rows => exact ⟨trivial, fun _ _ => rfl⟩
  have hget : ∀ site ws id, (get call.env site ws id []).Only Statement.IsSelect (fun _ _ => True)
      (fun p => p.2 = []) := by
    intro site ws id
    exact ⟨trivial, fun row? _ => (hload _ _).bind fun p hp => hp⟩
  unfold endpoint
  cases hcall : call.operation with
  | get id =>
    refine Prog.Only.bind (Prog.Only.bind (hget 0 call.workspaceId id) fun p hp => ?_)
      fun p hp => hp
    obtain ⟨_ | _, _⟩ := p
    · trivial
    · exact hp
  | list status limit offset =>
    dsimp only
    rw [orRequestValidationError_bind]
    split
    · refine Prog.Only.bind ?_ fun p (hp : p.2 = []) => hp
      exact ⟨trivial, fun total _ => ⟨trivial, fun rows _ => (hload _ _).bind fun p hp => hp⟩⟩
    · trivial
  | create key body => rw [hcall] at hop; exact hop.elim
  | decide d id key body => rw [hcall] at hop; exact hop.elim

end ContentApproval
