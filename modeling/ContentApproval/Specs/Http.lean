import ContentApproval.Api.Http
import ContentApproval.Specs.Agreement
import ContentApproval.Specs.Payloads
import ContentApproval.Specs.Programs

/-!
# Requests over HTTP as calls

A request over HTTP whose body is accepted as text is one and the same program as the call
with its normalized payload (`Http.request_text`). Any other request with a body writes
nothing: it is rejected, or replays an answer, or raises (`Http.quiet_meets`). So whatever the
bodies are, every request keeps a contract (`Http.request_meets`).
-/

namespace ContentApproval

open Transactions AsyncSession Idempotency AuthDependencies

/-! ## Payloads that are text -/

namespace Values

open PyStr Errors Json.Reader

theorem ofPayload_injective : Function.Injective ofPayload := by
  intro p q h
  obtain ⟨t, i, n, d, ids⟩ := p
  obtain ⟨t', i', n', d', ids'⟩ := q
  simp only [ofPayload, ApprovalRequestCreate.mk.injEq] at h
  obtain ⟨rfl, rfl, rfl, rfl, hids⟩ := h
  rw [List.map_injective_iff.mpr ofString_injective hids]

theorem mapM_textOf? {ids : List PyStr} {texts : List String} :
    ids.mapM textOf? = some texts ↔ ids = texts.map ofString := by
  induction ids generalizing texts with
  | nil => cases texts <;> simp
  | cons id ids ih =>
    rw [List.mapM_cons]
    constructor
    · intro h
      obtain ⟨t, ht, h⟩ := Option.bind_eq_some_iff.mp h
      obtain ⟨ts, hts, h⟩ := Option.bind_eq_some_iff.mp h
      obtain rfl := Option.some.inj h
      rw [List.map_cons, textOf?_eq_some.mp ht, ih.mp hts]
    · intro h
      cases texts with
      | nil => cases h
      | cons t ts =>
        obtain ⟨hid, hids⟩ := List.cons.inj h
        simp [textOf?_eq_some.mpr hid, ih.mpr hids]

theorem text?_eq_some {p : ApprovalRequestCreate} {q : ContentApproval.ApprovalRequestCreate} :
    p.text? = some q ↔ p = ofPayload q := by
  rw [ApprovalRequestCreate.text?, Option.map_eq_some_iff]
  constructor
  · rintro ⟨ids, hids, rfl⟩
    rw [mapM_textOf?] at hids
    cases p
    exact congrArg _ hids
  · rintro rfl
    exact ⟨q.reviewerUserIds, mapM_textOf?.mpr rfl, rfl⟩

/-- A payload is text if no reviewer id has a surrogate. -/
theorem text?_isSome {p : ApprovalRequestCreate} :
    p.text?.isSome ↔ ∀ id ∈ p.reviewerUserIds, id.Encodable := by
  rw [ApprovalRequestCreate.text?, Option.isSome_map]
  induction p.reviewerUserIds with
  | nil => simp
  | cons id ids ih =>
    rw [List.forall_mem_cons, ← ih, ← textOf?_isSome, List.mapM_cons]
    cases textOf? id <;> cases ids.mapM textOf? <;> simp

/-! ## Normalized bodies are accepted -/

/-- An accepted payload is accepted as itself. -/
theorem modelValidate_modelDump {entries : List (PyStr × PyValue)} {p : ApprovalRequestCreate}
    (h : ApprovalRequestCreate.modelValidate entries = .ok p) :
    ApprovalRequestCreate.modelValidate p.modelDump = .ok p := by
  obtain ⟨raw, hraw⟩ := exists_raw h
  obtain ⟨hok, hnormal⟩ := (modelValidate_iff hraw).mp h
  exact (modelValidate_iff p.raw_in_modelDump).mpr (hnormal.stable hok.1)

/-- What one validation accepts the other does. -/
theorem Agrees.ok_inv {α β : Type} {f : β → α} (hf : Function.Injective f) {x : Checked α}
    {y : Validated β} (h : Agrees f x y) {b : β} (hx : x = .ok (f b)) : y = .ok b := by
  cases h with
  | ok b' => rw [hf (Except.ok.inj hx)]
  | error _ => cases hx

theorem validateBody_create {entries : List (PyStr × PyValue)}
    {p : ContentApproval.ApprovalRequestCreate}
    (h : ApprovalRequestCreate.modelValidate entries = .ok (ofPayload p)) :
    validateBody ContentApproval.ApprovalRequestCreate.modelValidate (some p.modelDump) =
      .ok p := by
  have hentries := PyValue.dict.inj (modelDump_ofPayload p)
  have hagain := modelValidate_modelDump h
  rw [hentries] at hagain
  exact (ApprovalRequestCreate.agrees _).ok_inv ofPayload_injective hagain

/-- A comment that was accepted is not too long. -/
theorem validateBody_approve {entries : List (PyStr × PyValue)} {p : ApproveRequest}
    (h : ApproveRequest.modelValidate entries = .ok p) :
    validateBody ContentApproval.ApproveRequest.modelValidate (some p.modelDump) = .ok p := by
  obtain ⟨comment, hcomment, hp⟩ := bind_eq_ok.mp h
  obtain rfl := Except.ok.inj hp
  have hlength : ∀ s ∈ comment, s.length ≤ 2000 := by
    rcases lookup_of_optionalField hcomment with ⟨value, -, hvalid⟩ | hnone
    · obtain ⟨s, rfl⟩ := eq_nullable_of_validateNullable hvalid
      obtain ⟨rfl, hlength⟩ := validateNullable_iff.mp hvalid
      intro t ht
      have hmax := hlength (ofString t) (Option.mem_map_of_mem _ ht)
      rwa [length_ofString] at hmax
    · rw [optionalField_none hnone] at hcomment
      obtain rfl := Except.ok.inj hcomment
      exact fun s hs => by cases hs
  refine (ApproveRequest.agrees [("comment", ContentApproval.dumpNullable comment)]).ok_inv
    Function.injective_id ?_
  refine bind_eq_ok.mpr ⟨comment, ?_, rfl⟩
  have hlookup : lookupEntry (PyValue.ofFields [("comment", ContentApproval.dumpNullable comment)])
      "comment" "comment" = some (nullable (comment.map ofString)) := by
    rw [lookupEntry_ofFields]
    cases comment <;> rfl
  rw [optionalField_eq hlookup, validateNullable_iff]
  refine ⟨rfl, fun s hs => ?_⟩
  obtain ⟨t, ht, rfl⟩ := Option.map_eq_some_iff.mp hs
  rw [length_ofString]
  exact hlength t ht

theorem validateBody_reason {entries : List (PyStr × PyValue)} {p : DecisionReasonRequest}
    (h : DecisionReasonRequest.modelValidate entries = .ok p) :
    validateBody ContentApproval.DecisionReasonRequest.modelValidate (some p.modelDump) = .ok p := by
  obtain ⟨reason, hreason, hp⟩ := bind_eq_ok.mp h
  obtain rfl := Except.ok.inj hp
  obtain ⟨_, -, hvalid⟩ := lookup_of_requiredField hreason
  obtain ⟨s, rfl⟩ := eq_str_of_validateNonBlank hvalid
  obtain ⟨-, hlength, hblank, hstrip⟩ := validateNonBlank_iff.mp hvalid
  obtain ⟨hlength', -⟩ := bounded_strip hlength (strip_ne_nil.mp hblank)
  refine (DecisionReasonRequest.agrees [("reason", .str reason)]).ok_inv Function.injective_id ?_
  refine bind_eq_ok.mpr ⟨reason, ?_, rfl⟩
  have hlookup : lookupEntry (PyValue.ofFields [("reason", .str reason)]) "reason" "reason" =
      some (.str (ofString reason)) := by
    rw [lookupEntry_ofFields]
    rfl
  rw [requiredField_eq hlookup, validateNonBlank_iff, hstrip, strip_idempotent]
  exact ⟨hstrip ▸ encodable_ofString reason, hlength', hblank, rfl⟩

end Values

/-! ## Accepted bodies -/

theorem validateBodyValue_ok {α : Type}
    {validate : List (PyStr × PyValue) → Values.Checked α} {document : Option PyValue} {a : α}
    (h : Errors.validateBodyValue validate document = .ok a) :
    ∃ entries, document = some (.dict entries) ∧ validate entries = .ok a := by
  unfold Errors.validateBodyValue at h
  split at h
  · cases h
  · cases h
  · exact ⟨_, rfl, h⟩
  · cases h

/-- The body models of the three decisions. -/
def Decision.readValue (document : Option PyValue) : Decision → Values.Checked DecisionBody
  | approve => (Errors.validateBodyValue Values.ApproveRequest.modelValidate document).map
    (fun p => ⟨p.comment, none, p.modelDump⟩)
  | reject => (Errors.validateBodyValue Values.DecisionReasonRequest.modelValidate document).map
    (fun p => ⟨none, some p.reason, p.modelDump⟩)
  | cancel => (Errors.validateBodyValue Values.DecisionReasonRequest.modelValidate document).map
    (fun p => ⟨none, some p.reason, p.modelDump⟩)

/-- The payload of a decision is read as the same decision. -/
theorem Decision.readBody_payload {d : Decision} {document : Option PyValue} {b : DecisionBody}
    (h : d.readValue document = .ok b) : d.readBody (some b.payload) = .ok b := by
  cases d with
  | approve =>
    obtain ⟨p, hp, rfl⟩ := Json.Reader.map_eq_ok.mp h
    obtain ⟨entries, -, hp⟩ := validateBodyValue_ok hp
    rw [readBody, Values.validateBody_approve hp]
    rfl
  | reject =>
    obtain ⟨p, hp, rfl⟩ := Json.Reader.map_eq_ok.mp h
    obtain ⟨entries, -, hp⟩ := validateBodyValue_ok hp
    rw [readBody, Values.validateBody_reason hp]
    rfl
  | cancel =>
    obtain ⟨p, hp, rfl⟩ := Json.Reader.map_eq_ok.mp h
    obtain ⟨entries, -, hp⟩ := validateBodyValue_ok hp
    rw [readBody, Values.validateBody_reason hp]
    rfl

section Bodies

variable (python : Python)

/-- The payload of the body of a create that is accepted. -/
def HttpBody.create? (body : HttpBody) : Option Values.ApprovalRequestCreate :=
  (Http.readBody python body).toOption.bind (fun document =>
    (Errors.validateBodyValue Values.ApprovalRequestCreate.modelValidate document).toOption)

/-- What is taken from the body of a decision that is accepted. -/
def HttpBody.decision? (body : HttpBody) (d : Decision) : Option DecisionBody :=
  (Http.readBody python body).toOption.bind (fun document => (d.readValue document).toOption)

/-- The same call with another operation. -/
def HttpCall.withOperation (call : HttpCall) (operation : Operation) : Call :=
  ⟨call.env, call.authorization, call.workspaceId, operation⟩

/-- The call that a request over HTTP is, if it has no body or one that is accepted as text. -/
def HttpCall.text? (call : HttpCall) : Option Call :=
  match call.operation with
  | .create key body => (body.create? python).bind (fun p => p.text?.map (fun q =>
    call.withOperation (.create key (.json q.modelDump))))
  | .list status limit offset => some (call.withOperation (.list status limit offset))
  | .get id => some (call.withOperation (.get id))
  | .decide d id key body => (body.decision? python d).map (fun b =>
    call.withOperation (.decide d id key (.json b.payload)))

variable {python}

theorem toOption_eq_some {ε α : Type} {x : Except ε α} {a : α} :
    x.toOption = some a ↔ x = .ok a := by
  cases x <;> simp [Except.toOption]

theorem HttpBody.create?_eq_some {body : HttpBody} {p : Values.ApprovalRequestCreate} :
    body.create? python = some p ↔ ∃ entries,
      Http.readBody python body = .ok (some (.dict entries)) ∧
        Values.ApprovalRequestCreate.modelValidate entries = .ok p := by
  simp only [create?, Option.bind_eq_some_iff, toOption_eq_some]
  constructor
  · rintro ⟨document, hread, hp⟩
    obtain ⟨entries, rfl, hp⟩ := validateBodyValue_ok hp
    exact ⟨entries, hread, hp⟩
  · rintro ⟨entries, hread, hp⟩
    exact ⟨_, hread, hp⟩

theorem HttpBody.decision?_eq_some {body : HttpBody} {d : Decision} {b : DecisionBody} :
    body.decision? python d = some b ↔ ∃ document,
      Http.readBody python body = .ok document ∧ d.readValue document = .ok b := by
  simp only [decision?, Option.bind_eq_some_iff, toOption_eq_some]

end Bodies

/-! ## Programs -/

namespace Http

section Programs

variable {app : App} {python : Python} {call : HttpCall}

theorem orRequestValidationError_bind {α β : Type} (v : Values.Checked α) (f : α → Tx β)
    (pending : List NewRow) : (orRequestValidationError v >>= f) pending =
      match v with
      | .ok a => f a pending
      | .error es => .throw (.requestValidationError es) := by
  cases v <;> rfl

/-- A request whose body is read. -/
theorem handle_read {document : Option PyValue}
    (h : readDocument python call.operation = .ok document) : handle app python call [] =
      (requireAction call.operation.requiredAction app.provider call.authorization
        call.workspaceId []).bind (fun p => endpoint app call p.1 document p.2) := by
  unfold handle
  rw [h]
  rfl

/-- A create that is authorized and valid is `run_idempotent` with its handler. -/
theorem request_create {P : Principal} (hby : call.By app P) {key : String} {body : HttpBody}
    (hop : call.operation = .create (some key) body) (hkey : KeyAccepted key)
    {payload : Values.ApprovalRequestCreate} (hpayload : body.create? python = some payload) :
    request app python call = (runIdempotentWith call.env call.workspaceId "create" (some key)
      (fingerprintValue app.sha256 (.dict payload.modelDump)) (do
        let request ← createRequest call.env call.workspaceId P.userId payload
        return (ApprovalRequestOut.ofEntity request, 201)) []).bind
      (fun p => .ret (respond p)) := by
  obtain ⟨entries, hread, hentries⟩ := HttpBody.create?_eq_some.mp hpayload
  have hdoc : readDocument python call.operation = .ok (some (.dict entries)) := by
    rw [hop]
    exact hread
  have hbody : Errors.validateBodyValue Values.ApprovalRequestCreate.modelValidate
      (some (.dict entries)) = .ok payload := hentries
  have hend : endpoint app call P (some (.dict entries)) [] = createApprovalRequest app call.env
      call.workspaceId payload key P [] := by
    unfold endpoint
    rw [hop]
    dsimp only
    rw [orRequestValidationError_bind, hbody, requiredIdempotencyKey, hkey]
    rfl
  change (handle app python call []).bind _ = _
  rw [handle_read hdoc, hby.requireAction, Prog.bind, hend]
  unfold createApprovalRequest
  rw [tx_bind, Prog.bind_assoc]
  rfl

/-- The endpoints are the same on the same parameters. -/
theorem request_congr {call' : Call} {document : Option PyValue} {document' : Option Json}
    (henv : call'.authorization = call.authorization) (hws : call'.workspaceId = call.workspaceId)
    (haction : call'.operation.requiredAction = call.operation.requiredAction)
    (hread : readDocument python call.operation = .ok document)
    (hread' : call'.operation.body.document? = some document')
    (h : ∀ P pending, endpoint app call P document pending =
      ContentApproval.endpoint app call' P document' pending) :
    request app python call = ContentApproval.request app call' := by
  have hhandle : handle app python call [] = ContentApproval.handle app call' [] := by
    rw [handle_read hread, ContentApproval.handle, tx_bind, parseBody_eq, hread', henv, hws, haction]
    exact congrArg _ (funext fun p => h p.1 p.2)
  exact congrArg (fun p => Prog.bind p _) hhandle

/-- The three decision endpoints with their bodies. -/
theorem endpoint_decided {P : Principal} {document : Option PyValue} {d : Decision} {id : String}
    {key : Option String} {body : HttpBody} (hop : call.operation = .decide d id key body) :
    endpoint app call P document = (do
      let (key, b) ← orRequestValidationError
        ((checked (optionalIdempotencyKey key)).both (d.readValue document))
      decisionEndpoint app call.env d call.workspaceId id b.payload key
        (ApprovalService.decideRequest call.env d call.workspaceId id P.userId b.comment b.reason)) := by
  funext pending
  unfold endpoint
  rw [hop]
  cases d
  all_goals
    simp only [orRequestValidationError_bind, Decision.readValue]
    cases optionalIdempotencyKey key <;> cases Errors.validateBodyValue _ document <;> rfl

theorem createApprovalRequest_ofPayload (env : Env) (ws key : String) (P : Principal)
    (q : ApprovalRequestCreate) : createApprovalRequest app env ws (Values.ofPayload q) key P =
      ContentApproval.createApprovalRequest app env ws q key P := by
  have htext : (Values.ofPayload q).text? = some q := Values.text?_eq_some.mpr rfl
  unfold createApprovalRequest createRequest
  rw [Values.fingerprint_ofPayload, htext]
  rfl

/-- **A request whose body is accepted as text is a call.** -/
theorem request_text {call' : Call} (h : call.text? python = some call') :
    request app python call = ContentApproval.request app call' := by
  unfold HttpCall.text? at h
  split at h
  · rename_i key body hop
    obtain ⟨p, hp, h⟩ := Option.bind_eq_some_iff.mp h
    obtain ⟨q, hq, rfl⟩ := Option.map_eq_some_iff.mp h
    obtain rfl := Values.text?_eq_some.mp hq
    obtain ⟨entries, hread, hentries⟩ := HttpBody.create?_eq_some.mp hp
    refine request_congr rfl rfl (by rw [hop]; rfl) (by rw [hop]; exact hread) rfl fun P pending => ?_
    have hbody : Errors.validateBodyValue Values.ApprovalRequestCreate.modelValidate
        (some (.dict entries)) = .ok (Values.ofPayload q) := hentries
    unfold endpoint ContentApproval.endpoint
    rw [hop]
    dsimp only [HttpCall.withOperation]
    rw [orRequestValidationError_bind, ContentApproval.orRequestValidationError_bind, hbody,
      Values.validateBody_create hentries]
    cases requiredIdempotencyKey key with
    | error errors => rfl
    | ok key => exact congrFun (createApprovalRequest_ofPayload _ _ _ _ _) pending
  · rename_i status limit offset hop
    obtain rfl := Option.some.inj h
    refine request_congr rfl rfl (by rw [hop]; rfl) (by rw [hop]; rfl) rfl fun P pending => ?_
    unfold endpoint ContentApproval.endpoint
    rw [hop]
    dsimp only [HttpCall.withOperation]
    rw [orRequestValidationError_bind, ContentApproval.orRequestValidationError_bind]
    cases (statusQuery status).both ((integerQuery "limit" 20 1 (some 100) limit).both
      (integerQuery "offset" 0 0 none offset)) <;> rfl
  · rename_i id hop
    obtain rfl := Option.some.inj h
    refine request_congr rfl rfl (by rw [hop]; rfl) (by rw [hop]; rfl) rfl fun P pending => ?_
    unfold endpoint ContentApproval.endpoint
    rw [hop]
    rfl
  · rename_i d id key body hop
    obtain ⟨b, hb, rfl⟩ := Option.map_eq_some_iff.mp h
    obtain ⟨document, hread, hb⟩ := HttpBody.decision?_eq_some.mp hb
    refine request_congr rfl rfl (by rw [hop]; cases d <;> rfl) (by rw [hop]; exact hread) rfl
      fun P pending => ?_
    have hdecide : (call.withOperation (.decide d id key (.json b.payload))).operation =
        .decide d id key (.json b.payload) := rfl
    rw [endpoint_decide hdecide,
      ContentApproval.orRequestValidationError_bind, Decision.readBody_payload hb,
      endpoint_decided hop, orRequestValidationError_bind, hb]
    cases optionalIdempotencyKey key <;> rfl

end Programs

/-! ## Contracts -/

/-- The contract of a request that writes nothing. -/
def quiet : Contract approvalDiscipline Exn Answer where
  During _ _ := True
  Answered _ δ _ := δ = []
  Done _ _ _ := True
  Failed _ _ := True
  during_env _ _ := trivial
  answered_env h _ := h
  done_env _ _ := trivial
  failed_env _ _ := trivial

/-- Nothing is written, and nothing left to flush. -/
def Quiet {α : Type} : Except Exn (α × List NewRow) → List Write → Store → Prop
  | .ok p, δ, _ => p.2 = [] ∧ δ = []
  | .error _, _, _ => True

/-- A program that only raises. -/
theorem Wp.bind_throw {α β : Type} {D : Discipline approvalDb} {p : Prog Reply Exn α} {e : Exn}
    {Q : Except Exn β → List Write → Store → Prop} (hQ : ∀ e δ σ, Q (.error e) δ σ)
    {δ : List Write} {σ : Store} :
    Wp D (fun _ _ => True) (p.bind (fun _ => .throw e)) Q δ σ := by
  induction p generalizing δ σ with
  | ret a => exact fun σ₁ _ => hQ e δ σ₁
  | throw e' => exact fun σ₁ _ => hQ e' δ σ₁
  | exec s k ih => exact fun σ₁ _ => ⟨trivial, ih _⟩

section Contracts

variable {app : App} {python : Python} {call : HttpCall} {σ : Store}

/-- A key whose handler raises: an answer is replayed, or nothing is answered. -/
theorem afterLookup_quiet {env : Env} {ws route key fp : String}
    {handler : Tx (ApprovalRequestOut × Nat)} {e : Exn} {p : Prog Reply Exn Unit}
    (h : handler [] = p.bind (fun _ => .throw e)) (existing? : Option IdempotencyKey) :
    Wp approvalDiscipline (fun _ _ => True) (afterLookup env ws route key fp handler existing?)
      Quiet [] σ := by
  cases existing? with
  | none =>
    unfold afterLookup
    dsimp only
    rw [h, Prog.bind_assoc]
    exact Wp.bind_throw fun _ _ _ => trivial
  | some existing =>
    unfold afterLookup
    dsimp only
    split_ifs
    · exact fun _ _ => trivial
    · cases ApprovalRequestOut.modelValidate existing.responseBody with
      | none => exact fun _ _ => trivial
      | some out => exact fun _ _ => ⟨rfl, rfl⟩

/-- A payload with an id that is no text. -/
theorem createRequest_raises {env : Env} {ws user : String}
    {payload : Values.ApprovalRequestCreate} (h : payload.text? = none) :
    createRequest env ws user payload [] = ((SqlApprovalRequestRepository.create env env.requestId ws
      user payload.sourceType payload.sourceId payload.title payload.description [] []).bind
        (fun _ => .ret ())).bind (fun _ => .throw (.unexpected "UnicodeEncodeError")) := by
  unfold createRequest
  rw [h]
  dsimp only
  rw [tx_bind, Prog.bind_assoc]
  rfl

theorem createApprovalRequest_quiet {env : Env} {ws key : String} {P : Principal}
    {payload : Values.ApprovalRequestCreate} (h : payload.text? = none) :
    Wp approvalDiscipline (fun _ _ => True) (createApprovalRequest app env ws payload key P [])
      Quiet [] σ := by
  unfold createApprovalRequest
  rw [tx_bind, runIdempotentWith_some]
  have hhandler : (createRequest env ws P.userId payload >>= fun request =>
      (return (ApprovalRequestOut.ofEntity request, 201) : Tx (ApprovalRequestOut × Nat))) [] =
        ((SqlApprovalRequestRepository.create env env.requestId ws P.userId payload.sourceType
          payload.sourceId payload.title payload.description [] []).bind (fun _ => .ret ())).bind
            (fun _ => .throw (.unexpected "UnicodeEncodeError")) := by
    rw [tx_bind, createRequest_raises h, Prog.bind_assoc]
    rfl
  refine Wp.bind (Wp.read (fun _ => rfl) fun σ₁ h₁ => ?_)
  refine (afterLookup_quiet hhandler _).mono fun r δ σ₂ _ _ _ hr => ?_
  cases r with
  | error e => trivial
  | ok p => exact fun _ _ => hr

theorem endpoint_quiet {P : Principal} {document : Option PyValue}
    (hread : readDocument python call.operation = .ok document) (h : call.text? python = none) :
    Wp approvalDiscipline (fun _ _ => True) (endpoint app call P document []) Quiet [] σ := by
  unfold HttpCall.text? at h
  cases hop : call.operation with
  | create key body =>
    rw [hop] at h hread
    unfold endpoint
    rw [hop]
    dsimp only
    rw [orRequestValidationError_bind]
    split
    · rename_i params hparams
      obtain ⟨key, payload⟩ := params
      obtain ⟨-, hpayload⟩ := Values.both_eq_ok.mp hparams
      have hbody : body.create? python = some payload := by
        have hread : readBody python body = .ok document := hread
        rw [HttpBody.create?, toOption_eq_some.mpr hread, Option.bind_some,
          toOption_eq_some.mpr hpayload]
      dsimp only at h
      rw [hbody, Option.bind_some, Option.map_eq_none_iff] at h
      exact createApprovalRequest_quiet h
    · exact fun _ _ => trivial
  | list status limit offset =>
    rw [hop] at h
    cases h
  | get id =>
    rw [hop] at h
    cases h
  | decide d id key body =>
    rw [hop] at h hread
    rw [endpoint_decided hop, orRequestValidationError_bind]
    split
    · rename_i params hparams
      obtain ⟨key, b⟩ := params
      obtain ⟨-, hb⟩ := Values.both_eq_ok.mp hparams
      have hbody : body.decision? python d = some b := by
        have hread : readBody python body = .ok document := hread
        rw [HttpBody.decision?, toOption_eq_some.mpr hread, Option.bind_some,
          toOption_eq_some.mpr hb]
      dsimp only at h
      rw [hbody] at h
      cases h
    · exact fun _ _ => trivial

/-- **A request that is no call writes nothing.** -/
theorem quiet_meets (h : call.text? python = none) : quiet.Meets (request app python call) := by
  refine ⟨fun _ _ => trivial, fun σ _ => Wp.bind ?_⟩
  have hhandle : Wp approvalDiscipline (fun _ _ => True) (handle app python call []) Quiet [] σ := by
    cases hread : readDocument python call.operation with
    | error e =>
      unfold handle
      rw [hread]
      exact fun _ _ => trivial
    | ok document =>
      rw [handle_read hread]
      refine Wp.bind (Wp.requireAction (fun P σ₁ _ _ _ _ => endpoint_quiet hread h) ?_)
      exact fun _ _ _ => trivial
  refine hhandle.mono fun r δ σ₁ _ _ _ hr => ?_
  cases r with
  | error e => trivial
  | ok p =>
    obtain ⟨a, pending⟩ := p
    obtain ⟨rfl, rfl⟩ := hr
    exact fun σ₂ _ => ⟨rfl, fun σ₃ _ => ⟨.quiet, trivial⟩⟩

/-- **Every request over HTTP keeps a contract** that lets it fail in any way. -/
theorem request_meets (app : App) (python : Python) (call : HttpCall) :
    ∃ C : Contract approvalDiscipline Exn Answer,
      C.Meets (request app python call) ∧ ∀ e σ, C.Failed e σ := by
  cases h : call.text? python with
  | none => exact ⟨quiet, quiet_meets h, fun _ _ => trivial⟩
  | some call' =>
    refine ⟨contract app call', ?_, fun _ _ => trivial⟩
    rw [request_text h]
    exact ContentApproval.request_meets app call'

end Contracts

end Http

end ContentApproval
