import ContentApproval.Api.Errors
import ContentApproval.Json.Reading
import ContentApproval.Properties.Finality
import ContentApproval.Registry.Ledger
import ContentApproval.Specs.Bindings
import ContentApproval.Specs.Http
import ContentApproval.Transactions.Limited

/-!
# What validation admits and Postgres cannot take

Validation strips and bounds the texts of a body but lets U+0000 through, and surrogates in
reviewer ids; it bounds `offset` only from below, and ids that have no length not at all.
`HttpCall.Storable` says of a request that was accepted whether Postgres can take all that it
binds in the state it finds; exactly then it ends as intended (`storable_iff`), and otherwise in
an error that nothing handles (`unhandled_of_not_bindable`).
-/

namespace ContentApproval

open Transactions AsyncSession SqlApprovalRequestRepository ApprovalService Idempotency

/-! ## Requests on Postgres -/

/-- The whole transaction of a request on Postgres. -/
def postgresRequest (pg : Postgres) (p : Request Reply Exn Answer) : Request Reply Exn Answer :=
  p.limitedRequest (Statement.Bindable · pg) dataError

/-- `except IntegrityError` in `run_idempotent` lets the exception pass. -/
theorem ledgerFlush_limited (pg : Postgres) (rows : List NewRow) :
    (ledgerFlush rows).limited (Statement.Bindable · pg) dataError =
      (((insertAll rows).bind (fun u => .ret (u, []))).limited (Statement.Bindable · pg)
        dataError).catchError (fun e => match e with
          | .integrityError => .throw keyInProgress
          | e => .throw e) := by
  rw [ledgerFlush, Prog.limited_catchError (by rfl)]
  refine congrArg (Prog.catchError _) (funext fun e => ?_)
  cases e <;> rfl

/-- The status code that a request was answered with. -/
def endStatus? : Session Reply Write Exn Answer → Option Nat
  | .committed a _ => some a.statusCode
  | .failed e => some e.statusCode
  | _ => none

/-- Postgres can take all that a request binds, and the request ends as intended. -/
structure Taken (pg : Postgres) (p : Request Reply Exn Answer) (σ : Store) : Prop where
  bindable : ∀ s ∈ (p.serve approvalDb σ).2.2, s.Bindable pg
  status : ∃ n ∈ [200, 201, 403, 404, 409],
    endStatus? ((postgresRequest pg p).serve approvalDb σ).2.1 = some n

/-! ## The condition -/

/-- Validation admits the parameters and the body. -/
def Operation.Accepted (python : Python) : Operation HttpBody → Prop
  | create key body => (∃ k, key = some k ∧ KeyAccepted k) ∧ ∃ p, body.create? python = some p
  | list status limit offset => ∃ params, listParameters status limit offset = .ok params
  | get _ => True
  | decide d _ key body => (∀ k ∈ key, KeyAccepted k) ∧ ∃ b, body.decision? python d = some b

/-- The integer fits into 64 bits. -/
def QueryInt.Fits : QueryInt → Prop
  | value _ n => n < 2 ^ 63
  | _ => True

/-- What Postgres needs of a create that inserts its rows: the reviewer ids are Unicode text, none
of the texts contains U+0000, and the indexes have room for the ids. -/
structure CreateStorable (pg : Postgres) (ws requestId key userId : String)
    (p : Values.ApprovalRequestCreate) : Prop where
  caller : NulFree userId
  payload : ∃ q, p.text? = some q ∧ (∀ t ∈ q.texts, NulFree t) ∧
    ∀ e ∈ createEntries ws requestId key q, pg.indexes e = true

/-- No text that the request binds contains U+0000, its offset fits, and the indexes have room for
its ids. The caller's id and the body are bound only if the handler gets so far: if the key is not
in the ledger yet, and for a decision if its request is there and the caller is entitled to the
decision. The row of the ledger is inserted only if the request is pending. -/
def HttpCall.Storable (python : Python) (pg : Postgres) (call : HttpCall) (P : Principal)
    (σ : Store) : Prop :=
  NulFree call.workspaceId ∧ match call.operation with
  | .create key body => ∀ k ∈ key, NulFree k ∧
    (σ.key? call.workspaceId "create" k = none → ∀ p ∈ body.create? python,
      CreateStorable pg call.workspaceId call.env.requestId k P.userId p)
  | .list _ _ offset => offset.Fits
  | .get id => NulFree id
  | .decide d id key body => NulFree id ∧ (∀ k ∈ key, NulFree k) ∧
    ((∀ k ∈ key, σ.key? call.workspaceId (d.route id) k = none) →
      ∀ row ∈ σ.request? call.workspaceId id,
        d.Entitled row.createdByUserId (σ.reviewerIds call.workspaceId id) P.userId →
          NulFree P.userId ∧ (∀ b ∈ body.decision? python d, ∀ t ∈ b.texts, NulFree t) ∧
            (row.status = .pending →
              ∀ k ∈ key, pg.indexes [call.workspaceId, d.route id, k] = true))

/-! ## Single calls -/

section Calls

variable {pg : Postgres} {app : App} {call : Call} {P : Principal} {p : Request Reply Exn Answer}
  {σ σ' : Store} {s : Session Reply Write Exn Answer} {t : List Statement}

/-- A request that ends as intended where nothing is refused. -/
theorem taken_iff (h : p.serve approvalDb σ = (σ', s, t))
    (hs : ∃ n ∈ [200, 201, 403, 404, 409], endStatus? s = some n) :
    Taken pg p σ ↔ ∀ s ∈ t, s.Bindable pg := by
  have hbindable : (∀ s ∈ (p.serve approvalDb σ).2.2, s.Bindable pg) ↔
      ∀ s ∈ t, s.Bindable pg := by rw [h]
  refine ⟨fun htaken => hbindable.mp htaken.bindable, fun ht => ⟨hbindable.mpr ht, ?_⟩⟩
  rw [postgresRequest, Prog.serve_limited (hbindable.mpr ht), h]
  exact hs

/-- **A request that binds what Postgres cannot take ends in an exception that nothing handles.** -/
theorem unhandled_of_not_bindable (h : ¬ ∀ s ∈ (p.serve approvalDb σ).2.2, s.Bindable pg) :
    EndedUnhandled ((postgresRequest pg p).serve approvalDb σ).2.1 := by
  have hserve : ((postgresRequest pg p).serve approvalDb σ).2.1 = .failed dataError ∨
      ∃ a, ((postgresRequest pg p).serve approvalDb σ).2.1 = .lost a :=
    Prog.serve_limited_refused h
  rcases hserve with hserve | ⟨a, hserve⟩
  · rw [hserve]
    trivial
  · rw [hserve]
    trivial

theorem taken_denied {python : Python} {call : HttpCall}
    (hauth : app.provider.authenticate call.authorization = .ok P) (hby : ¬ call.By app P)
    {document : Option PyValue} (hread : Http.readDocument python call.operation = .ok document) :
    Taken pg (Http.request app python call) σ := by
  obtain ⟨record, detail, hdenied⟩ := requireAction_denied hauth hby
  have hrun : (Http.handle app python call []).run approvalDb σ [] =
      ⟨.error (.httpException 403 detail), [], [.log record]⟩ := by
    rw [Http.handle_read hread, hdenied]
    rfl
  have hserve : (Http.request app python call).serve approvalDb σ =
      (σ, .failed (.httpException 403 detail), [.log record]) :=
    Prog.serve_of_raise (Prog.run_bind_error _ hrun)
  rw [taken_iff hserve ⟨403, by decide, rfl⟩]
  exact List.forall_mem_singleton.mpr (Statement.bindable_log record)

/-- A request with a key that is in the ledger. -/
theorem taken_keyed {env : Env} {ws route key fp : String} {handler : Tx (ApprovalRequestOut × Nat)}
    (hσ : σ.Registered) {r : IdempotencyKey} (hfound : σ.key? ws route key = some r) :
    Taken pg (.exec (.selectKey ws route key) (fun existing? =>
      (afterLookup env ws route key fp handler existing?).bind (fun p => .ret (respond p)))) σ ↔
        NulFree ws ∧ NulFree route ∧ NulFree key := by
  obtain ⟨⟨out, hout⟩, hstatus⟩ := hσ.replayable hfound
  have hlookup := @keyLookup_bindable pg ws route (some key)
  rw [taken_iff (serve_keyed hfound hout)]
  · refine hlookup.trans ⟨fun h => h key rfl, fun h k hk => ?_⟩
    obtain rfl := Option.some.inj hk
    exact h
  · split_ifs
    · exact ⟨409, by decide, rfl⟩
    · exact ⟨r.responseStatus, by simp at hstatus ⊢; omega, rfl⟩

/-- A call with such a key. -/
theorem taken_found (hby : call.By app P) (hσ : σ.Registered) {route key : String}
    (hkey : call.operation.ledgerKey = some (route, key)) (hok : KeyAccepted key) {payload : Json}
    (hbody : call.operation.normalized = some payload) {r : IdempotencyKey}
    (hfound : σ.key? call.workspaceId route key = some r) :
    Taken pg (request app call) σ ↔ NulFree call.workspaceId ∧ NulFree route ∧ NulFree key := by
  obtain ⟨handler, hprogram⟩ := request_keyed hby hkey hok hbody
  rw [hprogram]
  exact taken_keyed hσ hfound

theorem taken_get (hby : call.By app P) {id : String} (hop : call.operation = .get id) :
    Taken pg (request app call) σ ↔ NulFree call.workspaceId ∧ NulFree id := by
  cases hrow : σ.request? call.workspaceId id with
  | none =>
    rw [taken_iff (serve_get_missing hby hop hrow) ⟨404, by decide, rfl⟩]
    exact reads_bindable 0
  | some row =>
    rw [taken_iff (serve_get hby hop hrow) ⟨200, by decide, rfl⟩]
    exact reads_bindable 0

/-- The accepted parameters of a list. -/
theorem listParameters_ok {status : Option String} {limit offset : QueryInt}
    {filter : Option ApprovalStatus} {l o : Nat}
    (h : listParameters status limit offset = .ok (filter, l, o)) :
    l ≤ 100 ∧ (offset.Fits ↔ o < 2 ^ 63) := by
  obtain ⟨-, hboth⟩ := both_ok h
  obtain ⟨hlimit, hoffset⟩ := both_ok hboth
  constructor
  · cases limit with
    | absent => obtain rfl := Except.ok.inj hlimit; decide
    | unparsable raw => cases hlimit
    | value raw n =>
      simp only [integerQuery, errorItem] at hlimit
      split_ifs at hlimit
      obtain rfl := Except.ok.inj hlimit
      omega
  · cases offset with
    | absent => obtain rfl := Except.ok.inj hoffset; exact iff_of_true trivial (by decide)
    | unparsable raw => cases hoffset
    | value raw n =>
      simp only [integerQuery, errorItem] at hoffset
      split_ifs at hoffset
      obtain rfl := Except.ok.inj hoffset
      change n < 2 ^ 63 ↔ n.toNat < 2 ^ 63
      omega

theorem taken_list (hby : call.By app P) (hσ : σ.Clean pg) {status : Option String}
    {limit offset : QueryInt} (hop : call.operation = .list status limit offset)
    {params : Option ApprovalStatus × Nat × Nat}
    (hparams : listParameters status limit offset = .ok params) :
    Taken pg (request app call) σ ↔ NulFree call.workspaceId ∧ offset.Fits := by
  obtain ⟨filter, l, o⟩ := params
  obtain ⟨hl, ho⟩ := listParameters_ok hparams
  rw [taken_iff (serve_list hby hop hparams) ⟨200, by decide, rfl⟩, lists_bindable hσ, ho]
  have hl : l < 2 ^ 63 := by omega
  tauto

/-- A create whose body is accepted as text. -/
theorem taken_create (hby : call.By app P) (hσ : σ.Registered) (hsha : ∀ s, NulFree (app.sha256 s))
    (hnew : call.env.New σ) (henv : call.env.Bindable pg) {key : String} {body : RawBody}
    (hop : call.operation = .create (some key) body) (hok : KeyAccepted key)
    {document : Option Json} (hdoc : body.document? = some document)
    {payload : ApprovalRequestCreate}
    (hpayload : validateBody ApprovalRequestCreate.modelValidate document = .ok payload) :
    Taken pg (request app call) σ ↔ NulFree call.workspaceId ∧ NulFree key ∧
      (σ.key? call.workspaceId "create" key = none →
        NulFree P.userId ∧ (∀ t ∈ payload.texts, NulFree t) ∧
          ∀ e ∈ createEntries call.workspaceId call.env.requestId key payload,
            pg.indexes e = true) := by
  cases hkey : σ.key? call.workspaceId "create" key with
  | none =>
    obtain ⟨fields, -, hfields⟩ := validateBody_ok hpayload
    rw [taken_iff (serve_created hby hop hdoc hok hpayload hσ hnew hkey
      (Eq.refl (call.creation app P key payload ⟨fields, hfields⟩))) ⟨201, by decide, rfl⟩]
    refine (Creation.sends_bindable henv (hsha _)).trans ?_
    exact and_congr_right fun _ => and_congr_right fun _ => ⟨fun h _ => h, fun h => h rfl⟩
  | some r =>
    have hcreate : NulFree "create" := by decide
    have hnormalized : call.operation.normalized = some payload.modelDump := by
      rw [hop, Operation.normalized, hdoc, Option.bind_some, hpayload]
      rfl
    rw [taken_found hby hσ (by rw [hop]; rfl) hok hnormalized hkey]
    simp [hcreate]

end Calls

/-! ## Creates with a reviewer id that is no text -/

section Unencodable

variable {pg : Postgres} {app : App} {python : Python} {call : HttpCall} {P : Principal} {σ : Store}
  {key : String} {body : HttpBody} {payload : Values.ApprovalRequestCreate}

/-- The driver cannot encode the id. -/
theorem serve_unencodable (hby : call.By app P) (hnew : call.env.New σ)
    (hop : call.operation = .create (some key) body) (hok : KeyAccepted key)
    (hpayload : body.create? python = some payload) (htext : payload.text? = none)
    (hledger : σ.key? call.workspaceId "create" key = none) :
    ∃ t, (Http.request app python call).serve approvalDb σ =
      (σ, .failed (.unexpected "UnicodeEncodeError"), t) := by
  let p : ApprovalRequestCreate :=
    ⟨payload.sourceType, payload.sourceId, payload.title, payload.description, []⟩
  have hadmits : (approvalDb.view σ []).Admits
      (createdRows call.env call.env.requestId call.workspaceId P.userId p) :=
    ⟨⟨hnew _ List.mem_cons_self, rfl⟩, trivial⟩
  have hinserts := Prog.run_bind_ok (f := fun _ =>
    .ret (toEntity fresh (createdRow call.env call.env.requestId call.workspaceId P.userId p)
      p.reviewerUserIds, ([] : List NewRow))) (run_insertAll hadmits) rfl
  rw [← create_eq] at hinserts
  obtain ⟨δ, t, hcreate⟩ : ∃ δ t, (Http.createRequest call.env call.workspaceId P.userId payload
      []).run approvalDb σ [] = ⟨.error (.unexpected "UnicodeEncodeError"), δ, t⟩ := by
    rw [Http.createRequest_raises htext]
    exact ⟨_, _, Prog.run_bind_ok (Prog.run_bind_ok hinserts rfl) rfl⟩
  have hkeys : ∀ k ∈ some key, σ.key? call.workspaceId "create" k = none := by
    rintro k hk
    obtain rfl := Option.some.inj hk
    exact hledger
  rw [Http.request_create hby hop hok hpayload]
  exact ⟨_, serve_error (f := fun r => ⟨r.2, .request r.1⟩)
    (run_new_error hkeys (Prog.run_bind_error _ hcreate))⟩

theorem taken_unencodable (hby : call.By app P) (hσ : σ.Registered) (hnew : call.env.New σ)
    (hop : call.operation = .create (some key) body) (hok : KeyAccepted key)
    (hpayload : body.create? python = some payload) (htext : payload.text? = none) :
    Taken pg (Http.request app python call) σ ↔ NulFree call.workspaceId ∧ NulFree key ∧
      σ.key? call.workspaceId "create" key ≠ none := by
  cases hkey : σ.key? call.workspaceId "create" key with
  | none =>
    refine iff_of_false (fun h => ?_) fun h => h.2.2 rfl
    obtain ⟨t, hserve⟩ := serve_unencodable hby hnew hop hok hpayload htext hkey
    obtain ⟨n, hn, hstatus⟩ := h.status
    rw [postgresRequest, Prog.serve_limited h.bindable, hserve] at hstatus
    obtain rfl : 500 = n := Option.some.inj hstatus
    revert hn
    decide
  | some r =>
    have hcreate : NulFree "create" := by decide
    rw [Http.request_create hby hop hok hpayload, runIdempotentWith_some]
    refine (taken_keyed hσ hkey).trans ?_
    simp [hcreate]

end Unencodable

section Decide

variable {pg : Postgres} {app : App} {call : Call} {P : Principal} {σ : Store} {d : Decision}
  {id : String} {key : Option String} {body : RawBody} {document : Option Json} {b : DecisionBody}
  (hby : call.By app P) (hop : call.operation = .decide d id key body)
  (hdoc : body.document? = some document) (hok : ∀ k ∈ key, KeyAccepted k)
  (hb : d.readBody document = .ok b)

section New

variable (hledger : ∀ k ∈ key, σ.key? call.workspaceId (d.route id) k = none)

include hby hop hdoc hok hb hledger

/-- A decision that is refused before it is tried. -/
theorem taken_refused {e : Exn} {δ : List Write}
    (h : (decideRequest call.env d call.workspaceId id P.userId b.comment b.reason []).run
      approvalDb σ [] = ⟨.error e, δ, σ.reads call.env 0 call.workspaceId id⟩)
    (hstatus : e.statusCode ∈ [200, 201, 403, 404, 409]) : Taken pg (request app call) σ ↔
      NulFree call.workspaceId ∧ NulFree id ∧ ∀ k ∈ key, NulFree k := by
  rw [taken_iff (serve_undecided hby hop hdoc hok hb hledger h) ⟨_, hstatus, rfl⟩,
    List.forall_mem_append, keyLookup_bindable, reads_bindable, nulFree_route]
  constructor
  · rintro ⟨hkeys, hws, hid⟩
    exact ⟨hws, hid, fun k hk => (hkeys k hk).2.2⟩
  · rintro ⟨hws, hid, hkeys⟩
    exact ⟨fun k hk => ⟨hws, hid, hkeys k hk⟩, hws, hid⟩

/-- A decision that its caller is entitled to is tried, and may be too late. -/
theorem taken_entitled (hσ : σ.Registered) (hclean : σ.Clean pg)
    (hsha : ∀ s, NulFree (app.sha256 s)) (hnew : call.env.New σ) (henv : call.env.Bindable pg)
    {row : ApprovalRequestRow} (hrow : σ.request? call.workspaceId id = some row)
    (hentitled : d.Entitled row.createdByUserId (σ.reviewerIds call.workspaceId id) P.userId) :
    Taken pg (request app call) σ ↔ NulFree call.workspaceId ∧ NulFree id ∧ (∀ k ∈ key, NulFree k) ∧
      NulFree P.userId ∧ (∀ t ∈ b.texts, NulFree t) ∧
        (row.status = .pending → ∀ k ∈ key,
          pg.indexes [call.workspaceId, d.route id, k] = true) := by
  have haccepts := Decision.readBody_accepts hb
  let v := call.verdict app P d key b (σ.shown call.env 1 row) haccepts
  have htexts : (∀ t ∈ v.texts, NulFree t) ↔ NulFree P.userId ∧ ∀ t ∈ b.texts, NulFree t :=
    List.forall_mem_cons
  by_cases hp : row.status = .pending
  · have haudit : σ.has (.auditLogEntry call.env.auditId) = false := hnew _ (by simp [Env.keys])
    have hevent : σ.has (.outboxEvent call.env.eventId) = false := hnew _ (by simp [Env.keys])
    rw [taken_iff (serve_decided hby hop hdoc hok hb hσ haudit hevent hledger hrow hentitled hp
      (Eq.refl v)) ⟨200, by decide, rfl⟩, Verdict.sends_bindable hclean hrow henv hsha rfl rfl, htexts]
    simp only [hp, true_imp_iff, and_assoc]
    rfl
  · have hlate := run_decideRequest_late (v := v) hσ hrow hentitled hp
    rw [taken_iff (serve_undecided hby hop hdoc hok hb hledger hlate) ⟨409, by decide, rfl⟩,
      List.forall_mem_append, List.forall_mem_append, keyLookup_bindable, reads_bindable,
      decides_bindable, nulFree_route, htexts]
    constructor
    · rintro ⟨hkeys, ⟨hws, hid⟩, -, -, huser, hrest⟩
      exact ⟨hws, hid, fun k hk => (hkeys k hk).2.2, huser, hrest, fun h => absurd h hp⟩
    · rintro ⟨hws, hid, hkeys, huser, hrest, -⟩
      exact ⟨fun k hk => ⟨hws, hid, hkeys k hk⟩, ⟨hws, hid⟩, hws, hid, huser, hrest⟩

end New

theorem taken_decide (hby : call.By app P) (hσ : σ.Registered) (hclean : σ.Clean pg)
    (hsha : ∀ s, NulFree (app.sha256 s)) (hnew : call.env.New σ) (henv : call.env.Bindable pg)
    (hop : call.operation = .decide d id key body) (hdoc : body.document? = some document)
    (hok : ∀ k ∈ key, KeyAccepted k) (hb : d.readBody document = .ok b) :
    Taken pg (request app call) σ ↔ NulFree call.workspaceId ∧ NulFree id ∧ (∀ k ∈ key, NulFree k) ∧
      ((∀ k ∈ key, σ.key? call.workspaceId (d.route id) k = none) →
        ∀ row ∈ σ.request? call.workspaceId id,
          d.Entitled row.createdByUserId (σ.reviewerIds call.workspaceId id) P.userId →
            NulFree P.userId ∧ (∀ t ∈ b.texts, NulFree t) ∧ (row.status = .pending →
              ∀ k ∈ key, pg.indexes [call.workspaceId, d.route id, k] = true)) := by
  by_cases hledger : ∀ k ∈ key, σ.key? call.workspaceId (d.route id) k = none
  · cases hrow : σ.request? call.workspaceId id with
    | none =>
      have hmissing := run_decideRequest_missing
        (v := call.verdict app P d key b [] (Decision.readBody_accepts hb)) hrow
      rw [taken_refused hby hop hdoc hok hb hledger hmissing (by simp [Exn.statusCode])]
      refine and_congr_right fun _ => and_congr_right fun _ => (and_iff_left fun _ => ?_).symm
      exact fun row hrow => by cases hrow
    | some row =>
      by_cases hentitled : d.Entitled row.createdByUserId (σ.reviewerIds call.workspaceId id) P.userId
      · rw [taken_entitled hby hop hdoc hok hb hledger hσ hclean hsha hnew henv hrow hentitled]
        refine and_congr_right fun _ => and_congr_right fun _ => and_congr_right fun _ => ?_
        constructor
        · intro h _ row' hrow' _
          obtain rfl := Option.some.inj hrow'
          exact h
        · exact fun h => h hledger row rfl hentitled
      · obtain ⟨reason, hdenied⟩ := run_decideRequest_denied
          (v := call.verdict app P d key b [] (Decision.readBody_accepts hb)) hrow hentitled
        rw [taken_refused hby hop hdoc hok hb hledger hdenied (by simp [Exn.statusCode])]
        refine and_congr_right fun _ => and_congr_right fun _ => (and_iff_left fun _ => ?_).symm
        intro row' hrow' h
        obtain rfl := Option.some.inj hrow'
        exact absurd h hentitled
  · push Not at hledger
    obtain ⟨k, rfl, hk⟩ := hledger
    obtain ⟨r, hfound⟩ := Option.ne_none_iff_exists'.mp hk
    have hnormalized : call.operation.normalized = some b.payload := by
      rw [hop, Operation.normalized, hdoc, Option.bind_some, hb]
      rfl
    rw [taken_found hby hσ (by rw [hop]; rfl) (hok k rfl) hnormalized hfound, nulFree_route]
    simp [hk]

end Decide

/-! ## Every reachable state -/

section Http

variable {pg : Postgres} {app : App} {python : Python} {call : HttpCall} {P : Principal} {σ : Store}

theorem Call.By.withOperation (hby : call.By app P) {operation : Operation}
    (h : operation.requiredAction = call.operation.requiredAction) :
    (call.withOperation operation).By app P :=
  ⟨hby.authenticated, hby.workspace, (congrArg P.hasAction h).trans hby.action⟩

/-- The body of an accepted request can be read. -/
theorem Operation.Accepted.document {operation : Operation HttpBody}
    (h : operation.Accepted python) :
    ∃ document, Http.readDocument python operation = .ok document := by
  cases operation with
  | create key body =>
    obtain ⟨-, p, hp⟩ := h
    obtain ⟨entries, hread, -⟩ := HttpBody.create?_eq_some.mp hp
    exact ⟨_, hread⟩
  | decide d id key body =>
    obtain ⟨-, b, hb⟩ := h
    obtain ⟨document, hread, -⟩ := HttpBody.decision?_eq_some.mp hb
    exact ⟨_, hread⟩
  | _ => exact ⟨none, rfl⟩

theorem storable_create (hby : call.By app P) (hσ : σ.Registered) (hsha : ∀ s, NulFree (app.sha256 s))
    (hnew : call.env.New σ) (henv : call.env.Bindable pg) {key : String} {body : HttpBody}
    (hop : call.operation = .create (some key) body) (hok : KeyAccepted key)
    {p : Values.ApprovalRequestCreate} (hp : body.create? python = some p) :
    Taken pg (Http.request app python call) σ ↔ NulFree call.workspaceId ∧ NulFree key ∧
      (σ.key? call.workspaceId "create" key = none →
        CreateStorable pg call.workspaceId call.env.requestId key P.userId p) := by
  cases hq : p.text? with
  | none =>
    rw [taken_unencodable hby hσ hnew hop hok hp hq]
    have hnever : ¬ CreateStorable pg call.workspaceId call.env.requestId key P.userId p := by
      rintro ⟨-, q, hq', -⟩
      rw [hq] at hq'
      cases hq'
    simp [hnever]
  | some q =>
    have htext : call.text? python =
        some (call.withOperation (.create (some key) (.json q.modelDump))) := by
      simp [HttpCall.text?, hop, hp, hq]
    have haction : (Operation.create (some key) (RawBody.json q.modelDump)).requiredAction =
        call.operation.requiredAction := by rw [hop]; rfl
    obtain ⟨entries, -, hentries⟩ := HttpBody.create?_eq_some.mp hp
    obtain rfl := Values.text?_eq_some.mp hq
    rw [Http.request_text htext, taken_create (hby.withOperation haction) hσ hsha hnew henv rfl hok rfl
      (Values.validateBody_create hentries)]
    refine and_congr_right fun _ => and_congr_right fun _ => forall_congr' fun _ => ?_
    constructor
    · rintro ⟨huser, htexts, hentry⟩
      exact ⟨huser, q, hq, htexts, hentry⟩
    · rintro ⟨huser, q', hq', htexts, hentry⟩
      obtain rfl := Option.some.inj (hq.symm.trans hq')
      exact ⟨huser, htexts, hentry⟩

theorem storable_decide (hby : call.By app P) (hσ : σ.Registered) (hclean : σ.Clean pg)
    (hsha : ∀ s, NulFree (app.sha256 s)) (hnew : call.env.New σ) (henv : call.env.Bindable pg)
    {d : Decision} {id : String} {key : Option String} {body : HttpBody}
    (hop : call.operation = .decide d id key body) (haccepted : call.operation.Accepted python) :
    Taken pg (Http.request app python call) σ ↔ call.Storable python pg P σ := by
  rw [hop] at haccepted
  obtain ⟨hok, b, hb⟩ := haccepted
  obtain ⟨document, -, hread⟩ := HttpBody.decision?_eq_some.mp hb
  have htext : call.text? python =
      some (call.withOperation (.decide d id key (.json b.payload))) := by
    simp [HttpCall.text?, hop, hb]
  have haction : (Operation.decide d id key (RawBody.json b.payload)).requiredAction =
      call.operation.requiredAction := by rw [hop]; cases d <;> rfl
  rw [Http.request_text htext, taken_decide (hby.withOperation haction) hσ hclean hsha hnew henv rfl rfl
    hok (Decision.readBody_payload hread), HttpCall.Storable, hop]
  refine and_congr_right fun _ => and_congr_right fun _ => and_congr_right fun _ => ?_
  simp only [hb, Option.mem_def, Option.some.injEq, forall_eq']
  rfl

end Http

section Runs

variable {ι : Type} [DecidableEq ι] {pg : Postgres} {app : App} {python : Python}
  {calls : ι → HttpCall} {w : ApiWorld ι} {ls : List (ι × Transactions.Action)}

/-- No request has sent a statement to Postgres yet. -/
def ApiWorld.startPostgres (pg : Postgres) (app : App) (python : Python) (calls : ι → HttpCall) :
    ApiWorld ι :=
  World.start Store.empty (fun i => postgresRequest pg (Http.request app python (calls i)))

/-- The tables in every reachable state. -/
theorem reachable (h : Run approvalDb (ApiWorld.startPostgres pg app python calls) ls w) :
    w.store.Registered ∧ w.store.Clean pg := by
  constructor
  · choose C hmeets hfailed using fun i => Http.request_meets app python (calls i)
    have hstart : (ApiWorld.startPostgres pg app python calls).Sound C :=
      World.Sound.start ⟨[], represents_empty⟩ fun i => (hmeets i).limited fun σ _ => hfailed i _ σ
    exact (hstart.run h).inv
  · exact h.store_keeps (P := (Store.Clean · pg)) Store.clean_empty fun _ _ _ _ hs hx hσ => hσ.apply hs hx

/-- **When Postgres can take what validation admits.** -/
theorem storable_iff (h : Run approvalDb (ApiWorld.startPostgres pg app python calls) ls w)
    (hsha : ∀ s, NulFree (app.sha256 s)) {call : HttpCall} {P : Principal}
    (hauth : app.provider.authenticate call.authorization = .ok P)
    (haccepted : call.operation.Accepted python) (hnew : call.env.New w.store)
    (henv : call.env.Bindable pg) :
    Taken pg (Http.request app python call) w.store ↔
      (call.By app P → call.Storable python pg P w.store) := by
  obtain ⟨hσ, hclean⟩ := reachable h
  by_cases hby : call.By app P
  · have hcond : (call.By app P → call.Storable python pg P w.store) ↔
        call.Storable python pg P w.store := ⟨fun h => h hby, fun h _ => h⟩
    rw [hcond]
    cases hop : call.operation with
    | create key body =>
      rw [hop] at haccepted
      obtain ⟨⟨k, rfl, hok⟩, p, hp⟩ := haccepted
      rw [storable_create hby hσ hsha hnew henv hop hok hp, HttpCall.Storable, hop]
      simp only [hp, Option.mem_def, Option.some.injEq, forall_eq']
    | list status limit offset =>
      rw [hop] at haccepted
      obtain ⟨params, hparams⟩ := haccepted
      have htext : call.text? python = some (call.withOperation (.list status limit offset)) := by
        rw [HttpCall.text?, hop]
      have haction : (Operation.list status limit offset : Operation).requiredAction =
        call.operation.requiredAction := by rw [hop]; rfl
      rw [Http.request_text htext, taken_list (hby.withOperation haction) hclean rfl hparams,
        HttpCall.Storable, hop]
      rfl
    | get id =>
      have htext : call.text? python = some (call.withOperation (.get id)) := by
        rw [HttpCall.text?, hop]
      have haction : (Operation.get id : Operation).requiredAction =
        call.operation.requiredAction := by rw [hop]; rfl
      rw [Http.request_text htext, taken_get (hby.withOperation haction) rfl, HttpCall.Storable, hop]
      rfl
    | decide d id key body => exact storable_decide hby hσ hclean hsha hnew henv hop haccepted
  · obtain ⟨document, hread⟩ := haccepted.document
    exact iff_of_true (taken_denied hauth hby hread) fun h => absurd h hby

end Runs

/-! ## A title with U+0000, a reviewer id that is a surrogate, and an offset of 64 bits -/

namespace Sample

open Json.Reader

theorem authenticate_bob : app.provider.authenticate (some bobToken) = .ok bob := by
  have hne : bobToken ≠ aliceToken := by decide
  simp [app, provider, hne]

theorem nulFree_sha256 (s : String) : NulFree (app.sha256 s) := by
  change NulFree (sha256 s)
  unfold sha256
  split_ifs <;> decide

/-- A Postgres that finds room for everything. -/
def postgres : Postgres := ⟨fun _ => true⟩

/-- An interpreter with the usual recursion limit, on bodies without floats. -/
def python : Python := ⟨fun _ => .nan, 1000, fun _ => (0, "Expecting value")⟩

/-- A body that asks this reviewer to review a publication of this title, both as they are
spelled in JSON. -/
def createText (title reviewer : String) : List Char :=
  "\x7b\"sourceType\":\"publication\",\"sourceId\":\"pub_1\",\"title\":\"".toList ++ title.toList ++
    "\",\"reviewerUserIds\":[\"".toList ++ reviewer.toList ++ "\"]\x7d".toList

/-- Alice sends that body. -/
def createOf (title reviewer : String) : HttpCall where
  env := env "1" 1
  authorization := some aliceToken
  workspaceId := "ws_1"
  operation := .create (some "key-1") ⟨true, bytes (createText title reviewer)⟩

def nulTitle : HttpCall := createOf "\\u0000Launch" "bob"

def surrogateReviewer : HttpCall := createOf "Launch" "\\ud800"

/-- Alice lists the requests from the `2 ^ 63`-th on. -/
def farOffset : HttpCall where
  env := env "1" 1
  authorization := some aliceToken
  workspaceId := "ws_1"
  operation := .list none .absent (.value "9223372036854775808" (2 ^ 63))

/-- Bob approves the request. -/
def approval : HttpCall where
  env := env "2" 2
  authorization := some bobToken
  workspaceId := "ws_1"
  operation := .decide .approve launchId none ⟨true, bytes "\x7b\x7d".toList⟩

end Sample

theorem HttpBody.create?_of_decode {python : Python} {octets : List UInt8} {s : PyStr}
    (hne : octets ≠ [])
    (h : PyStr.decode octets (PyStr.detectEncoding octets) = some s) :
    HttpBody.create? python ⟨true, octets⟩ =
      (Json.Reader.decodeText python.float python.room s).toOption.bind (fun document =>
        (Errors.validateBodyValue Values.ApprovalRequestCreate.modelValidate
          (some document)).toOption) := by
  unfold create? Http.readBody Json.Reader.loads
  rw [if_neg hne, h]
  dsimp only
  rw [if_pos rfl]
  rcases Json.Reader.decodeText python.float python.room s with e | document
  · cases e <;> rfl
  · rfl


namespace Sample

open Json.Reader PyStr

theorem create?_launch : HttpBody.create? python ⟨true, bytes (createText "Launch" "bob")⟩ =
    some ⟨.publication, "pub_1", "Launch", none, [ofString "bob"]⟩ := by
  have hdecode : decode (bytes (createText "Launch" "bob")) (detectEncoding
      (bytes (createText "Launch" "bob"))) = some (text (createText "Launch" "bob")) := by
    decide +kernel
  rw [HttpBody.create?_of_decode (by decide) hdecode]
  decide +kernel

theorem create?_nulTitle : HttpBody.create? python ⟨true, bytes (createText "\\u0000Launch" "bob")⟩ =
    some ⟨.publication, "pub_1", "\x00Launch", none, [ofString "bob"]⟩ := by
  have hdecode : decode (bytes (createText "\\u0000Launch" "bob")) (detectEncoding
      (bytes (createText "\\u0000Launch" "bob"))) =
        some (text (createText "\\u0000Launch" "bob")) := by
    decide +kernel
  rw [HttpBody.create?_of_decode (by decide) hdecode]
  decide +kernel

theorem create?_surrogate : HttpBody.create? python ⟨true, bytes (createText "Launch" "\\ud800")⟩ =
    some ⟨.publication, "pub_1", "Launch", none, [[0xd800]]⟩ := by
  have hdecode : decode (bytes (createText "Launch" "\\ud800")) (detectEncoding
      (bytes (createText "Launch" "\\ud800"))) = some (text (createText "Launch" "\\ud800")) := by
    decide +kernel
  rw [HttpBody.create?_of_decode (by decide) hdecode]
  decide +kernel

/-- A create with this title is a call. -/
theorem text?_createOf {title reviewer : String} {q : ApprovalRequestCreate}
    (h : HttpBody.create? python ⟨true, bytes (createText title reviewer)⟩ =
      some (Values.ofPayload q)) : (createOf title reviewer).text? python =
        some ((createOf title reviewer).withOperation
          (.create (some "key-1") (.json q.modelDump))) := by
  have hq : (Values.ofPayload q).text? = some q := Values.text?_eq_some.mpr rfl
  rw [HttpCall.text?, createOf]
  dsimp only
  rw [h, Option.bind_some, hq]
  rfl

end Sample

/-- Bob's approval after Alice's create. -/
theorem storable_iff_sample : ∃ ls w,
    Run approvalDb (ApiWorld.startPostgres Sample.postgres Sample.app Sample.python
      (fun _ : Unit => Sample.createOf "Launch" "bob")) ls w ∧
      w.store.approvalRequests.map ApprovalRequestRow.id = [Sample.launchId] ∧
      Taken Sample.postgres (Http.request Sample.app Sample.python Sample.approval) w.store := by
  have htext := Sample.text?_createOf (q := ⟨.publication, "pub_1", "Launch", none, ["bob"]⟩)
    Sample.create?_launch
  obtain ⟨ls, w, h, hstore, -⟩ := Run.serveAll approvalDb (fun _ : Unit =>
    postgresRequest Sample.postgres (Http.request Sample.app Sample.python
      (Sample.createOf "Launch" "bob"))) [()] (by decide)
    (w := ApiWorld.startPostgres Sample.postgres Sample.app Sample.python
      (fun _ => Sample.createOf "Launch" "bob")) (fun _ => rfl) (fun _ _ => rfl)
  have hafter : w.store.approvalRequests.map ApprovalRequestRow.id = [Sample.launchId] ∧
      ∀ k ∈ Sample.approval.env.keys, w.store.has k = false := by
    rw [hstore, Http.request_text htext]
    decide +kernel
  have haccepted : Sample.approval.operation.Accepted Sample.python :=
    ⟨(fun _ h => by cases h), ⟨none, none, _⟩, rfl⟩
  have henv : Sample.approval.env.Bindable Sample.postgres :=
    ⟨by decide, by decide, by decide, rfl, rfl, rfl⟩
  refine ⟨ls, w, h, hafter.1, ?_⟩
  refine (storable_iff h Sample.nulFree_sha256 Sample.authenticate_bob haccepted hafter.2 henv).mpr
    fun _ => ?_
  refine ⟨by decide, by decide, (fun _ h => by cases h), fun _ _ _ _ => ⟨by decide, ?_, ?_⟩⟩
  · intro b hb
    obtain rfl := Option.some.inj hb
    exact fun _ ht => absurd ht List.not_mem_nil
  · exact fun _ _ hk => by cases hk

/-- Validation admits the request, and on an empty Postgres it ends in a 500. -/
structure AdmittedNotTaken (pg : Postgres) (app : App) (python : Python) (call : HttpCall)
    (P : Principal) : Prop where
  caller : call.By app P
  accepted : call.operation.Accepted python
  new : call.env.New Store.empty
  bindable : call.env.Bindable pg
  untaken : ¬ Taken pg (Http.request app python call) Store.empty
  status : endStatus? ((postgresRequest pg (Http.request app python call)).serve approvalDb
    Store.empty).2.1 = some 500

theorem untaken_of_status {pg : Postgres} {p : Request Reply Exn Answer} {σ : Store}
    (h500 : endStatus? ((postgresRequest pg p).serve approvalDb σ).2.1 = some 500) :
    ¬ Taken pg p σ := by
  intro htaken
  obtain ⟨n, hn, hstatus⟩ := htaken.status
  obtain rfl := Option.some.inj (h500.symm.trans hstatus)
  revert hn
  decide

/-- All three requests of Alice. -/
theorem admitted_not_taken :
    AdmittedNotTaken Sample.postgres Sample.app Sample.python Sample.nulTitle Sample.alice ∧
    AdmittedNotTaken Sample.postgres Sample.app Sample.python Sample.surrogateReviewer
      Sample.alice ∧
    AdmittedNotTaken Sample.postgres Sample.app Sample.python Sample.farOffset Sample.alice := by
  have hby : ∀ call : HttpCall, call.authorization = some Sample.aliceToken →
      call.workspaceId = "ws_1" → Sample.alice.hasAction call.operation.requiredAction = true →
      call.By Sample.app Sample.alice :=
    fun call hauth hws haction => ⟨hauth ▸ Sample.authenticate_alice, hws.symm, haction⟩
  have hnew : ∀ env : Env, env.New Store.empty := fun _ k _ => by cases k <;> rfl
  have henv : (Sample.env "1" 1).Bindable Sample.postgres :=
    ⟨by decide, by decide, by decide, rfl, rfl, rfl⟩
  refine ⟨?_, ?_, ?_⟩
  · have htext := Sample.text?_createOf (q := ⟨.publication, "pub_1", "\x00Launch", none, ["bob"]⟩)
      Sample.create?_nulTitle
    have h500 : endStatus? ((postgresRequest Sample.postgres (Http.request Sample.app Sample.python
        Sample.nulTitle)).serve approvalDb Store.empty).2.1 = some 500 := by
      rw [Sample.nulTitle, Http.request_text htext]
      decide +kernel
    exact ⟨hby _ rfl rfl (by decide), ⟨⟨"key-1", rfl, rfl⟩, _, Sample.create?_nulTitle⟩, hnew _, henv,
      untaken_of_status h500, h500⟩
  · have h500 : endStatus? ((postgresRequest Sample.postgres (Http.request Sample.app Sample.python
        Sample.surrogateReviewer)).serve approvalDb Store.empty).2.1 = some 500 := by
      rw [Http.request_create (hby Sample.surrogateReviewer rfl rfl (by decide)) rfl rfl
        Sample.create?_surrogate]
      decide +kernel
    exact ⟨hby _ rfl rfl (by decide), ⟨⟨"key-1", rfl, rfl⟩, _, Sample.create?_surrogate⟩, hnew _, henv,
      untaken_of_status h500, h500⟩
  · have h500 : endStatus? ((postgresRequest Sample.postgres (Http.request Sample.app Sample.python
        Sample.farOffset)).serve approvalDb Store.empty).2.1 = some 500 := by
      have htext : Sample.farOffset.text? Sample.python =
          some (Sample.farOffset.withOperation (.list none .absent
            (.value "9223372036854775808" (2 ^ 63)))) := rfl
      rw [Http.request_text htext]
      decide +kernel
    exact ⟨hby _ rfl rfl (by decide), ⟨_, rfl⟩, hnew _, henv, untaken_of_status h500, h500⟩

end ContentApproval
