import ContentApproval.Registry.Handling
import ContentApproval.Specs.Served

/-!
# The service refines what the registry answers

`Registry.handle` is a whole call as the registry of cases handles it. A call that is served alone
does the same: it answers with what the registry answers and leaves the tables of the registry
that it leaves, or it fails as the registry refuses it and leaves the tables as they were
(`handle_refines`). The tables only have to represent the registry, and the ids that the call
generates have to be unused.
-/

namespace ContentApproval

open Transactions SqlApprovalRequestRepository AsyncSession ApprovalService Idempotency
  AuthDependencies

/-! ## Lists -/

/-- If at most one element satisfies the predicate, the order does not matter. -/
theorem find?_perm {α : Type} {l l' : List α} {p : α → Bool} (h : l.Perm l')
    (hunique : ∀ a ∈ l, ∀ b ∈ l, p a = true → p b = true → a = b) : l.find? p = l'.find? p := by
  cases hl : l.find? p with
  | none =>
    rw [List.find?_eq_none] at hl
    exact (List.find?_eq_none.mpr fun a ha => hl a (h.mem_iff.mpr ha)).symm
  | some a =>
    have ha := List.mem_of_find?_eq_some hl
    have hpa := List.find?_some hl
    cases hl' : l'.find? p with
    | none =>
      rw [List.find?_eq_none] at hl'
      exact absurd hpa (hl' a (h.mem_iff.mp ha))
    | some b =>
      have hb := h.mem_iff.mpr (List.mem_of_find?_eq_some hl')
      rw [hunique a ha b hb hpa (List.find?_some hl')]

/-- What is found in lists that correspond. -/
theorem find?_forall₂ {α β : Type} {R : α → β → Prop} {p : α → Bool} {q : β → Bool}
    {l : List α} {l' : List β} (h : List.Forall₂ R l l') (hpq : ∀ {a b}, R a b → p a = q b) :
    (l.find? p = none ∧ l'.find? q = none) ∨
      ∃ a b, l.find? p = some a ∧ l'.find? q = some b ∧ R a b := by
  induction h with
  | nil => exact Or.inl ⟨rfl, rfl⟩
  | @cons a b l l' hab _ ih =>
    cases hb : q b with
    | true =>
      refine Or.inr ⟨a, b, ?_, List.find?_cons_of_pos hb, hab⟩
      exact List.find?_cons_of_pos ((hpq hab).trans hb)
    | false =>
      rw [List.find?_cons_of_neg (by rw [hpq hab, hb]; decide),
        List.find?_cons_of_neg (by rw [hb]; decide)]
      exact ih

/-! ## The tables answer as the registry does -/

/-- The row keeps the entry. -/
structure Entry.KeptBy (e : Entry) (r : IdempotencyKey) : Prop where
  workspaceId : r.workspaceId = e.workspaceId
  route : r.route = e.route
  key : r.idempotencyKey = e.key
  fingerprint : r.requestFingerprint = e.fingerprint
  statusCode : r.responseStatus = e.statusCode
  out : r.responseBody = e.out.modelDump

theorem Case.entries_kept (k : Case) : List.Forall₂ Entry.KeptBy k.entries k.ledgerRows := by
  refine .cons ⟨rfl, rfl, rfl, rfl, rfl, rfl⟩ ?_
  cases k.verdict with
  | none => exact .nil
  | some v =>
    simp only [Option.toList_some, List.flatMap_cons, List.flatMap_nil, List.append_nil,
      Verdict.entry?, Verdict.ledgerRow?]
    cases v.key with
    | none => exact .nil
    | some key => exact .cons ⟨rfl, rfl, rfl, rfl, rfl, rfl⟩ .nil

namespace Represents

variable {cases : Registry} {σ : Store}

theorem registered (h : Represents cases σ) : σ.Registered := ⟨cases, h⟩

theorem request?_eq (h : Represents cases σ) (ws id : String) :
    σ.request? ws id = (cases.find? ws id).map Case.row := by
  rw [Store.request?, h.requests, List.find?_map]
  simp only [Function.comp_def, Case.row_workspaceId, Case.row_id]
  rfl

theorem key?_eq (h : Represents cases σ) (ws route key : String) :
    (cases.entry? ws route key = none ∧ σ.key? ws route key = none) ∨
      ∃ e r, cases.entry? ws route key = some e ∧ σ.key? ws route key = some r ∧ e.KeptBy r := by
  have hkept : List.Forall₂ Entry.KeptBy (cases.flatMap Case.entries)
      (cases.flatMap Case.ledgerRows) :=
    List.rel_flatMap (List.forall₂_same.mpr fun k _ => rfl)
      fun {k k'} (hk : k = k') => hk ▸ k.entries_kept
  have hperm : σ.key? ws route key = (cases.flatMap Case.ledgerRows).find? (fun r =>
      r.workspaceId == ws && r.route == route && r.idempotencyKey == key) := by
    refine find?_perm h.ledger fun a ha b hb hpa hpb => ?_
    refine List.inj_on_of_nodup_map h.keys ha hb ?_
    simp only [Bool.and_eq_true, beq_iff_eq] at hpa hpb
    simp only [IdempotencyKey.primaryKey, hpa, hpb]
  rw [hperm]
  exact find?_forall₂ hkept fun {e r} hk => by rw [hk.workspaceId, hk.route, hk.key]

theorem listed_eq (h : Represents cases σ) {k : Case} (hk : k ∈ cases) (env : Env) (site : Nat) :
    σ.listed env site k.workspaceId k.requestId = k.listed env site := by
  rw [Store.listed, h.reviewersOf_eq hk, Case.listed]

theorem shown_eq (h : Represents cases σ) {k : Case} (hk : k ∈ cases) (env : Env) (site : Nat) :
    σ.shown env site k.row = k.listed env site := by
  rw [Store.shown_eq_listed, Case.row_workspaceId, Case.row_id, h.listed_eq hk]

theorem matching_eq (h : Represents cases σ) (ws : String) (status : Option ApprovalStatus) :
    σ.matching ws status = (cases.matching ws status).map Case.row := by
  rw [Store.matching, h.requests, List.filter_map, Registry.matching]
  simp only [Function.comp_def, Case.row_workspaceId]

theorem page_eq (h : Represents cases σ) (ws : String) (status : Option ApprovalStatus)
    (limit offset : Nat) :
    σ.page ws status limit offset = (cases.page ws status limit offset).map Case.row := by
  rw [Store.page, h.matching_eq, Registry.page, List.map_take, List.map_drop,
    List.map_insertionSort _ _ Case.row _ fun _ _ _ _ => Iff.rfl]

end Represents

/-! ## A whole call -/

/-- The error of a body that is no JSON text. -/
def RawBody.syntaxError : RawBody → Exn
  | malformed pos => .invalid
    [⟨"json_invalid", [.field "body", .index pos], "JSON decode error", .obj []⟩]
  | _ => .invalid []

/-- The caller, if it may make the call. -/
def Call.caller (app : App) (call : Call) : Except Exn Principal :=
  match app.provider.authenticate call.authorization with
  | .error (.invalidCredentials message) => .error (.httpException 401 message)
  | .error (.other detail) => .error (.unexpected detail)
  | .ok P =>
    if P.workspaceId ≠ call.workspaceId then
      .error (.httpException 403 "Not authorized for this workspace")
    else if P.hasAction call.operation.requiredAction = false then
      .error (.httpException 403 ("Missing required action: " ++ call.operation.requiredAction.value))
    else .ok P

/-- What the registry makes of a call by `P`, once its parameters and its body are read. -/
def Registry.handleBy (app : App) (call : Call) (P : Principal) (document : Option Json)
    (cases : Registry) : Outcome :=
  match call.operation with
  | .create key _ =>
    match hparams : (requiredIdempotencyKey key).both
        (validateBody ApprovalRequestCreate.modelValidate document) with
    | .error errors => .error (.invalid errors)
    | .ok (key, payload) => cases.file (call.creation app P key payload
      ((validateBody_ok (both_ok hparams).2).imp fun _ h => h.2))
  | .list status limit offset => match listParameters status limit offset with
    | .error errors => .error (.invalid errors)
    | .ok (status, limit, offset) => cases.list call.env call.workspaceId status limit offset
  | .get id => cases.read call.env call.workspaceId id
  | .decide d id key _ =>
    match hparams : (optionalIdempotencyKey key).both (d.readBody document) with
    | .error errors => .error (.invalid errors)
    | .ok (key, b) => cases.settle call.workspaceId id
      (call.verdict app P d key b [] (Decision.readBody_accepts (both_ok hparams).2))

/-- A whole call, as the registry handles it. -/
def Registry.handle (app : App) (call : Call) (cases : Registry) : Outcome :=
  match call.operation.body.document? with
  | none => .error call.operation.body.syntaxError
  | some document => match call.caller app with
    | .error e => .error e
    | .ok P => cases.handleBy app call P document

/-- The ids that a call generates for new rows. -/
def Call.generated (call : Call) : List PrimaryKey :=
  match call.operation with
  | .create _ _ => call.env.keys
  | .decide _ _ _ _ => [.auditLogEntry call.env.auditId, .outboxEvent call.env.eventId]
  | _ => []

/-- The ids that the call generates are unused, unless its key is in the ledger. -/
def Call.Unused (call : Call) (σ : Store) : Prop :=
  (∀ route key, call.operation.ledgerKey = some (route, key) →
    σ.key? call.workspaceId route key = none) → ∀ k ∈ call.generated, σ.has k = false

/-- A call that was served in `σ` has done what the registry makes of it. -/
inductive Carries (σ : Store) (served : Store × Session Reply Write Exn Answer × List Statement) :
    Outcome → Prop
  | answered {a : Answer} {cases : Registry} {δ : List Write} (h : served.2.1 = .committed a δ)
    (hrep : Represents cases served.1) : Carries σ served (.ok (a, cases))
  | refused {e : Exn} (h : served.2.1 = .failed e) (hσ : served.1 = σ) : Carries σ served (.error e)

/-! ## Operation by operation -/

section Refines

variable {app : App} {call : Call} {P : Principal} {document : Option Json} {cases : Registry}
  {σ : Store}

theorem Carries.of_failed {e : Exn} {t : List Statement}
    (h : (request app call).serve approvalDb σ = (σ, .failed e, t)) :
    Carries σ ((request app call).serve approvalDb σ) (.error e) := by
  rw [h]
  exact .refused rfl rfl

/-- A call whose parameters or body are not valid. -/
theorem Carries.of_throw (hby : call.By app P)
    (hdoc : call.operation.body.document? = some document) {e : Exn}
    (h : endpoint app call P document [] = .throw e) :
    Carries σ ((request app call).serve approvalDb σ) (.error e) := by
  refine .of_failed (Prog.serve_of_raise (δ := []) (t := []) ?_)
  rw [request_by hby hdoc, h]
  rfl

/-- A call whose key was used before. -/
theorem Carries.of_found (hby : call.By app P) (hrep : Represents cases σ) {route key : String}
    (hkey : call.operation.ledgerKey = some (route, key)) (hok : KeyAccepted key) {payload : Json}
    (hbody : call.operation.normalized = some payload) {e : Entry} {r : IdempotencyKey}
    (hfound : σ.key? call.workspaceId route key = some r) (hkept : e.KeptBy r) :
    Carries σ ((request app call).serve approvalDb σ)
      (if e.fingerprint ≠ fingerprint app.sha256 payload then .error keyReused
        else .ok (⟨e.statusCode, .request e.out⟩, cases)) := by
  have hout : ApprovalRequestOut.modelValidate r.responseBody = some e.out := by
    rw [hkept.out, ApprovalRequestOut.modelValidate_modelDump]
  rw [serve_found hby hkey hok hbody hfound hout, hkept.fingerprint, hkept.statusCode]
  split_ifs
  · exact .refused rfl rfl
  · exact .answered rfl hrep

theorem Represents.carries_create (hrep : Represents cases σ) (hby : call.By app P)
    {key : Option String} {body : RawBody} (hop : call.operation = .create key body)
    (hdoc : call.operation.body.document? = some document) (hnew : call.Unused σ) :
    Carries σ ((request app call).serve approvalDb σ) (cases.handleBy app call P document) := by
  have hbody : body.document? = some document := by rw [hop] at hdoc; exact hdoc
  unfold Registry.handleBy
  rw [hop]
  dsimp only
  split
  · rename_i errors hparams
    refine .of_throw hby hdoc ?_
    unfold endpoint
    rw [hop]
    dsimp only
    rw [orRequestValidationError_bind, hparams]
  · rename_i k payload hparams
    obtain ⟨hkey, hpayload⟩ := both_ok hparams
    have hok : KeyAccepted k := by
      obtain rfl := requiredIdempotencyKey_ok hkey
      exact hkey
    obtain rfl := requiredIdempotencyKey_ok hkey
    rcases hrep.key?_eq call.workspaceId "create" k with
      ⟨hnew', hledger⟩ | ⟨e, r, hfound, hr, hkept⟩
    · have hunused : call.env.New σ := by
        have hgenerated := hnew fun route key hroute => by
          rw [hop] at hroute
          cases hroute
          exact hledger
        rwa [Call.generated, hop] at hgenerated
      have haccepted := (validateBody_ok hpayload).imp fun _ h => h.2
      rw [Registry.file, Registry.once_new fun k' hk' => by cases hk'; exact hnew',
        serve_created hby hop hbody hok hpayload hrep.registered hunused hledger
          (Eq.refl (call.creation app P k payload haccepted))]
      refine .answered rfl (hrep.file (hunused _ (by simp [Env.keys, NewRow.primaryKey]; rfl)) ?_)
      change σ.has (.idempotencyKey call.workspaceId "create" k) = false
      rw [← Store.key?_isSome, hledger]
      rfl
    · have hnormalized : call.operation.normalized = some payload.modelDump := by
        rw [hop, Operation.normalized, hbody, Option.bind_some, hpayload]
        rfl
      have honce : cases.file (call.creation app P k payload
          ((validateBody_ok (both_ok hparams).2).imp fun _ h => h.2)) = _ :=
        Registry.once_found hfound
      rw [honce]
      exact .of_found hby hrep (by rw [hop]; rfl) hok hnormalized hr hkept

theorem Represents.carries_read (hrep : Represents cases σ) (hby : call.By app P) {id : String}
    (hop : call.operation = .get id) : Carries σ ((request app call).serve approvalDb σ)
      (cases.read call.env call.workspaceId id) := by
  have hrow := hrep.request?_eq call.workspaceId id
  unfold Registry.read
  cases hfind : cases.find? call.workspaceId id with
  | none =>
    rw [hfind] at hrow
    exact .of_failed (serve_get_missing hby hop hrow)
  | some k =>
    rw [hfind] at hrow
    have hk := List.mem_of_find?_eq_some hfind
    dsimp only
    rw [serve_get hby hop hrow, hrep.shown_eq hk]
    exact .answered rfl hrep

theorem Represents.loaded_eq (hrep : Represents cases σ) (env : Env) (page : Registry) :
    σ.loaded (env.rowOrder 0) (page.map Case.row) = cases.reviewers env page := by
  have hkeys : (page.map Case.row).map (fun row => (row.workspaceId, row.id)) =
      page.map (fun k => (k.workspaceId, k.requestId)) := by
    rw [List.map_map]
    simp only [Function.comp_def, Case.row_workspaceId, Case.row_id]
  rw [Store.loaded, hkeys, hrep.reviewers, Registry.reviewers]

theorem Represents.carries_list (hrep : Represents cases σ) (hby : call.By app P)
    {status : Option String} {limit offset : QueryInt} {filter : Option ApprovalStatus} {l o : Nat}
    (hop : call.operation = .list status limit offset)
    (hparams : listParameters status limit offset = .ok (filter, l, o)) :
    Carries σ ((request app call).serve approvalDb σ)
      (cases.list call.env call.workspaceId filter l o) := by
  have hitems : listAnswer call.env ((cases.page call.workspaceId filter l o).map Case.row)
      (cases.reviewers call.env (cases.page call.workspaceId filter l o))
      ((cases.matching call.workspaceId filter).map Case.row).length l o =
      ⟨200, .list ⟨(cases.page call.workspaceId filter l o).map (fun k => k.out (reviewersOfRow
        (cases.reviewers call.env (cases.page call.workspaceId filter l o)) k.row)),
        (cases.matching call.workspaceId filter).length, l, o⟩⟩ := by
    rw [listAnswer, List.map_map, List.length_map]
    simp only [Function.comp_def, toEntity_load]
    rfl
  rw [serve_list hby hop hparams, hrep.page_eq, hrep.matching_eq, hrep.loaded_eq, hitems]
  exact .answered rfl hrep

theorem Registry.decided_eq {before after : Registry} {k : Case} {v : Verdict}
    (hids : ((before ++ k :: after).map Case.requestId).Nodup)
    (entitled : v.decision.Entitled k.creation.actorUserId k.creation.payload.reviewerUserIds
      v.actorUserId) (shown : v.shown.Perm k.creation.payload.reviewerUserIds) :
    Registry.decided (before ++ k :: after) k v entitled shown =
      before ++ Case.settled k.creation v entitled shown :: after := by
  simp only [List.map_append, List.map_cons, List.nodup_append, List.nodup_cons,
    List.mem_cons] at hids
  obtain ⟨-, ⟨hafter, -⟩, hdisj⟩ := hids
  have hother : ∀ l : Registry, k.requestId ∉ l.map Case.requestId →
      l.map (fun k' => if k'.requestId = k.requestId then
        Case.settled k.creation v entitled shown else k') = l := by
    intro l hl
    refine (List.map_congr_left fun k' hk' => if_neg fun hid => hl ?_).trans (List.map_id' l)
    exact hid ▸ List.mem_map_of_mem hk'
  unfold Registry.decided
  rw [List.map_append, List.map_cons, if_pos rfl,
    hother before (fun hm => hdisj _ hm _ (Or.inl rfl) rfl), hother after hafter]

theorem Case.row_of_pending {k : Case} (h : k.verdict = none) : k.row = k.creation.row := by
  unfold Case.row
  rw [h]

/-- The tables after a verdict on a pending case. -/
theorem Represents.decided (hrep : Represents cases σ) {k : Case} (hk : k ∈ cases)
    (hpending : k.verdict = none) {v : Verdict}
    (entitled : v.decision.Entitled k.creation.actorUserId k.creation.payload.reviewerUserIds
      v.actorUserId) (shown : v.shown.Perm k.creation.payload.reviewerUserIds)
    (hledger : ∀ r ∈ v.ledgerRow? k.workspaceId k.requestId k.creation.row,
      σ.has (NewRow.idempotencyKey r).primaryKey = false) :
    Represents (cases.decided k v entitled shown)
      (approvalDb.view σ (v.writes k.workspaceId k.requestId k.creation.row)) := by
  obtain ⟨before, after, rfl⟩ := List.append_of_mem hk
  have hcases : Registry.decided (before ++ k :: after) k v entitled shown = _ :=
    Registry.decided_eq hrep.ids entitled shown
  have hfiled : Represents (before ++ Case.filed k.creation :: after) σ := by
    rwa [← Case.eq_filed hpending]
  rw [hcases]
  exact hfiled.settle entitled shown hledger

/-- A decision whose key was not used before. -/
theorem Represents.carries_settleCase (hrep : Represents cases σ) (hby : call.By app P)
    {d : Decision} {id : String} {key : Option String} {body : RawBody}
    (hop : call.operation = .decide d id key body) (hdoc : body.document? = some document)
    (hok : ∀ k ∈ key, KeyAccepted k) {b : DecisionBody} (hb : d.readBody document = .ok b)
    (hledger : ∀ k ∈ key, σ.key? call.workspaceId (d.route id) k = none)
    (hunused : ∀ k ∈ call.generated, σ.has k = false) {k : Case}
    (hfind : cases.find? call.workspaceId id = some k) (accepted : d.Accepts b.comment b.reason) :
    Carries σ ((request app call).serve approvalDb σ)
      (cases.settleCase k (call.verdict app P d key b [] accepted)) := by
  have hk := List.mem_of_find?_eq_some hfind
  obtain ⟨hws, hid⟩ : k.workspaceId = call.workspaceId ∧ k.requestId = id := by
    simpa using List.find?_some hfind
  have hrow : σ.request? call.workspaceId id = some k.row := by
    rw [hrep.request?_eq, hfind]
    rfl
  have hreviewers : σ.reviewerIds call.workspaceId id = k.creation.payload.reviewerUserIds := by
    rw [← hws, ← hid]
    exact hrep.reviewerIds_eq hk
  have hentitled : d.Entitled k.row.createdByUserId (σ.reviewerIds call.workspaceId id) P.userId ↔
      d.Entitled k.creation.actorUserId k.creation.payload.reviewerUserIds P.userId := by
    rw [hreviewers, Case.row_createdByUserId]
  let v := call.verdict app P d key b (k.listed call.env 1) accepted
  unfold Registry.settleCase
  split_ifs with hent hpending
  · have hnone : k.verdict = none := by simpa using hpending
    have hv : v = call.verdict app P d key b (σ.shown call.env 1 k.row) accepted := by
      rw [hrep.shown_eq hk call.env 1]
    have hserved := serve_decided hby hop hdoc hok hb hrep.registered
      (hunused _ (by simp [Call.generated, hop])) (hunused _ (by simp [Call.generated, hop])) hledger
      hrow (hentitled.mpr hent) (k.status_pending.mpr hnone) hv
    rw [hserved, Case.row_of_pending hnone, ← hws, ← hid]
    refine .answered rfl (hrep.decided hk hnone (v := v) hent (k.listed_perm call.env 1)
      fun r hr => ?_)
    obtain ⟨key', fp, hkey, rfl⟩ := Verdict.ledgerRow?_some hr
    obtain ⟨key'', hkey', hpair⟩ := Option.map_eq_some_iff.mp hkey
    obtain ⟨rfl, -⟩ := Prod.mk.inj hpair
    change σ.has (.idempotencyKey k.workspaceId (d.route k.requestId) key'') = false
    rw [hws, hid, ← Store.key?_isSome, hledger key'' hkey']
    rfl
  · have hp : k.row.status ≠ .pending := fun hp => hpending (by simp [k.status_pending.mp hp])
    rw [hid]
    exact .of_failed (serve_undecided hby hop hdoc hok hb hledger
      (run_decideRequest_late (v := v) hrep.registered hrow (hentitled.mpr hent) hp))
  · rw [hid]
    exact .of_failed (serve_undecided hby hop hdoc hok hb hledger
      (run_decideRequest_refused (v := v) hrow (mt hentitled.mp hent)))

theorem Represents.carries_decide (hrep : Represents cases σ) (hby : call.By app P)
    {d : Decision} {id : String} {key : Option String} {body : RawBody}
    (hop : call.operation = .decide d id key body)
    (hdoc : call.operation.body.document? = some document) (hnew : call.Unused σ) :
    Carries σ ((request app call).serve approvalDb σ) (cases.handleBy app call P document) := by
  have hbody : body.document? = some document := by rw [hop] at hdoc; exact hdoc
  unfold Registry.handleBy
  rw [hop]
  dsimp only
  split
  · rename_i errors hparams
    refine .of_throw hby hdoc ?_
    rw [endpoint_decide hop, orRequestValidationError_bind, hparams]
  · rename_i key' b hparams
    obtain ⟨hkey, hb⟩ := both_ok hparams
    obtain rfl := optionalIdempotencyKey_ok hkey
    have hok : ∀ k ∈ key, KeyAccepted k := by
      rintro k rfl
      obtain ⟨k', hk', hsome⟩ := map_ok hkey
      obtain rfl := Option.some.inj hsome
      exact hk'
    have hnormalized : call.operation.normalized = some b.payload := by
      rw [hop, Operation.normalized, hbody, Option.bind_some, hb]
      rfl
    by_cases hledger : ∀ k ∈ key, σ.key? call.workspaceId (d.route id) k = none
    · have hunused : ∀ k ∈ call.generated, σ.has k = false := by
        refine hnew fun route k hk => ?_
        rw [hop] at hk
        obtain ⟨k', hk', hpair⟩ := Option.map_eq_some_iff.mp hk
        obtain ⟨rfl, rfl⟩ := Prod.mk.inj hpair
        exact hledger k' hk'
      have honce : cases.settle call.workspaceId id (call.verdict app P d key b []
          (Decision.readBody_accepts hb)) = cases.settleById call.workspaceId id
            (call.verdict app P d key b [] (Decision.readBody_accepts hb)) := by
        refine Registry.once_new fun k hk => ?_
        obtain ⟨k', hk', rfl⟩ := Option.map_eq_some_iff.mp hk
        rcases hrep.key?_eq call.workspaceId (d.route id) k' with ⟨hnone, -⟩ | ⟨e, r, -, hr, -⟩
        · exact hnone
        · rw [hledger k' hk'] at hr
          cases hr
      rw [honce, Registry.settleById]
      cases hfind : cases.find? call.workspaceId id with
      | none =>
        have hrow : σ.request? call.workspaceId id = none := by
          rw [hrep.request?_eq, hfind]
          rfl
        exact .of_failed (serve_undecided hby hop hbody hok hb hledger (run_decideRequest_missing
          (v := call.verdict app P d key b [] (Decision.readBody_accepts hb)) hrow))
      | some k => exact hrep.carries_settleCase hby hop hbody hok hb hledger hunused hfind _
    · push Not at hledger
      obtain ⟨k, rfl, hfound⟩ := hledger
      rcases hrep.key?_eq call.workspaceId (d.route id) k with ⟨-, hnone⟩ | ⟨e, r, he, hr, hkept⟩
      · exact absurd hnone hfound
      · have honce : cases.settle call.workspaceId id (call.verdict app P d (some k) b []
            (Decision.readBody_accepts hb)) = _ := Registry.once_found he
        rw [honce]
        exact .of_found hby hrep (by rw [hop]; rfl) (hok k rfl) hnormalized hr hkept

/-- A call by its caller. -/
theorem Represents.carries_by (hrep : Represents cases σ) (hby : call.By app P)
    (hdoc : call.operation.body.document? = some document) (hnew : call.Unused σ) :
    Carries σ ((request app call).serve approvalDb σ) (cases.handleBy app call P document) := by
  cases hop : call.operation with
  | create key body => exact hrep.carries_create hby hop hdoc hnew
  | decide d id key body => exact hrep.carries_decide hby hop hdoc hnew
  | get id =>
    unfold Registry.handleBy
    rw [hop]
    exact hrep.carries_read hby hop
  | list status limit offset =>
    unfold Registry.handleBy
    rw [hop]
    dsimp only
    split
    · rename_i errors hparams
      refine .of_throw hby hdoc ?_
      unfold endpoint
      rw [hop]
      dsimp only
      rw [orRequestValidationError_bind]
      unfold listParameters at hparams
      rw [hparams]
    · rename_i filter l o hparams
      exact hrep.carries_list hby hop hparams

theorem Call.caller_ok (h : call.caller app = .ok P) : call.By app P := by
  unfold caller at h
  split at h
  · cases h
  · cases h
  · rename_i P' hauth
    split_ifs at h with hws haction
    obtain rfl := Except.ok.inj h
    exact ⟨hauth, not_not.mp hws, by simpa using haction⟩

theorem Call.caller_error {e : Exn} (h : call.caller app = .error e) :
    ∃ t, (AuthDependencies.requireAction call.operation.requiredAction app.provider
      call.authorization call.workspaceId []).run approvalDb σ [] = ⟨.error e, [], t⟩ := by
  unfold caller at h
  rw [requireAction_eq]
  split at h
  · rename_i message hauth
    obtain rfl := Except.error.inj h
    rw [hauth]
    exact ⟨_, rfl⟩
  · rename_i detail hauth
    obtain rfl := Except.error.inj h
    rw [hauth]
    exact ⟨_, rfl⟩
  · rename_i P hauth
    rw [hauth]
    dsimp only
    split_ifs at h ⊢ with hws haction
    · obtain rfl := Except.error.inj h
      exact ⟨_, rfl⟩
    · obtain rfl := Except.error.inj h
      exact ⟨_, rfl⟩

/-- **A call that is served alone does what the registry makes of it.** -/
theorem Represents.carries (hrep : Represents cases σ) (hnew : call.Unused σ) :
    Carries σ ((request app call).serve approvalDb σ) (cases.handle app call) := by
  unfold Registry.handle
  cases hdoc : call.operation.body.document? with
  | none =>
    refine .of_failed (Prog.serve_of_raise (δ := []) (t := []) ?_)
    change ((handle app call []).bind _).run approvalDb σ [] = _
    unfold ContentApproval.handle
    rw [tx_bind, parseBody_eq, hdoc]
    cases call.operation.body <;> rfl
  | some document =>
    dsimp only
    cases hcaller : call.caller app with
    | error e =>
      obtain ⟨t, hrefused⟩ := @Call.caller_error app call σ e hcaller
      exact .of_failed (serve_refused hdoc hrefused)
    | ok P => exact hrep.carries_by (Call.caller_ok hcaller) hdoc hnew

end Refines

end ContentApproval
