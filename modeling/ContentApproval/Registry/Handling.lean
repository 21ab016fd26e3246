import ContentApproval.Registry.Cases

/-!
# What the registry answers

The service as a registry of cases sees it: one call at a time, with no tables, statements and
transactions. A case is filed (`file`), read (`read`), listed (`list`) and settled (`settle`), and a
call whose key was used before is told again what was answered then (`once`). Each operation
either answers, with the registry that it leaves, or it is refused.
-/

namespace ContentApproval

open SqlApprovalRequestRepository Idempotency

instance (createdByUserId : String) (reviewerUserIds : List String) (actorUserId : String)
    (d : Decision) : Decidable (d.Entitled createdByUserId reviewerUserIds actorUserId) := by
  cases d <;> unfold Decision.Entitled <;> infer_instance

/-! ## Answers that are kept -/

/-- An answer that was given under a key, with the fingerprint of the body that it was given to. -/
structure Entry where
  workspaceId : String
  route : String
  key : String
  fingerprint : String
  statusCode : Nat
  out : ApprovalRequestOut

def Creation.entry (c : Creation) : Entry :=
  ⟨c.workspaceId, "create", c.idempotencyKey, c.fingerprint, 201, c.out⟩

def Verdict.entry? (v : Verdict) (workspaceId requestId : String) (row : ApprovalRequestRow) :
    Option Entry :=
  v.key.map (fun k => ⟨workspaceId, v.decision.route requestId, k.1, k.2, 200, v.out row⟩)

namespace Case

variable (k : Case)

def entries : List Entry :=
  k.creation.entry :: k.verdict.toList.flatMap
    (fun v => (v.entry? k.workspaceId k.requestId k.creation.row).toList)

/-- The reviewers of the case in the order in which the `site`-th read of a call lists them. -/
def listed (env : Env) (site : Nat) : List String :=
  ((env.rowOrder site).arrange k.creation.reviewerRows).map ApprovalRequestReviewer.reviewerUserId

/-- The case as it is shown by a call that reads it. -/
def out (reviewerUserIds : List String) : ApprovalRequestOut :=
  .ofEntity (toEntity fresh k.row reviewerUserIds)

theorem listed_perm (env : Env) (site : Nat) :
    (k.listed env site).Perm k.creation.payload.reviewerUserIds := by
  refine (((env.rowOrder site).perm _).map _).trans (List.Perm.of_eq ?_)
  rw [Creation.reviewerRows, List.map_map]
  exact List.map_id _

end Case

/-! ## The operations -/

/-- The answer to an operation with the registry that it leaves, or its refusal. -/
abbrev Outcome := Except Exn (Answer × Registry)

namespace Registry

variable (cases : Registry)

def find? (workspaceId requestId : String) : Option Case :=
  List.find? (fun k => k.workspaceId == workspaceId && k.requestId == requestId) cases

def entry? (workspaceId route key : String) : Option Entry :=
  (cases.flatMap Case.entries).find?
    (fun e => e.workspaceId == workspaceId && e.route == route && e.key == key)

/-- The operation, unless its key was used before. -/
def once (workspaceId route : String) (key : Option (String × String)) (operation : Outcome) :
    Outcome :=
  match key with
  | none => operation
  | some (key, fingerprint) => match cases.entry? workspaceId route key with
    | none => operation
    | some e =>
      if e.fingerprint ≠ fingerprint then .error keyReused
      else .ok (⟨e.statusCode, .request e.out⟩, cases)

variable {cases} in
theorem once_new {workspaceId route : String} {key : Option (String × String)}
    {operation : Outcome} (h : ∀ k ∈ key, cases.entry? workspaceId route k.1 = none) :
    cases.once workspaceId route key operation = operation := by
  cases key with
  | none => rfl
  | some k =>
    unfold once
    dsimp only
    rw [h k rfl]

variable {cases} in
theorem once_found {workspaceId route key fingerprint : String} {operation : Outcome} {e : Entry}
    (h : cases.entry? workspaceId route key = some e) :
    cases.once workspaceId route (some (key, fingerprint)) operation =
      if e.fingerprint ≠ fingerprint then .error keyReused
      else .ok (⟨e.statusCode, .request e.out⟩, cases) := by
  unfold once
  dsimp only
  rw [h]

def file (c : Creation) : Outcome :=
  cases.once c.workspaceId "create" (some (c.idempotencyKey, c.fingerprint))
    (.ok (⟨201, .request c.out⟩, cases ++ [Case.filed c]))

def read (env : Env) (workspaceId requestId : String) : Outcome :=
  match cases.find? workspaceId requestId with
  | none => .error (.approvalRequestNotFoundError requestId)
  | some k => .ok (⟨200, .request (k.out (k.listed env 0))⟩, cases)

/-- The case `k` gets its verdict. -/
def decided (k : Case) (v : Verdict)
    (entitled : v.decision.Entitled k.creation.actorUserId k.creation.payload.reviewerUserIds
      v.actorUserId) (shown : v.shown.Perm k.creation.payload.reviewerUserIds) : Registry :=
  cases.map (fun k' =>
    if k'.requestId = k.requestId then Case.settled k.creation v entitled shown else k')

/-- The verdict on the case `k`, whose answer lists the reviewers as they are read. -/
def settleCase (k : Case) (v : Verdict) : Outcome :=
  if entitled : v.decision.Entitled k.creation.actorUserId k.creation.payload.reviewerUserIds
      v.actorUserId then
    if k.verdict.isNone then
      .ok (⟨200, .request ({ v with shown := k.listed v.env 1 }.out k.creation.row)⟩,
        cases.decided k { v with shown := k.listed v.env 1 } entitled (k.listed_perm v.env 1))
    else .error (.invalidTransitionError k.requestId k.row.status)
  else .error (.notAuthorizedForDecisionError k.requestId v.actorUserId v.decision.refusal)

/-- The verdict on the case that has this id. -/
def settleById (workspaceId requestId : String) (v : Verdict) : Outcome :=
  match cases.find? workspaceId requestId with
  | none => .error (.approvalRequestNotFoundError requestId)
  | some k => cases.settleCase k v

def settle (workspaceId requestId : String) (v : Verdict) : Outcome :=
  cases.once workspaceId (v.decision.route requestId) v.key
    (cases.settleById workspaceId requestId v)

/-- The cases of a workspace with this status, if one is asked for. -/
def matching (workspaceId : String) (status : Option ApprovalStatus) : Registry :=
  cases.filter (fun k => k.workspaceId == workspaceId && status.all (fun t => k.row.status == t))

def page (workspaceId : String) (status : Option ApprovalStatus) (limit offset : Nat) : Registry :=
  (((cases.matching workspaceId status).insertionSort
    (fun k k' => Store.newestFirst k.row k'.row)).drop offset).take limit

/-- The reviewers of the cases of a page, as one query fetches them. -/
def reviewers (env : Env) (page : Registry) : List ApprovalRequestReviewer :=
  (env.rowOrder 0).arrange ((cases.flatMap (fun k => k.creation.reviewerRows)).filter (fun r =>
    decide ((r.workspaceId, r.approvalRequestId) ∈
      page.map (fun k => (k.workspaceId, k.requestId)))))

def list (env : Env) (workspaceId : String) (status : Option ApprovalStatus) (limit offset : Nat) :
    Outcome :=
  let page := cases.page workspaceId status limit offset
  .ok (⟨200, .list ⟨page.map (fun k => k.out (reviewersOfRow (cases.reviewers env page) k.row)),
    (cases.matching workspaceId status).length, limit, offset⟩⟩, cases)

end Registry

end ContentApproval
