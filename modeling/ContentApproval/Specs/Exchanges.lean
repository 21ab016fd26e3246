import ContentApproval.Specs.Contract
import ContentApproval.Specs.Termination
import ContentApproval.Transactions.Exchanges

/-!
# What a call is told before it goes on

`request_told` reduces what a whole call does with the replies it gets to what its endpoint
does. A list call has been told a count, a page and the reviewers of that page when it
answers (`ListTold`), and a decision sends its `UPDATE` only after a `SELECT` has returned
the request (`Informed`).
-/

namespace ContentApproval

open Transactions SqlApprovalRequestRepository AsyncSession ApprovalService Idempotency
  AuthDependencies

/-- A statement of the service with its reply. -/
abbrev Told := List (Exchange Reply)

/-- The session of a call that has sent nothing yet. -/
abbrev Call.opened (app : App) (call : Call) : Session Reply Write Exn Answer :=
  .running (request app call) []

section Told

variable {Φ : Told → Statement → Prop} {h : Told}

theorem insertAll_told {rows : List NewRow} (hinsert : ∀ row ∈ rows, ∀ h, Φ h (.insert row)) :
    (insertAll rows).Told Φ (fun _ _ => True) h := by
  induction rows generalizing h with
  | nil => trivial
  | cons row rows ih =>
    rw [insertAll_cons]
    refine ⟨hinsert row List.mem_cons_self h, fun inserted => ?_⟩
    change Bool at inserted
    cases inserted with
    | false => trivial
    | true => exact ih fun row' hrow' => hinsert row' (List.mem_cons_of_mem _ hrow')

theorem requireAction_told {action : Action} {provider : AuthProvider}
    {authorization : Option String} {ws : String} {Q : Told → Principal × List NewRow → Prop}
    (hlog : ∀ h record, Φ h (.log record))
    (hok : ∀ P, provider.authenticate authorization = .ok P → P.workspaceId = ws →
      P.hasAction action = true → Q h (P, [])) :
    (requireAction action provider authorization ws []).Told Φ Q h := by
  have hrefuse : ∀ record e, (Prog.exec (.log record) (fun _ => .throw e) :
      Prog Reply Exn (Principal × List NewRow)).Told Φ Q h :=
    fun record e => ⟨hlog h record, fun _ => trivial⟩
  rw [requireAction_eq]
  cases hauth : provider.authenticate authorization with
  | error e =>
    cases e with
    | invalidCredentials message => exact hrefuse _ _
    | other detail => trivial
  | ok P =>
    dsimp only
    split_ifs with hws ha
    · exact hrefuse _ _
    · exact hrefuse _ _
    · exact hok P hauth (not_not.mp hws) (by simpa using ha)

/-- A call up to its answer: nothing was said before its endpoint runs. -/
theorem handle_told {app : App} {call : Call} {Q : Told → Answer × List NewRow → Prop}
    (hlog : ∀ h record, Φ h (.log record))
    (hend : ∀ P document, call.By app P → call.operation.body.document? = some document →
      (endpoint app call P document []).Told Φ Q []) : (handle app call []).Told Φ Q [] := by
  unfold handle
  rw [tx_bind, parseBody_eq]
  cases hdoc : call.operation.body.document? with
  | none => cases call.operation.body <;> trivial
  | some document =>
    simp only [Prog.bind]
    rw [tx_bind]
    refine Prog.Told.bind (P := fun h p => h = [] ∧ p.2 = [] ∧ call.By app p.1)
      (requireAction_told hlog fun P hauth hws ha => ⟨rfl, rfl, hauth, hws, ha⟩) ?_
    rintro h ⟨P, pending⟩ ⟨rfl, rfl, hby⟩
    exact hend P document hby hdoc

theorem request_told {app : App} {call : Call} {A : Told → Answer → Prop}
    (hlog : ∀ h record, Φ h (.log record))
    (hend : ∀ P document, call.By app P → call.operation.body.document? = some document →
      (endpoint app call P document []).Told Φ
        (fun h p => A h p.1 ∧ ∀ row ∈ p.2, ∀ h', Φ h' (.insert row)) []) :
    (call.opened app).Told Φ A [] :=
  (handle_told hlog hend).bind fun _ _ hp => ⟨hp.1, insertAll_told hp.2⟩

end Told

/-! ## List calls -/

/-- The parameters of a list call. -/
def listParameters (status : Option String) (limit offset : QueryInt) :
    Validated (Option ApprovalStatus × Nat × Nat) :=
  (statusQuery status).both ((integerQuery "limit" 20 1 (some 100) limit).both
    (integerQuery "offset" 0 0 none offset))

/-- The response to a list call that was told this. -/
def listAnswer (env : Env) (rows : List ApprovalRequestRow)
    (reviewers : List ApprovalRequestReviewer) (total limit offset : Nat) : Answer :=
  ⟨200, .list ⟨rows.map (fun row =>
    .ofEntity (toEntity env.dialect.load row (reviewersOfRow reviewers row))), total, limit,
    offset⟩⟩

/-- A list call answers when it was told a count, a page, and the reviewers of its rows. -/
def ListTold (call : Call) (status : Option String) (limit offset : QueryInt) (h : Told)
    (a : Answer) : Prop :=
  ∃ filter l o total rows reviewers loaded, listParameters status limit offset = .ok (filter, l, o) ∧
    a = listAnswer call.env rows reviewers total l o ∧
    h = ⟨.countRequests call.workspaceId filter, total⟩ ::
      ⟨.selectPage call.workspaceId filter l o, rows⟩ :: loaded ∧
    (rows ≠ [] → loaded = [⟨.selectReviewers (rows.map (fun row => (row.workspaceId, row.id)))
      (call.env.rowOrder 0), reviewers⟩])

/-- The statement writes nothing. -/
def Silent (_ : Told) (s : Statement) : Prop := ∀ σ, (approvalDb.exec s σ).2 = []

theorem list_told {app : App} {call : Call} {P : Principal} {document : Option Json}
    {status : Option String} {limit offset : QueryInt}
    (hop : call.operation = .list status limit offset) :
    (endpoint app call P document []).Told Silent
      (fun h p => ListTold call status limit offset h p.1 ∧ p.2 = []) [] := by
  unfold endpoint
  rw [hop]
  dsimp only
  rw [orRequestValidationError_bind]
  cases hparams : (statusQuery status).both ((integerQuery "limit" 20 1 (some 100) limit).both
      (integerQuery "offset" 0 0 none offset)) with
  | error es => trivial
  | ok params =>
    obtain ⟨filter, l, o⟩ := params
    refine ⟨fun _ => rfl, fun total => ⟨fun _ => rfl, fun rows => ?_⟩⟩
    change Nat at total
    change List ApprovalRequestRow at rows
    cases rows with
    | nil =>
      exact ⟨⟨filter, l, o, total, [], [], [], hparams, rfl, rfl, fun hne => absurd rfl hne⟩, rfl⟩
    | cons row rows =>
      refine ⟨fun _ => rfl, fun reviewers => ⟨?_, rfl⟩⟩
      refine ⟨filter, l, o, total, row :: rows, reviewers, _, hparams, ?_, rfl, fun _ => rfl⟩
      simp only [listAnswer, List.map_map]
      rfl

/-- A list call writes nothing and answers what it was told. -/
theorem request_list_told {app : App} {call : Call} {status : Option String}
    {limit offset : QueryInt} (hop : call.operation = .list status limit offset) :
    (call.opened app).Told Silent
      (ListTold call status limit offset) [] :=
  request_told (fun _ _ _ => rfl) fun _ _ _ _ => (list_told hop).mono fun _ p hp =>
    ⟨hp.1, by simp [hp.2]⟩

/-! ## Readings of the clock -/

/-- The datetimes of a row that are read from the clock, in the order of its columns. -/
def NewRow.datetimes : NewRow → List Instant
  | .approvalRequest row => [row.createdAt, row.updatedAt]
  | .reviewer _ => []
  | .auditLogEntry row => [row.createdAt]
  | .outboxEvent row => [row.createdAt]
  | .idempotencyKey row => [row.createdAt]

/-- The datetimes that a statement brings from the clock, in the order of the readings. -/
def Statement.datetimes : Statement → List Instant
  | .insert row => row.datetimes
  | .updatePending _ _ values => [values.decidedAt, values.updatedAt]
  | _ => []

/-- The readings that a call makes for a row. -/
def Env.readings (env : Env) : NewRow → List Instant
  | .approvalRequest _ => [env.createdAt, env.updatedAt]
  | .reviewer _ => []
  | .auditLogEntry _ => [env.auditCreatedAt]
  | .outboxEvent _ => [env.eventCreatedAt]
  | .idempotencyKey _ => [env.keyCreatedAt]

theorem Creation.datetimes (c : Creation) {row : NewRow} (hrow : row ∈ c.newRows) :
    row.datetimes = c.env.readings row := by
  simp only [newRows, List.mem_cons, List.mem_append, List.mem_map, List.not_mem_nil,
    or_false] at hrow
  obtain rfl | ⟨r, hr, rfl⟩ | rfl | rfl | rfl := hrow
  all_goals rfl

/-! ## Decisions -/

/-- Rows are inserted with the readings of the call, and an `UPDATE` has the reading of a
decision and is sent only after a `SELECT` has returned the request. -/
def Informed (env : Env) (h : Told) : Statement → Prop
  | .insert row => row.datetimes = env.readings row
  | .updatePending ws id values => values.decidedAt = env.decidedAt ∧
    values.updatedAt = env.decidedAt ∧
    ∃ row : ApprovalRequestRow, ⟨.selectRequest ws id, some row⟩ ∈ h
  | _ => True

section Informed

variable {env : Env} {h : Told}

theorem Informed.select (h : Told) {s : Statement} (hs : s.IsSelect) : Informed env h s := by
  cases s with
  | insert row => exact hs.elim
  | updatePending ws id values => exact hs.elim
  | _ => trivial

/-- The rows have the readings of the call. -/
def Stamped (env : Env) (rows : List NewRow) : Prop :=
  ∀ row ∈ rows, row.datetimes = env.readings row

theorem insertAll_informed {rows : List NewRow} (h' : Stamped env rows) :
    (insertAll rows).Told (Informed env) (fun _ _ => True) h :=
  insertAll_told fun row hrow _ => h' row hrow

theorem get_informed (env : Env) (site : Nat) (ws id : String) :
    (get env site ws id []).Told (Informed env) (fun h' p => p.2 = [] ∧
      ∀ request, p.1 = some request →
        ∃ row : ApprovalRequestRow, ⟨.selectRequest ws id, some row⟩ ∈ h') h := by
  rw [get_eq]
  refine ⟨.select h trivial, fun row? => ?_⟩
  change Option ApprovalRequestRow at row?
  cases row? with
  | none => exact ⟨rfl, fun request hr => by cases hr⟩
  | some row =>
    refine ⟨.select _ trivial, fun reviewers => ⟨rfl, fun request _ => ⟨row, ?_⟩⟩⟩
    exact List.mem_append_left _ (List.mem_append_right _ List.mem_cons_self)

theorem transition_informed {env : Env} {ws id : String} (status : ApprovalStatus) (actor : String)
    (comment reason : Option String) {row : ApprovalRequestRow}
    (hrow : ⟨.selectRequest ws id, some row⟩ ∈ h) :
    (transition env ws id status actor comment reason []).Told (Informed env)
      (fun _ p => p.2 = []) h := by
  rw [transition_eq]
  refine ⟨⟨rfl, rfl, row, hrow⟩, fun rowcount => ?_⟩
  change Nat at rowcount
  unfold afterUpdate
  split
  all_goals
    refine (get_informed env _ ws id).bind fun h' p hp => ?_
    obtain ⟨_ | _, _⟩ := p
  · trivial
  · exact hp.1
  · trivial
  · trivial

theorem decideRequest_informed (v : Verdict) (ws id : String) :
    (decideRequest v.env v.decision ws id v.actorUserId v.comment v.reason []).Told
      (Informed v.env) (fun _ p => Stamped v.env p.2) h := by
  rw [decideRequest_eq]
  refine (get_informed v.env 0 ws id).bind fun h' p hp => ?_
  obtain ⟨_ | request, pending⟩ := p
  · trivial
  · obtain ⟨rfl, hrow⟩ := hp
    obtain ⟨row, hrow⟩ := hrow request rfl
    have hend := requireEntitled_ends id request v.actorUserId v.decision []
    dsimp only
    cases hcheck : requireEntitled id request v.actorUserId v.decision [] with
    | throw e => trivial
    | exec s k =>
      rw [hcheck] at hend
      exact hend.elim
    | ret p =>
      rw [hcheck] at hend
      obtain ⟨u, pending⟩ := p
      obtain rfl : pending = [] := hend
      rw [Prog.bind, decideInternal_eq]
      refine (transition_informed _ _ _ _ hrow).bind fun h' p hp => ⟨trivial, fun _ => ?_⟩
      obtain ⟨updated, pending⟩ := p
      obtain rfl : pending = [] := hp
      intro row hrow
      rcases List.mem_append.mp hrow with hrow | hrow
      · rw [List.mem_singleton.mp hrow]
        rfl
      · rw [List.mem_singleton.mp hrow]
        rfl

theorem runIdempotent_informed {sha256 : String → String} {env : Env} {ws route : String}
    {key : Option String} {payload : Json} {handler : Tx (ApprovalRequestOut × Nat)}
    (hhandler : ∀ h, (handler []).Told (Informed env) (fun _ p => Stamped env p.2) h) :
    (runIdempotent sha256 env ws route key payload handler []).Told (Informed env)
      (fun _ p => Stamped env p.2) h := by
  cases key with
  | none => exact hhandler h
  | some key =>
    rw [runIdempotent_some]
    refine ⟨.select h trivial, fun existing? => ?_⟩
    change Option IdempotencyKey at existing?
    cases existing? with
    | none =>
      refine (hhandler _).bind fun h' p hp => Prog.Told.bind (P := fun _ p => p.2 = []) ?_
        fun _ q hq row hrow => ?_
      · refine Prog.Told.catchError ((insertAll_informed ?_).bind fun _ _ _ => rfl) ?_
        · intro row hrow
          rcases List.mem_append.mp hrow with hrow | hrow
          · exact hp row hrow
          · rw [List.mem_singleton.mp hrow]
            rfl
        · intro h'' e
          cases e <;> trivial
      · rw [hq] at hrow
        cases hrow
    | some existing =>
      simp only [afterLookup]
      split_ifs
      · trivial
      · cases ApprovalRequestOut.modelValidate existing.responseBody with
        | none => trivial
        | some out => exact fun row hrow => absurd hrow List.not_mem_nil

theorem endpoint_informed {app : App} {call : Call} {P : Principal} (document : Option Json) :
    (endpoint app call P document []).Told (Informed call.env)
      (fun _ p => Stamped call.env p.2) h := by
  have hread : call.operation.IsRead →
      (endpoint app call P document []).Told (Informed call.env)
        (fun _ p => Stamped call.env p.2) h := fun hop =>
    (Prog.Told.of_only (endpoint_reads hop document) fun h' s hs => .select h' hs).mono
      fun _ p hp row hrow => by
        rw [hp] at hrow
        cases hrow
  cases hop : call.operation with
  | list status limit offset => exact hread (by rw [hop]; trivial)
  | get id => exact hread (by rw [hop]; trivial)
  | create key body =>
    unfold endpoint
    rw [hop]
    dsimp only
    rw [orRequestValidationError_bind]
    cases hparams : (requiredIdempotencyKey key).both
        (validateBody ApprovalRequestCreate.modelValidate document) with
    | error es => trivial
    | ok params =>
      obtain ⟨k, payload⟩ := params
      obtain ⟨-, hpayload⟩ := both_ok hparams
      obtain ⟨fields, -, hfields⟩ := validateBody_ok hpayload
      let c : Creation := ⟨call.env, call.workspaceId, P.userId, payload, k,
        fingerprint app.sha256 payload.modelDump, fields, hfields⟩
      refine Prog.Told.bind (P := fun _ p => Stamped call.env p.2)
        (runIdempotent_informed fun h' => ?_) fun _ ⟨_, _⟩ hp => by exact hp
      refine Prog.Told.bind (P := fun _ p => Stamped call.env p.2) ?_ fun _ ⟨_, _⟩ hp => by exact hp
      rw [show ApprovalService.createRequest call.env call.workspaceId P.userId payload.sourceType
        payload.sourceId payload.title payload.description payload.reviewerUserIds [] = _ from
        createRequest_eq c]
      have hrows : Stamped call.env c.newRows := fun row hrow => c.datetimes hrow
      refine (insertAll_informed fun row hrow => hrows row ?_).bind fun _ _ _ =>
        ⟨trivial, fun _ row hrow => hrows row ?_⟩
      · exact List.mem_append_left [_, _, _] hrow
      · exact List.mem_append_right c.firstRows
          (List.mem_append_left [NewRow.idempotencyKey c.ledgerRow] hrow)
  | decide d id key body =>
    rw [endpoint_decide hop, orRequestValidationError_bind]
    cases hparams : (optionalIdempotencyKey key).both (d.readBody document) with
    | error es => trivial
    | ok params =>
      obtain ⟨k, b⟩ := params
      obtain ⟨-, hb⟩ := both_ok hparams
      let v : Verdict := ⟨call.env, d, P.userId, b.comment, b.reason, [], none,
        Decision.readBody_accepts hb⟩
      refine Prog.Told.bind (P := fun _ p => Stamped call.env p.2)
        (runIdempotent_informed fun h' => ?_) fun _ ⟨_, _⟩ hp => by exact hp
      exact Prog.Told.bind (decideRequest_informed v call.workspaceId id) fun _ ⟨_, _⟩ hp => by exact hp

/-- **No call decides a request that it has not seen**, and all its datetimes are its own
readings of the clock. -/
theorem request_informed (app : App) (call : Call) :
    (call.opened app).Told (Informed call.env) (fun _ _ => True) [] :=
  request_told (fun _ _ => trivial) fun _ document _ _ =>
    (endpoint_informed document).mono fun _ _ hp => ⟨trivial, fun row hrow _ => hp row hrow⟩

end Informed

end ContentApproval
