import ContentApproval.Specs.Endpoints
import ContentApproval.Transactions.Progress

/-!
# How many statements a call sends

Whatever the database replies, a decision sends at most six statements before it returns
or raises (`decideRequest_ends`), and then has two rows left to flush. Every call sends a
bounded number of statements (`request_ends`); for a create the bound depends on the number
of reviewers.
-/

namespace ContentApproval

open Transactions SqlApprovalRequestRepository AsyncSession ApprovalService Idempotency
  AuthDependencies

theorem insertAll_ends (rows : List NewRow) : (insertAll rows).Ends (fun _ => True) rows.length := by
  induction rows with
  | nil => exact trivial
  | cons row rows ih =>
    rw [insertAll_cons]
    intro inserted
    change Bool at inserted
    cases inserted with
    | false => cases rows <;> exact trivial
    | true => exact ih

/-- A `SELECT` of the row and one of its reviewers. -/
theorem get_ends (env : Env) (site : Nat) (ws id : String) :
    (get env site ws id []).Ends (fun p => p.2 = []) 2 := by
  rw [get_eq]
  intro row?
  change Option ApprovalRequestRow at row?
  cases row? with
  | none => exact rfl
  | some row => exact fun _ => rfl

/-- The `UPDATE` and one `get`. -/
theorem transition_ends (env : Env) (ws id : String) (status : ApprovalStatus) (actor : String)
    (comment reason : Option String) :
    (transition env ws id status actor comment reason []).Ends (fun p => p.2 = []) 3 := by
  rw [transition_eq]
  intro rowcount
  change (afterUpdate env ws id rowcount).Ends _ (2 + 0)
  unfold afterUpdate
  split
  · refine (get_ends env 1 ws id).bind fun p hp => ?_
    obtain ⟨_ | _, _⟩ := p
    · exact trivial
    · exact hp
  · refine (get_ends env 2 ws id).bind fun p _ => ?_
    obtain ⟨_ | _, _⟩ := p <;> exact trivial

theorem requireEntitled_ends (id : String) (request : ApprovalRequest) (actor : String)
    (d : Decision) (pending : List NewRow) :
    (requireEntitled id request actor d pending).Ends (fun p => p.2 = pending) 0 := by
  have hreviewer : (requireReviewer request actor pending).Ends (fun p => p.2 = pending) 0 := by
    unfold requireReviewer
    split
    · exact trivial
    · exact rfl
  cases d with
  | approve => exact hreviewer
  | reject => exact hreviewer
  | cancel =>
    simp only [requireEntitled, requireCreator]
    split
    · exact trivial
    · exact rfl

theorem decideRequest_ends (v : Verdict) (ws id : String) :
    (decideRequest v.env v.decision ws id v.actorUserId v.comment v.reason []).Ends
      (fun p => p.2.length = 2) 6 := by
  rw [decideRequest_eq]
  change Prog.Ends _ (2 + (0 + (3 + 1))) _
  refine (get_ends v.env 0 ws id).bind fun p hp => ?_
  obtain ⟨_ | request, pending⟩ := p
  · exact trivial
  · obtain rfl : pending = [] := hp
    refine (requireEntitled_ends id request v.actorUserId v.decision []).bind fun q hq => ?_
    rw [hq, decideInternal_eq]
    refine (transition_ends _ _ _ _ _ _ _).bind fun r hr => ?_
    intro _
    change (r.2 ++ [_] ++ [_]).length = 2
    rw [hr]
    rfl

/-! ## Whole calls -/

theorem createRequest_ends (c : Creation) :
    (createRequest c.env c.workspaceId c.actorUserId c.payload.sourceType c.payload.sourceId
      c.payload.title c.payload.description c.payload.reviewerUserIds []).Ends
      (fun p => p.2.length = 2) (c.firstRows.length + 1) := by
  rw [createRequest_eq]
  exact (insertAll_ends _).bind fun _ _ _ => rfl

theorem ledgerFlush_ends (rows : List NewRow) :
    (ledgerFlush rows).Ends (fun q => q.2 = []) rows.length := by
  have hflush : ((insertAll rows).bind (fun u => .ret (u, []))).Ends
      (fun q : Unit × List NewRow => q.2 = []) (rows.length + 0) :=
    (insertAll_ends rows).bind fun _ _ => rfl
  exact Prog.Ends.catchError (n := 0) hflush fun e => by cases e <;> trivial

/-- A keyed call looks the key up first and then flushes three rows. -/
theorem runIdempotent_ends {sha256 : String → String} {env : Env} {ws route : String}
    {key : Option String} {payload : Json} {handler : Tx (ApprovalRequestOut × Nat)} {n : Nat}
    (h : (handler []).Ends (fun p => p.2.length = 2) n) :
    (runIdempotent sha256 env ws route key payload handler []).Ends (fun p => p.2.length ≤ 2)
      (n + 3 + 1) := by
  cases key with
  | none => exact h.mono (by omega) fun p hp => Nat.le_of_eq hp
  | some key =>
    rw [runIdempotent_some]
    intro existing?
    change Option IdempotencyKey at existing?
    cases existing? with
    | none =>
      refine h.bind fun p hp => ?_
      have hflush := ledgerFlush_ends (p.2 ++ [.idempotencyKey ⟨ws, route, key,
        fingerprint sha256 payload, p.1.2, p.1.1.modelDump, env.keyCreatedAt⟩])
      rw [List.length_append, hp] at hflush
      refine Prog.Ends.bind (n := 0) hflush fun q hq => ?_
      change q.2.length ≤ 2
      rw [hq]
      exact Nat.zero_le _
    | some existing =>
      simp only [afterLookup]
      split_ifs
      · exact trivial
      · cases ApprovalRequestOut.modelValidate existing.responseBody with
        | none => exact trivial
        | some out => exact Nat.zero_le _

theorem endpoint_ends (app : App) (call : Call) (P : Principal) (document : Option Json) :
    ∃ n, (endpoint app call P document []).Ends (fun p => p.2.length ≤ 2) n := by
  cases hop : call.operation with
  | get id =>
    refine ⟨2 + 0, ?_⟩
    unfold endpoint
    rw [hop]
    refine Prog.Ends.bind (P := fun p => p.2 = []) ?_ fun p hp => ?_
    · refine (get_ends call.env 0 call.workspaceId id).bind (n := 0) fun p hp => ?_
      obtain ⟨_ | _, _⟩ := p
      · exact trivial
      · exact hp
    · change p.2.length ≤ 2
      rw [hp]
      exact Nat.zero_le _
  | list status limit offset =>
    refine ⟨3, ?_⟩
    unfold endpoint
    rw [hop]
    dsimp only
    rw [orRequestValidationError_bind]
    split
    · intro total rows
      change List ApprovalRequestRow at rows
      cases rows with
      | nil => exact Nat.zero_le _
      | cons row rows => exact fun _ => Nat.zero_le _
    · exact trivial
  | create key body =>
    unfold endpoint
    rw [hop]
    dsimp only
    rw [orRequestValidationError_bind]
    cases hparams : (requiredIdempotencyKey key).both
        (validateBody ApprovalRequestCreate.modelValidate document) with
    | error es => exact ⟨0, trivial⟩
    | ok params =>
      obtain ⟨k, payload⟩ := params
      obtain ⟨-, hpayload⟩ := both_ok hparams
      obtain ⟨fields, -, hfields⟩ := validateBody_ok hpayload
      let c : Creation := ⟨call.env, call.workspaceId, P.userId, payload, k,
        fingerprint app.sha256 payload.modelDump, fields, hfields⟩
      exact ⟨_, Prog.Ends.bind (n := 0) (runIdempotent_ends
        ((createRequest_ends c).bind (n := 0) fun ⟨_, _⟩ hp => by exact hp))
        fun ⟨_, _⟩ hp => by exact hp⟩
  | decide d id key body =>
    rw [endpoint_decide hop, orRequestValidationError_bind]
    cases hparams : (optionalIdempotencyKey key).both (d.readBody document) with
    | error es => exact ⟨0, trivial⟩
    | ok params =>
      obtain ⟨k, b⟩ := params
      obtain ⟨-, hb⟩ := both_ok hparams
      let v : Verdict := ⟨call.env, d, P.userId, b.comment, b.reason, [], none,
        Decision.readBody_accepts hb⟩
      exact ⟨_, Prog.Ends.bind (n := 0) (runIdempotent_ends
        ((decideRequest_ends v call.workspaceId id).bind (n := 0) fun ⟨_, _⟩ hp => by exact hp))
        fun ⟨_, _⟩ hp => by exact hp⟩

theorem requireAction_ends (action : Action) (provider : AuthProvider)
    (authorization : Option String) (ws : String) :
    (requireAction action provider authorization ws []).Ends
      (fun p => provider.authenticate authorization = .ok p.1 ∧ p.2 = []) 1 := by
  rw [requireAction_eq]
  cases provider.authenticate authorization with
  | error e =>
    cases e with
    | invalidCredentials message => exact fun _ => trivial
    | other detail => exact trivial
  | ok P =>
    dsimp only
    split_ifs
    · exact fun _ => trivial
    · exact fun _ => trivial
    · exact ⟨rfl, rfl⟩

/-- **Every call sends a bounded number of statements**, and at most two after its answer. -/
theorem request_ends (app : App) (call : Call) :
    ∃ n, (request app call).Ends (fun r => r.2.Ends (fun _ => True) 2) n := by
  have hhandle : ∃ n, (handle app call []).Ends (fun p => p.2.length ≤ 2) n := by
    unfold handle
    rw [tx_bind, parseBody_eq]
    cases call.operation.body.document? with
    | none => cases call.operation.body <;> exact ⟨0, trivial⟩
    | some document =>
      rw [Prog.bind, tx_bind]
      cases hauth : app.provider.authenticate call.authorization with
      | error e =>
        refine ⟨1 + 0, (requireAction_ends _ _ _ _).bind fun p hp => ?_⟩
        rw [hauth] at hp
        cases hp.1
      | ok P =>
        obtain ⟨n, hn⟩ := endpoint_ends app call P document
        refine ⟨1 + n, (requireAction_ends _ _ _ _).bind fun p hp => ?_⟩
        rw [hauth] at hp
        obtain ⟨Q, pending⟩ := p
        obtain rfl := Except.ok.inj hp.1
        obtain rfl : pending = [] := hp.2
        exact hn
  obtain ⟨n, hn⟩ := hhandle
  refine ⟨n + 0, ?_⟩
  change ((handle app call []).bind _).Ends _ _
  exact hn.bind fun p hp => (insertAll_ends p.2).mono hp fun _ => id

end ContentApproval
