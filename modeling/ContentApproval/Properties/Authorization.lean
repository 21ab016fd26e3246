import ContentApproval.Properties.Finality
import ContentApproval.Registry.Ledger

/-!
# Who gets a success

A success is earned when its caller did what the response reports and was entitled to it
(`Earned`). The replay of a ledger row hands the stored response to whoever sends the
same key and body; so a success is earned exactly when the ledger has no row for the
call that another user entered (`success_earned_iff`).
-/

namespace ContentApproval

open Transactions

section Runs

variable {ι : Type} [DecidableEq ι] {app : App} {call : ι → Call} {w w' : ApiWorld ι}

/-! ## Earned successes -/

/-- The caller belongs to the workspace and holds the action of the endpoint; the request
that a create returns was created by the caller; the request that a decision returns was
decided by the caller, who is entitled to the decision. -/
structure Earned (app : App) (call : Call) (P : Principal) (σ : Store) (a : Answer) : Prop where
  caller : call.By app P
  created : ∀ key body, call.operation = .create key body →
    ∃ out, a.body = .request out ∧ out.createdByUserId = P.userId
  decided : ∀ d id key body, call.operation = .decide d id key body →
    ∃ out, a.body = .request out ∧ out.decidedByUserId = some P.userId ∧
      σ.Entitles call.workspaceId id d P.userId

/-- The user whose operation a row of the ledger records. -/
def IdempotencyKey.doneBy (r : IdempotencyKey) : Option String :=
  (ApprovalRequestOut.modelValidate r.responseBody).map
    (fun out => out.decidedByUserId.getD out.createdByUserId)

/-- The ledger has a row for the call that another user entered. -/
def ReplaysAnother (call : Call) (P : Principal) (σ : Store) : Prop :=
  ∃ route key r, call.operation.ledgerKey = some (route, key) ∧
    σ.key? call.workspaceId route key = some r ∧ r.doneBy ≠ some P.userId

theorem Call.By.unique {call : Call} {P P' : Principal} (h : call.By app P)
    (h' : app.provider.authenticate call.authorization = .ok P') : P = P' :=
  Except.ok.inj (h.authenticated.symm.trans h')

/-! ## At the answer -/

/-- A replay is earned exactly if its caller entered the row. -/
theorem replay_earned_iff {call : Call} {P : Principal} {σ : Store} (hσ : σ.Registered)
    (hby : call.By app P) {route key : String} {r : IdempotencyKey} {out : ApprovalRequestOut}
    (hkey : call.operation.ledgerKey = some (route, key))
    (hfound : σ.key? call.workspaceId route key = some r)
    (hout : ApprovalRequestOut.modelValidate r.responseBody = some out) (status : Nat) :
    Earned app call P σ ⟨status, .request out⟩ ↔ r.doneBy = some P.userId := by
  obtain ⟨cases, hrep⟩ := hσ
  obtain ⟨hmem, hws, hroute, -⟩ := Store.key?_some hfound
  cases hop : call.operation with
  | list status limit offset => rw [hop] at hkey; cases hkey
  | get id => rw [hop] at hkey; cases hkey
  | create key' body =>
    obtain rfl : route = "create" := by
      cases key' <;> rw [hop] at hkey <;> simp_all [Operation.ledgerKey]
    obtain ⟨k, hk, rfl⟩ := hrep.created_of_route hmem hroute
    obtain rfl : k.creation.out = out :=
      Option.some.inj ((ApprovalRequestOut.modelValidate_modelDump _).symm.trans hout)
    have hdone : k.creation.ledgerRow.doneBy = some k.creation.out.createdByUserId := by
      rw [IdempotencyKey.doneBy, hout]
      rfl
    rw [hdone, Option.some.injEq]
    constructor
    · intro he
      obtain ⟨out, hbody, hcreated⟩ := he.created _ _ hop
      obtain rfl := AnswerBody.request.inj hbody
      exact hcreated
    · intro hcreated
      exact ⟨hby, fun _ _ _ => ⟨_, rfl, hcreated⟩, fun _ _ _ _ h => by rw [hop] at h; cases h⟩
  | decide d id key' body =>
    obtain rfl : route = d.route id := by
      cases key' <;> rw [hop] at hkey <;> simp_all [Operation.ledgerKey]
    obtain ⟨k, hk, v, hv, rfl, rfl, hrow⟩ := hrep.decided_of_route hmem hroute
    obtain ⟨key'', fp, hkey'', rfl⟩ := Verdict.ledgerRow?_some hrow
    obtain rfl : v.out k.creation.row = out :=
      Option.some.inj ((ApprovalRequestOut.modelValidate_modelDump _).symm.trans hout)
    have hdone : IdempotencyKey.doneBy ⟨k.workspaceId, v.decision.route k.requestId, key'', fp, 200,
        (v.out k.creation.row).modelDump, v.env.keyCreatedAt⟩ = some v.actorUserId := by
      rw [IdempotencyKey.doneBy, hout]
      rfl
    rw [hdone, Option.some.injEq]
    constructor
    · intro he
      obtain ⟨out, hbody, hdecided, -⟩ := he.decided _ _ _ _ hop
      obtain rfl := AnswerBody.request.inj hbody
      exact Option.some.inj hdecided
    · rintro hactor
      refine ⟨hby, fun _ _ h => (by rw [hop] at h; cases h), ?_⟩
      intro d' id' _ _ hop'
      rw [hop] at hop'
      obtain ⟨rfl, rfl, -, -⟩ := Operation.decide.inj hop'
      refine ⟨_, rfl, congrArg some hactor, k.row, ?_, ?_⟩
      · exact hrep.request?_eq_some.mpr ⟨k, hk, hws, rfl, rfl⟩
      · rw [← hws, Store.reviewerIds, hrep.reviewerIds_eq hk, Case.row_createdByUserId, ← hactor]
        exact k.entitled v hv

/-- **A success is earned exactly if it is no replay of another user's operation.** In
every run of any calls, at the moment an answer is sent. -/
theorem success_earned_iff {ls : List (ι × Transactions.Action)}
    (h : Run approvalDb (ApiWorld.start app call Store.empty) ls w) {i : ι}
    (hs : Step approvalDb w (i, .answer) w') {a : Answer} (ha : (w'.session i).answer? = some a) :
    ∃ P, app.provider.authenticate (call i).authorization = .ok P ∧
      (Earned app (call i) P w.store a ↔ ¬ ReplaysAnother (call i) P w.store) := by
  have hw' := (ApiWorld.sound ⟨[], represents_empty⟩ h).step hs
  obtain ⟨exit, δ, hi⟩ := hs.answered ha
  obtain ⟨hheld, P, ws, hby, heff, hanchored⟩ := World.Sound.answered hw' hi
  have hσ : w'.store.Registered := hw'.inv
  rw [hs.store_eq (by simp)] at hheld heff hσ
  refine ⟨P, hby.authenticated, ?_⟩
  cases heff with
  | read _ hop =>
    refine iff_of_true ⟨hby, ?_, ?_⟩ ?_
    · intro key body hcall
      rw [hcall] at hop
      exact hop.elim
    · intro d id key body hcall
      rw [hcall] at hop
      exact hop.elim
    · rintro ⟨route, key, r, hkey, -, -⟩
      cases hcall : (call i).operation <;> rw [hcall] at hop hkey <;> first
        | exact hop.elim
        | cases hkey
  | @created c key body hop henv hws hactor hkey hbody hfp =>
    refine iff_of_true ⟨hby, fun _ _ _ => ⟨_, rfl, hactor⟩, ?_⟩ ?_
    · intro d id key body hcall
      rw [hcall] at hop
      cases hop
    · rintro ⟨route, key', r, hledger, hfound, -⟩
      have hnone := hheld.key?_eq_none rfl (hanchored.ledger c.ledgerRow c.mem_writes_ledgerRow)
      rw [hop] at hledger
      obtain ⟨rfl, rfl⟩ : "create" = route ∧ key = key' := by simpa [Operation.ledgerKey] using hledger
      simp only [Creation.ledgerRow, hws, hkey] at hnone
      rw [hnone] at hfound
      cases hfound
  | @decided v id key body payload row row' hop henv hactor hkey hbody hid hrow hbecomes entitled
      shown =>
    refine iff_of_true ⟨hby, ?_, ?_⟩ ?_
    · intro key body hcall
      rw [hcall] at hop
      cases hop
    · intro d id' key' body' hcall
      rw [hcall] at hop
      obtain ⟨rfl, rfl, -, -⟩ := Operation.decide.inj hop
      refine ⟨_, rfl, congrArg some hactor, row', hrow, ?_⟩
      rw [hbecomes.createdByUserId, ← hactor]
      exact entitled
    · rintro ⟨route, key', r, hledger, hfound, -⟩
      rw [hop] at hledger
      cases key with
      | none => cases hledger
      | some k =>
        obtain ⟨rfl, rfl⟩ : v.decision.route id = route ∧ k = key' := by
          simpa [Operation.ledgerKey] using hledger
        have hrow? : v.ledgerRow? (call i).workspaceId id row = some ⟨(call i).workspaceId,
            v.decision.route id, k, Idempotency.fingerprint app.sha256 payload, 200,
            (v.out row).modelDump, v.env.keyCreatedAt⟩ := by
          simp [Verdict.ledgerRow?, hkey]
        have hnone := hheld.key?_eq_none rfl (hanchored.ledger _
          (Verdict.mem_writes_ledgerRow hrow?))
        rw [hnone] at hfound
        cases hfound
  | @replayed route key payload r out hkey hbody hfound hfp hout =>
    rw [replay_earned_iff hσ hby hkey hfound hout]
    constructor
    · rintro hdone ⟨route', key', r', hkey', hfound', hne⟩
      rw [hkey] at hkey'
      obtain ⟨rfl, rfl⟩ := Prod.mk.inj (Option.some.inj hkey')
      rw [hfound] at hfound'
      obtain rfl := Option.some.inj hfound'
      exact hne hdone
    · intro hno
      by_contra hne
      exact hno ⟨route, key, r, hkey, hfound, hne⟩

end Runs

/-! ## A replay to somebody else -/

/-- Bob, the only reviewer, approves under a key; Carol sends the same key and body. -/
def Sample.replayCalls : Fin 3 → Call
  | 0 => launch "1" "key-1"
  | 1 => approve "2" bobToken (some "key-2")
  | 2 => approve "3" carolToken (some "key-2")

/-- Bob's own approval is earned. -/
theorem success_earned_iff_sample : ∃ ls w w' a,
    Run approvalDb (ApiWorld.start Sample.app Sample.replayCalls Store.empty) ls w ∧
      Step approvalDb w (1, .answer) w' ∧ (w'.session 1).answer? = some a ∧ a.statusCode = 200 ∧
      Earned Sample.app (Sample.replayCalls 1) Sample.bob w.store a := by
  obtain ⟨a, ha, hstatus⟩ : ∃ a, (request Sample.app (Sample.replayCalls 1)).answer? approvalDb
      (serveAll approvalDb ([0].map (fun j => request Sample.app (Sample.replayCalls j)))
        Store.empty).1 = some a ∧ a.statusCode = 200 :=
    Option.map_eq_some_iff.mp (by decide +kernel)
  obtain ⟨ls, w, w', h, hs, ha', hstore⟩ := Sample.run_to_answer Sample.replayCalls [0] 1
    (by decide) (by decide) ha
  refine ⟨ls, w, w', a, h, hs, ha', hstatus, ?_⟩
  obtain ⟨P, hP, hiff⟩ := success_earned_iff h hs ha'
  obtain rfl : Sample.bob = P := Except.ok.inj hP
  refine hiff.mpr ?_
  rintro ⟨route, key, r, hledger, hfound, -⟩
  obtain ⟨rfl, rfl⟩ := Prod.mk.inj (Option.some.inj hledger)
  have hnone : (w.store.key? "ws_1" (Decision.approve.route Sample.launchId) "key-2").isSome =
      false := by
    rw [hstore]
    decide +kernel
  rw [show w.store.key? "ws_1" (Decision.approve.route Sample.launchId) "key-2" = some r from
    hfound] at hnone
  cases hnone

/-- Carol, who is no reviewer, is handed Bob's approval with status 200. -/
theorem replay_not_earned : ∃ ls w w' a,
    Run approvalDb (ApiWorld.start Sample.app Sample.replayCalls Store.empty) ls w ∧
      Step approvalDb w (2, .answer) w' ∧ (w'.session 2).answer? = some a ∧ a.statusCode = 200 ∧
      ¬ Earned Sample.app (Sample.replayCalls 2) Sample.carol w.store a := by
  obtain ⟨a, ha, hstatus⟩ : ∃ a, (request Sample.app (Sample.replayCalls 2)).answer? approvalDb
      (serveAll approvalDb ([0, 1].map (fun j => request Sample.app (Sample.replayCalls j)))
        Store.empty).1 = some a ∧ (a.statusCode, match a.body with
          | .request out => out.decidedByUserId
          | .list _ => none) = (200, some "bob") :=
    Option.map_eq_some_iff.mp (by decide +kernel)
  obtain ⟨hstatus, hdecided⟩ := Prod.mk.inj hstatus
  obtain ⟨ls, w, w', h, hs, ha', -⟩ := Sample.run_to_answer Sample.replayCalls [0, 1] 2
    (by decide) (by decide) ha
  refine ⟨ls, w, w', a, h, hs, ha', hstatus, fun he => ?_⟩
  obtain ⟨out, hbody, hcarol, -⟩ := he.decided _ _ _ _ rfl
  rw [hbody] at hdecided
  exact absurd (hcarol.symm.trans hdecided) (by decide)

end ContentApproval
