import ContentApproval.Properties.AtMostOnce

/-!
# What is committed when a client gets its answer

The answer is sent before the session flushes its last inserts and commits. So the effects
that an answer reports are in the store at that moment exactly if an earlier call has
committed them: if the answer is a replay (`acknowledged_committed_iff`). Otherwise a
reader can still miss them, and the commit can still fail.
-/

namespace ContentApproval

open Transactions

/-! ## Recorded effects -/

/-- The store has an audit entry and an event of this kind for the request. -/
structure InTrail (σ : Store) (ws id : String) (action : AuditAction)
    (eventType : OutboxEventType) : Prop where
  entry : ∃ e ∈ σ.auditLogEntries, e.workspaceId = ws ∧ e.approvalRequestId = id ∧ e.action = action
  event : ∃ o ∈ σ.outboxEvents, o.workspaceId = ws ∧ o.approvalRequestId = id ∧
    o.eventType = eventType.value

/-- The effects that the answer reports are in the store: the request with its status, the
audit entry, the event and the ledger row. -/
structure Recorded (call : Call) (a : Answer) (σ : Store) : Prop where
  created : ∀ key body, call.operation = .create key body → ∃ out k, a.body = .request out ∧
    key = some k ∧ (σ.request? call.workspaceId out.id).isSome ∧
      InTrail σ call.workspaceId out.id .created .approvalRequestCreated ∧
        (σ.key? call.workspaceId "create" k).isSome
  decided : ∀ d id key body, call.operation = .decide d id key body →
    (∃ row, σ.request? call.workspaceId id = some row ∧ row.status = d.newStatus) ∧
      InTrail σ call.workspaceId id d.auditAction d.eventType ∧
        ∀ k, key = some k → (σ.key? call.workspaceId (d.route id) k).isSome

/-- The ledger has a row for the call. -/
def Replays (call : Call) (σ : Store) : Prop :=
  ∃ route key, call.operation.ledgerKey = some (route, key) ∧
    (σ.key? call.workspaceId route key).isSome

theorem Recorded.of_read {call : Call} {a : Answer} {σ : Store} (h : call.operation.IsRead) :
    Recorded call a σ := by
  constructor
  · intro key body hop
    rw [hop] at h
    exact h.elim
  · intro d id key body hop
    rw [hop] at h
    exact h.elim

/-- What a ledger row reports is in the store. -/
theorem Recorded.of_key {call : Call} {σ : Store} (hσ : σ.Registered) {route key : String}
    {r : IdempotencyKey} {out : ApprovalRequestOut} {status : Nat}
    (hkey : call.operation.ledgerKey = some (route, key))
    (hfound : σ.key? call.workspaceId route key = some r)
    (hout : ApprovalRequestOut.modelValidate r.responseBody = some out) :
    Recorded call ⟨status, .request out⟩ σ := by
  obtain ⟨cases, hrep⟩ := hσ
  obtain ⟨hmem, hws, hroute, -⟩ := Store.key?_some hfound
  rcases Operation.ledgerKey_eq_some hkey with ⟨body, hop, rfl⟩ | ⟨d, id, body, hop, rfl⟩
  · obtain ⟨k, hk, rfl⟩ := hrep.created_of_route hmem hroute
    obtain rfl : k.creation.out = out :=
      Option.some.inj ((ApprovalRequestOut.modelValidate_modelDump _).symm.trans hout)
    refine ⟨fun key' body' hop' => ?_, fun _ _ _ _ hop' => (by rw [hop] at hop'; cases hop')⟩
    rw [hop] at hop'
    obtain ⟨rfl, -⟩ := Operation.create.inj hop'
    refine ⟨k.creation.out, key, rfl, rfl, ?_, ⟨?_, ?_⟩, Option.isSome_iff_exists.mpr ⟨_, hfound⟩⟩
    · exact Option.isSome_iff_exists.mpr
        ⟨k.row, hrep.request?_eq_some.mpr ⟨k, hk, hws, rfl, rfl⟩⟩
    · exact ⟨k.creation.auditEntry, hrep.auditEntries.mem_iff.mpr
        (List.mem_flatMap.mpr ⟨k, hk, List.mem_cons_self⟩), hws, rfl, rfl⟩
    · exact ⟨k.creation.event, hrep.events.mem_iff.mpr
        (List.mem_flatMap.mpr ⟨k, hk, List.mem_cons_self⟩), hws, rfl, rfl⟩
  · obtain ⟨k, hk, v, hv, rfl, rfl, hrow⟩ := hrep.decided_of_route hmem hroute
    obtain ⟨key', fp, -, rfl⟩ := Verdict.ledgerRow?_some hrow
    refine ⟨fun _ _ hop' => (by rw [hop] at hop'; cases hop'), fun d id key'' body' hop' => ?_⟩
    rw [hop] at hop'
    obtain ⟨rfl, rfl, rfl, -⟩ := Operation.decide.inj hop'
    refine ⟨⟨k.row, hrep.request?_eq_some.mpr ⟨k, hk, hws, rfl, rfl⟩, ?_⟩, ⟨?_, ?_⟩, ?_⟩
    · rw [Case.row_settled hv]
      rfl
    · refine ⟨v.auditEntry k.workspaceId k.requestId, hrep.auditEntries.mem_iff.mpr
        (List.mem_flatMap.mpr ⟨k, hk, ?_⟩), hws, rfl, rfl⟩
      simp [Case.auditEntries, hv]
    · refine ⟨v.event k.workspaceId k.requestId, hrep.events.mem_iff.mpr
        (List.mem_flatMap.mpr ⟨k, hk, ?_⟩), hws, rfl, rfl⟩
      simp [Case.events, hv]
    · rintro k' hk'
      obtain rfl := Option.some.inj hk'
      exact Option.isSome_iff_exists.mpr ⟨_, hfound⟩

/-! ## At the answer and after it -/

section Runs

variable {ι : Type} [DecidableEq ι] {app : App} {call : ι → Call} {w w' : ApiWorld ι}

/-- **Acknowledged is committed exactly for replays and reads.** In every run of any calls:
the effects that an answer reports are in the store when it is sent, and stay there
whatever happens, if and only if the call only reads or the ledger has had its row
before. -/
theorem acknowledged_committed_iff {ls : List (ι × Transactions.Action)}
    (h : Run approvalDb (ApiWorld.start app call Store.empty) ls w) {i : ι}
    (hs : Step approvalDb w (i, .answer) w') {a : Answer} (ha : (w'.session i).answer? = some a) :
    (∀ ls' w'', Run approvalDb w' ls' w'' → Recorded (call i) a w''.store) ↔
      (call i).operation.IsRead ∨ Replays (call i) w.store := by
  have hw' := (ApiWorld.sound ⟨[], represents_empty⟩ h).step hs
  obtain ⟨exit, δ, hi⟩ := hs.answered ha
  obtain ⟨hheld, P, writes, -, heff, hanchored⟩ := World.Sound.answered hw' hi
  have hstore := hs.store_eq (by simp)
  rw [← hstore]
  constructor
  · intro hrecorded
    have hnow := hrecorded [] w' .nil
    cases heff with
    | read a hop => exact Or.inl hop
    | replayed hkey hbody hfound =>
      exact Or.inr ⟨_, _, hkey, Option.isSome_iff_exists.mpr ⟨_, hfound⟩⟩
    | created c hop henv hws =>
      -- the row is among the uncommitted inserts, so it is not in the store
      obtain ⟨out, k, hout, -, hrow, -⟩ := hnow.created _ _ hop
      obtain rfl := AnswerBody.request.inj hout
      obtain ⟨row, hrow⟩ := Option.isSome_iff_exists.mp hrow
      obtain ⟨hmem, -, hid⟩ := Store.request?_some hrow
      have hfresh := hheld.fresh (.approvalRequest c.row) (hanchored.first _ rfl)
      simp only [NewRow.primaryKey, Store.has, List.any_eq_false, beq_iff_eq] at hfresh
      exact absurd hid (hfresh row hmem)
    | @decided v id key body payload row row' hop henv hactor hkey hbody hid hrow =>
      -- the update is uncommitted, so the row is still pending in the store
      obtain ⟨⟨row'', hrow'', hstatus⟩, -⟩ := hnow.decided _ _ _ _ hop
      have hp := Store.Registered.pending_of_held hw'.inv hheld (hanchored.first _ rfl) hrow''
      rw [hp] at hstatus
      exact absurd hstatus.symm (Case.newStatus_ne_pending v.decision)
  · rintro (hread | ⟨route, key, hkey, hfound⟩) ls' w'' h'
    · exact .of_read hread
    · obtain ⟨r, hfound⟩ := Option.isSome_iff_exists.mp hfound
      have hlater := (Run.evolves hw' h').key hfound
      have hw'' := hw'.run h'
      rcases heff.recorded ⟨rfl, hkey⟩ with ⟨-, r', hfound', hrecords⟩ | ⟨r', hmem, -⟩
      · rw [hfound] at hfound'
        obtain rfl := Option.some.inj hfound'
        obtain ⟨out, hbody, hout⟩ := hrecords.body
        obtain ⟨status, body⟩ := a
        obtain rfl : body = .request out := hbody
        exact .of_key hw''.inv hkey hlater hout
      · -- a call that enters a row itself has found none
        obtain ⟨hws, hkey'⟩ := heff.keyedBy hmem
        have hnone := hheld.key?_eq_none rfl (hanchored.ledger r' hmem)
        rw [hkey'] at hkey
        obtain ⟨rfl, rfl⟩ := Prod.mk.inj (Option.some.inj hkey)
        rw [← hws, hfound] at hnone
        cases hnone

end Runs

/-! ## An acknowledged create that is lost -/

/-- Alice's create, and then a GET of the request that it returned. -/
def Sample.lostCalls : Fin 2 → Call
  | 0 => launch "1" "key-1"
  | 1 => ⟨env "2" 2, some aliceToken, "ws_1", .get launchId⟩

/-- Alice holds a 201 for a create that is not in the store. Its commit fails, and her GET of
the request that the 201 returned is answered with 404. -/
theorem acknowledged_then_missing : ∃ ls w w' a ls' w'' e,
    Run approvalDb (ApiWorld.start Sample.app Sample.lostCalls Store.empty) ls w ∧
      Step approvalDb w (0, .answer) w' ∧ (w'.session 0).answer? = some a ∧ a.statusCode = 201 ∧
      ¬ Recorded (Sample.lostCalls 0) a w'.store ∧
      w'.session 1 = .running (request Sample.app (Sample.lostCalls 1)) [] ∧
      Run approvalDb w' ls' w'' ∧ w''.session 0 = .lost a ∧ w''.session 1 = .failed e ∧
      e.statusCode = 404 := by
  obtain ⟨a, ha, hstatus⟩ : ∃ a, (request Sample.app (Sample.lostCalls 0)).answer? approvalDb
      Store.empty = some a ∧ a.statusCode = 201 :=
    Option.map_eq_some_iff.mp (by decide +kernel)
  obtain ⟨ls, w, w', h, hs, hstore, hanswer, hothers⟩ := Run.to_answer
    (w := ApiWorld.start Sample.app Sample.lostCalls Store.empty) (i := 0) (fun _ _ => rfl) rfl ha
  have hreader : w'.session 1 = .running (request Sample.app (Sample.lostCalls 1)) [] :=
    hothers 1 (by decide)
  have hempty : w'.store = Store.empty := (hs.store_eq (by simp)).trans hstore
  obtain ⟨exit, δ, hi⟩ := hs.answered hanswer
  -- the commit fails, and then the GET runs
  have hlose : Step approvalDb w' (0, .lose) (w'.set 0 (.lost a)) := .lose hi
  have hrunning : (w'.set 0 (.lost a)).session 1 =
      .running (request Sample.app (Sample.lostCalls 1)) [] := by
    rw [World.set_session_ne _ (by decide), hreader]
  obtain ⟨ls', -, hget⟩ := Run.serve approvalDb (w := w'.set 0 (.lost a)) (i := 1)
    (fun j hj => by
      obtain rfl : j = 0 := by omega
      rw [World.held, World.set_session_self]
      rfl) hrunning
  obtain ⟨e, hfailed, hcode⟩ := Sample.failed_of_status (n := 404)
    (s := ((request Sample.app (Sample.lostCalls 1)).serve approvalDb Store.empty).2.1)
    (by decide +kernel)
  refine ⟨ls, w, w', a, _, _, e, h, hs, hanswer, hstatus, ?_, hreader,
    (Run.single hlose).trans hget, ?_, ?_, hcode⟩
  · intro hrecorded
    obtain ⟨out, k, -, -, hrow, -⟩ := hrecorded.created _ _ rfl
    rw [hempty] at hrow
    cases hrow
  · simp
  · simp only [Function.update_self, World.set_store, hempty, hfailed]

/-- The answer to the retry of a committed create reports what is committed. -/
theorem acknowledged_committed_iff_sample : ∃ ls w w' a,
    Run approvalDb (ApiWorld.start Sample.app Sample.retryCalls Store.empty) ls w ∧
      Step approvalDb w (1, .answer) w' ∧ (w'.session 1).answer? = some a ∧ a.statusCode = 201 ∧
      ∀ ls' w'', Run approvalDb w' ls' w'' → Recorded (Sample.retryCalls 1) a w''.store := by
  obtain ⟨a, ha, hstatus⟩ : ∃ a, (request Sample.app (Sample.retryCalls 1)).answer? approvalDb
      (serveAll approvalDb ([0].map (fun j => request Sample.app (Sample.retryCalls j)))
        Store.empty).1 = some a ∧ a.statusCode = 201 :=
    Option.map_eq_some_iff.mp (by decide +kernel)
  obtain ⟨ls, w, w', h, hs, ha', hstore⟩ := Sample.run_to_answer Sample.retryCalls [0] 1
    (by decide) (by decide) ha
  refine ⟨ls, w, w', a, h, hs, ha', hstatus, (acknowledged_committed_iff h hs ha').mpr ?_⟩
  refine Or.inr ⟨"create", "key-1", rfl, ?_⟩
  rw [hstore]
  decide +kernel

end ContentApproval
