import ContentApproval.Specs.Evolution

/-!
# The ledger of a registry

Every row of `idempotency_keys` is that of a creation or of a verdict, and its route says
of which: `create`, or the decision and the request id (`Decision.route_inj`).
-/

namespace ContentApproval

theorem Decision.routeName_inj {d d' : Decision} {s s' : List Char}
    (h : d.routeName.toList ++ ':' :: s = d'.routeName.toList ++ ':' :: s') : d = d' ∧ s = s' := by
  cases d <;> cases d' <;> first
    | (simp only [Decision.routeName] at h; exact ⟨rfl, by simpa using h⟩)
    | (simp [Decision.routeName] at h)

theorem Decision.route_toList (d : Decision) (id : String) :
    (d.route id).toList = d.routeName.toList ++ ':' :: id.toList := by
  simp [Decision.route]

/-- The route of a decision determines the decision and the request. -/
theorem Decision.route_inj {d d' : Decision} {id id' : String} (h : d.route id = d'.route id') :
    d = d' ∧ id = id' := by
  have hl := congrArg String.toList h
  rw [route_toList, route_toList] at hl
  obtain ⟨hd, hid⟩ := Decision.routeName_inj hl
  exact ⟨hd, String.toList_inj.mp hid⟩

theorem Decision.route_ne_create (d : Decision) (id : String) : d.route id ≠ "create" := by
  intro h
  have hl := congrArg String.toList h
  rw [route_toList] at hl
  cases d <;> simp [Decision.routeName] at hl

/-- A transaction that enters a row in the ledger has found none with its key. -/
theorem Held.key?_eq_none {σ : Store} {δ : List Write} (h : Held δ σ) {r : IdempotencyKey}
    {ws route key : String} (hkey : r.primaryKey = (ws, route, key))
    (hr : Write.insert (.idempotencyKey r) ∈ δ) : σ.key? ws route key = none := by
  obtain ⟨rfl, rfl, rfl⟩ : r.workspaceId = ws ∧ r.route = route ∧ r.idempotencyKey = key := by
    simpa [IdempotencyKey.primaryKey] using hkey
  have hfresh := h.fresh _ hr
  rw [NewRow.primaryKey, ← Store.key?_isSome] at hfresh
  simpa using hfresh

/-- Where a row of the ledger comes from. -/
theorem Represents.ledgerRow {cases : Registry} {σ : Store} (h : Represents cases σ)
    {r : IdempotencyKey} (hr : r ∈ σ.idempotencyKeys) :
    ∃ k ∈ cases, r = k.creation.ledgerRow ∨ ∃ v, k.verdict = some v ∧
      v.ledgerRow? k.workspaceId k.requestId k.creation.row = some r := by
  obtain ⟨k, hk, hr⟩ := List.mem_flatMap.mp (h.ledger.mem_iff.mp hr)
  refine ⟨k, hk, ?_⟩
  rcases List.mem_cons.mp hr with hr | hr
  · exact Or.inl hr
  · obtain ⟨v, hv, hr⟩ := List.mem_flatMap.mp hr
    exact Or.inr ⟨v, by simpa using hv, by simpa using hr⟩

theorem Verdict.ledgerRow?_some {v : Verdict} {ws id : String} {row : ApprovalRequestRow}
    {r : IdempotencyKey} (h : v.ledgerRow? ws id row = some r) :
    ∃ key fp, v.key = some (key, fp) ∧ r = ⟨ws, v.decision.route id, key, fp, 200,
      (v.out row).modelDump, v.env.keyCreatedAt⟩ := by
  obtain ⟨⟨key, fp⟩, hkey, rfl⟩ := Option.map_eq_some_iff.mp h
  exact ⟨key, fp, hkey, rfl⟩

theorem Creation.mem_writes_ledgerRow (c : Creation) :
    Write.insert (.idempotencyKey c.ledgerRow) ∈ c.writes :=
  List.mem_map_of_mem (by simp [Creation.newRows])

theorem Verdict.mem_writes_ledgerRow {v : Verdict} {ws id : String} {row : ApprovalRequestRow}
    {r : IdempotencyKey} (h : v.ledgerRow? ws id row = some r) :
    Write.insert (.idempotencyKey r) ∈ v.writes ws id row :=
  List.mem_cons_of_mem _ (List.mem_map_of_mem (by simp [Verdict.newRows, h]))

/-- A stored answer can be replayed. -/
theorem Store.Registered.replayable {σ : Store} (hσ : σ.Registered) {ws route key : String}
    {r : IdempotencyKey} (h : σ.key? ws route key = some r) :
    (∃ out, ApprovalRequestOut.modelValidate r.responseBody = some out) ∧
      r.responseStatus ∈ [200, 201] := by
  obtain ⟨cases, hrep⟩ := hσ
  obtain ⟨k, -, rfl | ⟨v, -, hv⟩⟩ := hrep.ledgerRow (List.mem_of_find?_eq_some h)
  · exact ⟨⟨_, ApprovalRequestOut.modelValidate_modelDump _⟩, by simp [Creation.ledgerRow]⟩
  · obtain ⟨key', fp, -, rfl⟩ := Verdict.ledgerRow?_some hv
    exact ⟨⟨_, ApprovalRequestOut.modelValidate_modelDump _⟩, by simp⟩

/-- A ledger row with the route of the creates is the row of a creation. -/
theorem Represents.created_of_route {cases : Registry} {σ : Store} (h : Represents cases σ)
    {r : IdempotencyKey} (hr : r ∈ σ.idempotencyKeys) (hroute : r.route = "create") :
    ∃ k ∈ cases, r = k.creation.ledgerRow := by
  obtain ⟨k, hk, hrow | ⟨v, -, hrow⟩⟩ := h.ledgerRow hr
  · exact ⟨k, hk, hrow⟩
  · obtain ⟨key, fp, -, rfl⟩ := Verdict.ledgerRow?_some hrow
    exact absurd hroute (Decision.route_ne_create _ _)

/-- A ledger row with the route of a decision is the row of such a verdict. -/
theorem Represents.decided_of_route {cases : Registry} {σ : Store} (h : Represents cases σ)
    {r : IdempotencyKey} (hr : r ∈ σ.idempotencyKeys) {d : Decision} {id : String}
    (hroute : r.route = d.route id) :
    ∃ k ∈ cases, ∃ v, k.verdict = some v ∧ v.decision = d ∧ k.requestId = id ∧
      v.ledgerRow? k.workspaceId k.requestId k.creation.row = some r := by
  obtain ⟨k, hk, rfl | ⟨v, hv, hrow⟩⟩ := h.ledgerRow hr
  · exact absurd hroute.symm (Decision.route_ne_create d id)
  · obtain ⟨key, fp, -, rfl⟩ := Verdict.ledgerRow?_some hrow
    obtain ⟨hd, hid⟩ := Decision.route_inj hroute
    exact ⟨k, hk, v, hv, hd, hid, hrow⟩

/-- If a decision is in the ledger, the request has its status. -/
theorem Store.Registered.status_of_key {σ : Store} (hσ : σ.Registered) {ws id key : String}
    {d : Decision} {r : IdempotencyKey} (h : σ.key? ws (d.route id) key = some r) :
    ∃ row, σ.request? ws id = some row ∧ row.status = d.newStatus := by
  obtain ⟨cases, hrep⟩ := hσ
  obtain ⟨hmem, hkey⟩ := Store.key?_some h
  obtain ⟨hws, hroute, -⟩ : r.workspaceId = ws ∧ r.route = d.route id ∧ r.idempotencyKey = key := by
    simpa [IdempotencyKey.primaryKey] using hkey
  obtain ⟨k, hk, v, hv, rfl, hid, hrow⟩ := hrep.decided_of_route hmem hroute
  obtain ⟨key', fp, -, rfl⟩ := Verdict.ledgerRow?_some hrow
  refine ⟨k.row, hrep.request?_eq_some.mpr ⟨k, hk, hws, hid, rfl⟩, ?_⟩
  rw [Case.row_settled hv]
  rfl

/-- The ledger has no decision of a pending request. -/
theorem Store.Registered.key?_of_pending {σ : Store} (hσ : σ.Registered) {ws id : String}
    {row : ApprovalRequestRow} (hrow : σ.request? ws id = some row) (hp : row.status = .pending)
    (d : Decision) (key : String) : σ.key? ws (d.route id) key = none := by
  rw [Option.eq_none_iff_forall_ne_some]
  intro r hr
  obtain ⟨row', hrow', hstatus⟩ := hσ.status_of_key hr
  obtain rfl := Option.some.inj (hrow.symm.trans hrow')
  exact Case.newStatus_ne_pending d (hstatus.symm.trans hp)

end ContentApproval
