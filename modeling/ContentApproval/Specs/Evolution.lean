import ContentApproval.Registry.Refinement

/-!
# What a transaction can rely on

While a transaction runs, the others commit. A request that it has seen stays, with its
reviewers and all columns that a decision does not set, a request that it has seen
decided stays as it is, and so does a row that it has itself updated. The facts are
stated for every discipline that allows no more than the service's own commits
(`Approves`).
-/

namespace ContentApproval

open Transactions

/-- A row after some time. -/
def ApprovalRequestRow.Becomes (r r' : ApprovalRequestRow) : Prop :=
  r' = r ∨ (r.status = .pending ∧ ∃ values, values.status ≠ .pending ∧ r' = r.decided values)

namespace ApprovalRequestRow.Becomes

variable {r r' r'' : ApprovalRequestRow}

theorem refl (r : ApprovalRequestRow) : r.Becomes r := Or.inl rfl

theorem eq_of_final (h : r.Becomes r') (hr : r.status ≠ .pending) : r' = r := by
  rcases h with h | ⟨hp, -⟩
  · exact h
  · exact absurd hp hr

theorem trans (h : r.Becomes r') (h' : r'.Becomes r'') : r.Becomes r'' := by
  rcases h with rfl | ⟨hp, values, hv, rfl⟩
  · exact h'
  · exact Or.inr ⟨hp, values, hv, h'.eq_of_final hv⟩

theorem createdByUserId (h : r.Becomes r') : r'.createdByUserId = r.createdByUserId := by
  rcases h with rfl | ⟨-, values, -, rfl⟩ <;> rfl

theorem createdAt (h : r.Becomes r') : r'.createdAt = r.createdAt := by
  rcases h with rfl | ⟨-, values, -, rfl⟩ <;> rfl

end ApprovalRequestRow.Becomes

theorem Case.Becomes.row {k k' : Case} (h : k.Becomes k') : k.row.Becomes k'.row := by
  unfold Case.row
  rw [h.creation]
  cases hv : k.verdict with
  | some v =>
    rw [h.verdict v hv]
    exact .refl _
  | none =>
    cases k'.verdict with
    | none => exact .refl _
    | some v => exact Or.inr ⟨rfl, v.values, Case.newStatus_ne_pending v.decision, rfl⟩

/-- The ids of the reviewers of a request. -/
def Store.reviewerIds (σ : Store) (ws id : String) : List String :=
  (σ.reviewersOf ws id).map ApprovalRequestReviewer.reviewerUserId

/-- The store after some time. -/
structure Store.Evolves (σ σ' : Store) : Prop where
  /-- The old rows in their places, then newer ones. -/
  rows : ∃ old new, σ'.approvalRequests = old ++ new ∧
    List.Forall₂ ApprovalRequestRow.Becomes σ.approvalRequests old
  request : ∀ {ws id r}, σ.request? ws id = some r →
    ∃ r', σ'.request? ws id = some r' ∧ r.Becomes r'
  reviewers : ∀ {ws id r}, σ.request? ws id = some r →
    σ'.reviewersOf ws id = σ.reviewersOf ws id
  key : ∀ {ws route key r}, σ.key? ws route key = some r → σ'.key? ws route key = some r

theorem Store.Evolves.refl (σ : Store) : σ.Evolves σ where
  rows := ⟨σ.approvalRequests, [], by simp, List.forall₂_same.mpr fun r _ => .refl r⟩
  request h := ⟨_, h, .refl _⟩
  reviewers _ := rfl
  key h := h

theorem ApprovalRequestRow.Becomes.forall₂_trans {a b c : List ApprovalRequestRow}
    (h : List.Forall₂ Becomes a b) (h' : List.Forall₂ Becomes b c) : List.Forall₂ Becomes a c := by
  induction h generalizing c with
  | nil => exact h'
  | cons hab _ ih =>
    cases h' with
    | cons hbc hrest => exact .cons (hab.trans hbc) (ih hrest)

theorem Store.Evolves.trans {σ₁ σ₂ σ₃ : Store} (h : σ₁.Evolves σ₂) (h' : σ₂.Evolves σ₃) :
    σ₁.Evolves σ₃ where
  rows := by
    obtain ⟨old, new, hrows, hold⟩ := h.rows
    obtain ⟨old', new', hrows', hold'⟩ := h'.rows
    rw [hrows] at hold'
    refine ⟨old'.take old.length, old'.drop old.length ++ new',
      by rw [hrows', ← List.append_assoc, List.take_append_drop], ?_⟩
    exact ApprovalRequestRow.Becomes.forall₂_trans hold
      (List.forall₂_take_append _ _ _ hold'.flip).flip
  request hr := by
    obtain ⟨r', hr', hb⟩ := h.request hr
    obtain ⟨r'', hr'', hb'⟩ := h'.request hr'
    exact ⟨r'', hr'', hb.trans hb'⟩
  reviewers hr := by
    obtain ⟨r', hr', -⟩ := h.request hr
    rw [h'.reviewers hr', h.reviewers hr]
  key hk := h'.key (h.key hk)

theorem Commits.key?_mono {σ : Store} {δ : List Write} (h : Commits σ δ) {ws route key : String}
    {r : IdempotencyKey} (hr : σ.key? ws route key = some r) :
    (approvalDb.view σ δ).key? ws route key = some r := by
  have happ : ∀ new : List IdempotencyKey, (σ.idempotencyKeys ++ new).find?
      (fun r => r.workspaceId == ws && r.route == route && r.idempotencyKey == key) = some r := by
    intro new
    rw [Store.key?] at hr
    rw [List.find?_append, hr, Option.some_or]
  cases h with
  | quiet => exact hr
  | creation c =>
    rw [c.view_writes]
    exact happ _
  | @verdict ws' id' row v hrow entitled shown =>
    rw [v.view_writes]
    exact happ _

/-- A commit of the service, as the other transactions see it. -/
theorem Store.Registered.evolves {σ : Store} {δ : List Write} (h : σ.Registered)
    (hc : Commits σ δ) (hheld : Held δ σ) : σ.Evolves (approvalDb.view σ δ) := by
  obtain ⟨cases, hrep⟩ := h
  obtain ⟨cases', hstep, hrep'⟩ := hrep.commit hc hheld
  have hgrows := hstep.grows
  refine ⟨?_, ?_, ?_, fun hk => hc.key?_mono hk⟩
  · obtain ⟨old, new, rfl, hold⟩ := hgrows
    refine ⟨old.map Case.row, new.map Case.row, by simp [hrep'.requests], ?_⟩
    rw [hrep.requests, List.forall₂_map_left_iff, List.forall₂_map_right_iff]
    exact hold.imp fun _ _ hb => hb.row
  · intro ws id r hr
    obtain ⟨k, hk, rfl, rfl, rfl⟩ := hrep.request?_eq_some.mp hr
    obtain ⟨k', hk', hb⟩ := hgrows.mem hk
    exact ⟨k'.row, hrep'.request?_eq_some.mpr ⟨k', hk', by simp [Case.workspaceId, hb.creation],
      by simp [Case.requestId, hb.creation], rfl⟩, hb.row⟩
  · intro ws id r hr
    obtain ⟨k, hk, rfl, rfl, rfl⟩ := hrep.request?_eq_some.mp hr
    obtain ⟨k', hk', hb⟩ := hgrows.mem hk
    have hws : k'.workspaceId = k.workspaceId := by simp [Case.workspaceId, hb.creation]
    have hid : k'.requestId = k.requestId := by simp [Case.requestId, hb.creation]
    rw [hrep.reviewersOf_eq hk, ← hws, ← hid, hrep'.reviewersOf_eq hk', hb.creation]

/-- A commit that does not update a row leaves it as it is. -/
theorem Commits.request?_eq {σ : Store} {δ : List Write} (h : Commits σ δ) {ws id : String}
    {r : ApprovalRequestRow} (hr : σ.request? ws id = some r)
    (hδ : ∀ values, Write.update ws id values ∉ δ) :
    (approvalDb.view σ δ).request? ws id = some r := by
  cases h with
  | quiet => exact hr
  | creation c =>
    rw [c.view_writes]
    simp only [Store.request?] at hr ⊢
    rw [List.find?_append, hr, Option.some_or]
  | @verdict ws' id' row v hrow entitled shown =>
    rw [v.view_writes]
    change (σ.update ws' id' v.values).request? ws id = some r
    rw [Store.request?_update, hr, Option.map_some, if_neg]
    rintro ⟨rfl, rfl⟩
    exact hδ v.values List.mem_cons_self

namespace Store.Registered

variable {σ : Store}

theorem request?_of_mem (h : σ.Registered) {r : ApprovalRequestRow}
    (hr : r ∈ σ.approvalRequests) : σ.request? r.workspaceId r.id = some r := by
  obtain ⟨cases, hrep⟩ := h
  rw [hrep.requests] at hr
  obtain ⟨k, hk, rfl⟩ := List.mem_map.mp hr
  exact hrep.request?_eq_some.mpr ⟨k, hk, by simp, by simp, rfl⟩

/-- The row that an open transaction has updated is pending in the committed store. -/
theorem pending_of_held (h : σ.Registered) {δ : List Write} (hheld : Held δ σ) {ws id : String}
    {values : DecisionValues} (hu : Write.update ws id values ∈ δ) {r : ApprovalRequestRow}
    (hr : σ.request? ws id = some r) : r.status = .pending := by
  rcases hheld.pending ws id values hu with ⟨r', hr', rfl, rfl, hp⟩ | ⟨r', hr', -, hid⟩
  · rw [h.request?_of_mem hr'] at hr
    exact Option.some.inj hr ▸ hp
  · have hfresh := hheld.fresh _ hr'
    obtain ⟨hmem, -, hid'⟩ := Store.request?_some hr
    simp only [NewRow.primaryKey, Store.has, List.any_eq_false, beq_iff_eq] at hfresh
    exact absurd (hid'.trans hid.symm) (hfresh r hmem)

/-- At most one row is pending under a workspace and an id. -/
theorem pendingCount_eq (h : σ.Registered) {ws id : String} {r : ApprovalRequestRow}
    (hr : σ.request? ws id = some r) :
    σ.pendingCount ws id = if r.status = .pending then 1 else 0 := by
  obtain ⟨cases, hrep⟩ := h
  obtain ⟨k, hk, rfl, rfl, rfl⟩ := hrep.request?_eq_some.mp hr
  obtain ⟨before, after, rfl⟩ := List.append_of_mem hk
  have hids := hrep.ids
  simp only [List.map_append, List.map_cons, List.nodup_append, List.nodup_cons,
    List.mem_cons] at hids
  obtain ⟨-, ⟨hafter, -⟩, hdisj⟩ := hids
  have hzero : ∀ l : Registry, k.requestId ∉ l.map Case.requestId →
      (l.map Case.row).countP (fun r => r.workspaceId == k.workspaceId && r.id == k.requestId &&
        r.status == .pending) = 0 := by
    intro l hl
    rw [List.countP_eq_zero]
    intro r hr
    obtain ⟨k', hk', rfl⟩ := List.mem_map.mp hr
    have hne : k'.requestId ≠ k.requestId := fun he => hl (he ▸ List.mem_map_of_mem hk')
    simp [hne]
  rw [Store.pendingCount, hrep.requests, List.map_append, List.map_cons, List.countP_append,
    List.countP_cons, hzero before (fun hm => hdisj _ hm _ (Or.inl rfl) rfl), hzero after hafter]
  simp

end Store.Registered

/-! ## Surroundings -/

/-- A discipline that allows no more than the service's own commits. -/
structure Approves (D : Discipline approvalDb) : Prop where
  registered : ∀ {σ}, D.Inv σ → σ.Registered
  commits : ∀ {σ δ}, D.Commits σ δ → Commits σ δ

theorem approves_approvalDiscipline : Approves approvalDiscipline := ⟨id, id⟩

namespace Approves

variable {D : Discipline approvalDb} (hD : Approves D) {δ : List Write} {σ σ' : Store}

include hD

theorem envStep (h : D.EnvStep δ σ σ') : σ.Evolves σ' := by
  obtain ⟨hinv, -, δ', hc, hheld, -, rfl⟩ := h
  exact (hD.registered hinv).evolves (hD.commits hc) hheld

theorem env (h : D.Env δ σ σ') : σ.Evolves σ' :=
  h.keeps (.refl σ) (fun hs he => he.trans (hD.envStep hs))

theorem own_envStep (h : D.EnvStep δ σ σ') {ws id : String} {values : DecisionValues}
    (hu : Write.update ws id values ∈ δ) {r : ApprovalRequestRow}
    (hr : σ.request? ws id = some r) : σ'.request? ws id = some r := by
  obtain ⟨-, -, δ', hc, -, hap, rfl⟩ := h
  exact (hD.commits hc).request?_eq hr (fun _ hv => hap _ hu _ hv ⟨rfl, rfl⟩)

/-- The row that a transaction has updated stays as it is until the transaction ends. -/
theorem own_env (h : D.Env δ σ σ') {ws id : String} {values : DecisionValues}
    (hu : Write.update ws id values ∈ δ) {r : ApprovalRequestRow}
    (hr : σ.request? ws id = some r) : σ'.request? ws id = some r :=
  h.keeps hr (fun hs hr' => hD.own_envStep hs hu hr')

end Approves

end ContentApproval
