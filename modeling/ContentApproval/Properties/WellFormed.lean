import ContentApproval.Properties.Finality
import ContentApproval.Specs.Exchanges
import ContentApproval.Specs.Validation

/-!
# Well-formed rows

What the validators, the checks of the service, the conditional `UPDATE` and the defaults of
the columns promise together of a committed row (`ApprovalRequestRow.WellFormed`). No
constraint of the database enforces it; it holds because each row is the row of a case.

The two timestamps of a row come from two calls. `created_at` is read before the row is
inserted, and a call reads the time of its decision after it has selected the row, so a
clock that never goes back orders them (`created_le_updated`).
-/

namespace ContentApproval

open Transactions

/-- What holds of a committed row and the ids of its reviewers. -/
structure ApprovalRequestRow.WellFormed (r : ApprovalRequestRow) (reviewerIds : List String) :
    Prop where
  pending_iff : r.status = .pending ↔ r.decidedByUserId = none ∧ r.decidedAt = none ∧
    r.decisionComment = none ∧ r.decisionReason = none
  approved : r.status = .approved → r.decidedByUserId.isSome = true ∧
    r.decidedAt.isSome = true ∧ r.decisionReason = none
  refused : r.status = .rejected ∨ r.status = .cancelled → r.decidedByUserId.isSome = true ∧
    r.decidedAt.isSome = true ∧ r.decisionComment = none ∧
    ∃ reason, r.decisionReason = some reason ∧ Trimmed reason
  reviewed : r.status = .approved ∨ r.status = .rejected → reviewerIds = [] ∨
    ∃ id ∈ reviewerIds, r.decidedByUserId = some id
  cancelled : r.status = .cancelled → r.decidedByUserId = some r.createdByUserId
  final : r.status.isFinal = true → r.decidedAt = some r.updatedAt
  title : Trimmed r.title
  sourceId : Trimmed r.sourceId
  reviewers_nodup : reviewerIds.Nodup
  reviewers : ∀ id ∈ reviewerIds, Trimmed id

/-! ## The row of a case -/

theorem Creation.row_wellFormed (c : Creation) : c.row.WellFormed c.payload.reviewerUserIds where
  pending_iff := by simp [Creation.row]
  approved h := by cases h
  refused h := by rcases h with h | h <;> cases h
  reviewed h := by rcases h with h | h <;> cases h
  cancelled h := by cases h
  final h := by cases h
  title := c.valid.title
  sourceId := c.valid.sourceId
  reviewers_nodup := c.valid.reviewers_nodup
  reviewers := c.valid.reviewers

theorem Verdict.row_wellFormed (v : Verdict) {c : Creation}
    (entitled : v.decision.Entitled c.actorUserId c.payload.reviewerUserIds v.actorUserId) :
    (c.row.decided v.values).WellFormed c.payload.reviewerUserIds := by
  have haccepted := v.accepted
  have hreviewed : c.payload.reviewerUserIds = [] ∨ v.actorUserId ∈ c.payload.reviewerUserIds →
      c.payload.reviewerUserIds = [] ∨ ∃ id ∈ c.payload.reviewerUserIds,
        (c.row.decided v.values).decidedByUserId = some id :=
    fun h => h.imp_right fun hmem => ⟨_, hmem, rfl⟩
  have hstatus : (c.row.decided v.values).status = v.decision.newStatus := rfl
  refine ⟨iff_of_false ?_ ?_, ?_, ?_, ?_, ?_, fun _ => rfl, c.valid.title, c.valid.sourceId,
    c.valid.reviewers_nodup, c.valid.reviewers⟩
  · rw [hstatus]
    exact Case.newStatus_ne_pending v.decision
  · rintro ⟨h, -⟩
    cases h
  all_goals
    rw [hstatus]
    cases hd : v.decision with
    | approve => ?_
    | reject => ?_
    | cancel => ?_
  all_goals rw [hd] at haccepted entitled
  · exact fun _ => ⟨rfl, rfl, haccepted.1⟩
  · exact fun h => by cases h
  · exact fun h => by cases h
  · exact fun h => by rcases h with h | h <;> cases h
  · obtain ⟨hcomment, reason, fields, hreason, hfields⟩ := haccepted
    exact fun _ => ⟨rfl, rfl, hcomment, reason, hreason,
      DecisionReasonRequest.modelValidate_ok hfields⟩
  · obtain ⟨hcomment, reason, fields, hreason, hfields⟩ := haccepted
    exact fun _ => ⟨rfl, rfl, hcomment, reason, hreason,
      DecisionReasonRequest.modelValidate_ok hfields⟩
  · exact fun _ => hreviewed entitled
  · exact fun _ => hreviewed entitled
  · exact fun h => by rcases h with h | h <;> cases h
  · exact fun h => by cases h
  · exact fun h => by cases h
  · exact fun _ => congrArg some entitled

theorem Case.wellFormed (k : Case) : k.row.WellFormed k.creation.payload.reviewerUserIds := by
  unfold Case.row
  cases hv : k.verdict with
  | none => exact k.creation.row_wellFormed
  | some v => exact v.row_wellFormed (k.entitled v hv)

theorem Store.Registered.wellFormed {σ : Store} (hσ : σ.Registered) {r : ApprovalRequestRow}
    (hr : r ∈ σ.approvalRequests) : r.WellFormed (σ.reviewerIds r.workspaceId r.id) := by
  obtain ⟨cases, hrep⟩ := hσ
  rw [hrep.requests] at hr
  obtain ⟨k, hk, rfl⟩ := List.mem_map.mp hr
  rw [k.row_workspaceId, k.row_id, Store.reviewerIds, hrep.reviewerIds_eq hk]
  exact k.wellFormed

/-! ## Where a timestamp comes from -/

/-- A row was inserted with its `created_at`, and its `updated_at` is that of the insert or of
an update. -/
theorem exists_origin {δ : List Write} {σ : Store} {r : ApprovalRequestRow}
    (h : r ∈ (approvalDb.view σ δ).approvalRequests) :
    ∃ r₀, (r₀ ∈ σ.approvalRequests ∨ Write.insert (.approvalRequest r₀) ∈ δ) ∧
      r₀.workspaceId = r.workspaceId ∧ r₀.id = r.id ∧ r₀.createdAt = r.createdAt ∧
      (r₀ = r ∨ ∃ values, Write.update r.workspaceId r.id values ∈ δ ∧
        r.updatedAt = values.updatedAt) := by
  induction δ generalizing σ with
  | nil => exact ⟨r, Or.inl h, rfl, rfl, rfl, Or.inl rfl⟩
  | cons x δ ih =>
    obtain ⟨r₀, hr₀, hws, hid, hcreated, hupdated⟩ := ih h
    have hlater : r₀ = r ∨ ∃ values, Write.update r.workspaceId r.id values ∈ x :: δ ∧
        r.updatedAt = values.updatedAt :=
      hupdated.imp_right fun ⟨values, hmem, hv⟩ => ⟨values, List.mem_cons_of_mem _ hmem, hv⟩
    rcases hr₀ with hr₀ | hr₀
    · cases x with
      | insert row =>
        cases row with
        | approvalRequest row =>
          rcases List.mem_append.mp hr₀ with hr₀ | hr₀
          · exact ⟨r₀, Or.inl hr₀, hws, hid, hcreated, hlater⟩
          · obtain rfl := List.mem_singleton.mp hr₀
            exact ⟨r₀, Or.inr List.mem_cons_self, hws, hid, hcreated, hlater⟩
        | _ => exact ⟨r₀, Or.inl hr₀, hws, hid, hcreated, hlater⟩
      | update ws id values =>
        obtain ⟨r', hr', hupdate⟩ := List.mem_map.mp hr₀
        split_ifs at hupdate with hkey
        · subst hupdate
          refine ⟨r', Or.inl hr', hws, hid, hcreated, Or.inr ?_⟩
          rcases hupdated with rfl | ⟨values', hmem, hv⟩
          · obtain ⟨rfl, rfl⟩ := hkey
            exact ⟨values, List.mem_cons_self, rfl⟩
          · exact ⟨values', List.mem_cons_of_mem _ hmem, hv⟩
        · subst hupdate
          exact ⟨r', Or.inl hr', hws, hid, hcreated, hlater⟩
    · exact ⟨r₀, Or.inr (List.mem_cons_of_mem _ hr₀), hws, hid, hcreated, hlater⟩

theorem stmt_of_insert {s : Statement} {σ : Store} {row : NewRow}
    (h : Write.insert row ∈ (approvalDb.exec s σ).2) : s = .insert row := by
  cases s with
  | insert row' =>
    simp only [approvalDb, Store.exec] at h
    split_ifs at h
    · obtain rfl : row = row' := by simpa using h
      rfl
    · cases h
  | updatePending ws id values =>
    simp only [approvalDb, Store.exec] at h
    split_ifs at h
    · cases h
    · simp at h
  | _ => cases h

theorem stmt_of_update {s : Statement} {σ : Store} {ws id : String} {values : DecisionValues}
    (h : Write.update ws id values ∈ (approvalDb.exec s σ).2) :
    s = .updatePending ws id values := by
  cases s with
  | insert row =>
    simp only [approvalDb, Store.exec] at h
    split_ifs at h
    · simp at h
    · cases h
  | updatePending ws' id' values' =>
    simp only [approvalDb, Store.exec] at h
    split_ifs at h
    · cases h
    · simp only [List.mem_singleton, Write.update.injEq] at h
      obtain ⟨rfl, rfl, rfl⟩ := h
      rfl
  | _ => cases h

section Runs

variable {ι : Type} [DecidableEq ι] {app : App} {call : ι → Call} {w : ApiWorld ι}
  {ls : List (ι × Transactions.Action)}

/-- Every committed row was inserted by a statement with its `created_at`. If its
`updated_at` is not that of this statement, a committed call has updated it. -/
theorem Run.origin (h : Run approvalDb (ApiWorld.start app call Store.empty) ls w)
    {r : ApprovalRequestRow} (hr : r ∈ w.store.approvalRequests) :
    ∃ i n x v r₀, Took approvalDb (ApiWorld.start app call Store.empty) ls i n x v ∧
      x.stmt = .insert (.approvalRequest r₀) ∧ r₀.createdAt = r.createdAt ∧
      (r₀ = r ∨ ∃ j a δ values, w.session j = .committed a δ ∧
        Write.update r.workspaceId r.id values ∈ δ ∧ r.updatedAt = values.updatedAt) := by
  obtain ⟨commits, hh⟩ := h.history
  rw [hh.store] at hr
  obtain ⟨r₀, hr₀, -, -, hcreated, hupdated⟩ := exists_origin hr
  have hcommitted : ∀ {y : Write}, y ∈ commits.flatMap Prod.snd →
      ∃ j a δ, w.session j = .committed a δ ∧ y ∈ δ := by
    intro y hy
    obtain ⟨⟨j, δ⟩, hmem, hy⟩ := List.mem_flatMap.mp hy
    obtain ⟨a, hj⟩ := (hh.session j δ).mp hmem
    exact ⟨j, a, δ, hj, hy⟩
  rcases hr₀ with hr₀ | hr₀
  · cases hr₀
  · obtain ⟨i, a, δ, hi, hmem⟩ := hcommitted hr₀
    obtain ⟨n, x, v, htook, hx⟩ := h.made (i := i) rfl _ (by rw [hi]; exact hmem)
    refine ⟨i, n, x, v, r₀, htook, stmt_of_insert hx, hcreated, hupdated.imp_right ?_⟩
    rintro ⟨values, hmem, hv⟩
    obtain ⟨j, a, δ, hj, hmem⟩ := hcommitted hmem
    exact ⟨j, a, δ, values, hj, hmem, hv⟩

/-- A call that has committed an update has inserted no request. -/
theorem no_insert_of_update (h : Run approvalDb (ApiWorld.start app call Store.empty) ls w) {i : ι}
    {a : Answer} {δ : List Write} (hi : w.session i = .committed a δ) {ws id : String}
    {values : DecisionValues} (hu : Write.update ws id values ∈ δ) (r : ApprovalRequestRow) :
    Write.insert (.approvalRequest r) ∉ δ := by
  have hdone := (ApiWorld.sound ⟨[], represents_empty⟩ h).holds i
  rw [hi] at hdone
  obtain ⟨P, -, heff⟩ := hdone
  cases heff with
  | read a hop => cases hu
  | created c => simp [Creation.writes] at hu
  | @decided v id' key body payload row row' =>
    cases hl : v.ledgerRow? (call i).workspaceId id' row <;>
      simp [Verdict.writes, Verdict.newRows, hl]
  | replayed => cases hu

/-- Before a call sends the update of a request, it has selected a row that was in the
committed store and had the `created_at` that the row has at the end. -/
theorem Took.selected (h : Run approvalDb (ApiWorld.start app call Store.empty) ls w) {i : ι}
    {a : Answer} {δ : List Write} (hi : w.session i = .committed a δ) {r : ApprovalRequestRow}
    (hr : r ∈ w.store.approvalRequests) {values : DecisionValues}
    (hu : Write.update r.workspaceId r.id values ∈ δ) {n : Nat} {x : Exchange Reply}
    {v : ApiWorld ι} (htook : Took approvalDb (ApiWorld.start app call Store.empty) ls i n x v)
    (hx : x.stmt = .updatePending r.workspaceId r.id values) :
    ∃ m y u r₁, m < n ∧ Took approvalDb (ApiWorld.start app call Store.empty) ls i m y u ∧
      r₁ ∈ u.store.approvalRequests ∧ r₁.createdAt = r.createdAt := by
  obtain ⟨hs, hheard, htold⟩ := htook.before.told (i := i) (request_informed app (call i))
  have hinformed := htold.sends htook.sends
  rw [hx] at hinformed
  obtain ⟨-, -, row, hrow⟩ := hinformed
  obtain ⟨⟨m, _⟩, hm, rfl⟩ := List.mem_map.mp hrow
  obtain ⟨u, hselect⟩ := hheard.took _ hm
  have hlt : m < n := Nat.lt_of_lt_of_le hselect.lt (List.length_take_le _ _)
  have hselect := hselect.of_take
  have hafter := hselect.after h
  -- the row it saw is not one that it has inserted itself
  have hreply : (approvalDb.view u.store (u.held i)).request? r.workspaceId r.id = some row :=
    hselect.reply.symm
  obtain ⟨hmem, hws, hid⟩ := Store.request?_some hreply
  obtain ⟨r₁, hr₁, hws₁, hid₁, -⟩ := exists_origin hmem
  have hheld : ∀ z ∈ u.held i, z ∈ δ := by
    have hmade := hafter.made_prefix (i := i)
    rw [hi] at hmade
    intro z hz
    refine (hmade.resolve_right id).subset ?_
    unfold World.held at hz
    cases hs : u.session i with
    | running p δ' => rwa [hs] at hz
    | answered b exit δ' => rwa [hs] at hz
    | _ =>
      rw [hs] at hz
      cases hz
  rcases hr₁ with hr₁ | hr₁
  · refine ⟨m, _, u, r₁, hlt, hselect, hr₁, ?_⟩
    have hu := ApiWorld.sound ⟨[], represents_empty⟩ hselect.before
    obtain ⟨r', hr', hbecomes⟩ :=
      (Run.evolves hu hafter).request (Store.Registered.request?_of_mem hu.inv hr₁)
    have hw := ApiWorld.sound ⟨[], represents_empty⟩ h
    rw [hws₁.trans hws, hid₁.trans hid, Store.Registered.request?_of_mem hw.inv hr] at hr'
    rw [Option.some.inj hr']
    exact hbecomes.createdAt.symm
  · exact absurd (hheld _ hr₁) (no_insert_of_update h hi hu r₁)

/-! ## The clock -/

/-- The datetimes that the statements of a run bring can be readings of a clock that never
goes back and shows `clock n` at step `n`. The readings for one statement are made one
after the other, before the statement is sent and after the previous step of its call. -/
structure Clocked (w₀ : ApiWorld ι) (ls : List (ι × Transactions.Action)) (clock : Nat → Instant) :
    Prop where
  monotone : ∀ {m n}, m ≤ n → clock m ≤ clock n
  ordered : ∀ {i n x v}, Took approvalDb w₀ ls i n x v → x.stmt.datetimes.Pairwise (· ≤ ·)
  before : ∀ {i n x v}, Took approvalDb w₀ ls i n x v → ∀ t ∈ x.stmt.datetimes, t ≤ clock n
  after : ∀ {i n x v}, Took approvalDb w₀ ls i n x v → ∀ t ∈ x.stmt.datetimes,
    ∀ m < n, ∀ a, ls[m]? = some (i, a) → clock m ≤ t

theorem created_le_updated (h : Run approvalDb (ApiWorld.start app call Store.empty) ls w)
    {clock : Nat → Instant}
    (hclock : Clocked (ApiWorld.start app call Store.empty) ls clock) {r : ApprovalRequestRow}
    (hr : r ∈ w.store.approvalRequests) : r.createdAt ≤ r.updatedAt := by
  obtain ⟨i, n, x, v, r₀, htook, hx, -, hupdated⟩ := Run.origin h hr
  rcases hupdated with rfl | ⟨j, a, δ, values, hj, hu, hupdated⟩
  · -- both are readings for the insert
    have hordered := hclock.ordered htook
    rw [hx] at hordered
    exact (List.pairwise_cons.mp hordered).1 _ (List.mem_singleton_self _)
  · obtain ⟨n, y, v, htook, hy⟩ := h.made (i := j) rfl _ (by rw [hj]; exact hu)
    have hstmt := stmt_of_update hy
    obtain ⟨m, z, u, r₁, hlt, hselect, hr₁, hcreated⟩ := Took.selected h hj hr hu htook hstmt
    -- the insert of the row that was selected
    obtain ⟨k, n₀, x₀, v₀, r₂, hinsert, hx₀, hcreated₂, -⟩ := Run.origin hselect.before hr₁
    have hn₀ : n₀ ≤ m := Nat.le_of_lt (Nat.lt_of_lt_of_le hinsert.lt (List.length_take_le _ _))
    have hread : r.createdAt ≤ clock n₀ := by
      rw [← hcreated, ← hcreated₂]
      refine hclock.before hinsert.of_take _ ?_
      rw [hx₀]
      exact List.mem_cons_self
    have hdecided : clock m ≤ r.updatedAt := by
      rw [hupdated]
      refine hclock.after htook _ ?_ m hlt _ hselect.step
      rw [hstmt]
      exact List.mem_cons_of_mem _ (List.mem_singleton_self _)
    exact Nat.le_trans hread (Nat.le_trans (hclock.monotone hn₀) hdecided)

/-- Calls that read one and the same time are clocked. -/
theorem Clocked.constant {σ : Store} {t : Instant}
    (hreadings : ∀ i row, ∀ s ∈ (call i).env.readings row, s = t)
    (hdecided : ∀ i, (call i).env.decidedAt = t) :
    Clocked (ApiWorld.start app call σ) ls (fun _ => t) := by
  have hall : ∀ {i n x v}, Took approvalDb (ApiWorld.start app call σ) ls i n x v →
      ∀ s ∈ x.stmt.datetimes, s = t := by
    intro i n x v htook
    obtain ⟨hs, -, htold⟩ := htook.before.told (i := i) (request_informed app (call i))
    have hinformed := htold.sends htook.sends
    cases hx : x.stmt with
    | insert row =>
      rw [hx] at hinformed
      intro s hs
      refine hreadings i row s ?_
      rwa [← show row.datetimes = _ from hinformed]
    | updatePending ws id values =>
      rw [hx] at hinformed
      obtain ⟨hd, hu, -⟩ := hinformed
      intro s hs
      simp only [Statement.datetimes, List.mem_cons, List.not_mem_nil, or_false] at hs
      rcases hs with rfl | rfl
      · exact hd.trans (hdecided i)
      · exact hu.trans (hdecided i)
    | _ => exact fun s hs => absurd hs List.not_mem_nil
  refine ⟨fun _ => Nat.le_refl _, fun htook => ?_, fun htook s hs => ?_, fun htook s hs m _ a _ => ?_⟩
  · refine List.pairwise_of_forall_mem_list fun s hs s' hs' => ?_
    rw [hall htook s hs, hall htook s' hs']
    exact Nat.le_refl _
  · rw [hall htook s hs]
    exact Nat.le_refl _
  · rw [hall htook s hs]
    exact Nat.le_refl _

/-- **Rows are well formed.** In every run of any calls, every committed row is well formed
together with its reviewers. If the clock readings of the calls never decrease along the
run, the row was not updated before it was created. -/
theorem rows_well_formed (h : Run approvalDb (ApiWorld.start app call Store.empty) ls w)
    {r : ApprovalRequestRow} (hr : r ∈ w.store.approvalRequests) :
    r.WellFormed (w.store.reviewerIds r.workspaceId r.id) ∧
      ∀ clock, Clocked (ApiWorld.start app call Store.empty) ls clock →
        r.createdAt ≤ r.updatedAt :=
  ⟨Store.Registered.wellFormed (ApiWorld.sound ⟨[], represents_empty⟩ h).inv hr,
    fun _ hclock => created_le_updated h hclock hr⟩

end Runs

/-- Alice's create and Bob's approval, at one and the same time. -/
def Sample.simultaneousCalls : Fin 2 → Call
  | 0 => launch "1" "key-1"
  | 1 => { approve "2" bobToken none with env := env "2" 1 }

theorem Sample.readings_env (n : String) (micros : Fin 1000000) (row : NewRow) :
    ∀ s ∈ (env n micros).readings row, s = (env n micros).createdAt := by
  cases row with
  | approvalRequest row => exact List.forall_mem_cons.mpr ⟨rfl, List.forall_mem_singleton.mpr rfl⟩
  | reviewer row => exact fun s hs => absurd hs List.not_mem_nil
  | _ => exact List.forall_mem_singleton.mpr rfl

theorem Sample.simultaneous_clocked (ls : List (Fin 2 × Transactions.Action)) :
    Clocked (ApiWorld.start app simultaneousCalls Store.empty) ls
      (fun _ => (env "1" 1).createdAt) := by
  have hcases : ∀ i : Fin 2, i = 0 ∨ i = 1 := by decide
  refine Clocked.constant (fun i row => ?_) fun i => ?_
  · obtain rfl | rfl := hcases i
    · exact readings_env "1" 1 row
    · exact readings_env "2" 1 row
  · obtain rfl | rfl := hcases i <;> rfl

theorem rows_well_formed_sample : ∃ ls w r,
    Run approvalDb (ApiWorld.start Sample.app Sample.simultaneousCalls Store.empty) ls w ∧
      r ∈ w.store.approvalRequests ∧ r.status = .approved ∧
      r.WellFormed (w.store.reviewerIds r.workspaceId r.id) ∧ r.createdAt ≤ r.updatedAt := by
  obtain ⟨ls, w, h, hstore, -⟩ := Run.serveAll
    approvalDb (fun i => request Sample.app (Sample.simultaneousCalls i)) [0, 1] (by decide)
    (w := ApiWorld.start Sample.app Sample.simultaneousCalls Store.empty) (fun _ => rfl)
    (fun _ _ => rfl)
  have hrows : w.store.approvalRequests.map ApprovalRequestRow.status = [.approved] := by
    rw [hstore]
    decide +kernel
  obtain ⟨r, rest, hr, hstatus, -⟩ := List.map_eq_cons_iff.mp hrows
  have hmem : r ∈ w.store.approvalRequests := hr ▸ List.mem_cons_self
  obtain ⟨hwell, hclock⟩ := rows_well_formed h hmem
  exact ⟨ls, w, r, h, hmem, hstatus, hwell, hclock _ (Sample.simultaneous_clocked ls)⟩

end ContentApproval
