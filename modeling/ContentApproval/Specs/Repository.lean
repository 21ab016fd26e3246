import ContentApproval.Specs.Evolution

/-!
# What the repository functions do among other transactions

One precondition for each function of the session and the repository, in the
surroundings of any discipline `D` that allows no more than the service's own commits.
`J` is what the transaction promises of its uncommitted writes while it runs; it must
not depend on the rows that it inserts (`InsertStable`).
-/

namespace ContentApproval

open Transactions SqlApprovalRequestRepository AsyncSession

/-! ## Programs of a session -/

section Tx

variable {α β : Type}

theorem flush_eq (pending : List NewRow) :
    flush pending = (insertAll pending).bind (fun u => .ret (u, [])) := rfl

theorem add_eq (row : NewRow) (pending : List NewRow) :
    add row pending = .ret ((), pending ++ [row]) := rfl

theorem tx_bind (m : Tx α) (f : α → Tx β) (pending : List NewRow) :
    (m >>= f) pending = (m pending).bind (fun p => f p.1 p.2) := rfl

theorem tx_pure (a : α) (pending : List NewRow) :
    (pure a : Tx α) pending = .ret (a, pending) := rfl

theorem tx_throw (e : Exn) (pending : List NewRow) :
    (throw e : Tx α) pending = .throw e := rfl

theorem insertAll_cons (row : NewRow) (rows : List NewRow) :
    insertAll (row :: rows) = .exec (.insert row) (fun inserted : Bool =>
      if inserted then insertAll rows else .throw .integrityError) := rfl

/-- `get` in a session with nothing to flush. -/
theorem get_eq (env : Env) (site : Nat) (ws id : String) :
    get env site ws id [] = .exec (.selectRequest ws id) (fun row? : Option ApprovalRequestRow =>
      match row? with
      | none => .ret (none, [])
      | some row => .exec (.selectReviewers [(row.workspaceId, row.id)] (env.rowOrder site))
        (fun reviewers : List ApprovalRequestReviewer =>
          .ret (some (toEntity env.dialect.load row (reviewersOfRow reviewers row)), []))) := by
  refine congrArg (Prog.exec _) (funext fun row? => ?_)
  change Option ApprovalRequestRow at row?
  cases row? <;> rfl

/-- `transition` after its update. -/
def afterUpdate (env : Env) (ws id : String) (rowcount : Nat) :
    Prog Reply Exn (ApprovalRequest × List NewRow) :=
  if rowcount = 1 then (get env 1 ws id []).bind (fun p => match p.1 with
    | some updated => .ret (updated, p.2)
    | none => .throw (.unexpected ("request " ++ id ++ " vanished right after transition")))
  else (get env 2 ws id []).bind (fun p => match p.1 with
    | none => .throw (.approvalRequestNotFoundError id)
    | some current => .throw (.invalidTransitionError id current.status))

/-- `transition` in a session with nothing to flush. -/
theorem transition_eq (env : Env) (ws id : String) (status : ApprovalStatus) (actor : String)
    (comment reason : Option String) :
    transition env ws id status actor comment reason [] =
      .exec (.updatePending ws id ⟨status, actor, env.decidedAt, comment, reason, env.decidedAt⟩)
        (afterUpdate env ws id) := by
  refine congrArg (Prog.exec _) (funext fun rowcount => ?_)
  change Nat at rowcount
  unfold afterUpdate
  by_cases h : rowcount = 1
  · simp only [h, if_true, Prog.bind, Prog.pure_eq]
    refine congrArg (Prog.bind _) (funext fun p => ?_)
    obtain ⟨_ | _, _⟩ := p <;> rfl
  · simp only [h, if_false, Prog.bind, Prog.pure_eq]
    refine congrArg (Prog.bind _) (funext fun p => ?_)
    obtain ⟨_ | _, _⟩ := p <;> rfl

end Tx

/-! ## Reading -/

/-- The transaction has only updated rows so far. -/
def NoInserts (δ : List Write) : Prop := ∀ row, Write.insert row ∉ δ

theorem NoInserts.reviewers {δ : List Write} (h : NoInserts δ) (σ : Store) :
    (approvalDb.view σ δ).approvalRequestReviewers = σ.approvalRequestReviewers := by
  induction δ generalizing σ with
  | nil => rfl
  | cons w δ ih =>
    rw [Database.view_cons, ih (fun row hr => h row (List.mem_cons_of_mem _ hr))]
    cases w with
    | insert row => exact absurd List.mem_cons_self (h row)
    | update ws id values => rfl

theorem NoInserts.request? {δ : List Write} (h : NoInserts δ) {σ : Store} {ws id : String}
    {r : ApprovalRequestRow} (hr : (approvalDb.view σ δ).request? ws id = some r) :
    ∃ r', σ.request? ws id = some r' := by
  induction δ generalizing σ with
  | nil => exact ⟨r, hr⟩
  | cons w δ ih =>
    obtain ⟨r', hr'⟩ := ih (fun row hr => h row (List.mem_cons_of_mem _ hr)) hr
    cases w with
    | insert row => exact absurd List.mem_cons_self (h row)
    | update ws' id' values =>
      change (σ.update ws' id' values).request? ws id = some r' at hr'
      rw [Store.request?_update] at hr'
      obtain ⟨r'', hr'', -⟩ := Option.map_eq_some_iff.mp hr'
      exact ⟨r'', hr''⟩

/-- The reviewers of a row among those that a `selectinload` has fetched. -/
theorem reviewersOfRow_perm (order : RowOrder) {keys : List (String × String)}
    {row : ApprovalRequestRow} (hrow : (row.workspaceId, row.id) ∈ keys) (σ : Store) :
    (reviewersOfRow (order.arrange (σ.approvalRequestReviewers.filter
      (fun r => decide ((r.workspaceId, r.approvalRequestId) ∈ keys)))) row).Perm
      (σ.reviewerIds row.workspaceId row.id) := by
  refine List.Perm.map _ (((order.perm _).filter _).trans ?_)
  rw [List.filter_filter]
  refine List.Perm.of_eq (List.filter_congr fun r _ => ?_)
  rw [Bool.and_eq_left_iff_imp]
  intro h
  simp only [Bool.and_eq_true, beq_iff_eq] at h
  simpa [h.1, h.2] using hrow

/-- The reviewers of a request in the order in which the `site`-th read of a call lists them. -/
def Store.listed (σ : Store) (env : Env) (site : Nat) (ws id : String) : List String :=
  ((env.rowOrder site).arrange (σ.reviewersOf ws id)).map ApprovalRequestReviewer.reviewerUserId

theorem Store.listed_perm (σ : Store) (env : Env) (site : Nat) (ws id : String) :
    (σ.listed env site ws id).Perm (σ.reviewerIds ws id) :=
  ((env.rowOrder site).perm _).map _

theorem Store.Evolves.listed {σ σ' : Store} (h : σ.Evolves σ') {ws id : String}
    {r : ApprovalRequestRow} (hr : σ.request? ws id = some r) (env : Env) (site : Nat) :
    σ'.listed env site ws id = σ.listed env site ws id := by
  rw [Store.listed, h.reviewers hr, Store.listed]

theorem NoInserts.listed {δ : List Write} (h : NoInserts δ) (σ : Store) (env : Env) (site : Nat)
    (ws id : String) : (approvalDb.view σ δ).listed env site ws id = σ.listed env site ws id := by
  rw [Store.listed, Store.reviewersOf, h.reviewers]
  rfl

/-- What a `selectinload` of one row gives. -/
theorem reviewersOfRow_listed (env : Env) (site : Nat) (row : ApprovalRequestRow) (σ : Store) :
    reviewersOfRow ((env.rowOrder site).arrange (σ.approvalRequestReviewers.filter
      (fun r => decide ((r.workspaceId, r.approvalRequestId) ∈ [(row.workspaceId, row.id)])))) row =
      σ.listed env site row.workspaceId row.id := by
  have hfilter : σ.approvalRequestReviewers.filter
      (fun r => decide ((r.workspaceId, r.approvalRequestId) ∈ [(row.workspaceId, row.id)])) =
      σ.reviewersOf row.workspaceId row.id := by
    refine List.filter_congr fun r _ => ?_
    rw [Bool.eq_iff_iff]
    simp
  rw [hfilter, reviewersOfRow, Store.listed]
  congr 1
  refine List.filter_eq_self.mpr fun r hr => ?_
  exact (List.mem_filter.mp (((env.rowOrder site).perm _).mem_iff.mp hr)).2

section Specs

variable {D : Discipline approvalDb} {J : List Write → Store → Prop}

/-- The store in which a program with the writes `δ` stands. -/
abbrev Here (D : Discipline approvalDb) (J : List Write → Store → Prop) (δ : List Write)
    (σ : Store) : Prop := Found D J δ σ σ

theorem here {δ : List Write} {σ σ' : Store} (h : Found D J δ σ σ') : Here D J δ σ' :=
  ⟨Discipline.Env.refl _ _, h.inv, h.held, h.during⟩

/-- `get`, with the order in which it lists the reviewers. -/
theorem get_listed_wp (hD : Approves D) {δ : List Write} (hδ : NoInserts δ) {env : Env}
    {site : Nat} {ws id : String}
    {Q : Except Exn (Option ApprovalRequest × List NewRow) → List Write → Store → Prop} {σ : Store}
    (hnone : ∀ σ₁ σ₂, Found D J δ σ σ₁ → (approvalDb.view σ₁ δ).request? ws id = none →
      Found D J δ σ₁ σ₂ → Q (.ok (none, [])) δ σ₂)
    (hsome : ∀ σ₁ σ₂ row, Found D J δ σ σ₁ →
      (approvalDb.view σ₁ δ).request? ws id = some row → Found D J δ σ₁ σ₂ →
      Q (.ok (some (toEntity env.dialect.load row (σ₂.listed env site ws id)), [])) δ σ₂) :
    Wp D J (get env site ws id []) Q δ σ := by
  rw [get_eq]
  refine Wp.read (fun _ => rfl) fun σ₁ h₁ => ?_
  change Wp D J (match (approvalDb.view σ₁ δ).request? ws id with | none => _ | some row => _) Q δ σ₁
  cases hrow : (approvalDb.view σ₁ δ).request? ws id with
  | none => exact fun σ₂ h₂ => hnone σ₁ σ₂ h₁ hrow h₂
  | some row =>
    refine Wp.read (fun _ => rfl) fun σ₂ h₂ => fun σ₃ h₃ => ?_
    obtain ⟨r, hr⟩ := hδ.request? hrow
    obtain ⟨-, hws, hid⟩ := Store.request?_some hrow
    obtain ⟨r', hr', -⟩ := (hD.env h₂.env).request hr
    subst hws hid
    have hshown := reviewersOfRow_listed env site row (approvalDb.view σ₂ δ)
    rw [hδ.listed, ← (hD.env h₃.env).listed hr'] at hshown
    have hq := hsome σ₁ σ₃ row h₁ hrow (Found.of_env h₂.env h₃)
    rw [← hshown] at hq
    exact hq

/-! ## Writing -/

/-- What a transaction promises while it runs does not depend on the rows it inserts. -/
def InsertStable (J : List Write → Store → Prop) : Prop :=
  ∀ {δ σ} (row : NewRow), J δ σ → J (δ ++ [.insert row]) σ

/-- Inserting rows: `F` is what the transaction knows of the store all along. -/
theorem insertAll_wp (hJ : InsertStable J) (F : Store → Prop) {rows : List NewRow}
    {δ : List Write} {σ : Store} {Q : Except Exn Unit → List Write → Store → Prop}
    (hF : ∀ {pre σ₁ σ₂}, pre <+: rows → D.EnvStep (δ ++ pre.map .insert) σ₁ σ₂ → F σ₁ → F σ₂)
    (h0 : F σ)
    (hok : ∀ σ', Here D J (δ ++ rows.map .insert) σ' → F σ' →
      Q (.ok ()) (δ ++ rows.map .insert) σ')
    (herr : ∀ pre row σ₁ σ₂, pre ++ [row] <+: rows → Here D J (δ ++ pre.map .insert) σ₁ → F σ₁ →
      ¬ ((approvalDb.view σ₁ (δ ++ pre.map .insert)).has row.primaryKey = false ∧
        (approvalDb.view σ₁ (δ ++ pre.map .insert)).hasParent row = true) →
      Found D J (δ ++ pre.map .insert) σ₁ σ₂ →
      Q (.error .integrityError) (δ ++ pre.map .insert) σ₂) :
    Wp D J (insertAll rows) Q δ σ := by
  have hkeep : ∀ {σ₁ σ₂}, D.Env δ σ₁ σ₂ → F σ₁ → F σ₂ := fun he h1 =>
    he.keeps h1 (fun hs => @hF [] _ _ List.nil_prefix (by simpa using hs))
  induction rows generalizing δ σ with
  | nil =>
    intro σ' hf
    have hh := here hf
    simpa using hok σ' (by simpa using hh) (hkeep hf.env h0)
  | cons row rows ih =>
    rw [insertAll_cons]
    intro σ' hf
    have hF' := hkeep hf.env h0
    by_cases hins : (approvalDb.view σ' δ).has row.primaryKey = false ∧
        (approvalDb.view σ' δ).hasParent row = true
    · have hexec : approvalDb.exec (.insert row) (approvalDb.view σ' δ) = (true, [.insert row]) :=
        if_pos hins
      rw [hexec]
      refine ⟨hJ row hf.during, ?_⟩
      have hassoc : ∀ pre : List NewRow, δ ++ [.insert row] ++ pre.map Write.insert =
          δ ++ (row :: pre).map Write.insert := by simp
      refine ih ?_ hF' ?_ ?_ ?_
      · intro pre σ₁ σ₂ hpre he
        exact hF (List.cons_prefix_cons.mpr ⟨rfl, hpre⟩) (hassoc pre ▸ he)
      · intro σ'' hh hF''
        rw [hassoc] at hh ⊢
        exact hok σ'' hh hF''
      · intro pre row' σ₁ σ₂ hpre hh hF₁ hfail hf₂
        rw [hassoc] at hh hfail hf₂ ⊢
        exact herr (row :: pre) row' σ₁ σ₂ (List.cons_prefix_cons.mpr ⟨rfl, hpre⟩) hh hF₁ hfail hf₂
      · intro σ₁ σ₂ he h1
        exact he.keeps h1 (fun hs => @hF [row] _ _ (by simp) (by simpa using hs))
    · have hexec : approvalDb.exec (.insert row) (approvalDb.view σ' δ) = (false, []) :=
        if_neg hins
      rw [hexec, List.append_nil]
      refine ⟨hf.during, fun σ'' hf' => ?_⟩
      have hh := here hf
      simpa using herr [] row σ' σ'' (by simp) (by simpa using hh) hF' (by simpa using hins)
        (by simpa using hf')

/-- The conditional update and what it is followed by, with the order in which the reviewers
are listed. The request is known to exist. -/
theorem transition_listed_wp (hD : Approves D) {env : Env} {ws id : String} {status : ApprovalStatus}
    {actor : String} {comment reason : Option String}
    {Q : Except Exn (ApprovalRequest × List NewRow) → List Write → Store → Prop} {σ : Store}
    {values : DecisionValues}
    (hvalues : values = ⟨status, actor, env.decidedAt, comment, reason, env.decidedAt⟩)
    {r₀ : ApprovalRequestRow} (hr₀ : σ.request? ws id = some r₀)
    (hJ : ∀ σ₁, Found D J [] σ σ₁ → J [.update ws id values] σ₁)
    (hok : ∀ σ₁ row, Here D J [.update ws id values] σ₁ → σ.Evolves σ₁ →
      σ₁.request? ws id = some row →
      Q (.ok (toEntity env.dialect.load (row.decided values) (σ₁.listed env 1 ws id), []))
        [.update ws id values] σ₁)
    (herr : ∀ σ₁ row, Here D J [] σ₁ → σ.Evolves σ₁ → σ₁.request? ws id = some row →
      row.status ≠ .pending → Q (.error (.invalidTransitionError id row.status)) [] σ₁) :
    Wp D J (transition env ws id status actor comment reason []) Q [] σ := by
  rw [transition_eq, ← hvalues]
  intro σ₁ h₁
  obtain ⟨r₁, hr₁, hb₁⟩ := (hD.env h₁.env).request hr₀
  have hcount := (hD.registered h₁.inv).pendingCount_eq hr₁
  change J ([] ++ if σ₁.pendingCount ws id = 0 then [] else [.update ws id values]) σ₁ ∧
    Wp D J (afterUpdate env ws id (σ₁.pendingCount ws id)) Q
      ([] ++ if σ₁.pendingCount ws id = 0 then [] else [.update ws id values]) σ₁
  by_cases hp : r₁.status = .pending
  · rw [hcount, if_pos hp, if_neg Nat.one_ne_zero, List.nil_append, afterUpdate, if_pos rfl]
    refine ⟨hJ σ₁ h₁, ?_⟩
    have hupd : ∀ σ', (approvalDb.view σ' [.update ws id values]).request? ws id =
        (σ'.request? ws id).map (fun r => r.decided values) := by
      intro σ'
      change (σ'.update ws id values).request? ws id = _
      rw [Store.request?_update]
      simp
    refine Wp.bind (get_listed_wp hD (by simp [NoInserts]) ?_ ?_)
    · intro σ₂ σ₃ h₂ hnone h₃
      have hr₂ := hD.own_env h₂.env List.mem_cons_self hr₁
      rw [hupd, hr₂] at hnone
      cases hnone
    · intro σ₂ σ₃ row h₂ hrow h₃ σ₄ h₄
      have hr₂ := hD.own_env h₂.env List.mem_cons_self hr₁
      rw [hupd, hr₂] at hrow
      obtain rfl := Option.some.inj hrow
      have hr₃ := hD.own_env h₃.env List.mem_cons_self hr₂
      have hr₄ := hD.own_env h₄.env List.mem_cons_self hr₃
      have hq := hok σ₄ r₁ (here h₄) ((hD.env h₁.env).trans ((hD.env h₂.env).trans
        ((hD.env h₃.env).trans (hD.env h₄.env)))) hr₄
      rw [(hD.env h₄.env).listed hr₃] at hq
      exact hq
  · rw [hcount, if_neg hp, if_pos rfl, List.append_nil, afterUpdate, if_neg Nat.zero_ne_one]
    refine ⟨h₁.during, ?_⟩
    refine Wp.bind (get_listed_wp hD (by simp [NoInserts]) ?_ ?_)
    · intro σ₂ σ₃ h₂ hnone h₃
      obtain ⟨r₂, hr₂, -⟩ := (hD.env h₂.env).request hr₁
      rw [Database.view_nil, hr₂] at hnone
      cases hnone
    · intro σ₂ σ₃ row h₂ hrow h₃ σ₄ h₄
      rw [Database.view_nil] at hrow
      obtain ⟨r₂, hr₂, hb₂⟩ := (hD.env h₂.env).request hr₁
      obtain rfl : row = r₁ := by
        rw [hr₂] at hrow
        rw [← Option.some.inj hrow, hb₂.eq_of_final hp]
      obtain ⟨r₃, hr₃, hb₃⟩ := (hD.env (h₃.env.trans h₄.env)).request hrow
      rw [hb₃.eq_of_final hp] at hr₃
      refine herr σ₄ row (here h₄) ?_ hr₃ hp
      exact (hD.env h₁.env).trans ((hD.env h₂.env).trans ((hD.env h₃.env).trans (hD.env h₄.env)))

end Specs

end ContentApproval
