import ContentApproval.Properties.Isolation
import ContentApproval.Specs.Undisturbed
import ContentApproval.Transactions.Projection

/-!
# The workspaces run apart

Noninterference in every interleaving: while the calls of all workspaces run at the same time, the
calls of one of them take exactly the steps that they could take if nobody had ever called another
one, on a database with the rows of theirs only (`workspaces_run_apart`). They read the same, write
the same, are answered the same, and nobody else's locks keep them waiting.
-/

namespace ContentApproval

open Transactions

/-! ## What a call writes -/

/-- A write of a call in the workspace. -/
def Write.Within (ws : String) (env : Env) : Write → Prop
  | .insert row => row.Within ws env
  | .update ws' _ _ => ws' = ws

section Writes

variable {ws : String} {env : Env} {s : Statement} {σ τ : Store} {δ : List Write}

theorem exec_writes_within (hs : s.Within ws env) (σ : Store) :
    ∀ x ∈ (approvalDb.exec s σ).2, x.Within ws env := by
  intro x hx
  cases s with
  | insert row =>
    simp only [approvalDb, Store.exec] at hx
    split at hx
    · rw [List.mem_singleton.mp hx]
      exact hs
    · cases hx
  | updatePending ws' id values =>
    simp only [approvalDb, Store.exec] at hx
    split at hx
    · cases hx
    · rw [List.mem_singleton.mp hx]
      exact hs
  | _ => cases hx

/-- The reply says what a statement has written. -/
theorem exec_eq_of_reply (h : (approvalDb.exec s σ).1 = (approvalDb.exec s τ).1) :
    approvalDb.exec s σ = approvalDb.exec s τ := by
  refine Prod.ext h ?_
  cases s with
  | insert row =>
    have hwrites : ∀ v : Store, (approvalDb.exec (.insert row) v).2 =
        bif (approvalDb.exec (.insert row) v).1 then [.insert row] else [] := by
      intro v
      simp only [approvalDb, Store.exec]
      split <;> rfl
    rw [hwrites, hwrites, h]
  | updatePending ws' id values =>
    have hcount : σ.pendingCount ws' id = τ.pendingCount ws' id := h
    simp only [approvalDb, Store.exec, hcount]
  | _ => rfl

theorem Store.Alike.view (h : σ.Alike ws env τ) (hδ : ∀ x ∈ δ, x.Within ws env) :
    (approvalDb.view σ δ).Alike ws env (approvalDb.view τ δ) := by
  induction δ generalizing σ τ with
  | nil => exact h
  | cons x δ ih =>
    obtain ⟨hx, hδ⟩ := List.forall_mem_cons.mp hδ
    refine ih ?_ hδ
    cases x with
    | insert row => exact h.insert hx
    | update ws' id values =>
      obtain rfl : ws' = ws := hx
      exact h.update id values

/-- What a call writes in its workspace it writes to the rows of the workspace. -/
theorem rowsOf_view (hδ : ∀ x ∈ δ, x.Within ws env) (σ : Store) :
    (approvalDb.view σ δ).rowsOf ws = approvalDb.view (σ.rowsOf ws) δ := by
  induction δ generalizing σ with
  | nil => rfl
  | cons x δ ih =>
    obtain ⟨hx, hδ⟩ := List.forall_mem_cons.mp hδ
    rw [Database.view_cons, Database.view_cons, ih hδ]
    congr 1
    cases x with
    | insert row => exact (σ.rowsOf_insert ws row).trans (if_pos hx.workspaceId)
    | update ws' id values => exact σ.rowsOf_update ws ws' id values

theorem rowsOf_view_ne (hδ : ∀ x ∈ δ, x.Within ws env) {B : String} (hB : ws ≠ B) (σ : Store) :
    (approvalDb.view σ δ).rowsOf B = σ.rowsOf B := by
  induction δ generalizing σ with
  | nil => rfl
  | cons x δ ih =>
    obtain ⟨hx, hδ⟩ := List.forall_mem_cons.mp hδ
    rw [Database.view_cons, ih hδ]
    cases x with
    | insert row =>
      refine (σ.rowsOf_insert B row).trans (if_neg ?_)
      rw [hx.workspaceId]
      exact hB
    | update ws' id values =>
      obtain rfl : ws' = ws := hx
      exact σ.rowsOf_update_ne B hB id values

theorem has_view {k : PrimaryKey} : (approvalDb.view σ δ).has k = true ↔
    σ.has k = true ∨ ∃ row, Write.insert row ∈ δ ∧ row.primaryKey = k :=
  has_foldl

/-- Ids that a call has not generated come into use by others only. -/
theorem has_view_foreign (hδ : ∀ x ∈ δ, x.Within ws env) {k : PrimaryKey} (hk : k.Generated)
    (hforeign : k ∉ env.keys) (σ : Store) : (approvalDb.view σ δ).has k = σ.has k := by
  rw [Bool.eq_iff_iff, has_view]
  refine ⟨?_, Or.inl⟩
  rintro (h | ⟨row, hrow, rfl⟩)
  · exact h
  · exact absurd ((hδ _ hrow).generated hk) hforeign

/-- Rows of different workspaces with different ids have different keys. -/
theorem primaryKey_ne {ws' : String} {env' : Env} {row row' : NewRow} (hrow : row.Within ws env)
    (hrow' : row'.Within ws' env') (hws : ws ≠ ws') (hids : env.Apart env') :
    row.primaryKey ≠ row'.primaryKey := by
  intro hkey
  by_cases hg : row.primaryKey.Generated
  · exact hids _ (hrow.generated hg) (hkey ▸ hrow'.generated (hkey ▸ hg))
  · refine hws ?_
    rw [← hrow.workspaceId, ← hrow'.workspaceId]
    cases row with
    | reviewer r =>
      cases row' with
      | reviewer r' => exact (PrimaryKey.reviewer.inj hkey).1
      | _ => cases hkey
    | idempotencyKey r =>
      cases row' with
      | idempotencyKey r' => exact (PrimaryKey.idempotencyKey.inj hkey).1
      | _ => cases hkey
    | _ => exact absurd trivial hg

end Writes

/-! ## The calls of a workspace -/

section Runs

variable {ι : Type} {app : App} {call : ι → Call} {B : String} {σ : Store}

/-- The database that the calls of the workspace would have by themselves. -/
structure RowsOnly (call : ι → Call) (B : String) (σ τ : Store) : Prop where
  rows : τ = σ.rowsOf B
  has : ∀ i, (call i).workspaceId = B → ∀ k ∈ (call i).env.keys, σ.has k = τ.has k

theorem RowsOnly.alike {τ : Store} (h : RowsOnly call B σ τ) {i : ι}
    (hi : (call i).workspaceId = B) : σ.Alike (call i).workspaceId (call i).env τ where
  rows := by
    rw [h.rows, hi]
    simp [Store.rowsOf, List.filter_filter]
  has := h.has i hi

theorem rowsOnly_of_new (hnew : ∀ i, (call i).workspaceId = B → (call i).env.New σ) :
    RowsOnly call B σ (σ.rowsOf B) where
  rows := rfl
  has i hi k hk := by
    have hσ := hnew i hi k hk
    rw [hσ, eq_comm, Bool.eq_false_iff]
    intro h
    rw [Store.has_of_rowsOf (Env.keys_generated hk) h] at hσ
    cases hσ

/-- **The calls of a workspace live in its rows.** -/
theorem calls_secluded
    (hids : ∀ i j, (call i).workspaceId = B → (call j).workspaceId ≠ B →
      (call i).env.Apart (call j).env) :
    Secludes approvalDb (fun i => Statement.Within (call i).workspaceId (call i).env)
      (fun i => Statement.Gives (call i).workspaceId)
      (fun i => Write.Within (call i).workspaceId (call i).env)
      (fun i => (call i).workspaceId = B) (RowsOnly call B) where
  gives σ hs := exec_gives hs σ
  writes σ hs := exec_writes_within hs σ
  exec hi hs h hδ := (exec_eq_of_reply (exec_alike hs ((h.alike hi).view hδ)).1).symm
  own {i σ τ δ} hi h hδ := by
    obtain ⟨rfl, hhas⟩ := h
    refine ⟨?_, fun j hj k hk => ?_⟩
    · obtain rfl := hi
      exact (rowsOf_view hδ σ).symm
    · rw [Bool.eq_iff_iff, has_view, has_view, hhas j hj k hk]
  foreign {j σ τ δ} hj h hδ := by
    obtain ⟨rfl, hhas⟩ := h
    refine ⟨(rowsOf_view_ne hδ hj σ).symm, fun i hi k hk => ?_⟩
    rw [has_view_foreign hδ (Env.keys_generated hk) (hids i j hi hj k hk), hhas i hi k hk]
  waits {i j s x} hi hj hs hx hwait := by
    have hne : (call i).workspaceId ≠ (call j).workspaceId := fun h => hj (h ▸ hi)
    cases s with
    | insert row =>
      cases x with
      | insert row' => exact primaryKey_ne hs hx hne (hids i j hi hj) hwait
      | update ws id values => exact hwait
    | updatePending ws id values =>
      cases x with
      | insert row' => exact hwait
      | update ws' id' values' =>
        obtain rfl : ws = (call i).workspaceId := hs
        obtain rfl : ws' = (call j).workspaceId := hx
        exact hne hwait.1
    | _ => exact hwait

variable [DecidableEq ι] {w : ApiWorld ι} {ls : List (ι × Transactions.Action)}

/-- **The workspaces run apart.** In every interleaving of any calls: the steps of the calls of the
workspace `B` are a run of these calls by themselves, on the rows of `B` only, and every one of them
stands where it stands in the whole run. However this run goes on, so can the whole run. -/
theorem workspaces_run_apart
    (hids : ∀ i j, (call i).workspaceId = B → (call j).workspaceId ≠ B →
      (call i).env.Apart (call j).env)
    (hnew : ∀ i, (call i).workspaceId = B → (call i).env.New σ)
    (h : Run approvalDb (ApiWorld.start app call σ) ls w) :
    ∃ v, Run approvalDb (ApiWorld.start app call (σ.rowsOf B))
        (ls.filter fun l => (call l.1).workspaceId = B) v ∧
      (∀ i, (call i).workspaceId = B → v.session i = w.session i) ∧
      v.store = w.store.rowsOf B ∧
      ∀ ls' v', (∀ l ∈ ls', (call l.1).workspaceId = B) → Run approvalDb v ls' v' →
        ∃ w', Run approvalDb w ls' w' ∧
          (∀ i, (call i).workspaceId = B → w'.session i = v'.session i) ∧
          v'.store = w'.store.rowsOf B := by
  have hsec := calls_secluded hids
  have hstart : ∀ i, ((ApiWorld.start app call σ).session i).Only
      (Statement.Within (call i).workspaceId (call i).env)
      (Statement.Gives (call i).workspaceId)
      (Write.Within (call i).workspaceId (call i).env) :=
    fun i => ⟨request_within app (call i), fun x hx => by cases hx⟩
  have halone : (ApiWorld.start app call σ).Alone (fun i => (call i).workspaceId = B)
      (RowsOnly call B) (ApiWorld.start app call (σ.rowsOf B)) :=
    ⟨fun _ _ => rfl, fun _ _ => rfl, rowsOnly_of_new hnew⟩
  obtain ⟨honly, v, hrun, hv⟩ := Run.project hsec hstart halone h
  refine ⟨v, hrun, hv.session, hv.store.rows, fun ls' v' hls' hrun' => ?_⟩
  obtain ⟨w', hw', hv'⟩ := Run.lift hsec honly hv hrun' hls'
  exact ⟨w', hw', fun i hi => (hv'.session i hi).symm, hv'.store.rows⟩

end Runs

/-- Alice and Dave use one key in two workspaces, and Dave asks for Alice's request. -/
def Sample.neighbours : Fin 3 → Call
  | 0 => launch "1" "key-1"
  | 1 => { launch "2" "key-1" with authorization := some daveToken, workspaceId := "ws_2" }
  | 2 => ⟨env "4" 3, some daveToken, "ws_2", .get launchId⟩

/-- By himself Dave gets the same: his create goes through, and the request does not exist. -/
theorem workspaces_run_apart_sample : ∃ ls v a δ e,
    Run approvalDb (ApiWorld.start Sample.app Sample.neighbours (Store.empty.rowsOf "ws_2")) ls v ∧
      v.session 0 = .running (request Sample.app (Sample.neighbours 0)) [] ∧
      v.session 1 = .committed a δ ∧ a.statusCode = 201 ∧
      v.session 2 = .failed e ∧ e.statusCode = 404 := by
  obtain ⟨ls, w, h, -, hsessions, -⟩ := Run.serveAll approvalDb
    (fun i => request Sample.app (Sample.neighbours i)) [0, 1, 2] (by decide)
    (w := ApiWorld.start Sample.app Sample.neighbours Store.empty) (fun _ => rfl) (fun _ _ => rfl)
  have hcommitted : ([0, 1, 2].map w.session).map Sample.committedStatus? =
      [some 201, some 201, none] := by
    rw [hsessions]
    decide +kernel
  have hfailed : ([0, 1, 2].map w.session).map Sample.failedStatus? = [none, none, some 404] := by
    rw [hsessions]
    decide +kernel
  simp only [List.map_cons, List.map_nil, List.cons.injEq, and_true] at hcommitted hfailed
  obtain ⟨a, δ, h₁, hcode⟩ := Sample.committed_of_status hcommitted.2.1
  obtain ⟨e, h₂, hcode'⟩ := Sample.failed_of_status hfailed.2.2
  have hids : ∀ i j, (Sample.neighbours i).workspaceId = "ws_2" →
      (Sample.neighbours j).workspaceId ≠ "ws_2" →
      (Sample.neighbours i).env.Apart (Sample.neighbours j).env := by decide
  obtain ⟨v, hrun, hsame, -, -⟩ := workspaces_run_apart hids
    (fun i _ k hk => by cases k <;> rfl) h
  refine ⟨_, v, a, δ, e, hrun, ?_, (hsame 1 rfl).trans h₁, hcode, (hsame 2 rfl).trans h₂, hcode'⟩
  refine hrun.session_eq fun b hb => ?_
  have hws : (Sample.neighbours 0).workspaceId = "ws_2" :=
    of_decide_eq_true (List.mem_filter.mp hb).2
  exact absurd hws (by decide)

end ContentApproval
