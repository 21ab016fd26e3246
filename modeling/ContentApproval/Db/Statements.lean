import ContentApproval.Db.Models
import ContentApproval.Transactions.Program
import Mathlib.Data.List.Sort

/-!
# The statements the service sends

What each statement of the repository and of the idempotency ledger replies and writes,
against the store as its transaction sees it, and which statements wait for which
uncommitted writes. `approvalDb` is the database they make up:

* an `INSERT` waits for an open transaction that has inserted the same primary key, and
  then fails if the key is there;
* the `UPDATE` of a decision waits for an open transaction that has updated the same
  row, and then looks again whether the row is still pending.
-/

namespace ContentApproval

open Transactions

/-- The order in which a `SELECT` without `ORDER BY` returns its rows. -/
structure RowOrder where
  arrange : List ApprovalRequestReviewer → List ApprovalRequestReviewer
  perm : ∀ rows, (arrange rows).Perm rows

inductive Statement
  /-- `SELECT ... FROM approval_requests WHERE workspace_id = ... AND id = ...` -/
  | selectRequest (workspaceId requestId : String)
  /-- `SELECT ... FROM approval_request_reviewers WHERE (workspace_id,
  approval_request_id) IN ...` -/
  | selectReviewers (keys : List (String × String)) (order : RowOrder)
  /-- `SELECT count(*) FROM approval_requests WHERE ...` -/
  | countRequests (workspaceId : String) (status : Option ApprovalStatus)
  /-- `SELECT ... FROM approval_requests WHERE ... ORDER BY created_at DESC, id DESC
  LIMIT ... OFFSET ...` -/
  | selectPage (workspaceId : String) (status : Option ApprovalStatus) (limit offset : Nat)
  /-- `SELECT ... FROM idempotency_keys WHERE ...`, by primary key. -/
  | selectKey (workspaceId route idempotencyKey : String)
  /-- `UPDATE approval_requests SET ... WHERE workspace_id = ... AND id = ... AND
  status = 'pending'` -/
  | updatePending (workspaceId requestId : String) (values : DecisionValues)
  /-- `INSERT INTO ...`, one row. -/
  | insert (row : NewRow)
  /-- A log record; the database has no part in it. -/
  | log (record : LogRecord)

/-- What the program gets back: of an `UPDATE` the number of rows, of an `INSERT`
whether it went through. -/
def Reply : Statement → Type
  | .selectRequest _ _ => Option ApprovalRequestRow
  | .selectReviewers _ _ => List ApprovalRequestReviewer
  | .countRequests _ _ => Nat
  | .selectPage _ _ _ _ => List ApprovalRequestRow
  | .selectKey _ _ _ => Option IdempotencyKey
  | .updatePending _ _ _ => Nat
  | .insert _ => Bool
  | .log _ => Unit

/-- An uncommitted write. -/
inductive Write
  | insert (row : NewRow)
  | update (workspaceId requestId : String) (values : DecisionValues)

namespace Store

/-- The rows of a workspace that a status filter lets through. -/
def matching (σ : Store) (workspaceId : String) (status : Option ApprovalStatus) :
    List ApprovalRequestRow :=
  σ.approvalRequests.filter
    (fun r => r.workspaceId == workspaceId && status.all (fun t => r.status == t))

/-- `ORDER BY created_at DESC, id DESC` -/
def newestFirst (r s : ApprovalRequestRow) : Prop :=
  s.createdAt < r.createdAt ∨ (s.createdAt = r.createdAt ∧ s.id ≤ r.id)

instance (r s : ApprovalRequestRow) : Decidable (newestFirst r s) :=
  inferInstanceAs (Decidable (_ ∨ _))

def page (σ : Store) (workspaceId : String) (status : Option ApprovalStatus)
    (limit offset : Nat) : List ApprovalRequestRow :=
  (((σ.matching workspaceId status).insertionSort newestFirst).drop offset).take limit

/-- The parent row that the composite foreign key of a new row asks for is there. -/
def hasParent (σ : Store) (row : NewRow) : Bool :=
  row.foreignKey.all (fun k => (σ.request? k.1 k.2).isSome)

/-- The number of rows that the `WHERE` clause of a decision lets through. -/
def pendingCount (σ : Store) (workspaceId requestId : String) : Nat :=
  σ.approvalRequests.countP
    (fun r => r.workspaceId == workspaceId && r.id == requestId && r.status == .pending)

def apply (σ : Store) : Write → Store
  | .insert row => σ.insert row
  | .update workspaceId requestId values => σ.update workspaceId requestId values

instance lawfulBEq_pair : LawfulBEq (String × String) := inferInstance

/-- The reply of a statement and what it writes. -/
def exec : (s : Statement) → Store → Reply s × List Write
  | .selectRequest ws id, σ => (σ.request? ws id, [])
  | .selectReviewers keys order, σ =>
    (order.arrange (σ.approvalRequestReviewers.filter
      (fun r => decide ((r.workspaceId, r.approvalRequestId) ∈ keys))), [])
  | .countRequests ws status, σ => ((σ.matching ws status).length, [])
  | .selectPage ws status limit offset, σ => (σ.page ws status limit offset, [])
  | .selectKey ws route key, σ => (σ.key? ws route key, [])
  | .updatePending ws id values, σ =>
    (σ.pendingCount ws id, if σ.pendingCount ws id = 0 then [] else [.update ws id values])
  | .insert row, σ =>
    if σ.has row.primaryKey = false ∧ σ.hasParent row = true then (true, [.insert row])
    else (false, [])
  | .log _, _ => ((), [])

end Store

/-! ## Writes that exclude one another -/

namespace Write

/-- Two inserts of one primary key, or two updates of one row. -/
def Conflict : Write → Write → Prop
  | insert row, insert row' => row.primaryKey = row'.primaryKey
  | update ws id _, update ws' id' _ => ws = ws' ∧ id = id'
  | _, _ => False

theorem Conflict.symm {w w' : Write} (h : Conflict w w') : Conflict w' w := by
  cases w <;> cases w' <;> first | exact Eq.symm h | exact ⟨h.1.symm, h.2.symm⟩ | exact h

end Write

def Statement.Waits : Statement → Write → Prop
  | .updatePending ws id values, w => Write.Conflict (.update ws id values) w
  | .insert row, w => Write.Conflict (.insert row) w
  | _, _ => False

/-- The writes of an open transaction: none of the inserted keys is in the committed
store, none is inserted twice, and an updated row is still pending there unless the
transaction has inserted it itself. -/
structure Held (δ : List Write) (σ : Store) : Prop where
  fresh : ∀ row, Write.insert row ∈ δ → σ.has row.primaryKey = false
  distinct : δ.Pairwise (fun w w' => ∀ row row', w = .insert row → w' = .insert row' →
    row.primaryKey ≠ row'.primaryKey)
  pending : ∀ ws id values, Write.update ws id values ∈ δ →
    (∃ r ∈ σ.approvalRequests, r.workspaceId = ws ∧ r.id = id ∧ r.status = .pending) ∨
      ∃ r, Write.insert (.approvalRequest r) ∈ δ ∧ r.workspaceId = ws ∧ r.id = id

/-! ## The store under a list of writes -/

theorem has_foldl {δ : List Write} {σ : Store} {k : PrimaryKey} :
    (δ.foldl Store.apply σ).has k = true ↔
      σ.has k = true ∨ ∃ row, Write.insert row ∈ δ ∧ row.primaryKey = k := by
  induction δ generalizing σ with
  | nil => simp
  | cons w δ ih =>
    rw [List.foldl_cons, ih]
    cases w with
    | insert row =>
      simp only [Store.apply, Store.has_insert, Bool.or_eq_true, beq_iff_eq, List.mem_cons,
        Write.insert.injEq]
      constructor
      · rintro ((h | h) | ⟨row', h, hk⟩)
        · exact Or.inl h
        · exact Or.inr ⟨row, Or.inl rfl, h⟩
        · exact Or.inr ⟨row', Or.inr h, hk⟩
      · rintro (h | ⟨row', rfl | h, hk⟩)
        · exact Or.inl (Or.inl h)
        · exact Or.inl (Or.inr hk)
        · exact Or.inr ⟨row', h, hk⟩
    | update ws id values => simp [Store.apply]

/-- Where a row of the store comes from. -/
theorem mem_requests_foldl {δ : List Write} {σ : Store} {r : ApprovalRequestRow}
    (h : r ∈ (δ.foldl Store.apply σ).approvalRequests) :
    r ∈ σ.approvalRequests ∨ (∃ values, Write.update r.workspaceId r.id values ∈ δ) ∨
      ∃ r', Write.insert (.approvalRequest r') ∈ δ ∧ r'.workspaceId = r.workspaceId ∧
        r'.id = r.id := by
  induction δ generalizing σ with
  | nil => exact Or.inl h
  | cons w δ ih =>
    rcases ih h with h | ⟨values, h⟩ | ⟨r', h, hr'⟩
    · cases w with
      | insert row =>
        cases row with
        | approvalRequest row =>
          rcases List.mem_append.mp h with h | h
          · exact Or.inl h
          · exact Or.inr (Or.inr ⟨row, List.mem_cons_self, by simp_all⟩)
        | _ => exact Or.inl h
      | update ws id values =>
        obtain ⟨r', hr', hr⟩ := List.mem_map.mp h
        split at hr
        · rename_i hk
          subst hr
          refine Or.inr (Or.inl ⟨values, ?_⟩)
          rw [show (r'.decided values).workspaceId = ws from hk.1,
            show (r'.decided values).id = id from hk.2]
          exact List.mem_cons_self
        · exact Or.inl (hr ▸ hr')
    · exact Or.inr (Or.inl ⟨values, List.mem_cons_of_mem _ h⟩)
    · exact Or.inr (Or.inr ⟨r', List.mem_cons_of_mem _ h, hr'⟩)

/-- A row that no update names stays as it is. -/
theorem mem_foldl_requests {δ : List Write} {σ : Store} {r : ApprovalRequestRow}
    (h : r ∈ σ.approvalRequests) (hδ : ∀ values, Write.update r.workspaceId r.id values ∉ δ) :
    r ∈ (δ.foldl Store.apply σ).approvalRequests := by
  induction δ generalizing σ with
  | nil => exact h
  | cons w δ ih =>
    refine ih ?_ (fun values hv => hδ values (List.mem_cons_of_mem _ hv))
    cases w with
    | insert row =>
      cases row <;> first | exact List.mem_append_left _ h | exact h
    | update ws id values =>
      refine List.mem_map.mpr ⟨r, h, if_neg ?_⟩
      rintro ⟨rfl, rfl⟩
      exact hδ values List.mem_cons_self

theorem pendingCount_ne_zero {σ : Store} {ws id : String} (h : σ.pendingCount ws id ≠ 0) :
    ∃ r ∈ σ.approvalRequests, r.workspaceId = ws ∧ r.id = id ∧ r.status = .pending := by
  obtain ⟨r, hr, hp⟩ := List.countP_pos_iff.mp (Nat.pos_of_ne_zero h)
  simp only [Bool.and_eq_true, beq_iff_eq] at hp
  exact ⟨r, hr, hp.1.1, hp.1.2, hp.2⟩

/-! ## The database -/

theorem Held.exec {δ : List Write} {σ : Store} (s : Statement) (h : Held δ σ) :
    Held (δ ++ (Store.exec s (δ.foldl Store.apply σ)).2) σ := by
  have hread : ∀ {ws : List Write}, ws = [] → Held (δ ++ ws) σ := by
    rintro ws rfl
    rwa [List.append_nil]
  cases s with
  | insert row =>
    simp only [Store.exec]
    split_ifs with hok
    · obtain ⟨hnew, -⟩ := hok
      rw [← Bool.not_eq_true, has_foldl, not_or] at hnew
      refine ⟨?_, ?_, ?_⟩
      · intro row' hmem
        rcases List.mem_append.mp hmem with hmem | hmem
        · exact h.fresh row' hmem
        · obtain rfl : row' = row := by simpa using hmem
          exact Bool.eq_false_iff.mpr hnew.1
      · refine List.pairwise_append.mpr ⟨h.distinct, List.pairwise_singleton _ _, ?_⟩
        rintro w hw w' hw' r r' rfl rfl hk
        obtain rfl : r' = row := by simpa using hw'
        exact hnew.2 ⟨r, hw, hk⟩
      · intro ws id values hmem
        rcases List.mem_append.mp hmem with hmem | hmem
        · rcases h.pending ws id values hmem with hp | ⟨r, hr, hk⟩
          · exact Or.inl hp
          · exact Or.inr ⟨r, List.mem_append_left _ hr, hk⟩
        · simp at hmem
    · exact hread rfl
  | updatePending ws id values =>
    simp only [Store.exec]
    split_ifs with hcount
    · exact hread rfl
    · obtain ⟨r, hr, rfl, rfl, hp⟩ := pendingCount_ne_zero hcount
      have hsrc : (∃ r' ∈ σ.approvalRequests, r'.workspaceId = r.workspaceId ∧ r'.id = r.id ∧
          r'.status = .pending) ∨ ∃ r', Write.insert (.approvalRequest r') ∈ δ ∧
            r'.workspaceId = r.workspaceId ∧ r'.id = r.id := by
        rcases mem_requests_foldl hr with hr | ⟨values', hr⟩ | hr
        · exact Or.inl ⟨r, hr, rfl, rfl, hp⟩
        · exact h.pending _ _ _ hr
        · exact Or.inr hr
      have hkeep : ∀ ws' id', (∃ r', Write.insert (.approvalRequest r') ∈ δ ∧
          r'.workspaceId = ws' ∧ r'.id = id') → ∃ r', Write.insert (.approvalRequest r') ∈
            δ ++ [.update r.workspaceId r.id values] ∧ r'.workspaceId = ws' ∧ r'.id = id' :=
        fun _ _ ⟨r', hr', hk⟩ => ⟨r', List.mem_append_left _ hr', hk⟩
      refine ⟨?_, ?_, ?_⟩
      · intro row hmem
        rcases List.mem_append.mp hmem with hmem | hmem
        · exact h.fresh row hmem
        · simp at hmem
      · refine List.pairwise_append.mpr ⟨h.distinct, List.pairwise_singleton _ _, ?_⟩
        rintro w hw w' hw' row row' rfl rfl hk
        simp at hw'
      · intro ws' id' values' hmem
        rcases List.mem_append.mp hmem with hmem | hmem
        · exact (h.pending ws' id' values' hmem).imp_right (hkeep ws' id')
        · simp only [List.mem_singleton, Write.update.injEq] at hmem
          obtain ⟨rfl, rfl, -⟩ := hmem
          exact hsrc.imp_right (hkeep _ _)
  | _ => exact hread rfl

theorem Held.commit {δ δ' : List Write} {σ : Store} (h : Held δ σ)
    (hap : ∀ w ∈ δ, ∀ w' ∈ δ', ¬ Write.Conflict w w') : Held δ (δ'.foldl Store.apply σ) := by
  refine ⟨?_, h.distinct, ?_⟩
  · intro row hrow
    rw [Bool.eq_false_iff, ne_eq, has_foldl]
    rintro (hk | ⟨row', hrow', hk⟩)
    · rw [h.fresh row hrow] at hk
      cases hk
    · exact hap _ hrow _ hrow' hk.symm
  · intro ws id values hupd
    refine (h.pending ws id values hupd).imp_left ?_
    rintro ⟨r, hr, rfl, rfl, hp⟩
    exact ⟨r, mem_foldl_requests hr (fun values' hv => hap _ hupd _ hv ⟨rfl, rfl⟩), rfl, rfl, hp⟩

/-- The database of the service. -/
def approvalDb : Database Reply Store Write where
  exec := Store.exec
  apply := Store.apply
  Conflict := Write.Conflict
  Waits := Statement.Waits
  Held := Held
  conflict_symm := Write.Conflict.symm
  waits_of_conflict := by
    intro s σ w w' hw hc
    cases s with
    | insert row =>
      simp only [Store.exec] at hw
      split_ifs at hw
      · obtain rfl : w = .insert row := by simpa using hw
        exact hc
      · cases hw
    | updatePending ws id values =>
      simp only [Store.exec] at hw
      split_ifs at hw
      · cases hw
      · obtain rfl : w = .update ws id values := by simpa using hw
        exact hc
    | _ => cases hw
  held_nil _ := ⟨by simp, List.Pairwise.nil, by simp⟩
  held_exec s h := h.exec s
  held_commit h _ hap := h.commit hap

end ContentApproval
