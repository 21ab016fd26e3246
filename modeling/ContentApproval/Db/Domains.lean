import ContentApproval.Db.Statements
import ContentApproval.Json.Texts

/-!
# What Postgres can take

The texts and the integers that a statement binds (`Statement.texts`, `Statement.integers`)
and whether Postgres can take them: neither a `text` nor a `jsonb` value can hold U+0000,
and `LIMIT` and `OFFSET` are signed 64-bit integers. None of the columns has a length, and
every status code fits into its `integer` column. But an entry of an index must fit into a
third of a page after it was compressed; which entries do is a parameter (`Postgres`).
-/

namespace ContentApproval

/-! ## Texts -/

/-- Postgres can hold the text. -/
def NulFree (s : String) : Prop := '\x00' ∉ s.toList

instance : DecidablePred NulFree := fun s => inferInstanceAs (Decidable ('\x00' ∉ s.toList))

namespace NulFree

variable {s t : String}

@[simp] theorem append : NulFree (s ++ t) ↔ NulFree s ∧ NulFree t := by
  unfold NulFree
  rw [String.toList_append, List.mem_append, not_or]

theorem sourceType (t : SourceType) : NulFree t.value := by cases t <;> decide

theorem status (t : ApprovalStatus) : NulFree t.value := by cases t <;> decide

theorem auditAction (t : AuditAction) : NulFree t.value := by cases t <;> decide

theorem eventType (t : OutboxEventType) : NulFree t.value := by cases t <;> decide

end NulFree

theorem NulFree.isoformat (t : Instant) : NulFree t.isoformat := by
  have hdigits : ∀ width n, '\x00' ∉ Instant.digits width n := by
    intro width n
    induction width with
    | zero => exact List.not_mem_nil
    | succ width ih =>
      have hdigit : ∀ d : Fin 10, '\x00' ≠ Nat.digitChar d := by decide
      have hfirst := hdigit ⟨n / 10 ^ width % 10, Nat.mod_lt _ (by decide)⟩
      exact fun h => (List.mem_cons.mp h).elim hfirst ih
  unfold NulFree Instant.isoformat Instant.isoChars
  rw [String.toList_ofList]
  dsimp only
  split_ifs <;> simp [hdigits]

/-! ## What a statement binds -/

def DecisionValues.texts (v : DecisionValues) : List String :=
  v.status.value :: v.decidedByUserId :: (v.decisionComment.toList ++ v.decisionReason.toList)

/-- The text and `jsonb` values of a new row. -/
def NewRow.texts : NewRow → List String
  | .approvalRequest r => [r.id, r.workspaceId, r.sourceType.value, r.sourceId, r.title] ++
    r.description.toList ++ [r.status.value, r.createdByUserId] ++ r.decidedByUserId.toList ++
    r.decisionComment.toList ++ r.decisionReason.toList
  | .reviewer r => [r.workspaceId, r.approvalRequestId, r.reviewerUserId]
  | .auditLogEntry r => [r.id, r.workspaceId, r.approvalRequestId, r.actorUserId, r.action.value] ++
    r.details.toList.flatMap Json.texts
  | .outboxEvent r => [r.id, r.workspaceId, r.approvalRequestId, r.eventType] ++ r.payload.texts
  | .idempotencyKey r => [r.workspaceId, r.route, r.idempotencyKey, r.requestFingerprint] ++
    r.responseBody.texts

def Statement.texts : Statement → List String
  | .selectRequest ws id => [ws, id]
  | .selectReviewers keys _ => keys.flatMap (fun key => [key.1, key.2])
  | .countRequests ws status => ws :: status.toList.map ApprovalStatus.value
  | .selectPage ws status _ _ => ws :: status.toList.map ApprovalStatus.value
  | .selectKey ws route key => [ws, route, key]
  | .updatePending ws id values => ws :: id :: values.texts
  | .insert row => row.texts
  | .log _ => []

/-- The parameters of `LIMIT` and `OFFSET`. -/
def Statement.integers : Statement → List Nat
  | .selectPage _ _ limit offset => [limit, offset]
  | _ => []

/-! ## What an index holds -/

/-- A Postgres, by the entries that its indexes can take. Of an entry only the texts count, not
the datetime or the status beside them. -/
structure Postgres where
  indexes : List String → Bool

/-- The entries that the indexes of its table get for a new row. -/
def NewRow.indexEntries : NewRow → List (List String)
  | .approvalRequest r => [[r.id], [r.workspaceId, r.id], [r.workspaceId]]
  | .reviewer r => [[r.workspaceId, r.approvalRequestId, r.reviewerUserId]]
  | .auditLogEntry r => [[r.id], [r.workspaceId, r.approvalRequestId]]
  | .outboxEvent r => [[r.id]]
  | .idempotencyKey r => [[r.workspaceId, r.route, r.idempotencyKey]]

/-- The entries that a statement makes. An update leaves the texts of the entries of its row. -/
def Statement.indexEntries : Statement → List (List String)
  | .insert row => row.indexEntries
  | _ => []

/-! ## What a statement needs -/

/-- Postgres can take every value that the statement binds, and its indexes every entry. -/
structure Statement.Bindable (s : Statement) (pg : Postgres) : Prop where
  texts : ∀ t ∈ s.texts, NulFree t
  integers : ∀ n ∈ s.integers, n < 2 ^ 63
  entries : ∀ e ∈ s.indexEntries, pg.indexes e = true

instance (pg : Postgres) : DecidablePred (Statement.Bindable · pg) := fun s =>
  decidable_of_iff ((∀ t ∈ s.texts, NulFree t) ∧ (∀ n ∈ s.integers, n < 2 ^ 63) ∧
      ∀ e ∈ s.indexEntries, pg.indexes e = true)
    ⟨fun h => ⟨h.1, h.2.1, h.2.2⟩, fun h => ⟨h.texts, h.integers, h.entries⟩⟩

structure NewRow.Bindable (row : NewRow) (pg : Postgres) : Prop where
  texts : ∀ t ∈ row.texts, NulFree t
  entries : ∀ e ∈ row.indexEntries, pg.indexes e = true

variable {pg : Postgres}

@[simp] theorem Statement.bindable_insert {row : NewRow} :
    (Statement.insert row).Bindable pg ↔ row.Bindable pg :=
  ⟨fun h => ⟨h.texts, h.entries⟩, fun h => ⟨h.texts, fun _ hn => absurd hn List.not_mem_nil,
    h.entries⟩⟩

@[simp] theorem Statement.bindable_log (record : LogRecord) :
    (Statement.log record).Bindable pg :=
  ⟨fun _ ht => absurd ht List.not_mem_nil, fun _ hn => absurd hn List.not_mem_nil,
    fun _ he => absurd he List.not_mem_nil⟩

/-- The exception of the driver for a statement that Postgres does not take. -/
def dataError : Exn := .unexpected "DataError"

/-! ## What the tables hold -/

/-- All rows of the tables. -/
def Store.rows (σ : Store) : List NewRow :=
  σ.approvalRequests.map .approvalRequest ++ σ.approvalRequestReviewers.map .reviewer ++
    σ.auditLogEntries.map .auditLogEntry ++ σ.outboxEvents.map .outboxEvent ++
    σ.idempotencyKeys.map .idempotencyKey

/-- Every text in the tables is one that Postgres can hold, and so is every entry of an index. -/
def Store.Clean (σ : Store) (pg : Postgres) : Prop := ∀ row ∈ σ.rows, row.Bindable pg

theorem Store.clean_empty : Store.empty.Clean pg := fun _ hrow => absurd hrow List.not_mem_nil

theorem Store.Clean.insert {σ : Store} (h : σ.Clean pg) {row : NewRow} (hrow : row.Bindable pg) :
    (σ.insert row).Clean pg := by
  intro row' hrow'
  have hmem : row' ∈ σ.rows ∨ row' = row := by
    cases row <;> simp only [Store.insert, rows, List.map_append, List.map_cons, List.map_nil,
      List.mem_append, List.mem_singleton] at hrow' ⊢ <;> grind
  rcases hmem with hmem | rfl
  · exact h row' hmem
  · exact hrow

theorem Store.Clean.update {σ : Store} (h : σ.Clean pg) {values : DecisionValues}
    (hvalues : ∀ t ∈ values.texts, NulFree t) (ws id : String) :
    (σ.update ws id values).Clean pg := by
  intro row hrow
  simp only [Store.rows, List.append_assoc, List.mem_append] at hrow
  rcases hrow with hrow | hrow
  · obtain ⟨r, hr, rfl⟩ := List.mem_map.mp hrow
    obtain ⟨r₀, hr₀, rfl⟩ := List.mem_map.mp hr
    have hold : (NewRow.approvalRequest r₀).Bindable pg := by
      refine h _ ?_
      simp only [Store.rows, List.append_assoc]
      exact List.mem_append_left _ (List.mem_map_of_mem hr₀)
    split_ifs
    · refine ⟨fun t ht => ?_, hold.entries⟩
      have htexts := hold.texts
      simp only [NewRow.texts, ApprovalRequestRow.decided, DecisionValues.texts, List.mem_append,
        List.mem_cons, List.not_mem_nil, or_false, Option.toList_some] at ht htexts hvalues
      grind
    · exact hold
  · refine h row ?_
    simp only [Store.rows, List.append_assoc, List.mem_append]
    exact Or.inr hrow

/-- **What an accepted statement writes keeps the tables clean.** -/
theorem Store.Clean.apply {σ σ' : Store} {s : Statement} {x : Write} (hs : s.Bindable pg)
    (hx : x ∈ (approvalDb.exec s σ').2) (h : σ.Clean pg) : (approvalDb.apply σ x).Clean pg := by
  cases s with
  | insert row =>
    simp only [approvalDb, Store.exec] at hx
    split_ifs at hx
    · obtain rfl := List.mem_singleton.mp hx
      exact h.insert (Statement.bindable_insert.mp hs)
    · cases hx
  | updatePending ws id values =>
    simp only [approvalDb, Store.exec] at hx
    split_ifs at hx
    · cases hx
    · obtain rfl := List.mem_singleton.mp hx
      exact h.update (fun t ht => hs.texts t (List.mem_cons_of_mem _ (List.mem_cons_of_mem _ ht))) ws id
  | _ => cases hx

theorem Store.Clean.request {σ : Store} (h : σ.Clean pg) {r : ApprovalRequestRow}
    (hr : r ∈ σ.approvalRequests) : (NewRow.approvalRequest r).Bindable pg := by
  refine h _ ?_
  simp only [Store.rows, List.append_assoc]
  exact List.mem_append_left _ (List.mem_map_of_mem hr)

theorem Store.Clean.reviewer {σ : Store} (h : σ.Clean pg) {r : ApprovalRequestReviewer}
    (hr : r ∈ σ.approvalRequestReviewers) : (NewRow.reviewer r).Bindable pg := by
  refine h _ ?_
  simp only [Store.rows, List.append_assoc]
  exact List.mem_append_right _ (List.mem_append_left _ (List.mem_map_of_mem hr))

end ContentApproval
