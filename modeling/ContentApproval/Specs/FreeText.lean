import ContentApproval.Specs.Locality
import ContentApproval.Api.Errors

/-!
# Two stores with different texts

Two stores are the same but for text if their rows differ in nothing but titles,
descriptions, comments, reasons, and what is computed from them (`Store.SameButText`).
Programs are related on such stores by `Tx.Alike`: they log the same and leave such stores.
`serve_sameButText` relates two calls whose bodies differ in texts.
-/

namespace ContentApproval

open Transactions SqlApprovalRequestRepository AsyncSession ApprovalService Idempotency
  AuthDependencies

/-! ## What is not text -/

def ApprovalRequestRow.withoutText (row : ApprovalRequestRow) : ApprovalRequestRow :=
  { row with title := "", description := none, decisionComment := none, decisionReason := none }

def AuditLogEntry.withoutText (row : AuditLogEntry) : AuditLogEntry := { row with details := none }

def IdempotencyKey.withoutText (row : IdempotencyKey) : IdempotencyKey :=
  { row with requestFingerprint := "", responseBody := .null }

def DecisionValues.withoutText (values : DecisionValues) : DecisionValues :=
  { values with decisionComment := none, decisionReason := none }

def ApprovalRequest.withoutText (r : ApprovalRequest) : ApprovalRequest :=
  { r with title := "", description := none, decisionComment := none, decisionReason := none }

def ApprovalRequestCreate.withoutText (p : ApprovalRequestCreate) : ApprovalRequestCreate :=
  { p with title := "", description := none }

theorem ApprovalRequestCreate.eq_but_text {p p' : ApprovalRequestCreate}
    (h : p.withoutText = p'.withoutText) : p.sourceType = p'.sourceType ∧
      p.sourceId = p'.sourceId ∧ p.reviewerUserIds = p'.reviewerUserIds := by
  cases p
  cases p'
  simpa [withoutText] using h

def NewRow.withoutText : NewRow → NewRow
  | approvalRequest row => .approvalRequest row.withoutText
  | reviewer row => .reviewer row
  | auditLogEntry row => .auditLogEntry row.withoutText
  | outboxEvent row => .outboxEvent row
  | idempotencyKey row => .idempotencyKey row.withoutText

def Store.withoutText (σ : Store) : Store where
  approvalRequests := σ.approvalRequests.map ApprovalRequestRow.withoutText
  approvalRequestReviewers := σ.approvalRequestReviewers
  auditLogEntries := σ.auditLogEntries.map AuditLogEntry.withoutText
  outboxEvents := σ.outboxEvents
  idempotencyKeys := σ.idempotencyKeys.map IdempotencyKey.withoutText

/-- The stores differ in texts only. -/
def Store.SameButText (σ τ : Store) : Prop := σ.withoutText = τ.withoutText

/-- The rows to flush differ in texts only. -/
def SameRows (rows rows' : List NewRow) : Prop :=
  rows.map NewRow.withoutText = rows'.map NewRow.withoutText

theorem SameRows.append {rows rows' new new' : List NewRow} (h : SameRows rows rows')
    (hnew : SameRows new new') : SameRows (rows ++ new) (rows' ++ new') := by
  rw [SameRows, List.map_append, List.map_append, h, hnew]

namespace Store

variable (σ : Store)

theorem insert_withoutText (row : NewRow) :
    (σ.insert row).withoutText = σ.withoutText.insert row.withoutText := by
  cases row <;> simp [insert, withoutText, NewRow.withoutText]

theorem update_withoutText (ws id : String) (values : DecisionValues) :
    (σ.update ws id values).withoutText = σ.withoutText.update ws id values.withoutText := by
  simp only [update, withoutText, List.map_map]
  congr 1
  refine List.map_congr_left fun r _ => ?_
  simp only [Function.comp_apply]
  split <;> rename_i h
  · exact (if_pos h).symm
  · exact (if_neg h).symm

theorem has_withoutText (k : PrimaryKey) : σ.withoutText.has k = σ.has k := by
  cases k <;> simp only [withoutText, has, List.any_map] <;> rfl

theorem primaryKey_withoutText (row : NewRow) : row.withoutText.primaryKey = row.primaryKey := by
  cases row <;> rfl

theorem request?_withoutText (ws id : String) :
    σ.withoutText.request? ws id = (σ.request? ws id).map ApprovalRequestRow.withoutText := by
  rw [request?, withoutText, List.find?_map]
  rfl

theorem key?_withoutText (ws route key : String) :
    σ.withoutText.key? ws route key = (σ.key? ws route key).map IdempotencyKey.withoutText := by
  rw [key?, withoutText, List.find?_map]
  rfl

theorem pendingCount_withoutText (ws id : String) :
    σ.withoutText.pendingCount ws id = σ.pendingCount ws id := by
  rw [pendingCount, withoutText, List.countP_map]
  rfl

theorem hasParent_withoutText (row : NewRow) :
    σ.withoutText.hasParent row.withoutText = σ.hasParent row := by
  cases row <;>
    simp only [hasParent, NewRow.withoutText, NewRow.foreignKey, Option.all_some, Option.all_none,
      request?_withoutText, Option.isSome_map, AuditLogEntry.withoutText]

end Store

/-! ## Related programs -/

/-- How two programs have ended that do the same but for text. -/
def Agree {α β : Type} (V : α → β → Prop) : Except Exn (α × List NewRow) → Store →
    Except Exn (β × List NewRow) → Store → Prop
  | .ok (a, p), u, .ok (b, p'), u' => V a b ∧ SameRows p p' ∧ u.SameButText u'
  | .error _, _, .error _, _ => True
  | _, _, _, _ => False

theorem Agree.cases {α β : Type} {V : α → β → Prop} {r : Except Exn (α × List NewRow)}
    {u : Store} {r' : Except Exn (β × List NewRow)} {u' : Store} (h : Agree V r u r' u') :
    (∃ e e', r = .error e ∧ r' = .error e') ∨
      ∃ a p b p', r = .ok (a, p) ∧ r' = .ok (b, p') ∧ V a b ∧ SameRows p p' ∧
        u.SameButText u' := by
  cases r with
  | error e =>
    cases r' with
    | error e' => exact Or.inl ⟨e, e', rfl, rfl⟩
    | ok b => exact h.elim
  | ok a =>
    cases r' with
    | error e' => exact h.elim
    | ok b => exact Or.inr ⟨a.1, a.2, b.1, b.2, rfl, rfl, h⟩

/-- On stores and pending rows that differ in texts only, the programs log the same and end
like each other, with values that `V` relates. -/
def Tx.Alike {α β : Type} (V : α → β → Prop) (m : Tx α) (m' : Tx β) : Prop :=
  ∀ p p' v v', SameRows p p' → v.SameButText v' →
    Together approvalDb Statement.record? (m p) v (m' p') v' (Agree V)

namespace Tx.Alike

variable {α β γ κ : Type}

theorem pure {V : α → β → Prop} {a : α} {b : β} (h : V a b) : Tx.Alike V (pure a) (pure b) :=
  fun _ _ _ _ hp hv => Together.stop (.ok _) (.ok _) ⟨h, hp, hv⟩

theorem throw {V : α → β → Prop} (e e' : Exn) : Tx.Alike V (throw e) (throw e') :=
  fun _ _ _ _ _ _ => Together.stop (.error _) (.error _) trivial

theorem bind {V : α → β → Prop} {W : γ → κ → Prop} {m : Tx α} {m' : Tx β} {f : α → Tx γ}
    {g : β → Tx κ} (hm : Tx.Alike V m m') (hf : ∀ a b, V a b → Tx.Alike W (f a) (g b)) :
    Tx.Alike W (m >>= f) (m' >>= g) := by
  intro p p' v v' hp hv
  refine Together.bind ((hm p p' v v' hp hv).mono fun {r u r' u'} h => ?_)
  obtain ⟨e, e', rfl, rfl⟩ | ⟨a, q, b, q', rfl, rfl, hab, hq, hu⟩ := h.cases
  · exact Together.stop (.error _) (.error _) trivial
  · exact hf a b hab q q' u u' hq hu

/-- Two statements with related replies that leave such stores and are logged alike. -/
theorem send {s s' : Statement} (V : Reply s → Reply s' → Prop)
    (hlook : s.record? = s'.record?)
    (h : ∀ v v', v.SameButText v' → V (approvalDb.exec s v).1 (approvalDb.exec s' v').1 ∧
      (approvalDb.view v (approvalDb.exec s v).2).SameButText
        (approvalDb.view v' (approvalDb.exec s' v').2)) :
    Tx.Alike V (StateT.lift (send s)) (StateT.lift (send s')) := by
  intro p p' v v' hp hv
  obtain ⟨hV, hview⟩ := h v v' hv
  exact Together.exec hlook (Together.stop (.ok _) (.ok _) ⟨hV, hp, hview⟩)

theorem add {row row' : NewRow} (h : row.withoutText = row'.withoutText) :
    Tx.Alike (fun _ _ => True) (add row) (add row') :=
  fun _ _ _ _ hp hv => Together.stop (.ok _) (.ok _)
    ⟨trivial, hp.append (by rw [SameRows, List.map_singleton, List.map_singleton, h]), hv⟩

theorem logRecord (record : LogRecord) :
    Tx.Alike (fun _ _ => True) (logRecord record) (logRecord record) := by
  unfold ContentApproval.logRecord
  exact send (fun _ _ => True) rfl fun v v' hv => ⟨trivial, hv⟩

/-- An `INSERT` of rows that differ in texts only. -/
theorem exec_insert {row row' : NewRow} (h : row.withoutText = row'.withoutText) {v v' : Store}
    (hv : v.SameButText v') :
    ((approvalDb.exec (.insert row) v).1 : Bool) = (approvalDb.exec (.insert row') v').1 ∧
      (approvalDb.view v (approvalDb.exec (.insert row) v).2).SameButText
        (approvalDb.view v' (approvalDb.exec (.insert row') v').2) := by
  have hsame : v.withoutText = v'.withoutText := hv
  have hhas : v.has row.primaryKey = v'.has row'.primaryKey := by
    rw [← v.has_withoutText, ← Store.primaryKey_withoutText row, h, hsame, v'.has_withoutText,
      Store.primaryKey_withoutText]
  have hparent : v.hasParent row = v'.hasParent row' := by
    rw [← v.hasParent_withoutText, h, hsame, v'.hasParent_withoutText]
  simp only [approvalDb, Store.exec, hhas, hparent]
  split
  · refine ⟨rfl, ?_⟩
    change (v.insert row).withoutText = (v'.insert row').withoutText
    rw [Store.insert_withoutText, Store.insert_withoutText, h, hsame]
  · exact ⟨rfl, hv⟩

theorem insertAll {rows rows' : List NewRow} (h : SameRows rows rows') {v v' : Store}
    (hv : v.SameButText v') :
    Together approvalDb Statement.record? (insertAll rows) v (insertAll rows') v'
      (fun r u r' u' => r = r' ∧ u.SameButText u') := by
  induction rows generalizing rows' v v' with
  | nil =>
    obtain rfl : rows' = [] := List.map_eq_nil_iff.mp h.symm
    exact Together.stop (.ok _) (.ok _) ⟨rfl, hv⟩
  | cons row rows ih =>
    obtain ⟨row', rest, rfl, hrow, hrest⟩ := List.map_eq_cons_iff.mp h.symm
    rw [insertAll_cons, insertAll_cons]
    obtain ⟨hreply, hview⟩ := exec_insert hrow.symm hv
    have hgo : ∀ inserted : Bool, Together approvalDb Statement.record?
        (if inserted then AsyncSession.insertAll rows else .throw .integrityError)
        (approvalDb.view v (approvalDb.exec (.insert row) v).2)
        (if inserted then AsyncSession.insertAll rest else .throw .integrityError)
        (approvalDb.view v' (approvalDb.exec (.insert row') v').2)
        (fun r u r' u' => r = r' ∧ u.SameButText u') := by
      intro inserted
      cases inserted with
      | false => exact Together.stop (.error _) (.error _) ⟨rfl, hview⟩
      | true => exact ih hrest.symm hview
    refine Together.exec rfl ?_
    rw [← hreply]
    exact hgo _

theorem flush : Tx.Alike (fun _ _ => True) flush flush := by
  intro p p' v v' hp hv
  rw [flush_eq, flush_eq]
  refine Together.bind ((insertAll hp hv).mono fun {r u r' u'} h => ?_)
  obtain ⟨rfl, hu⟩ := h
  cases r with
  | ok a => exact Together.stop (.ok _) (.ok _) ⟨trivial, rfl, hu⟩
  | error e => exact Together.stop (.error _) (.error _) trivial

theorem execute {s s' : Statement} {V : Reply s → Reply s' → Prop}
    (h : Tx.Alike V (StateT.lift (AsyncSession.send s)) (StateT.lift (AsyncSession.send s'))) :
    Tx.Alike V (execute s) (execute s') :=
  flush.bind fun _ _ _ => h

end Tx.Alike

section Functions

variable {env : Env} {ws : String}

theorem selectRequest_alike (id : String) :
    Tx.Alike (fun row row' : Option ApprovalRequestRow =>
        row.map ApprovalRequestRow.withoutText = row'.map ApprovalRequestRow.withoutText)
      (execute (.selectRequest ws id)) (execute (.selectRequest ws id)) := by
  refine Tx.Alike.execute (Tx.Alike.send _ rfl fun v v' hv => ⟨?_, hv⟩)
  change (v.request? ws id).map _ = (v'.request? ws id).map _
  rw [← v.request?_withoutText, hv, v'.request?_withoutText]

theorem selectReviewers_alike (keys : List (String × String)) (order : RowOrder) :
    Tx.Alike (fun rows rows' : List ApprovalRequestReviewer => rows = rows')
      (execute (.selectReviewers keys order)) (execute (.selectReviewers keys order)) := by
  refine Tx.Alike.execute (Tx.Alike.send _ rfl fun v v' hv => ⟨?_, hv⟩)
  have hsame : v.withoutText = v'.withoutText := hv
  have hrows := congrArg Store.approvalRequestReviewers hsame
  exact congrArg (fun rows : List ApprovalRequestReviewer => order.arrange (rows.filter
    (fun r => decide ((r.workspaceId, r.approvalRequestId) ∈ keys)))) hrows

/-- Entities that differ in texts only. -/
def SameEntity (e e' : ApprovalRequest) : Prop := e.withoutText = e'.withoutText

namespace SameEntity

variable {e e' : ApprovalRequest} (h : SameEntity e e')

include h

theorem status : e.status = e'.status := by
  have hfield := congrArg ApprovalRequest.status h
  exact hfield

theorem reviewerUserIds : e.reviewerUserIds = e'.reviewerUserIds := by
  have hfield := congrArg ApprovalRequest.reviewerUserIds h
  exact hfield

theorem createdByUserId : e.createdByUserId = e'.createdByUserId := by
  have hfield := congrArg ApprovalRequest.createdByUserId h
  exact hfield

end SameEntity

theorem get_alike (site : Nat) (id : String) :
    Tx.Alike (fun e e' : Option ApprovalRequest =>
        e.map ApprovalRequest.withoutText = e'.map ApprovalRequest.withoutText)
      (get env site ws id) (get env site ws id) := by
  refine (selectRequest_alike id).bind fun row? row?' hrow => ?_
  change Option ApprovalRequestRow at row? row?'
  cases row? with
  | none =>
    obtain rfl : row?' = none := by simpa using hrow.symm
    exact Tx.Alike.pure (V := fun e e' : Option ApprovalRequest =>
      e.map ApprovalRequest.withoutText = e'.map ApprovalRequest.withoutText) rfl
  | some row =>
    obtain ⟨row', rfl, hrow'⟩ := Option.map_eq_some_iff.mp hrow.symm
    have hkey := congrArg (fun r : ApprovalRequestRow => [(r.workspaceId, r.id)]) hrow'
    change [(row'.workspaceId, row'.id)] = [(row.workspaceId, row.id)] at hkey
    have hload : ∀ r : ApprovalRequestRow, selectinload (env.rowOrder site) (some r).toList =
        execute (.selectReviewers [(r.workspaceId, r.id)] (env.rowOrder site)) := fun _ => rfl
    rw [hload, hload, hkey]
    refine (selectReviewers_alike _ _).bind fun rows rows' h => Tx.Alike.pure ?_
    obtain rfl : rows = rows' := h
    exact congrArg (fun r => some (toEntity env.dialect.load r (reviewersOfRow rows r)))
      hrow'.symm

theorem updatePending_alike (id : String) {values values' : DecisionValues}
    (h : values.withoutText = values'.withoutText) :
    Tx.Alike (fun rowcount rowcount' : Nat => rowcount = rowcount')
      (execute (.updatePending ws id values)) (execute (.updatePending ws id values')) := by
  refine Tx.Alike.execute (Tx.Alike.send _ rfl fun v v' hv => ?_)
  have hsame : v.withoutText = v'.withoutText := hv
  have hcount : v.pendingCount ws id = v'.pendingCount ws id := by
    rw [← v.pendingCount_withoutText, hsame, v'.pendingCount_withoutText]
  refine ⟨hcount, ?_⟩
  simp only [approvalDb, Store.exec, hcount]
  split
  · exact hv
  · change (v.update ws id values).withoutText = (v'.update ws id values').withoutText
    rw [Store.update_withoutText, Store.update_withoutText, h, hsame]

theorem transition_alike (id : String) (status : ApprovalStatus) (actor : String)
    (comment reason comment' reason' : Option String) :
    Tx.Alike SameEntity (transition env ws id status actor comment reason)
      (transition env ws id status actor comment' reason') := by
  refine (updatePending_alike id (by rfl)).bind fun rowcount rowcount' hcount => ?_
  obtain rfl : rowcount = rowcount' := hcount
  split
  · refine (get_alike 1 id).bind fun e e' he => ?_
    cases e with
    | none =>
      obtain rfl : e' = none := by simpa using he.symm
      exact Tx.Alike.throw _ _
    | some e =>
      obtain ⟨e', rfl, he'⟩ := Option.map_eq_some_iff.mp he.symm
      exact Tx.Alike.pure he'.symm
  · refine (get_alike 2 id).bind fun e e' _ => ?_
    cases e <;> cases e' <;> exact Tx.Alike.throw _ _

theorem getOrRaise_alike (id : String) :
    Tx.Alike SameEntity (getOrRaise env ws id) (getOrRaise env ws id) := by
  refine (get_alike 0 id).bind fun e e' he => ?_
  cases e with
  | none =>
    obtain rfl : e' = none := by simpa using he.symm
    exact Tx.Alike.throw _ _
  | some e =>
    obtain ⟨e', rfl, he'⟩ := Option.map_eq_some_iff.mp he.symm
    exact Tx.Alike.pure he'.symm

theorem requireEntitled_alike (id actor : String) (d : Decision) {e e' : ApprovalRequest}
    (h : SameEntity e e') : Tx.Alike (fun _ _ => True) (requireEntitled id e actor d)
      (requireEntitled id e' actor d) := by
  have hreviewer : Tx.Alike (fun _ _ => True) (requireReviewer e actor)
      (requireReviewer e' actor) := by
    unfold requireReviewer
    rw [h.reviewerUserIds]
    split
    · exact Tx.Alike.throw _ _
    · exact Tx.Alike.pure trivial
  cases d with
  | approve => exact hreviewer
  | reject => exact hreviewer
  | cancel =>
    simp only [requireEntitled, requireCreator, h.createdByUserId]
    split
    · exact Tx.Alike.throw _ _
    · exact Tx.Alike.pure trivial

/-- A decision with other texts. -/
theorem decideRequest_alike (d : Decision) (id actor : String)
    (comment reason comment' reason' : Option String) :
    Tx.Alike SameEntity (decideRequest env d ws id actor comment reason)
      (decideRequest env d ws id actor comment' reason') := by
  refine (getOrRaise_alike id).bind fun e e' he => ?_
  refine (requireEntitled_alike id actor d he).bind fun _ _ _ => ?_
  refine (transition_alike id d.newStatus actor comment reason comment' reason').bind
    fun u u' hu => ?_
  rw [← hu.status]
  refine (Tx.Alike.add (by rfl)).bind fun _ _ _ => ?_
  refine (Tx.Alike.add (by rfl)).bind fun _ _ _ => ?_
  exact (Tx.Alike.logRecord _).bind fun _ _ _ => Tx.Alike.pure hu

theorem create_alike (actor : String) {p p' : ApprovalRequestCreate}
    (h : p.withoutText = p'.withoutText) :
    Tx.Alike SameEntity
      (create env env.requestId ws actor p.sourceType p.sourceId p.title p.description
        p.reviewerUserIds)
      (create env env.requestId ws actor p'.sourceType p'.sourceId p'.title p'.description
        p'.reviewerUserIds) := by
  obtain ⟨hsource, hid, hids⟩ := ApprovalRequestCreate.eq_but_text h
  rw [← hsource, ← hid, ← hids]
  have hreviewers : Tx.Alike (fun _ _ => True)
      (p.reviewerUserIds.forM (fun id => add (.reviewer ⟨ws, env.requestId, id⟩)))
      (p.reviewerUserIds.forM (fun id => add (.reviewer ⟨ws, env.requestId, id⟩))) := by
    intro q q' v v' hq hv
    rw [forM_add_eq, forM_add_eq]
    exact Together.stop (.ok _) (.ok _) ⟨trivial, hq.append rfl, hv⟩
  refine (Tx.Alike.add (by rfl)).bind fun _ _ _ => ?_
  refine hreviewers.bind fun _ _ _ => ?_
  exact Tx.Alike.flush.bind fun _ _ _ => Tx.Alike.pure rfl

/-- A creation with other texts. -/
theorem createRequest_alike (actor : String) {p p' : ApprovalRequestCreate}
    (h : p.withoutText = p'.withoutText) :
    Tx.Alike SameEntity
      (createRequest env ws actor p.sourceType p.sourceId p.title p.description
        p.reviewerUserIds)
      (createRequest env ws actor p'.sourceType p'.sourceId p'.title p'.description
        p'.reviewerUserIds) := by
  refine (create_alike actor h).bind fun e e' he => ?_
  obtain ⟨hsource, hid, hreviewers⟩ := ApprovalRequestCreate.eq_but_text h
  rw [← he.status, ← hsource, ← hid, ← hreviewers]
  refine (Tx.Alike.add (by rfl)).bind fun _ _ _ => ?_
  refine (Tx.Alike.add (by rfl)).bind fun _ _ _ => ?_
  exact (Tx.Alike.logRecord _).bind fun _ _ _ => Tx.Alike.pure he

end Functions

/-! ## Keyed calls -/

/-- How two calls have ended that started in `σ` and `τ`: as `Agree` says, or one of them was
refused and the other one has written nothing. -/
def Settled {α β : Type} (σ τ : Store) : Except Exn (α × List NewRow) → Store →
    Except Exn (β × List NewRow) → Store → Prop
  | .ok (_, p), u, .ok (_, p'), u' => SameRows p p' ∧ u.SameButText u'
  | .ok (_, p), u, .error _, _ => p = [] ∧ u = σ
  | .error _, _, .ok (_, p'), u' => p' = [] ∧ u' = τ
  | .error _, _, .error _, _ => True

section Calls

variable {env : Env} {ws : String} {σ τ : Store} {α β : Type}

theorem Agree.settled {V : α → β → Prop} {r : Except Exn (α × List NewRow)} {u : Store}
    {r' : Except Exn (β × List NewRow)} {u' : Store} (h : Agree V r u r' u') :
    Settled σ τ r u r' u' := by
  obtain ⟨e, e', rfl, rfl⟩ | ⟨a, p, b, p', rfl, rfl, -, h⟩ := h.cases
  · trivial
  · exact h

/-- A call that found its key in the ledger ends without another statement. -/
theorem afterLookup_found (env : Env) (ws route key fp : String)
    (handler : Tx (ApprovalRequestOut × Nat)) (existing : IdempotencyKey) :
    ∃ r, afterLookup env ws route key fp handler (some existing) = .stop r ∧
      ∀ p, r = .ok p → p.2 = [] := by
  unfold afterLookup
  dsimp only
  split
  · exact ⟨.error _, rfl, fun p hp => by cases hp⟩
  · split
    · exact ⟨.ok _, rfl, fun p hp => by cases hp; rfl⟩
    · exact ⟨.error _, rfl, fun p hp => by cases hp⟩

theorem ledgerFlush_alike {rows rows' : List NewRow} (h : SameRows rows rows')
    (hσ : σ.SameButText τ) : Together approvalDb Statement.record? (ledgerFlush rows) σ
      (ledgerFlush rows') τ (Agree (fun _ _ => True)) := by
  refine Together.catchError (Together.bind ((Tx.Alike.insertAll h hσ).mono
    fun {r u r' u'} hr => ?_))
  obtain ⟨rfl, hu⟩ := hr
  cases r with
  | ok a => exact Together.stop (.ok _) (.ok _) (Together.stop (.ok _) (.ok _) ⟨trivial, rfl, hu⟩)
  | error e =>
    refine Together.stop (.error _) (.error _) ?_
    cases e <;> exact Together.stop (.error _) (.error _) trivial

/-- Two calls that did not find their key run their handlers and enter the results. -/
theorem afterLookup_new (route key fp fp' : String)
    {handler handler' : Tx (ApprovalRequestOut × Nat)}
    (h : Tx.Alike (fun a b => a.2 = b.2) handler handler') (hσ : σ.SameButText τ) :
    Together approvalDb Statement.record? (afterLookup env ws route key fp handler none) σ
      (afterLookup env ws route key fp' handler' none) τ (Agree (fun _ _ => True)) := by
  unfold afterLookup
  refine Together.bind ((h [] [] σ τ rfl hσ).mono fun {r u r' u'} hr => ?_)
  obtain ⟨e, e', rfl, rfl⟩ | ⟨a, p, b, p', rfl, rfl, hcode, hp, hu⟩ := hr.cases
  · exact Together.stop (.error _) (.error _) trivial
  · have hrow : SameRows [.idempotencyKey ⟨ws, route, key, fp, a.2, a.1.modelDump,
        env.keyCreatedAt⟩] [.idempotencyKey ⟨ws, route, key, fp', b.2, b.1.modelDump,
        env.keyCreatedAt⟩] := by
      rw [hcode]
      rfl
    refine Together.bind ((ledgerFlush_alike (hp.append hrow) hu).mono fun {q v q' v'} hq => ?_)
    obtain ⟨e, e', rfl, rfl⟩ | ⟨-, q, -, q', rfl, rfl, -, hq, hv⟩ := hq.cases
    · exact Together.stop (.error _) (.error _) trivial
    · exact Together.stop (.ok _) (.ok _) ⟨trivial, hq, hv⟩

/-- Two calls under one key, with payloads of their own. In one of the stores the ledger may
have the fingerprint of its payload and in the other one not. -/
theorem runIdempotent_settled (sha256 : String → String) (route : String) (key : Option String)
    (payload payload' : Json) {handler handler' : Tx (ApprovalRequestOut × Nat)}
    (h : Tx.Alike (fun a b => a.2 = b.2) handler handler') (hσ : σ.SameButText τ) :
    Together approvalDb Statement.record?
      (runIdempotent sha256 env ws route key payload handler []) σ
      (runIdempotent sha256 env ws route key payload' handler' []) τ (Settled σ τ) := by
  cases key with
  | none =>
    rw [runIdempotent_none, runIdempotent_none]
    exact (h [] [] σ τ rfl hσ).mono Agree.settled
  | some key =>
    rw [runIdempotent_some, runIdempotent_some]
    refine Together.exec rfl ?_
    change Together _ _ (afterLookup _ _ _ _ _ _ (σ.key? ws route key)) σ
      (afterLookup _ _ _ _ _ _ (τ.key? ws route key)) τ _
    have hsame : σ.withoutText = τ.withoutText := hσ
    have hfound : (σ.key? ws route key).map IdempotencyKey.withoutText =
        (τ.key? ws route key).map IdempotencyKey.withoutText := by
      rw [← σ.key?_withoutText, hsame, τ.key?_withoutText]
    cases hkey : σ.key? ws route key with
    | none =>
      rw [hkey] at hfound
      have hkey' : τ.key? ws route key = none := by simpa using hfound.symm
      rw [hkey']
      exact (afterLookup_new route key _ _ h hσ).mono Agree.settled
    | some existing =>
      rw [hkey] at hfound
      obtain ⟨existing', hkey', -⟩ := Option.map_eq_some_iff.mp hfound.symm
      rw [hkey']
      obtain ⟨r, hr, hrows⟩ := afterLookup_found env ws route key (fingerprint sha256 payload)
        handler existing
      obtain ⟨r', hr', hrows'⟩ := afterLookup_found env ws route key
        (fingerprint sha256 payload') handler' existing'
      rw [hr, hr']
      refine Together.stop r r' ?_
      match r, r' with
      | .ok p, .ok p' =>
        refine ⟨?_, hσ⟩
        rw [hrows p rfl, hrows' p' rfl]
        rfl
      | .ok p, .error _ => exact ⟨hrows p rfl, rfl⟩
      | .error _, .ok p' => exact ⟨hrows' p' rfl, rfl⟩
      | .error _, .error _ => trivial

/-- What an endpoint makes of the result changes nothing. -/
theorem Settled.map {m : Tx α} {m' : Tx β} {γ κ : Type} (f : α → γ) (g : β → κ)
    (h : Together approvalDb Statement.record? (m []) σ (m' []) τ (Settled σ τ)) :
    Together approvalDb Statement.record? ((m >>= fun a => pure (f a)) []) σ
      ((m' >>= fun b => pure (g b)) []) τ (Settled σ τ) := by
  refine Together.bind (h.mono fun {r u r' u'} hr => ?_)
  match r, r', hr with
  | .ok _, .ok _, hr => exact Together.stop (.ok _) (.ok _) hr
  | .ok _, .error _, hr => exact Together.stop (.ok _) (.error _) hr
  | .error _, .ok _, hr => exact Together.stop (.error _) (.ok _) hr
  | .error _, .error _, _ => exact Together.stop (.error _) (.error _) trivial

end Calls

/-! ## Calls whose bodies differ in texts -/

/-- What a body is validated to; nothing if it is no JSON text. -/
def RawBody.validated {α : Type} (validate : Option Json → Validated α) (body : RawBody) :
    Option (Validated α) := body.document?.map validate

/-- Two bodies are no JSON texts, or they are rejected, or they are accepted as values that `V`
relates. -/
inductive SameOutcome {α : Type} (V : α → α → Prop) :
    Option (Validated α) → Option (Validated α) → Prop
  | malformed : SameOutcome V none none
  | rejected (es es' : List ErrorItem) : SameOutcome V (some (.error es)) (some (.error es'))
  | accepted {a a' : α} (h : V a a') : SameOutcome V (some (.ok a)) (some (.ok a'))

/-- The operations differ in titles, descriptions, comments and reasons only, and in these so
that the one passes validation if the other does. -/
inductive Operation.SameButText : Operation → Operation → Prop
  | create (key : Option String) {body body' : RawBody}
    (h : SameOutcome (fun p p' => p.withoutText = p'.withoutText)
      (body.validated (validateBody ApprovalRequestCreate.modelValidate))
      (body'.validated (validateBody ApprovalRequestCreate.modelValidate))) :
    SameButText (.create key body) (.create key body')
  | list (status : Option String) (limit offset : QueryInt) :
    SameButText (.list status limit offset) (.list status limit offset)
  | get (requestId : String) : SameButText (.get requestId) (.get requestId)
  | decide (d : Decision) (requestId : String) (key : Option String) {body body' : RawBody}
    (h : SameOutcome (fun _ _ => True) (body.validated (fun document => d.readBody document))
      (body'.validated (fun document => d.readBody document))) :
    SameButText (.decide d requestId key body) (.decide d requestId key body')

/-- The calls are the same but for these texts: from the same client, with the same generated
ids and clock readings. -/
structure Call.SameButText (call call' : Call) : Prop where
  env : call.env = call'.env
  authorization : call.authorization = call'.authorization
  workspaceId : call.workspaceId = call'.workspaceId
  operation : call.operation.SameButText call'.operation

theorem SameOutcome.refl {α : Type} {V : α → α → Prop} (hV : ∀ a, V a a) :
    (x : Option (Validated α)) → SameOutcome V x x
  | none => .malformed
  | some (.error es) => .rejected es es
  | some (.ok a) => .accepted (hV a)

theorem Call.SameButText.refl (call : Call) : call.SameButText call where
  env := rfl
  authorization := rfl
  workspaceId := rfl
  operation := by
    cases call.operation with
    | create key body => exact .create key (.refl (by intro p; rfl) _)
    | list status limit offset => exact .list status limit offset
    | get id => exact .get id
    | decide d id key body => exact .decide d id key (.refl (fun _ => trivial) _)

section Endpoints

variable {app : App} {call call' : Call} {P : Principal} {σ τ : Store}

/-- The parameters of two calls are accepted or rejected together. -/
theorem params_settled {κ α β : Type} {V : α → α → Prop} {x x' : Validated α}
    (h : SameOutcome V (some x) (some x')) (k : Validated κ) {f g : κ × α → Tx β}
    (hfg : ∀ c a a', V a a' → Together approvalDb Statement.record? (f (c, a) []) σ
      (g (c, a') []) τ (Settled σ τ)) :
    Together approvalDb Statement.record? ((orRequestValidationError (k.both x) >>= f) []) σ
      ((orRequestValidationError (k.both x') >>= g) []) τ (Settled σ τ) := by
  rw [orRequestValidationError_bind, orRequestValidationError_bind]
  cases h with
  | rejected es es' => cases k <;> exact Together.stop (.error _) (.error _) trivial
  | @accepted a a' h =>
    cases k with
    | error es => exact Together.stop (.error _) (.error _) trivial
    | ok c => exact hfg c a a' h

theorem create_settled {key : Option String} {body body' : RawBody}
    (hcall : call.SameButText call') (hop : call.operation = .create key body)
    (hop' : call'.operation = .create key body') {document document' : Option Json}
    (h : SameOutcome (fun p p' => p.withoutText = p'.withoutText)
      (some (validateBody ApprovalRequestCreate.modelValidate document))
      (some (validateBody ApprovalRequestCreate.modelValidate document')))
    (hσ : σ.SameButText τ) :
    Together approvalDb Statement.record? (endpoint app call P document []) σ
      (endpoint app call' P document' []) τ (Settled σ τ) := by
  unfold endpoint
  rw [hop, hop', ← hcall.env, ← hcall.workspaceId]
  refine params_settled h _ fun k p p' hp => ?_
  refine Settled.map _ _ (runIdempotent_settled _ _ _ _ _ ?_ hσ)
  exact (createRequest_alike P.userId hp).bind fun _ _ _ => Tx.Alike.pure rfl

theorem decide_settled {d : Decision} {id : String} {key : Option String} {body body' : RawBody}
    (hcall : call.SameButText call') (hop : call.operation = .decide d id key body)
    (hop' : call'.operation = .decide d id key body') {document document' : Option Json}
    (h : SameOutcome (fun _ _ => True) (some (d.readBody document)) (some (d.readBody document')))
    (hσ : σ.SameButText τ) :
    Together approvalDb Statement.record? (endpoint app call P document []) σ
      (endpoint app call' P document' []) τ (Settled σ τ) := by
  rw [endpoint_decide hop, endpoint_decide hop', ← hcall.env, ← hcall.workspaceId]
  refine params_settled h _ fun k b b' _ => ?_
  refine Settled.map _ _ (runIdempotent_settled _ _ _ _ _ ?_ hσ)
  refine (decideRequest_alike d id P.userId _ _ _ _).bind fun _ _ _ => Tx.Alike.pure rfl

theorem read_settled (hop : call.operation.IsRead) (document : Option Json)
    (hσ : σ.SameButText τ) :
    Together approvalDb Statement.record? (endpoint app call P document []) σ
      (endpoint app call P document []) τ (Settled σ τ) := by
  refine Together.only ?_ (endpoint_reads hop document) (endpoint_reads hop document) ?_
  · intro s hs
    refine ⟨?_, hs.reads⟩
    cases s <;> first | rfl | exact hs.elim
  · intro r r' hr hr'
    match r, r' with
    | .ok p, .ok p' =>
      refine ⟨?_, hσ⟩
      rw [hr p rfl, hr' p' rfl]
      rfl
    | .ok p, .error _ => exact ⟨hr p rfl, rfl⟩
    | .error _, .ok p' => exact ⟨hr' p' rfl, rfl⟩
    | .error _, .error _ => trivial

/-- Up to the endpoint the two calls do the same. -/
theorem handle_settled_of (hcall : call.SameButText call')
    (haction : call.operation.requiredAction = call'.operation.requiredAction)
    {document document' : Option Json} (hdoc : call.operation.body.document? = some document)
    (hdoc' : call'.operation.body.document? = some document')
    (h : ∀ P, Together approvalDb Statement.record? (endpoint app call P document []) σ
      (endpoint app call' P document' []) τ (Settled σ τ)) :
    Together approvalDb Statement.record? (handle app call []) σ (handle app call' []) τ
      (Settled σ τ) := by
  unfold handle
  rw [tx_bind, tx_bind, parseBody_eq, parseBody_eq, hdoc, hdoc', Prog.bind, Prog.bind, tx_bind,
    tx_bind, requireAction_eq, requireAction_eq, ← hcall.authorization, ← hcall.workspaceId,
    ← haction]
  have hlog : ∀ record e, Together approvalDb Statement.record?
      ((Prog.exec (.log record) (fun _ => .throw e) : Prog Reply Exn (Principal × List NewRow)).bind
        (fun p => endpoint app call p.1 document p.2)) σ
      ((Prog.exec (.log record) (fun _ => .throw e) : Prog Reply Exn (Principal × List NewRow)).bind
        (fun p => endpoint app call' p.1 document' p.2)) τ (Settled σ τ) :=
    fun record e => Together.exec rfl (Together.stop (.error e) (.error e) trivial)
  cases app.provider.authenticate call.authorization with
  | error e =>
    cases e with
    | invalidCredentials message => exact hlog _ _
    | other detail => exact Together.stop (.error _) (.error _) trivial
  | ok P =>
    dsimp only
    split_ifs
    · exact hlog _ _
    · exact hlog _ _
    · exact h P

/-- A body that is no JSON text is refused before anything else. -/
theorem handle_malformed (app : App) (h : call.operation.body.document? = none) :
    ∃ e, handle app call [] = .throw e := by
  unfold handle
  rw [tx_bind, parseBody_eq, h]
  cases call.operation.body <;> exact ⟨_, rfl⟩

/-- The bodies of two calls are both refused, or both parsed. -/
theorem SameOutcome.bodies {α : Type} {V : α → α → Prop} {validate : Option Json → Validated α}
    {body body' : RawBody} (h : SameOutcome V (body.validated validate) (body'.validated validate)) :
    (body.document? = none ∧ body'.document? = none) ∨
      ∃ document document', body.document? = some document ∧ body'.document? = some document' ∧
        SameOutcome V (some (validate document)) (some (validate document')) := by
  unfold RawBody.validated at h
  cases hdoc : body.document? with
  | none =>
    rw [hdoc, Option.map_none] at h
    cases hdoc' : body'.document? with
    | none => exact Or.inl ⟨rfl, rfl⟩
    | some document' =>
      rw [hdoc', Option.map_some] at h
      cases h
  | some document =>
    rw [hdoc, Option.map_some] at h
    cases hdoc' : body'.document? with
    | none =>
      rw [hdoc', Option.map_none] at h
      generalize validate document = x at h
      cases h
    | some document' =>
      rw [hdoc', Option.map_some] at h
      exact Or.inr ⟨document, document', rfl, rfl, h⟩

theorem handle_settled_malformed (h : call.operation.body.document? = none)
    (h' : call'.operation.body.document? = none) :
    Together approvalDb Statement.record? (handle app call []) σ (handle app call' []) τ
      (Settled σ τ) := by
  obtain ⟨e, he⟩ := handle_malformed app h
  obtain ⟨e', he'⟩ := handle_malformed app h'
  rw [he, he']
  exact Together.stop (.error e) (.error e') trivial

/-- **A call with other texts** logs the same up to its answer, and comes to the same point
but for text, unless only one of the two is refused and the other one has changed nothing. -/
theorem handle_settled (hcall : call.SameButText call') (hσ : σ.SameButText τ) :
    Together approvalDb Statement.record? (handle app call []) σ (handle app call' []) τ
      (Settled σ τ) := by
  have hread : ∀ op, call.operation = op → call'.operation = op → op.IsRead →
      op.body.document? = some none →
      Together approvalDb Statement.record? (handle app call []) σ (handle app call' []) τ
        (Settled σ τ) := by
    rintro op hop hop' hread hdoc
    obtain rfl : call = call' := by
      obtain ⟨henv, hauth, hws, -⟩ := hcall
      cases call
      cases call'
      simp_all
    rw [← hop] at hread hdoc
    exact handle_settled_of hcall rfl hdoc hdoc fun P => read_settled hread none hσ
  have hsame := hcall.operation
  generalize hop : call.operation = op at hsame
  generalize hop' : call'.operation = op' at hsame
  cases hsame with
  | list status limit offset => exact hread _ hop hop' trivial rfl
  | get id => exact hread _ hop hop' trivial rfl
  | create key h =>
    obtain ⟨hdoc, hdoc'⟩ | ⟨document, document', hdoc, hdoc', h⟩ := h.bodies
    · exact handle_settled_malformed (by rw [hop]; exact hdoc) (by rw [hop']; exact hdoc')
    · refine handle_settled_of hcall (by rw [hop, hop']; rfl) (by rw [hop]; exact hdoc)
        (by rw [hop']; exact hdoc') fun P => ?_
      exact create_settled hcall hop hop' h hσ
  | decide d id key h =>
    obtain ⟨hdoc, hdoc'⟩ | ⟨document, document', hdoc, hdoc', h⟩ := h.bodies
    · exact handle_settled_malformed (by rw [hop]; exact hdoc) (by rw [hop']; exact hdoc')
    · have haction : call.operation.requiredAction = call'.operation.requiredAction := by
        rw [hop, hop']
        cases d <;> rfl
      refine handle_settled_of hcall haction (by rw [hop]; exact hdoc) (by rw [hop']; exact hdoc')
        fun P => ?_
      exact decide_settled hcall hop hop' h hσ

/-- What a call leaves after its answer. -/
theorem transaction_settled (hcall : call.SameButText call') (hσ : σ.SameButText τ) :
    Together approvalDb Statement.record? (request app call).transaction σ
      (request app call').transaction τ
      (fun r u r' u' => (Prog.left σ r u).SameButText (Prog.left τ r' u')) := by
  have hexit : ∀ c : Call, (request app c).transaction =
      (handle app c []).bind (fun p => insertAll p.2) := fun c => Prog.bind_assoc _ _ _
  rw [hexit, hexit]
  refine Together.bind ((handle_settled hcall hσ).mono fun {r u r' u'} h => ?_)
  match r, r' with
  | .ok p, .ok p' =>
    refine (Tx.Alike.insertAll h.1 h.2).mono fun {s v s' v'} hs => ?_
    obtain ⟨rfl, hv⟩ := hs
    cases s with
    | ok x => exact hv
    | error e => exact hσ
  | .ok (a, p), .error e =>
    obtain ⟨rfl, rfl⟩ := h
    exact Together.stop (.ok _) (.error e) hσ
  | .error e, .ok (a, p) =>
    obtain ⟨rfl, rfl⟩ := h
    exact Together.stop (.error e) (.ok _) hσ
  | .error e, .error e' => exact Together.stop (.error e) (.error e') hσ

/-- **A call that is served with other texts** logs the same and leaves the same database but
for text. -/
theorem serve_sameButText (hcall : call.SameButText call') (hσ : σ.SameButText τ) :
    ((request app call).serve approvalDb σ).1.SameButText
        ((request app call').serve approvalDb τ).1 ∧
      ((request app call).serve approvalDb σ).2.2.filterMap Statement.record? =
        ((request app call').serve approvalDb τ).2.2.filterMap Statement.record? :=
  Together.serve (transaction_settled hcall hσ)

end Endpoints

end ContentApproval
