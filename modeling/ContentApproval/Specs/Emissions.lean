import ContentApproval.Api.Errors
import ContentApproval.Specs.Repository

/-!
# What the service logs

`Tx.Emits P`: whatever the database replies, every record that the computation logs
satisfies `P`. `create_request` and `_decide` log one record each, whose context names the
approval request under `request_id`.
-/

namespace ContentApproval

open Transactions AsyncSession SqlApprovalRequestRepository ApprovalService

/-- Every record that the computation logs satisfies `P`. -/
def Tx.Emits {α : Type} (P : LogRecord → Prop) (m : Tx α) : Prop :=
  ∀ pending, (m pending).Only (fun s => ∀ record ∈ s.record?, P record) (fun _ _ => True)
    (fun _ => True)

namespace Tx.Emits

variable {α β : Type} {P : LogRecord → Prop}

theorem pure (a : α) : Tx.Emits P (pure a) := fun _ => trivial

theorem throw (e : Exn) : Tx.Emits P (throw e : Tx α) := fun _ => trivial

theorem bind {m : Tx α} {f : α → Tx β} (hm : Tx.Emits P m) (hf : ∀ a, Tx.Emits P (f a)) :
    Tx.Emits P (m >>= f) := by
  intro pending
  rw [tx_bind]
  exact (hm pending).bind fun p _ => hf p.1 p.2

theorem add (row : NewRow) : Tx.Emits P (add row) := fun _ => trivial

theorem insertAll (rows : List NewRow) : (insertAll rows).Only
    (fun s => ∀ record ∈ s.record?, P record) (fun _ _ => True) (fun _ => True) := by
  induction rows with
  | nil => trivial
  | cons row rows ih =>
    rw [insertAll_cons]
    refine ⟨by simp [Statement.record?], fun inserted _ => ?_⟩
    change Bool at inserted
    cases inserted with
    | false => trivial
    | true => exact ih

theorem flush : Tx.Emits P flush := by
  intro pending
  rw [flush_eq]
  exact (insertAll pending).bind fun _ _ => trivial

theorem execute {s : Statement} (hs : s.record? = none) : Tx.Emits P (execute s) :=
  flush.bind fun _ _ => ⟨by simp [hs], fun _ _ => trivial⟩

theorem logRecord {record : LogRecord} (h : P record) : Tx.Emits P (logRecord record) :=
  fun _ => ⟨by simpa [Statement.record?] using h, fun _ _ => trivial⟩

/-! ## The repository -/

theorem get (env : Env) (site : Nat) (ws id : String) : Tx.Emits P (get env site ws id) := by
  refine (execute rfl).bind fun row? => ?_
  change Option ApprovalRequestRow at row?
  refine Tx.Emits.bind ?_ fun _ => pure _
  cases row? with
  | none => exact pure _
  | some row => exact execute rfl

theorem transition (env : Env) (ws id : String) (status : ApprovalStatus) (actor : String)
    (comment reason : Option String) :
    Tx.Emits P (transition env ws id status actor comment reason) := by
  refine (execute rfl).bind fun rowcount => ?_
  change Nat at rowcount
  split
  · refine (get env 1 ws id).bind fun updated => ?_
    cases updated with
    | none => exact throw _
    | some updated => exact pure _
  · refine (get env 2 ws id).bind fun current => ?_
    cases current with
    | none => exact throw _
    | some current => exact throw _

theorem create (env : Env) (id ws actor : String) (sourceType : SourceType)
    (sourceId title : String) (description : Option String) (reviewers : List String) :
    Tx.Emits P (create env id ws actor sourceType sourceId title description reviewers) := by
  have hreviewers : ∀ ids : List String,
      Tx.Emits P (ids.forM (fun reviewerId => AsyncSession.add
        (.reviewer ⟨ws, id, reviewerId⟩))) := by
    intro ids
    induction ids with
    | nil => exact pure _
    | cons reviewerId ids ih => exact (add _).bind fun _ => ih
  exact (add _).bind fun _ => (hreviewers reviewers).bind fun _ => flush.bind fun _ => pure _

/-! ## The service -/

/-- `create_request` logs a record that names the new request. -/
theorem createRequest {env : Env} {ws actor : String} (sourceType : SourceType)
    (sourceId title : String) (description : Option String) (reviewers : List String)
    (h : P ⟨.info, logger, "approval request created", [("workspace_id", ws),
      ("request_id", env.requestId), ("actor_user_id", actor)], none⟩) :
    Tx.Emits P (createRequest env ws actor sourceType sourceId title description reviewers) :=
  (create env _ ws actor sourceType sourceId title description reviewers).bind fun _ =>
    (add _).bind fun _ => (add _).bind fun _ => (logRecord h).bind fun _ => pure _

/-- `_decide` logs a record that names the decided request. -/
theorem decideInternal (env : Env) {ws id actor : String} (newStatus : ApprovalStatus)
    (comment reason : Option String) {action : AuditAction} (eventType : OutboxEventType)
    (h : ∀ status : ApprovalStatus, P ⟨.info, logger, "approval request " ++ action.value,
      [("workspace_id", ws), ("request_id", id), ("actor_user_id", actor),
        ("new_status", status.value)], none⟩) :
    Tx.Emits P (decideInternal env ws id newStatus actor comment reason action eventType) :=
  (transition env ws id newStatus actor comment reason).bind fun updated =>
    (add _).bind fun _ => (add _).bind fun _ => (logRecord (h updated.status)).bind fun _ => pure _

end Tx.Emits

end ContentApproval
