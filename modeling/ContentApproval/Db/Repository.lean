import ContentApproval.Db.Statements

/-!
# The session and the repository

`Tx` is a computation inside one database session: it sends statements and keeps the
rows that were added to the session but not yet flushed. The repository functions read
and write through it. The session holds the rows it has loaded weakly and no repository
function keeps one, so every `SELECT` gives the row as the database returns it.
-/

namespace ContentApproval

open Transactions

/-! ## Datetimes of the two databases -/

/-- A Python datetime: without a time zone, or aware of one. -/
inductive PyDateTime
  | naive (wallClock : Instant)
  | aware (utc : Instant) (offset : Int)

/-- `_as_utc` -/
def asUtc : PyDateTime → Instant
  | .naive wallClock => wallClock
  | .aware utc _ => utc

/-- The kind of database: SQLite drops the time zone, Postgres returns datetimes in the
zone of the session. -/
inductive Dialect
  | sqlite
  | postgresql (offset : Int)

def Dialect.load : Dialect → Instant → PyDateTime
  | sqlite, t => .naive t
  | postgresql offset, t => .aware t offset

@[simp] theorem asUtc_load (d : Dialect) (t : Instant) : asUtc (d.load t) = t := by
  cases d <;> rfl

/-! ## What a call takes from outside -/

/-- The random part of the ids that a call generates, its readings of the clock, the
order in which the database returns reviewer rows, and the kind of database. -/
structure Env where
  requestToken : String
  auditToken : String
  eventToken : String
  /-- `_utcnow` for `created_at` of a new request. -/
  createdAt : Instant
  /-- `_utcnow` for `updated_at` of a new request. -/
  updatedAt : Instant
  /-- `now` in `transition`. -/
  decidedAt : Instant
  auditCreatedAt : Instant
  eventCreatedAt : Instant
  keyCreatedAt : Instant
  /-- The order of the rows at the `n`-th place that reads reviewers. -/
  rowOrder : Nat → RowOrder
  dialect : Dialect

def Env.requestId (env : Env) : String := generateId "ar" env.requestToken

def Env.auditId (env : Env) : String := generateId "aud" env.auditToken

def Env.eventId (env : Env) : String := generateId "evt" env.eventToken

/-! ## The session -/

/-- A computation in a session, with the rows not yet flushed. -/
abbrev Tx (α : Type) := StateT (List NewRow) (Prog Reply Exn) α

namespace AsyncSession

def send (s : Statement) : Prog Reply Exn (Reply s) := Prog.perform s

/-- Insert the rows one after the other. -/
def insertAll : List NewRow → Prog Reply Exn Unit
  | [] => pure ()
  | row :: rows => do
    let inserted : Bool ← send (.insert row)
    if inserted then insertAll rows else throw .integrityError

/-- `session.add` -/
def add (row : NewRow) : Tx Unit := modify (· ++ [row])

/-- `session.flush`, in the order in which the rows were added. The ORM inserts them table by table,
in an order of its own that has the row of the ledger right after the audit entry. That order is
immaterial: the ids of the other rows are new, so only the row of the ledger can meet a row that
another transaction inserts, and it meets it wherever it stands. -/
def flush : Tx Unit := do
  let pending ← get
  set ([] : List NewRow)
  insertAll pending

/-- `session.execute`, which flushes first. -/
def execute (s : Statement) : Tx (Reply s) := do
  flush
  StateT.lift (send s)

end AsyncSession

/-- `logger.info` and `logger.warning` -/
def logRecord (record : LogRecord) : Tx Unit := StateT.lift (AsyncSession.send (.log record))

/-! ## The repository -/

namespace SqlApprovalRequestRepository

open AsyncSession

/-- `_to_entity`; `load` is how the datetimes of the row come back from the database. -/
def toEntity (load : Instant → PyDateTime) (row : ApprovalRequestRow)
    (reviewerUserIds : List String) : ApprovalRequest where
  id := row.id
  workspaceId := row.workspaceId
  sourceType := row.sourceType
  sourceId := row.sourceId
  title := row.title
  description := row.description
  reviewerUserIds := reviewerUserIds
  status := row.status
  createdByUserId := row.createdByUserId
  createdAt := asUtc (load row.createdAt)
  updatedAt := asUtc (load row.updatedAt)
  decidedByUserId := row.decidedByUserId
  decidedAt := row.decidedAt.map (fun t => asUtc (load t))
  decisionComment := row.decisionComment
  decisionReason := row.decisionReason

/-- The row object before it is flushed: its datetimes are `datetime.now(UTC)`. -/
def fresh (t : Instant) : PyDateTime := .aware t 0

def create (env : Env) (requestId workspaceId createdByUserId : String) (sourceType : SourceType)
    (sourceId title : String) (description : Option String) (reviewerUserIds : List String) :
    Tx ApprovalRequest := do
  let row : ApprovalRequestRow :=
    { id := requestId
      workspaceId := workspaceId
      sourceType := sourceType
      sourceId := sourceId
      title := title
      description := description
      status := .pending
      createdByUserId := createdByUserId
      createdAt := env.createdAt
      updatedAt := env.updatedAt
      decidedByUserId := none
      decidedAt := none
      decisionComment := none
      decisionReason := none }
  add (.approvalRequest row)
  reviewerUserIds.forM (fun reviewerId => add (.reviewer ⟨workspaceId, requestId, reviewerId⟩))
  flush
  return toEntity fresh row reviewerUserIds

/-- The reviewers of one of the rows that a `selectinload` has fetched. -/
def reviewersOfRow (reviewers : List ApprovalRequestReviewer) (row : ApprovalRequestRow) :
    List String :=
  (reviewers.filter (fun r => r.workspaceId == row.workspaceId && r.approvalRequestId == row.id)).map
    ApprovalRequestReviewer.reviewerUserId

/-- `selectinload(ApprovalRequestRow.reviewers)`: no second query when there is no row. -/
def selectinload (order : RowOrder) (rows : List ApprovalRequestRow) :
    Tx (List ApprovalRequestReviewer) :=
  if rows.isEmpty then pure []
  else execute (.selectReviewers (rows.map (fun row => (row.workspaceId, row.id))) order)

/-- `site` counts the places in the program of a call that read reviewers. -/
def get (env : Env) (site : Nat) (workspaceId requestId : String) :
    Tx (Option ApprovalRequest) := do
  let row? : Option ApprovalRequestRow ← execute (.selectRequest workspaceId requestId)
  let reviewers ← selectinload (env.rowOrder site) row?.toList
  return row?.map (fun row => toEntity env.dialect.load row (reviewersOfRow reviewers row))

def transition (env : Env) (workspaceId requestId : String) (newStatus : ApprovalStatus)
    (decidedByUserId : String) (decisionComment decisionReason : Option String) :
    Tx ApprovalRequest := do
  let now := env.decidedAt
  let rowcount : Nat ← execute (.updatePending workspaceId requestId
    { status := newStatus
      decidedByUserId := decidedByUserId
      decidedAt := now
      decisionComment := decisionComment
      decisionReason := decisionReason
      updatedAt := now })
  if rowcount = 1 then
    match ← get env 1 workspaceId requestId with
    | some updated => return updated
    | none => throw (.unexpected ("request " ++ requestId ++ " vanished right after transition"))
  else
    match ← get env 2 workspaceId requestId with
    | none => throw (.approvalRequestNotFoundError requestId)
    | some current => throw (.invalidTransitionError requestId current.status)

def list (env : Env) (workspaceId : String) (status : Option ApprovalStatus)
    (limit offset : Nat) : Tx (List ApprovalRequest × Nat) := do
  let total : Nat ← execute (.countRequests workspaceId status)
  let rows : List ApprovalRequestRow ←
    execute (.selectPage workspaceId status limit offset)
  let reviewers ← selectinload (env.rowOrder 0) rows
  return (List.map (fun row => toEntity env.dialect.load row (reviewersOfRow reviewers row)) rows,
    total)

def recordAuditEntry (env : Env) (workspaceId approvalRequestId actorUserId : String)
    (action : AuditAction) (details : Option Json) : Tx Unit :=
  add (.auditLogEntry
    { id := env.auditId
      workspaceId := workspaceId
      approvalRequestId := approvalRequestId
      actorUserId := actorUserId
      action := action
      details := details
      createdAt := env.auditCreatedAt })

def recordOutboxEvent (env : Env) (workspaceId approvalRequestId eventType : String)
    (payload : Json) : Tx Unit :=
  add (.outboxEvent
    { id := env.eventId
      workspaceId := workspaceId
      approvalRequestId := approvalRequestId
      eventType := eventType
      payload := payload
      createdAt := env.eventCreatedAt
      publishedAt := none })

end SqlApprovalRequestRepository

end ContentApproval
