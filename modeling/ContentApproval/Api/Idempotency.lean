import ContentApproval.Db.Repository
import ContentApproval.Json.Ascii
import ContentApproval.Schemas.ApprovalRequest

/-!
# The idempotency ledger

`runIdempotent` runs a handler unless the ledger already has a row for the key, and
records the response in the same transaction. SHA-256 is a parameter.
-/

namespace ContentApproval

namespace Idempotency

/-- Hash of the canonical text of the normalized payload. -/
def fingerprint (sha256 : String → String) (payload : Json) : String := sha256 payload.canonical

/-- The same of a payload whose strings may have surrogates. -/
def fingerprintValue (sha256 : String → String) (payload : PyValue) : String :=
  sha256 payload.canonical

theorem fingerprintValue_ofJson (sha256 : String → String) (payload : Json) :
    fingerprintValue sha256 (.ofJson payload) = fingerprint sha256 payload := by
  rw [fingerprintValue, PyValue.canonical_ofJson, fingerprint]

def keyReused : Exn :=
  .httpException 409 "Idempotency-Key was already used with a different request body"

def keyInProgress : Exn :=
  .httpException 409 "Idempotency-Key is already being processed by a concurrent request"

/-- `response_model.model_validate(existing.response_body)`; a body that is not valid is
no error the API knows. -/
def replay (existing : IdempotencyKey) : Tx (ApprovalRequestOut × Nat) :=
  match ApprovalRequestOut.modelValidate existing.responseBody with
  | some result => pure (result, existing.responseStatus)
  | none => throw (.unexpected "stored response body")

/-- `run_idempotent` with the fingerprint of the payload. -/
def runIdempotentWith (env : Env) (workspaceId route : String) (idempotencyKey : Option String)
    (fp : String) (handler : Tx (ApprovalRequestOut × Nat)) : Tx (ApprovalRequestOut × Nat) := do
  match idempotencyKey with
  | none => handler
  | some key =>
    let existing? : Option IdempotencyKey ←
      StateT.lift (AsyncSession.send (.selectKey workspaceId route key))
    match existing? with
    | some existing =>
      if existing.requestFingerprint ≠ fp then throw keyReused
      else replay existing
    | none =>
      let (result, statusCode) ← handler
      AsyncSession.add (.idempotencyKey
        { workspaceId := workspaceId
          route := route
          idempotencyKey := key
          requestFingerprint := fp
          responseStatus := statusCode
          responseBody := result.modelDump
          createdAt := env.keyCreatedAt })
      try AsyncSession.flush
      catch
        | .integrityError => throw keyInProgress
        | e => throw e
      return (result, statusCode)

/-- `run_idempotent` -/
def runIdempotent (sha256 : String → String) (env : Env) (workspaceId route : String)
    (idempotencyKey : Option String) (requestPayload : Json)
    (handler : Tx (ApprovalRequestOut × Nat)) : Tx (ApprovalRequestOut × Nat) :=
  runIdempotentWith env workspaceId route idempotencyKey (fingerprint sha256 requestPayload) handler

end Idempotency

end ContentApproval
