import ContentApproval.Db.Statements
import ContentApproval.Domain.Entities
import ContentApproval.Transactions.Connection

/-!
# The session of a request

`get_db` gives a request one session, which its service, its repositories and
`run_idempotent` share, and one transaction around all of it.
-/

namespace ContentApproval

open Transactions

/-- `get_db` with the request that it yields its session to. Whatever the driver raises for a
statement or for `COMMIT` besides an `IntegrityError`, and whatever goes wrong otherwise, nobody but
the handler for `Exception` takes. -/
def getDb {α : Type} (request : Request Reply Exn α) : Script Reply String Exn α :=
  request.transact .unexpected

end ContentApproval
