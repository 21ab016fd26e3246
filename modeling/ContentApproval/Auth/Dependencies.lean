import ContentApproval.Db.Repository
import Mathlib.Data.Finset.Basic

/-!
# Authentication and the actions of a principal

The provider that resolves an `Authorization` header is a parameter (`AuthProvider`), as
it is in the service. `requireAction` lets a call through when the provider knows the
caller, the caller belongs to the workspace of the path, and holds the action of the
endpoint.
-/

namespace ContentApproval

inductive Action
  | read
  | create
  | decide
  | cancel
  deriving DecidableEq

def Action.value : Action → String
  | read => "approval:read"
  | create => "approval:create"
  | decide => "approval:decide"
  | cancel => "approval:cancel"

/-- The authenticated caller. -/
structure Principal where
  workspaceId : String
  userId : String
  actions : Finset Action
  workspaceId_ne : workspaceId ≠ ""
  userId_ne : userId ≠ ""

def Principal.hasAction (p : Principal) (action : Action) : Bool := action ∈ p.actions

/-- What `authenticate` raises. -/
inductive AuthError
  | invalidCredentials (message : String)
  /-- Any other exception. -/
  | other (detail : String)

structure AuthProvider where
  authenticate : Option String → Except AuthError Principal

namespace AuthDependencies

def logger : String := "app.auth.dependencies"

def getPrincipal (provider : AuthProvider) (authorization : Option String) : Tx Principal :=
  match provider.authenticate authorization with
  | .ok principal => pure principal
  | .error (.invalidCredentials message) => do
    logRecord ⟨.warning, logger, "authentication failed", [("reason", message)], none⟩
    throw (.httpException 401 message)
  | .error (.other detail) => throw (.unexpected detail)

def requireAction (action : Action) (provider : AuthProvider) (authorization : Option String)
    (workspaceId : String) : Tx Principal := do
  let principal ← getPrincipal provider authorization
  let context := [("workspace_id", workspaceId), ("actor_user_id", principal.userId),
    ("required_action", action.value)]
  if principal.workspaceId ≠ workspaceId then
    logRecord ⟨.warning, logger, "workspace mismatch", context, none⟩
    throw (.httpException 403 "Not authorized for this workspace")
  if principal.hasAction action = false then
    logRecord ⟨.warning, logger, "missing required action", context, none⟩
    throw (.httpException 403 ("Missing required action: " ++ action.value))
  return principal

end AuthDependencies

end ContentApproval
