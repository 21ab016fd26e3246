import ContentApproval.Observability.Middleware
import ContentApproval.Properties.LogIdentity
import ContentApproval.Properties.Renderable

/-!
# The correlation id on responses and log lines

`correlated_iff` says when a response carries the correlation id of its request and all
lines of the request are tagged with it. The handler for `Exception` runs outside of
`RequestIdMiddleware`: its response does not pass it, and its line is logged after the
variable has its previous value again.
-/

namespace ContentApproval

namespace Middleware

open JSONFormatter

/-- The line is tagged with the id. -/
def Tagged (id : String) (line : Dict Json) : Prop := line.get? "request_id" = some (.str id)

/-- What one request with this correlation id should leave: a response with the id, and
new lines that are tagged with it. -/
structure Correlated (id : String) (server server' : Server) (response : Option Response) :
    Prop where
  response : ∃ r, response = some r ∧ r.headers.get? header = some id
  lines : ∃ new, server'.lines = server.lines ++ new ∧ ∀ line ∈ new, Tagged id line

/-- No context of the record has another `request_id`. -/
def LeavesId (id : String) (record : Record Json) : Prop :=
  ∀ context ∈ record.context, ∀ v, context.get? "request_id" = some v → v = .str id

/-- The routes end so that the handler for `Exception` is not needed: they return, or raise an
exception with a handler of its own whose response can be rendered; or it is needed only after
the response was started and while the variable had this value before. -/
def Contained (previous : Option String) (id : String) : Outcome → Prop
  | .returned _ => True
  | .raised e => ¬ e.Unhandled ∧ Errors.Renderable e
  | .failedAfter _ => previous = some id

theorem tagged_iff {id : String} {record : Record Json} :
    Tagged id (payload .str (some id) record) ↔ LeavesId id record := by
  unfold Tagged LeavesId
  rw [get?_payload (by decide) (by decide)]
  have hown : (ownFields Json.str (some id) record).get? "request_id" = some (.str id) := by
    simp [ownFields]
  rw [hown]
  cases record.context with
  | none => simp
  | some context => cases hv : context.get? "request_id" <;> simp [hv]

theorem foldl_log (records : List (Record Json)) (server : Server) :
    records.foldl Server.log server = { server with
      lines := server.lines ++ records.map (payload .str server.requestIdVar) } := by
  induction records generalizing server with
  | nil => simp
  | cons record records ih =>
    rw [List.foldl_cons, ih]
    simp [Server.log]

/-- The line of the handler for `Exception` has the id that the variable has there. -/
theorem tagged_unhandled_iff {id : String} {previous : Option String} {request : HttpRequest}
    {time traceback : String} :
    Tagged id (payload .str previous (unhandledRecord request time traceback)) ↔
      previous = some id := by
  unfold Tagged
  rw [get?_payload (by decide) (by decide)]
  have hcontext : (unhandledRecord request time traceback).context.bind
      (fun context => context.get? "request_id") = none := rfl
  rw [hcontext, Option.none_or]
  cases previous with
  | none => simp [ownFields, Dict.get?_set]
  | some previous => simp [ownFields]

theorem get?_header_setHeader (response : Response) (id : String) :
    (response.setHeader id).headers.get? header = some id := Dict.get?_set_self _ _ _

theorem get?_header_ofSent (sent : Errors.Sent) :
    (Response.ofSent sent).headers.get? header = none := by
  rw [Response.ofSent, Dict.get?_set_ne _ _ (by decide)]
  rfl

theorem exceptionMiddleware_unhandled {e : Exn} (h : e.Unhandled) :
    exceptionMiddleware (.raised e) = .raised e := if_pos h

theorem exceptionMiddleware_handled {e : Exn} (h : ¬ e.Unhandled) (hr : Errors.Renderable e) :
    ∃ sent, exceptionMiddleware (.raised e) = .returned (.ofSent sent) := by
  obtain ⟨sent, hsent, -⟩ := Errors.response_rendered hr
  refine ⟨sent, ?_⟩
  rw [exceptionMiddleware, if_neg h, hsent]

/-- The layer raises where nothing is registered, and where a response can not be rendered. -/
theorem exceptionMiddleware_escapes {e : Exn} (h : ¬ (¬ e.Unhandled ∧ Errors.Renderable e)) :
    ∃ e', exceptionMiddleware (.raised e) = .raised e' := by
  by_cases he : e.Unhandled
  · exact ⟨e, exceptionMiddleware_unhandled he⟩
  · have hnone := Errors.response_unrendered fun hr => h ⟨he, hr⟩
    exact ⟨_, by rw [exceptionMiddleware, if_neg he, hnone]⟩

section Serve

variable {minted : String} {request : HttpRequest} {unhandled : Record Json} {inner : Inner}
  {server : Server} {response : Response}

/-- The server after the routes have logged under this id. -/
def Server.logged (server : Server) (id : String) (inner : Inner) : Server :=
  { server with lines := server.lines ++ inner.records.map (payload .str (some id)) }

theorem callNext_eq (id : String) : callNext inner { server with requestIdVar := some id } =
    ({ server.logged id inner with requestIdVar := some id }, exceptionMiddleware inner.outcome) := by
  rw [callNext, foldl_log]
  rfl

theorem serve_returned (h : exceptionMiddleware inner.outcome = .returned response) :
    serve minted request unhandled inner server =
      (server.logged (correlationId minted request.requestId) inner,
        some (response.setHeader (correlationId minted request.requestId))) := by
  unfold serve dispatch
  dsimp only
  rw [callNext_eq, h]
  rfl

theorem serve_raised {e : Exn} (h : exceptionMiddleware inner.outcome = .raised e) :
    serve minted request unhandled inner server =
      ((server.logged (correlationId minted request.requestId) inner).log unhandled,
        Errors.unhandledProblem.rendered.map .ofSent) := by
  unfold serve dispatch
  dsimp only
  rw [callNext_eq, h]
  rfl

theorem serve_failedAfter (h : exceptionMiddleware inner.outcome = .failedAfter response) :
    serve minted request unhandled inner server =
      ((server.logged (correlationId minted request.requestId) inner).log unhandled,
        some (response.setHeader (correlationId minted request.requestId))) := by
  unfold serve dispatch
  dsimp only
  rw [callNext_eq, h]
  rfl

end Serve

/-- The new lines are those that were added. -/
theorem correlated_append {id : String} {server server' : Server} {response : Option Response}
    {new : List (Dict Json)} (h : server'.lines = server.lines ++ new) :
    Correlated id server server' response ↔
      (∃ r, response = some r ∧ r.headers.get? header = some id) ∧ ∀ line ∈ new, Tagged id line := by
  constructor
  · rintro ⟨hresponse, new', hnew, htagged⟩
    obtain rfl := List.append_cancel_left (h.symm.trans hnew)
    exact ⟨hresponse, htagged⟩
  · exact fun ⟨hresponse, htagged⟩ => ⟨hresponse, new, h, htagged⟩

/-- **Which requests are correlated.** For any request, server and behaviour of the routes:
afterwards the variable has its previous value. The response carries the caller's id or the
minted one and every line of the request is tagged with it exactly if no record that the
routes log has another `request_id` in its context, and the routes return or raise an
exception with a registered handler that can render its response; after the response was
started an exception may escape, if the variable had that id before. -/
theorem correlated_iff (minted : String) (request : HttpRequest) (time traceback : String)
    (inner : Inner) (server : Server) :
    let id := correlationId minted request.requestId
    let served := serve minted request (unhandledRecord request time traceback) inner server
    served.1.requestIdVar = server.requestIdVar ∧
      (Correlated id server served.1 served.2 ↔
        (∀ record ∈ inner.records, LeavesId id record) ∧
          Contained server.requestIdVar id inner.outcome) := by
  intro id served
  have htagged : (∀ line ∈ inner.records.map (payload Json.str (some id)), Tagged id line) ↔
      ∀ record ∈ inner.records, LeavesId id record := by
    simp [tagged_iff]
  have hreturned : ∀ {response server'},
      served = (server', some (Response.setHeader response id)) →
        ∃ r, served.2 = some r ∧ r.headers.get? header = some id :=
    fun {response _} h => ⟨_, congrArg Prod.snd h, get?_header_setHeader response id⟩
  rw [← htagged]
  cases hout : inner.outcome with
  | returned response =>
    have hserved : served = (server.logged id inner, some (response.setHeader id)) :=
      serve_returned (by rw [hout]; rfl)
    refine ⟨by rw [hserved]; rfl, (correlated_append (by rw [hserved]; rfl)).trans ?_⟩
    exact ⟨fun h => ⟨h.2, trivial⟩, fun h => ⟨hreturned hserved, h.1⟩⟩
  | raised e =>
    by_cases he : ¬ e.Unhandled ∧ Errors.Renderable e
    · obtain ⟨sent, hsent⟩ := exceptionMiddleware_handled he.1 he.2
      have hserved : served = (server.logged id inner, some ((Response.ofSent sent).setHeader id)) :=
        serve_returned (by rw [hout, hsent])
      refine ⟨by rw [hserved]; rfl, (correlated_append (by rw [hserved]; rfl)).trans ?_⟩
      exact ⟨fun h => ⟨h.2, he⟩, fun h => ⟨hreturned hserved, h.1⟩⟩
    · -- the response of the outermost layer has no such header
      obtain ⟨e', hraised⟩ := exceptionMiddleware_escapes he
      have hserved : served = ((server.logged id inner).log _,
          Errors.unhandledProblem.rendered.map .ofSent) :=
        serve_raised (by rw [hout]; exact hraised)
      refine ⟨by rw [hserved]; rfl, iff_of_false ?_ fun h => he h.2⟩
      rintro ⟨⟨r, hr, hheader⟩, -⟩
      have hrendered : Errors.unhandledProblem.rendered.map Response.ofSent = some r := by
        rwa [hserved] at hr
      obtain ⟨sent, -, rfl⟩ := Option.map_eq_some_iff.mp hrendered
      rw [get?_header_ofSent] at hheader
      cases hheader
  | failedAfter response =>
    have hserved : served = ((server.logged id inner).log _, some (response.setHeader id)) :=
      serve_failedAfter (by rw [hout]; rfl)
    have hlines : served.1.lines = server.lines ++ (inner.records.map (payload .str (some id)) ++
        [payload .str server.requestIdVar (unhandledRecord request time traceback)]) := by
      rw [hserved, ← List.append_assoc]
      rfl
    refine ⟨by rw [hserved]; rfl, (correlated_append hlines).trans ?_⟩
    rw [List.forall_mem_append, List.forall_mem_singleton, tagged_unhandled_iff]
    exact ⟨fun h => h.2, fun h => ⟨hreturned hserved, h⟩⟩

def Sample.request : HttpRequest :=
  ⟨"GET", "/api/v1/workspaces/ws_1/approval-requests/ar_1", some "caller-1"⟩

def Sample.unhandled : Record Json :=
  unhandledRecord Sample.request "2024-05-01T00:00:00+0000" "Traceback"

/-- A request with the id `caller-1` during which an unexpected exception escapes: the
response has no id, and neither has the line of the handler. -/
theorem uncorrelated : ∃ r line,
    serve "minted" Sample.request Sample.unhandled
      ⟨[], .raised (.unexpected "connection refused")⟩ ⟨none, []⟩ = (⟨none, [line]⟩, some r) ∧
    r.headers.get? header = none ∧ line.get? "request_id" = none := by
  obtain ⟨body, hbody⟩ := Option.isSome_iff_exists.mp ((PyValue.render_isSome
    Errors.unhandledProblem.content).mpr ((Errors.strict_problem _ _ _).mpr (by simp)))
  have hsent : Errors.unhandledProblem.rendered = some ⟨500, Errors.problemMediaType, body⟩ := by
    rw [Errors.JSONResponse.rendered, hbody]
    rfl
  have hescapes : (Exn.unexpected "connection refused").Unhandled := trivial
  refine ⟨.ofSent ⟨500, Errors.problemMediaType, body⟩, payload .str none Sample.unhandled,
    ?_, get?_header_ofSent _, ?_⟩
  · rw [serve_raised (exceptionMiddleware_unhandled hescapes), hsent]
    rfl
  · rw [get?_payload (by decide) (by decide)]
    rfl

end Middleware

end ContentApproval
