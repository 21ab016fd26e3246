import ContentApproval.Specs.Locality
import ContentApproval.Properties.Finality

/-!
# Workspace noninterference

The calls of a workspace are answered as if nobody had ever called another workspace, and
leave the same rows (`workspace_noninterference`). Calls are served one after the other
here; `transcript` is what their clients saw, `after` the database they left.
-/

namespace ContentApproval

open Transactions

/-- The database after calls that were served one after the other. -/
def after (app : App) (calls : List Call) (σ : Store) : Store :=
  (serveAll approvalDb (calls.map (request app)) σ).1

/-- The calls, each with the response that its client got. -/
def transcript (app : App) (calls : List Call) (σ : Store) :
    List (Call × Option (Except Exn Answer)) :=
  calls.zip ((serveAll approvalDb (calls.map (request app)) σ).2.map (fun s => s.1.response?))

/-- The response of one call. -/
def response (app : App) (call : Call) (σ : Store) : Option (Except Exn Answer) :=
  ((request app call).serve approvalDb σ).2.1.response?

/-- The two calls have generated different ids. -/
def Env.Apart (env env' : Env) : Prop := ∀ k ∈ env.keys, k ∉ env'.keys

instance (env env' : Env) : Decidable (env.Apart env') := inferInstanceAs (Decidable (∀ _ ∈ _, _))

/-- No id that these calls generate is in use. -/
def Fresh (calls : List Call) (σ : Store) : Prop :=
  ∀ c ∈ calls, ∀ k ∈ c.env.keys, σ.has k = false

/-- The calls of one workspace. -/
def callsOf (B : String) (calls : List Call) : List Call :=
  calls.filter (fun c => c.workspaceId = B)

section Serve

variable {app : App} {call : Call} {calls : List Call} {σ : Store} {B : String}

theorem after_cons : after app (call :: calls) σ =
    after app calls ((request app call).serve approvalDb σ).1 := rfl

theorem transcript_cons : transcript app (call :: calls) σ = (call, response app call σ) ::
    transcript app calls ((request app call).serve approvalDb σ).1 := rfl

theorem Store.has_of_rowsOf {k : PrimaryKey} (hk : k.Generated)
    (h : (σ.rowsOf B).has k = true) : σ.has k = true := by
  have hany : ∀ {α : Type} {rows : List α} {p q : α → Bool},
      (rows.filter p).any q = true → rows.any q = true := by
    intro α rows p q h
    obtain ⟨r, hr, hq⟩ := List.any_eq_true.mp h
    exact List.any_eq_true.mpr ⟨r, (List.mem_filter.mp hr).1, hq⟩
  cases k with
  | approvalRequest id => exact hany h
  | auditLogEntry id => exact hany h
  | outboxEvent id => exact hany h
  | _ => exact hk.elim

/-- A call can not tell a database from the rows of its workspace. -/
theorem alike_rowsOf (hfresh : Fresh [call] σ) :
    σ.Alike call.workspaceId call.env (σ.rowsOf call.workspaceId) where
  rows := by simp [Store.rowsOf, List.filter_filter]
  has k hk := by
    have hσ := hfresh call List.mem_cons_self k hk
    rw [hσ, eq_comm, Bool.eq_false_iff]
    intro h
    rw [Store.has_of_rowsOf (Env.keys_generated hk) h] at hσ
    cases hσ

theorem Fresh.serve (hids : ∀ c ∈ calls, call.env.Apart c.env) (h : Fresh (call :: calls) σ) :
    Fresh calls ((request app call).serve approvalDb σ).1 := by
  intro c hc k hk
  rw [Bool.eq_false_iff]
  intro hh
  rcases serve_has app (Env.keys_generated hk) hh with hh | hh
  · rw [h c (List.mem_cons_of_mem _ hc) k hk] at hh
    cases hh
  · exact hids c hc k hh hk

/-- **Run.** What the calls of a workspace see and leave depends on its rows and its calls
only. -/
theorem isolated (hids : calls.Pairwise (fun c c' => c.env.Apart c'.env)) (h : Fresh calls σ) :
    (transcript app calls σ).filter (fun p => p.1.workspaceId = B) =
        transcript app (callsOf B calls) (σ.rowsOf B) ∧
      (after app calls σ).rowsOf B = after app (callsOf B calls) (σ.rowsOf B) := by
  induction calls generalizing σ with
  | nil => exact ⟨rfl, rfl⟩
  | cons c calls ih =>
    obtain ⟨hc, hcalls⟩ := List.pairwise_cons.mp hids
    have hnext : Fresh calls ((request app c).serve approvalDb σ).1 := h.serve hc
    have hrest := ih hcalls hnext
    rw [transcript_cons, after_cons]
    by_cases hB : c.workspaceId = B
    · subst hB
      have hone : Fresh [c] σ := fun c' hc' => h c' (by
        rw [List.mem_singleton.mp hc']
        exact List.mem_cons_self)
      obtain ⟨hanswer, hrows⟩ := serve_alike app (alike_rowsOf hone)
      have hone_rows : (σ.rowsOf c.workspaceId).rowsOf c.workspaceId = σ.rowsOf c.workspaceId := by
        simp [Store.rowsOf, List.filter_filter]
      have honly := serve_only app hone_rows
      have hcons : callsOf c.workspaceId (c :: calls) = c :: callsOf c.workspaceId calls := by
        simp [callsOf]
      rw [hrows, honly] at hrest
      rw [hcons, transcript_cons, after_cons, List.filter_cons_of_pos (by simp), hrest.1]
      exact ⟨congrArg (fun r => (c, r) :: _) hanswer, hrest.2⟩
    · have hcons : callsOf B (c :: calls) = callsOf B calls := by simp [callsOf, hB]
      rw [serve_foreign app hB] at hrest
      rw [hcons, List.filter_cons_of_neg (by simp [hB])]
      exact hrest

end Serve

/-- **Workspace noninterference.** Calls with generated ids that are all different, served from
an empty database, and the same calls without those of other workspaces than `B`: the clients
in `B` get the same responses, and the second database consists of the rows of `B` in the
first one. So a request id that exists in another workspace only does not exist in the second
one, where every further call in `B` gets the response that it gets in the first one; and a
call in another workspace leaves the idempotency keys of `B` as they are. -/
theorem workspace_noninterference (app : App) (B : String) {calls : List Call}
    (hids : calls.Pairwise (fun c c' => c.env.Apart c'.env)) :
    (transcript app calls .empty).filter (fun p => p.1.workspaceId = B) =
        transcript app (callsOf B calls) .empty ∧
      (after app calls .empty).rowsOf B = after app (callsOf B calls) .empty ∧
      (∀ call id, call.workspaceId = B → Fresh [call] (after app calls .empty) →
        (∀ row ∈ (after app calls .empty).approvalRequests, row.id = id → row.workspaceId ≠ B) →
        (after app (callsOf B calls) .empty).has (.approvalRequest id) = false ∧
          response app call (after app calls .empty) =
            response app call (after app (callsOf B calls) .empty)) ∧
      ∀ call σ, call.workspaceId ≠ B →
        (after app [call] σ).idempotencyKeys.filter (fun r => r.workspaceId == B) =
          σ.idempotencyKeys.filter (fun r => r.workspaceId == B) := by
  have hfresh : Fresh calls .empty := by
    intro c hc k hk
    cases k <;> rfl
  obtain ⟨hanswers, hrows⟩ := isolated hids hfresh
  rw [show Store.empty.rowsOf B = .empty from rfl] at hanswers hrows
  refine ⟨hanswers, hrows, ?_, ?_⟩
  · intro call id hB hnew hforeign
    subst hB
    rw [← hrows]
    refine ⟨?_, (serve_alike app (alike_rowsOf hnew)).1⟩
    rw [Bool.eq_false_iff]
    intro hhas
    obtain ⟨row, hrow, hid⟩ := List.any_eq_true.mp hhas
    simp only [Store.rowsOf, List.mem_filter, beq_iff_eq] at hrow hid
    exact hforeign row hrow.1 hid hrow.2
  · intro call σ hB
    exact congrArg Store.idempotencyKeys (serve_foreign app (σ := σ) hB)

/-- Alice and Bob work in `ws_1`; Dave uses Alice's key and asks for her request in `ws_2`. -/
def Sample.twoWorkspaces : List Call :=
  [launch "1" "key-1",
    { launch "2" "key-1" with authorization := some daveToken, workspaceId := "ws_2" },
    approve "3" bobToken none,
    ⟨env "4" 3, some daveToken, "ws_2", .get launchId⟩]

/-- The status codes of the responses to calls that are served from an empty database. -/
def Sample.statuses (calls : List Call) : List (Option Nat) :=
  (transcript app calls .empty).map (fun p => p.2.map (fun
    | .ok a => a.statusCode
    | .error e => e.statusCode))

/-- Dave's create goes through with Alice's key, and her request does not exist for him. -/
theorem workspace_noninterference_sample :
    Sample.statuses Sample.twoWorkspaces = [some 201, some 201, some 200, some 404] ∧
      (transcript Sample.app Sample.twoWorkspaces .empty).filter
          (fun p => p.1.workspaceId = "ws_2") =
        transcript Sample.app (callsOf "ws_2" Sample.twoWorkspaces) .empty ∧
      (after Sample.app Sample.twoWorkspaces .empty).rowsOf "ws_2" =
        after Sample.app (callsOf "ws_2" Sample.twoWorkspaces) .empty := by
  obtain ⟨hanswers, hrows, -⟩ := workspace_noninterference Sample.app "ws_2"
    (show Sample.twoWorkspaces.Pairwise (fun c c' => c.env.Apart c'.env) by decide)
  refine ⟨?_, hanswers, hrows⟩
  decide +kernel

end ContentApproval
