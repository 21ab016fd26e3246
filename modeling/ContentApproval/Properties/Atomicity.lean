import ContentApproval.Db.Session
import ContentApproval.Properties.Storable

/-!
# Failed calls change nothing

A request that ends in an exception before its answer takes all its writes with it, those
that were flushed included: `get_db` commits only after the answer, and rolls back whatever
is raised. No command of the request changes the store, and without its commands the run goes
on just as it did (`failed_changes_nothing`).
-/

namespace ContentApproval

open Transactions

/-- The requests of all calls, each with its connection. -/
abbrev ApiPool (ι : Type) := Pool Reply Store Write String Exn Answer ι

/-- No call has sent a command yet. The database takes the statements that are `ok`. -/
def ApiPool.start {ι : Type} (ok : Statement → Prop) [DecidablePred ok] (app : App) (python : Python)
    (calls : ι → HttpCall) (σ : Store) : ApiPool ι :=
  Pool.start σ (fun i => getDb ((Http.request app python (calls i)).limitedRequest ok dataError))

section Runs

variable {ι : Type} [DecidableEq ι] {ok : Statement → Prop} [DecidablePred ok] {app : App}
  {python : Python} {calls : ι → HttpCall} {σ : Store} {w : ApiPool ι} {is : List ι} {i : ι}

/-- The connections of a run stand where the sessions of a world do. -/
theorem ApiPool.simulated (h : Pool.Run approvalDb (ApiPool.start ok app python calls σ) is w) :
    ∃ ls v, Run approvalDb (World.start σ (fun i =>
      (Http.request app python (calls i)).limitedRequest ok dataError)) ls v ∧
        w.Mirrors Exn.unexpected v := by
  obtain ⟨ls, v, hrun, hv, -⟩ := h.simulated (Pool.Mirrors.start σ _)
  exact ⟨ls, v, hrun, hv⟩

/-- And what the sessions of a world can do by themselves they can do. -/
theorem ApiPool.realized {ls : List (ι × Transactions.Action)}
    {v : World Reply Store Write Exn Answer ι} (h : Run approvalDb (World.start σ (fun i =>
      (Http.request app python (calls i)).limitedRequest ok dataError)) ls v)
    (hcalm : ∀ l ∈ ls, l.2 ≠ .abort ∧ l.2 ≠ .lose) :
    ∃ w, Pool.Run approvalDb (ApiPool.start ok app python calls σ) (ls.map Prod.fst) w ∧
      w.Follows Exn.unexpected v :=
  h.realized hcalm (Pool.Follows.start σ _)

/-- **Failed calls change nothing.** In every run of any calls from any store, a call that has
ended in an exception before its answer, whether the exception is its own, one of the driver or an
unexpected one after its last statement: no command of it has changed any table, and its connection
holds nothing; and without its commands there is a run to the same tables in which every other call,
also every later one, stands where it stood. -/
theorem failed_changes_nothing
    (h : Pool.Run approvalDb (ApiPool.start ok app python calls σ) is w)
    (hi : (w.connection i).Failed) :
    (∀ is₁ v v' is₂, Pool.Run approvalDb (ApiPool.start ok app python calls σ) is₁ v →
      Pool.Step approvalDb v i v' → Pool.Run approvalDb v' is₂ w → v'.store = v.store) ∧
    (w.connection i).writes = [] ∧
    ∃ v, Pool.Run approvalDb (ApiPool.start ok app python calls σ) (is.filter (fun j => j ≠ i)) v ∧
      v.store = w.store ∧ (∀ j, j ≠ i → v.connection j = w.connection j) ∧
      v.connection i = (ApiPool.start ok app python calls σ).connection i := by
  refine ⟨fun is₁ v v' is₂ h₁ hs h₂ => ?_, ?_, ?_⟩
  · obtain ⟨-, u, -, hu⟩ := ApiPool.simulated h₁
    exact hs.store_of_unanswered hu (h₂.unanswered hi.1)
  · obtain ⟨-, u, -, hu⟩ := ApiPool.simulated h
    exact (hu.connection i).writes_of_failed hi
  · refine ⟨w.set i _, h.erase (Pool.Mirrors.start σ _) rfl hi.1, rfl, ?_, ?_⟩
    · exact fun j hj => w.set_connection_ne _ hj
    · exact w.set_connection_self _

end Runs

/-- Alice names a reviewer who has no id that the driver can encode, and then tries again with
another reviewer and the same key. -/
def Sample.retriedCalls : Fin 2 → HttpCall
  | 0 => surrogateReviewer
  | 1 => createOf "Launch" "bob"

/-- Her first attempt ends when its request is already inserted. The second one is answered as if
there had been no first one. -/
theorem failed_changes_nothing_sample : ∃ is w v,
    Pool.Run approvalDb (ApiPool.start (fun _ => True) Sample.app Sample.python Sample.retriedCalls
      Store.empty) is w ∧
      (w.connection 0).Failed ∧ (w.connection 1).answer?.map Answer.statusCode = some 201 ∧
      w.store.approvalRequests.map ApprovalRequestRow.id = [Sample.launchId] ∧
      Pool.Run approvalDb (ApiPool.start (fun _ => True) Sample.app Sample.python
        Sample.retriedCalls Store.empty) (is.filter (fun j => j ≠ 0)) v ∧
      v.store = w.store ∧ v.connection 1 = w.connection 1 := by
  have hby : Sample.surrogateReviewer.By Sample.app Sample.alice :=
    ⟨Sample.authenticate_alice, rfl, by decide⟩
  have hfirst : Http.request Sample.app Sample.python Sample.surrogateReviewer = _ :=
    Http.request_create hby rfl rfl Sample.create?_surrogate
  have hsecond : Http.request Sample.app Sample.python (Sample.createOf "Launch" "bob") = _ :=
    Http.request_text (Sample.text?_createOf
      (q := ⟨.publication, "pub_1", "Launch", none, ["bob"]⟩) Sample.create?_launch)
  obtain ⟨ls, u, h, hstore, hsessions, -, -, hcalm⟩ := Run.serveAll approvalDb
    (fun i => (Http.request Sample.app Sample.python (Sample.retriedCalls i)).limitedRequest
      (fun _ => True) dataError) [0, 1] (by decide) (w := World.start Store.empty _)
    (fun _ => rfl) (fun _ _ => rfl)
  simp only [List.map_cons, List.map_nil, Sample.retriedCalls, hfirst, hsecond] at hstore hsessions
  have hends : ([u.session 0, u.session 1]).map
      (fun s => (Sample.committedStatus? s, Sample.failedStatus? s)) =
        [(none, some 500), (some 201, none)] := by
    rw [hsessions]
    decide +kernel
  have hids : u.store.approvalRequests.map ApprovalRequestRow.id = [Sample.launchId] := by
    rw [hstore]
    decide +kernel
  simp only [List.map_cons, List.map_nil, List.cons.injEq, Prod.mk.injEq, and_true] at hends
  obtain ⟨⟨-, h500⟩, h201, -⟩ := hends
  obtain ⟨e, hfailed, -⟩ := Sample.failed_of_status h500
  obtain ⟨a, δ, hcommitted, hcode⟩ := Sample.committed_of_status h201
  obtain ⟨w, hrun, hw⟩ := ApiPool.realized h hcalm
  have h₀ := hw.connection 0
  rw [hfailed] at h₀
  have h₁ := hw.connection 1
  rw [hcommitted] at h₁
  have hw₀ : (w.connection 0).Failed := by
    rw [show w.connection 0 = ⟨.throw e, [], none⟩ from h₀]
    exact ⟨rfl, e, rfl⟩
  have hw₁ : (w.connection 1).answer?.map Answer.statusCode = some 201 := by
    rw [show w.connection 1 = ⟨.ret (), [], some a⟩ from h₁]
    exact congrArg some hcode
  obtain ⟨-, -, v, hv, hsame, hothers, -⟩ := failed_changes_nothing hrun hw₀
  exact ⟨_, w, v, hrun, hw₀, hw₁, hw.store ▸ hids, hv, hsame, hothers 1 (by decide)⟩

end ContentApproval
