import ContentApproval.Properties.Finality
import ContentApproval.Specs.Serial

/-!
# The calls could have been served one after the other

The statements of the calls interleave, each sees what the others have committed until then, and
answers are sent before the commit. Yet the calls that have committed, list calls aside, could
have been served one after the other (`calls_serializable`): each create and each decision,
replays of them included, at its commit, each read of one request at its first statement. Served
so, every call gives the same answer and commits the same writes, and the store ends the same.

A list call has no such moment. Its total, its page and the reviewers of the page are three
statements, and another call can commit between two of them.
-/

namespace ContentApproval

open Transactions

section Runs

variable {ι : Type} [DecidableEq ι] {app : App} {call : ι → Call} {σ : Store} {w : ApiWorld ι}
  {ls : List (ι × Transactions.Action)}

/-- The calls that a run has committed, list calls aside, in the order in which they took
effect. -/
def servedOrder (call : ι → Call) (ls : List (ι × Transactions.Action)) (w : ApiWorld ι) : List ι :=
  (effectOrder (fun i => (call i).point) ls).filter (fun i => (w.session i).isCommitted)

/-- **Serializability of all calls but the list calls.** -/
theorem calls_serializable (hσ : σ.Registered)
    (h : Run approvalDb (ApiWorld.start app call σ) ls w) :
    Explains approvalDb (fun i => request app (call i)) σ (fun i => (call i).point)
      (servedOrder call ls w) w :=
  Run.serializable hσ (fun i => request_meets_exact app (call i))
    (fun i => takesEffect app (call i)) h

end Runs

/-- A create, a read of the request and its approval. -/
def Sample.readCalls : Fin 3 → Call
  | 0 => launch "1" "key-1"
  | 1 => ⟨env "2" 1, some aliceToken, "ws_1", .get launchId⟩
  | 2 => approve "3" bobToken none

theorem calls_serializable_sample : ∃ ls w order,
    Run approvalDb (ApiWorld.start Sample.app Sample.readCalls Store.empty) ls w ∧
      Explains approvalDb (fun i => request Sample.app (Sample.readCalls i)) Store.empty
        (fun i => (Sample.readCalls i).point) order w ∧ ∀ i, i ∈ order := by
  obtain ⟨ls, w, h, -, hsessions, -⟩ := Run.serveAll approvalDb
    (fun i => request Sample.app (Sample.readCalls i)) [0, 1, 2] (by decide)
    (w := ApiWorld.start Sample.app Sample.readCalls Store.empty) (fun _ => rfl) (fun _ _ => rfl)
  have hends : ([0, 1, 2].map w.session).map Sample.committedStatus? =
      [some 201, some 200, some 200] := by
    rw [hsessions]
    decide +kernel
  simp only [List.map_cons, List.map_nil, List.cons.injEq, and_true] at hends
  obtain ⟨a₀, δ₀, h₀, -⟩ := Sample.committed_of_status hends.1
  obtain ⟨a₁, δ₁, h₁, -⟩ := Sample.committed_of_status hends.2.1
  obtain ⟨a₂, δ₂, h₂, -⟩ := Sample.committed_of_status hends.2.2
  have hexplains := calls_serializable ⟨[], represents_empty⟩ h
  refine ⟨ls, w, _, h, hexplains, fun i => (hexplains.mem i).mpr ?_⟩
  obtain rfl | rfl | rfl : i = 0 ∨ i = 1 ∨ i = 2 := by omega
  · exact ⟨rfl, a₀, δ₀, h₀⟩
  · exact ⟨rfl, a₁, δ₁, h₁⟩
  · exact ⟨rfl, a₂, δ₂, h₂⟩

end ContentApproval
