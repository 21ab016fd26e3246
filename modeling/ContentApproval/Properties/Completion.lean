import ContentApproval.Properties.AtMostOnce
import ContentApproval.Specs.LockOrder

/-!
# Calls come to their ends

Whatever the calls are, whatever ids they generate and in whatever store they start: they
never wait for one another in a circle (`calls_never_deadlock`), and a finite number of them
takes a bounded number of steps and can be brought to an end from every state that they reach,
without a rollback from outside (`calls_complete`). The calls of `calls_complete` may be
unauthorized, invalid, or contend for requests and keys.
-/

namespace ContentApproval

open Transactions

section Runs

variable {ι : Type} [DecidableEq ι] {app : App} {call : ι → Call} {σ : Store} {w : ApiWorld ι}
  {ls : List (ι × Transactions.Action)}

/-- **No deadlock.** No call waits for itself over a chain of others, and behind every call
that is not finished there is one that can go on. -/
theorem calls_never_deadlock (h : Run approvalDb (ApiWorld.start app call σ) ls w) :
    (∀ i, ¬ Relation.TransGen (w.WaitsFor approvalDb) i i) ∧
    ∀ i, ¬ (w.session i).Finished →
      ∃ j, Relation.ReflTransGen (w.WaitsFor approvalDb) i j ∧
        ∃ a w', Step approvalDb w (j, a) w' ∧ a ≠ .abort ∧ a ≠ .lose := by
  have hw := ApiWorld.ordered app call h
  exact ⟨hw.not_circular, fun i hi => hw.exists_step hi⟩

/-- **Completion.** The runs of a finite number of calls are bounded, and each of them has a
continuation without a rollback from outside in which every call ends. -/
theorem calls_complete [Fintype ι] (app : App) (call : ι → Call) :
    ∃ N, ∀ σ ls (w : ApiWorld ι), Run approvalDb (ApiWorld.start app call σ) ls w →
      ls.length ≤ N ∧ ∃ ls' w', Run approvalDb w ls' w' ∧
        (∀ l ∈ ls', l.2 ≠ .abort ∧ l.2 ≠ .lose) ∧ ∀ i, (w'.session i).Finished := by
  choose n hn using fun i => request_ends app (call i)
  refine ⟨∑ i, (n i + 2 + 2), fun σ ls w h => ?_⟩
  have hbudget : ∀ i, ((ApiWorld.start app call σ).session i).Budget (n i + 2 + 2) :=
    fun i => ⟨n i, 2, hn i, le_refl _⟩
  obtain ⟨m, hm⟩ := h.budget hbudget
  exact ⟨h.length_le hbudget, (ApiWorld.ordered app call h).complete hm⟩

end Runs

/-- Alice's create was answered and has not committed, and she has sent it again. -/
theorem calls_never_deadlock_sample : ∃ ls w a l, ∃ w' : ApiWorld (Fin 2),
    Run approvalDb (ApiWorld.start Sample.app Sample.retryCalls Store.empty) ls w ∧
      (w.session 0).answer? = some a ∧ ¬ (w.session 1).Finished ∧
      Step approvalDb w l w' ∧ l.2 ≠ .abort ∧ l.2 ≠ .lose := by
  have hanswer : ((request Sample.app (Sample.retryCalls 0)).answer? approvalDb
      Store.empty).isSome = true := by decide +kernel
  obtain ⟨a, ha⟩ := Option.isSome_iff_exists.mp hanswer
  obtain ⟨ls, w, v, h, hs, -, hv, hothers⟩ := Run.to_answer
    (w := ApiWorld.start Sample.app Sample.retryCalls Store.empty) (i := 0) (fun _ _ => rfl) rfl ha
  have hrun := h.snoc hs
  have hother : ¬ (v.session 1).Finished := by
    rw [hothers 1 (by decide)]
    exact id
  obtain ⟨j, -, b, v', hstep, hb⟩ := (calls_never_deadlock hrun).2 1 hother
  exact ⟨_, v, a, (j, b), v', hrun, hv, hother, hstep, hb⟩

end ContentApproval
