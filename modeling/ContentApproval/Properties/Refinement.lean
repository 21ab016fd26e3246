import ContentApproval.Db.Domains
import ContentApproval.Properties.Isolation
import ContentApproval.Properties.Replay
import ContentApproval.Properties.Serializable
import ContentApproval.Specs.Handling
import ContentApproval.Transactions.Limited

/-!
# The service is a registry of cases

To its clients the service is a registry of cases that handles one call at a time. Of calls that
are served one after the other this holds of all whose statements the database takes: every answer
and every error is the one of the registry. The others change nothing (`calls_refine_registry`). Of
calls that interleave it holds of all that
have committed, list calls aside, in the order in which they take effect
(`interleaved_calls_refine_registry`), and that order respects real time (`calls_linearizable`).
-/

namespace ContentApproval

open Transactions

/-- The registry handles calls one after the other. -/
def Registry.handleAll (app : App) : List Call → Registry → Registry × List (Except Exn Answer)
  | [], cases => (cases, [])
  | call :: calls, cases => match cases.handle app call with
    | .ok (a, cases') =>
      let rest := handleAll app calls cases'
      (rest.1, .ok a :: rest.2)
    | .error e =>
      let rest := handleAll app calls cases
      (rest.1, .error e :: rest.2)

section Sequence

variable {app : App} {call : Call} {calls : List Call} {cases : Registry} {σ : Store}

/-- The first call of a sequence. -/
theorem Represents.handleAll_cons (app : App) (hrep : Represents cases σ)
    (hnew : call.Unused σ) :
    ∃ cases' r, Represents cases' ((request app call).serve approvalDb σ).1 ∧
      response app call σ = some r ∧ ∀ calls, Registry.handleAll app (call :: calls) cases =
        ((Registry.handleAll app calls cases').1, r :: (Registry.handleAll app calls cases').2) := by
  have hcarries := @Represents.carries app call cases σ hrep hnew
  unfold response
  simp only [Registry.handleAll]
  generalize cases.handle app call = outcome at hcarries ⊢
  cases hcarries with
  | @answered a cases' δ hanswered hrep' =>
    exact ⟨cases', .ok a, hrep', by rw [hanswered]; rfl, fun _ => rfl⟩
  | @refused e hfailed hσ =>
    exact ⟨cases, .error e, by rw [hσ]; exact hrep, by rw [hfailed]; rfl, fun _ => rfl⟩

/-- A call that has new ids. -/
theorem Fresh.unused (h : Fresh (call :: calls) σ) : call.Unused σ := by
  intro _ k hk
  refine h call List.mem_cons_self k ?_
  unfold Call.generated at hk
  split at hk
  · exact hk
  · exact List.mem_cons_of_mem _ hk
  · cases hk

/-! ### A database that refuses statements -/

/-- The elements that are marked. -/
def marked {α : Type} : List α → List Bool → List α
  | a :: l, b :: marks => if b then a :: marked l marks else marked l marks
  | _, _ => []

variable (ok : Statement → Prop) [DecidablePred ok]

/-- The calls one after the other, each in a transaction of its own. The database takes the
statements that are `ok`. -/
def serveOn (app : App) (calls : List Call) (σ : Store) :
    Store × List (Session Reply Write Exn Answer × List Statement) :=
  serveAll approvalDb (calls.map fun call => (request app call).limitedRequest ok dataError) σ

/-- Which of the calls have all their statements taken. -/
def taken (app : App) : List Call → Store → List Bool
  | [], _ => []
  | call :: calls, σ => decide (∀ s ∈ ((request app call).serve approvalDb σ).2.2, ok s) ::
      taken app calls (((request app call).limitedRequest ok dataError).serve approvalDb σ).1

variable {ok}

theorem serveOn_cons : serveOn ok app (call :: calls) σ =
    ((serveOn ok app calls (((request app call).limitedRequest ok dataError).serve approvalDb σ).1).1,
      (((request app call).limitedRequest ok dataError).serve approvalDb σ).2 ::
        (serveOn ok app calls
          (((request app call).limitedRequest ok dataError).serve approvalDb σ).1).2) := rfl

theorem taken_cons : taken ok app (call :: calls) σ =
    decide (∀ s ∈ ((request app call).serve approvalDb σ).2.2, ok s) :: taken ok app calls
      (((request app call).limitedRequest ok dataError).serve approvalDb σ).1 := rfl

/-- **Refinement, one call at a time.** Let calls with new ids be served one after the other against
a database that may refuse statements. The calls whose statements it takes are answered and refused
as the registry answers and refuses them. Of the others each fails with the refusal or is lost after
its answer. The tables stay those of the registry. -/
theorem calls_refine_registry (hrep : Represents cases σ)
    (hids : calls.Pairwise (fun c c' => c.env.Apart c'.env)) (hnew : Fresh calls σ) :
    (marked (serveOn ok app calls σ).2 (taken ok app calls σ)).map (fun s => s.1.response?) =
        (Registry.handleAll app (marked calls (taken ok app calls σ)) cases).2.map some ∧
      (∀ s ∈ marked (serveOn ok app calls σ).2 ((taken ok app calls σ).map not),
        s.1 = .failed dataError ∨ ∃ a, s.1 = .lost a) ∧
      Represents (Registry.handleAll app (marked calls (taken ok app calls σ)) cases).1
        (serveOn ok app calls σ).1 := by
  induction calls generalizing cases σ with
  | nil => exact ⟨rfl, fun _ hs => absurd hs List.not_mem_nil, hrep⟩
  | cons call calls ih =>
    obtain ⟨hcall, hcalls⟩ := List.pairwise_cons.mp hids
    by_cases htaken : ∀ s ∈ ((request app call).serve approvalDb σ).2.2, ok s
    · obtain ⟨cases', r, hrep', hresponse, hcons⟩ := hrep.handleAll_cons app hnew.unused
      obtain ⟨hanswers, hrefused, hlast⟩ := ih hrep' hcalls (hnew.serve hcall)
      rw [taken_cons, serveOn_cons, Prog.serve_limited htaken, decide_eq_true htaken]
      simp only [marked, if_true, List.map_cons, Bool.not_true, hcons]
      exact ⟨List.cons_eq_cons.mpr ⟨hresponse, hanswers⟩, hrefused, hlast⟩
    · -- The transaction is rolled back, so the next call finds the same tables.
      have hend : (((request app call).limitedRequest ok dataError).serve approvalDb σ).2.1 =
          .failed dataError ∨ ∃ a, (((request app call).limitedRequest ok dataError).serve approvalDb
            σ).2.1 = .lost a := Prog.serve_limited_refused htaken
      have hstore : (((request app call).limitedRequest ok dataError).serve approvalDb σ).1 = σ := by
        refine Prog.serve_uncommitted fun a δ hcommitted => ?_
        rw [hcommitted] at hend
        rcases hend with hend | ⟨b, hend⟩ <;> cases hend
      obtain ⟨hanswers, hrefused, hlast⟩ := ih hrep hcalls
        (fun c hc => hnew c (List.mem_cons_of_mem _ hc))
      rw [taken_cons, serveOn_cons, hstore, decide_eq_false htaken]
      refine ⟨hanswers, fun s hs => ?_, hlast⟩
      rcases List.mem_cons.mp hs with rfl | hs
      · exact hend
      · exact hrefused s hs

end Sequence

section Committed

variable {app : App} {call : Call} {calls : List Call} {cases : Registry} {σ : Store}

/-- A call that has committed did not have used ids. -/
theorem Valid.unused {a : Answer} {δ : List Write} (hσ : σ.Registered)
    (h : Valid approvalDb (request app call) σ a δ) : call.Unused σ := by
  have hheld : Held δ σ := h.held
  have hstore := h.store
  obtain ⟨P, hby, heff⟩ := (hσ.serve app call).2.2 a δ h
  intro hledger k hk
  unfold Call.generated at hk
  cases heff with
  | read a hop =>
    split at hk
    · rename_i hcreate
      rw [hcreate] at hop
      exact hop.elim
    · rename_i hdecide
      rw [hdecide] at hop
      exact hop.elim
    · cases hk
  | created c hop henv =>
    rw [hop, ← henv] at hk
    exact Creation.new_of_held hheld k hk
  | decided v hop henv =>
    obtain ⟨haudit, hevent⟩ := Verdict.new_of_held hheld
    rw [hop, ← henv] at hk
    simp only [List.mem_cons, List.not_mem_nil, or_false] at hk
    obtain rfl | rfl := hk
    · exact haudit
    · exact hevent
  | replayed hkey hbody hfound =>
    rw [hstore, Database.view_nil, hledger _ _ hkey] at hfound
    cases hfound

/-- Calls that all commit. -/
theorem Represents.handleAll_committed (hrep : Represents cases σ)
    (hcommitted : ∀ s ∈ (serveAll approvalDb (calls.map (request app)) σ).2,
      s.1.isCommitted = true) :
    (serveAll approvalDb (calls.map (request app)) σ).2.map (fun s => s.1.response?) =
        (Registry.handleAll app calls cases).2.map some ∧
      Represents (Registry.handleAll app calls cases).1 (after app calls σ) := by
  induction calls generalizing cases σ with
  | nil => exact ⟨rfl, hrep⟩
  | cons call calls ih =>
    obtain ⟨hcall, hcalls⟩ := List.forall_mem_cons.mp hcommitted
    obtain ⟨a, δ, hvalid⟩ := Session.isCommitted_iff.mp hcall
    obtain ⟨cases', r, hrep', hresponse, hcons⟩ :=
      hrep.handleAll_cons app (Valid.unused hrep.registered hvalid)
    obtain ⟨hanswers, hlast⟩ := ih hrep' hcalls
    rw [hcons]
    exact ⟨List.cons_eq_cons.mpr ⟨hresponse, hanswers⟩, hlast⟩

/-- No id is in use in an empty database. -/
theorem fresh_empty (calls : List Call) : Fresh calls .empty := by
  intro c hc k hk
  cases k <;> rfl

end Committed

/-- Alice submits a request, lists the requests from the `2 ^ 63`-th on, and Bob approves. -/
def Sample.farCalls : List Call :=
  [launch "1" "key-1",
    ⟨env "4" 3, some aliceToken, "ws_1", .list none .absent (.value "9223372036854775808" (2 ^ 63))⟩,
    approve "3" bobToken none]

/-- Postgres refuses the offset; the other two calls are those that the registry handles. -/
theorem calls_refine_registry_sample :
    taken (Statement.Bindable · ⟨fun _ => true⟩) Sample.app Sample.farCalls .empty =
        [true, false, true] ∧
      (marked (serveOn (Statement.Bindable · ⟨fun _ => true⟩) Sample.app Sample.farCalls .empty).2
          (taken (Statement.Bindable · ⟨fun _ => true⟩) Sample.app Sample.farCalls .empty)).map
          (fun s => s.1.response?) =
        (Registry.handleAll Sample.app (marked Sample.farCalls
          (taken (Statement.Bindable · ⟨fun _ => true⟩) Sample.app Sample.farCalls .empty))
            []).2.map some :=
  ⟨by decide +kernel, (calls_refine_registry represents_empty (by decide) (fresh_empty _)).1⟩

section Runs

variable {ι : Type} [DecidableEq ι] {app : App} {call : ι → Call} {cases : Registry} {σ : Store}
  {ls : List (ι × Transactions.Action)} {w : ApiWorld ι}

omit [DecidableEq ι] in
/-- The registry handles the calls of an order that explains what they have done. -/
theorem Represents.handleAll_explained (hrep : Represents cases σ) {order : List ι}
    (hexplains : Explains approvalDb (fun i => request app (call i)) σ
      (fun i => (call i).point) order w) :
    (Registry.handleAll app (order.map call) cases).2.map some =
        order.map (fun i => (w.session i).response?) ∧
      Represents (Registry.handleAll app (order.map call) cases).1 w.store := by
  have hmap : order.map (fun i => request app (call i)) =
      (order.map call).map (request app) := by rw [List.map_map]; rfl
  obtain ⟨hnodup, hmem, hstore, hsessions⟩ := hexplains
  rw [hmap] at hstore hsessions
  have hcommitted : ∀ s ∈ (serveAll approvalDb ((order.map call).map (request app)) σ).2,
      s.1.isCommitted = true := by
    intro s hs
    have hs' := List.mem_map_of_mem (f := Prod.fst) hs
    rw [hsessions] at hs'
    obtain ⟨i, hi, hsession⟩ := List.mem_map.mp hs'
    rw [← hsession]
    exact Session.isCommitted_iff.mpr ((hmem i).mp hi).2
  obtain ⟨hanswers, hlast⟩ := hrep.handleAll_committed hcommitted
  refine ⟨?_, ?_⟩
  · rw [← hanswers, ← Function.comp_def Session.response? Prod.fst, ← List.map_map, hsessions,
      List.map_map]
    rfl
  · rw [after, hstore] at hlast
    exact hlast

/-- **Refinement, with interleaving.** Whatever the order of their statements, the calls that have
committed, list calls aside, are answered as the registry answers them one after the other, and
the tables are those of the registry. -/
theorem interleaved_calls_refine_registry (hrep : Represents cases σ)
    (h : Run approvalDb (ApiWorld.start app call σ) ls w) :
    (Registry.handleAll app ((servedOrder call ls w).map call) cases).2.map some =
        (servedOrder call ls w).map (fun i => (w.session i).response?) ∧
      Represents (Registry.handleAll app ((servedOrder call ls w).map call) cases).1 w.store :=
  hrep.handleAll_explained (Run.serializable hrep.registered
    (fun i => request_meets_exact app (call i)) (fun i => takesEffect app (call i)) h)

/-- **Linearizability.** For every run of any calls there is an order of those that have committed,
list calls aside, in which the registry gives each of them its answer, one after the other, and ends
as the tables say. A call that had committed before another one took its first step comes first. -/
theorem calls_linearizable (hrep : Represents cases σ)
    (h : Run approvalDb (ApiWorld.start app call σ) ls w) :
    ∃ order : List ι, order.Nodup ∧
      (∀ i, i ∈ order ↔ (∀ status limit offset, (call i).operation ≠ .list status limit offset) ∧
        ∃ a δ, w.session i = .committed a δ) ∧
      (∀ ls₁ ls₂ v, ls = ls₁ ++ ls₂ → Run approvalDb (ApiWorld.start app call σ) ls₁ v →
        ∀ i ∈ order, ∀ j ∈ order, (∃ a δ, v.session i = .committed a δ) → (∀ b, (j, b) ∉ ls₁) →
          List.Sublist [i, j] order) ∧
      (Registry.handleAll app (order.map call) cases).2.map some =
        order.map (fun i => (w.session i).response?) ∧
      Represents (Registry.handleAll app (order.map call) cases).1 w.store := by
  have hexplains : ∀ {ls v}, Run approvalDb (ApiWorld.start app call σ) ls v →
      Explains approvalDb (fun i => request app (call i)) σ (fun i => (call i).point)
        (servedOrder call ls v) v := fun h =>
    Run.serializable hrep.registered (fun i => request_meets_exact app (call i))
      (fun i => takesEffect app (call i)) h
  obtain ⟨hanswers, htables⟩ := hrep.handleAll_explained (hexplains h)
  refine ⟨servedOrder call ls w, (hexplains h).nodup, fun i => ?_, ?_, hanswers, htables⟩
  · rw [(hexplains h).mem, (call i).point_isSome]
  · rintro ls₁ ls₂ v rfl h₁ i hi j hj hcommitted hlater
    obtain ⟨hi', hkept⟩ := List.mem_filter.mp hi
    obtain ⟨hj', hkept'⟩ := List.mem_filter.mp hj
    have hearly : i ∈ servedOrder call ls₁ v :=
      ((hexplains h₁).mem i).mpr ⟨(((hexplains h).mem i).mp hi).1, hcommitted⟩
    have hsublist := effectOrder_sublist (List.mem_filter.mp hearly).1 hlater hj'
    have hboth : [i, j].filter (fun i => (w.session i).isCommitted) = [i, j] :=
      List.filter_eq_self.mpr (by simp [hkept, hkept'])
    rw [← hboth]
    exact hsublist.filter _

end Runs

/-- A create, a read of the request and its approval. -/
theorem Sample.readCalls_run : ∃ ls w,
    Run approvalDb (ApiWorld.start app readCalls Store.empty) ls w ∧
      ∀ i, (w.session i).isCommitted = true := by
  obtain ⟨ls, w, h, -, hsessions, -⟩ := Run.serveAll approvalDb
    (fun i => request app (readCalls i)) [0, 1, 2] (by decide)
    (w := ApiWorld.start app readCalls Store.empty) (fun _ => rfl) (fun _ _ => rfl)
  have hends : ([0, 1, 2].map w.session).map Session.isCommitted = [true, true, true] := by
    rw [hsessions]
    decide +kernel
  simp only [List.map_cons, List.map_nil, List.cons.injEq, and_true] at hends
  refine ⟨ls, w, h, fun i => ?_⟩
  obtain rfl | rfl | rfl : i = 0 ∨ i = 1 ∨ i = 2 := by omega
  · exact hends.1
  · exact hends.2.1
  · exact hends.2.2

theorem interleaved_calls_refine_registry_sample : ∃ ls w,
    Run approvalDb (ApiWorld.start Sample.app Sample.readCalls Store.empty) ls w ∧
      (∀ i, (w.session i).isCommitted = true) ∧
      (Registry.handleAll Sample.app ((servedOrder Sample.readCalls ls w).map Sample.readCalls)
        []).2.map some =
          (servedOrder Sample.readCalls ls w).map (fun i => (w.session i).response?) := by
  obtain ⟨ls, w, h, hall⟩ := Sample.readCalls_run
  exact ⟨ls, w, h, hall, (interleaved_calls_refine_registry represents_empty h).1⟩

theorem calls_linearizable_sample : ∃ ls w, ∃ order : List (Fin 3),
    Run approvalDb (ApiWorld.start Sample.app Sample.readCalls Store.empty) ls w ∧
      (∀ i, i ∈ order) ∧
      (Registry.handleAll Sample.app (order.map Sample.readCalls) []).2.map some =
        order.map (fun i => (w.session i).response?) := by
  obtain ⟨ls, w, h, hall⟩ := Sample.readCalls_run
  obtain ⟨order, -, hmem, -, hanswers, -⟩ := calls_linearizable represents_empty h
  refine ⟨ls, w, order, h, fun i => (hmem i).mpr ⟨?_, Session.isCommitted_iff.mp (hall i)⟩, hanswers⟩
  obtain rfl | rfl | rfl : i = 0 ∨ i = 1 ∨ i = 2 := by omega
  · exact nofun
  · exact nofun
  · exact nofun

end ContentApproval
