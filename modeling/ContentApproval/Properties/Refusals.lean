import ContentApproval.Db.Domains
import ContentApproval.Properties.AtMostOnce
import ContentApproval.Properties.Correlation
import ContentApproval.Properties.Isolation
import ContentApproval.Specs.Refusals
import ContentApproval.Transactions.Limited

/-!
# Exceptions have reasons

In every interleaving of calls, from any store that was built up by the service and against a
database that may refuse some statements, a call that has ended in an exception has one of the
reasons that `Refusal` lists or was refused by the database, and a call that was answered and did
not commit was rolled back from outside, was refused, or is a decision whose generated ids were in
use (`exceptions_have_reasons`). If the generated ids are new, as random ids are, then every
exception of a call that the database has not refused is answered by a problem document with a
status below 500 (`refusals_answered`), and only a create is ever told that its key is being
processed, while another one with the key commits (`conflicts_overlap`).
-/

namespace ContentApproval

open Transactions Idempotency

section Runs

variable {ι : Type} [DecidableEq ι] {app : App} {call : ι → Call} {σ : Store} {w₀ w : ApiWorld ι}
  {ls₀ ls : List (ι × Transactions.Action)}

theorem refusal_stable (app : App) (call : Call) (σ : Store) :
    approvalDiscipline.Stable fun e σ₁ => Refusal app call σ σ₁ e :=
  fun _ _ _ h hs => h.env (.single hs)

theorem trailInUse_stable (call : Call) :
    approvalDiscipline.Stable fun (_ : Exn) σ => call.TrailInUse σ :=
  fun _ _ _ h hs => h.env (.single hs)

/-- From any moment before it has begun, a call has only the exceptions that have reasons. -/
theorem ApiWorld.excused (hσ : σ.Registered)
    (h₀ : Run approvalDb (ApiWorld.start app call σ) ls₀ w₀) {i : ι}
    (hi : w₀.session i = .running (request app (call i)) []) (h : Run approvalDb w₀ ls w) :
    (w.session i).Excused approvalDiscipline (fun e σ₁ => Refusal app (call i) w₀.store σ₁ e)
      (fun _ σ₁ => (call i).TrailInUse σ₁) ((i, .lose) ∈ ls) w.store := by
  refine (ApiWorld.sound hσ h₀).excused (refusal_stable app (call i) w₀.store)
    (trailInUse_stable (call i)) h ?_
  rw [hi]
  exact request_refuses app (call i) w₀.store

/-! ## A database that refuses statements -/

/-- No call has sent a statement yet. The database takes the statements that are `ok`. -/
def ApiWorld.startOn (ok : Statement → Prop) [DecidablePred ok] (app : App) (call : ι → Call)
    (σ : Store) : ApiWorld ι :=
  World.start σ (fun i => (request app (call i)).limitedRequest ok dataError)

omit [DecidableEq ι] in
theorem ApiWorld.startOn_eq {ok : Statement → Prop} [DecidablePred ok] (hok : ∀ s, ok s) (app : App)
    (call : ι → Call) (σ : Store) : ApiWorld.startOn ok app call σ = ApiWorld.start app call σ :=
  congrArg (World.start σ) (funext fun _ => Prog.limitedRequest_eq hok _)

variable {ok : Statement → Prop} [DecidablePred ok]

/-- A run of calls against such a database is one of the same calls, some of them rolled back from
outside. -/
theorem ApiWorld.unlimited (h : Run approvalDb (ApiWorld.startOn ok app call σ) ls w) :
    ∃ ls' u, Run approvalDb (ApiWorld.start app call σ) ls' u ∧
      w.Limits ok dataError (fun i => (request app (call i)).Refusable ok) u ∧
      List.Forall₂ (Action.Limits fun i => (request app (call i)).Refusable ok) ls ls' :=
  h.unlimited (World.Limits.start σ _)

/-- **Exceptions have reasons.** For every moment of a run at which a call has not begun, and every
later one: an exception of the call has one of the reasons, at these two moments, or the database
has refused one of its statements. -/
theorem exceptions_have_reasons (hσ : σ.Registered)
    (h₀ : Run approvalDb (ApiWorld.startOn ok app call σ) ls₀ w₀) {i : ι} (hi : ∀ b, (i, b) ∉ ls₀)
    (h : Run approvalDb w₀ ls w) :
    (∀ e, w.session i = .failed e →
      Refusal app (call i) w₀.store w.store e ∨ e = dataError ∧ (request app (call i)).Refusable ok) ∧
    ∀ a, w.session i = .lost a → (i, .lose) ∈ ls ∨ (call i).TrailInUse w.store ∨
      (i, .raise) ∈ ls ∧ (request app (call i)).Refusable ok := by
  obtain ⟨ls₀', u₀, hrun₀, hu₀, hlabels₀⟩ := ApiWorld.unlimited h₀
  obtain ⟨ls', u, hrun, hu, hlabels⟩ := h.unlimited hu₀
  have hstart : u₀.session i = .running (request app (call i)) [] :=
    hrun₀.session_eq (not_mem_of_limits hlabels₀ hi)
  have hexcused := ApiWorld.excused hσ hrun₀ hstart hrun
  rw [← hu₀.store, ← hu.store] at hexcused
  refine ⟨fun e he => ?_, fun a ha => ?_⟩
  · refine (hu.session i).failed he |>.imp_left fun hfailed => ?_
    rw [hfailed] at hexcused
    exact hexcused
  · rw [(hu.session i).lost ha] at hexcused
    rcases hexcused with hlose | ⟨_, hinUse⟩
    · exact (lose_of_limits hlabels hlose).imp_right Or.inr
    · exact Or.inr (Or.inl hinUse)

/-! ## New ids -/

/-- The ids of the rows that a call commits are those that it has generated. -/
theorem Effect.generated {call : Call} {P : Principal} {a : Answer} {δ : List Write}
    (h : Effect app call P σ a δ) {row : NewRow} (hrow : Write.insert row ∈ δ)
    (hgenerated : row.primaryKey.Generated) : row.primaryKey ∈ call.env.keys := by
  cases h with
  | read => cases hrow
  | replayed => cases hrow
  | created c hop henv =>
    obtain ⟨row', hmem, hinsert⟩ := List.mem_map.mp hrow
    obtain rfl := Write.insert.inj hinsert
    rw [← henv]
    rcases List.mem_cons.mp hmem with rfl | hmem
    · exact List.mem_cons_self
    rcases List.mem_append.mp hmem with hmem | hmem
    · obtain ⟨r, -, rfl⟩ := List.mem_map.mp hmem
      exact hgenerated.elim
    · simp only [List.mem_cons, List.not_mem_nil, or_false] at hmem
      obtain rfl | rfl | rfl := hmem
      · exact List.mem_cons_of_mem _ List.mem_cons_self
      · exact List.mem_cons_of_mem _ (List.mem_cons_of_mem _ List.mem_cons_self)
      · exact hgenerated.elim
  | @decided v id key body payload r r' hop henv =>
    rw [← henv]
    rcases List.mem_cons.mp hrow with hrow | hrow
    · cases hrow
    obtain ⟨row', hmem, hinsert⟩ := List.mem_map.mp hrow
    obtain rfl := Write.insert.inj hinsert
    rcases List.mem_cons.mp hmem with rfl | hmem
    · exact List.mem_cons_of_mem _ List.mem_cons_self
    rcases List.mem_cons.mp hmem with rfl | hmem
    · exact List.mem_cons_of_mem _ (List.mem_cons_of_mem _ List.mem_cons_self)
    · obtain ⟨r, -, rfl⟩ := List.mem_map.mp hmem
      exact hgenerated.elim

omit [DecidableEq ι] in
/-- A key that is in use was in use before, or a call that has committed has inserted it. -/
theorem exists_inserted {commits : List (ι × List Write)} (hh : History approvalDb σ w commits)
    {k : PrimaryKey} (hk : w.store.has k = true) : σ.has k = true ∨ ∃ i a δ row,
      w.session i = .committed a δ ∧ Write.insert row ∈ δ ∧ row.primaryKey = k := by
  rw [hh.store] at hk
  refine (has_foldl.mp hk).imp_right ?_
  rintro ⟨row, hrow, hkey⟩
  obtain ⟨⟨i, δ⟩, hmem, hδ⟩ := List.mem_flatMap.mp hrow
  obtain ⟨a, hi⟩ := (hh.session i δ).mp hmem
  exact ⟨i, a, δ, row, hi, hδ, hkey⟩

/-- The new ids of a call that has not committed are not in use. -/
theorem unused_of_uncommitted (hσ : σ.Registered)
    (h : Run approvalDb (ApiWorld.start app call σ) ls w)
    (hids : ∀ i j, i ≠ j → (call i).env.Apart (call j).env) (hnew : ∀ i, (call i).env.New σ)
    {i : ι} (hi : ∀ a δ, w.session i ≠ .committed a δ) {k : PrimaryKey}
    (hk : k ∈ (call i).env.keys) : w.store.has k = false := by
  obtain ⟨commits, hh⟩ := h.history
  refine Bool.eq_false_iff.mpr fun hused => ?_
  rcases exists_inserted hh hused with hold | ⟨j, a, δ, row, hj, hrow, rfl⟩
  · rw [hnew i k hk] at hold
    cases hold
  · obtain ⟨P, -, heff⟩ := World.Sound.committed (ApiWorld.sound hσ h) hj
    have hij : i ≠ j := fun h => hi a δ (h ▸ hj)
    exact hids i j hij _ hk (heff.generated hrow (Env.keys_generated hk))

theorem unused_of_failed (hσ : σ.Registered) (h : Run approvalDb (ApiWorld.start app call σ) ls w)
    (hids : ∀ i j, i ≠ j → (call i).env.Apart (call j).env) (hnew : ∀ i, (call i).env.New σ)
    {i : ι} {e : Exn} (hi : w.session i = .failed e) :
    ∀ k ∈ (call i).env.keys, w.store.has k = false := fun k hk =>
  unused_of_uncommitted hσ h hids hnew (fun a δ hc => by rw [hi] at hc; cases hc) hk

/-- A key that has come into the ledger was entered by a call that has executed under it. -/
theorem exists_executed (hσ : σ.Registered)
    (h : Run approvalDb (ApiWorld.start app call σ) ls w) {ws route key : String}
    (hbefore : σ.key? ws route key = none) (hfound : (w.store.key? ws route key).isSome = true) :
    ∃ i, Executed call w ws route key i := by
  obtain ⟨commits, hh⟩ := h.history
  rw [Store.key?_isSome] at hfound
  rcases exists_inserted hh hfound with hold | ⟨i, a, δ, row, hi, hrow, hprimary⟩
  · rw [← Store.key?_isSome, hbefore] at hold
    cases hold
  · obtain ⟨P, -, heff⟩ := World.Sound.committed (ApiWorld.sound hσ h) hi
    cases row with
    | idempotencyKey r =>
      obtain ⟨hws, hroute, hkey⟩ := PrimaryKey.idempotencyKey.inj hprimary
      have hkeyed := heff.keyedBy hrow
      rw [hws, hroute, hkey] at hkeyed
      exact ⟨i, hkeyed, a, δ, hi, List.ne_nil_of_mem hrow⟩
    | _ => cases hprimary

omit [DecidableEq ι] in
/-- A call whose new ids are not in use is told that its key is being processed only if it is a
create and the key has been used since it began. -/
theorem Refusal.key_used {call : Call} {σ₀ : Store} {e : Exn} (h : Refusal app call σ₀ σ e)
    (he : e = Idempotency.keyInProgress) (hunused : ∀ k ∈ call.env.keys, σ.has k = false) :
    ∃ key, call.operation.ledgerKey = some ("create", key) ∧
      σ₀.key? call.workspaceId "create" key = none ∧
      (σ.key? call.workspaceId "create" key).isSome = true := by
  have hids : ∀ k ∈ call.trailKeys, σ.has k = false :=
    fun k hk => hunused k (List.mem_cons_of_mem _ hk)
  cases h with
  | @keyInProgress key body hop hbefore hused =>
    refine ⟨key, by rw [hop]; rfl, hbefore, ?_⟩
    obtain ⟨k, hk, hhas⟩ := hused
    rcases List.mem_append.mp hk with hk | hk
    · rw [hids k hk] at hhas
      cases hhas
    · rw [List.mem_singleton.mp hk] at hhas
      rw [Store.key?_isSome]
      exact hhas
  | trailInUse hop hused =>
    obtain ⟨k, hk, hhas⟩ := hused
    rw [hids k hk] at hhas
    cases hhas
  | denied hcaller =>
    rw [he, Call.caller] at hcaller
    split at hcaller
    · simp [Idempotency.keyInProgress] at hcaller
    · cases hcaller
    · split_ifs at hcaller <;> simp [Idempotency.keyInProgress] at hcaller
  | keyReused => simp [Idempotency.keyReused, Idempotency.keyInProgress] at he
  | unreadable => cases hbody : call.operation.body <;> rw [hbody] at he <;> cases he
  | _ => cases he

/-- A provider raises nothing but `InvalidCredentialsError` for this header. -/
def RaisesCredentials (provider : AuthProvider) (authorization : Option String) : Prop :=
  ∀ detail, provider.authenticate authorization ≠ .error (.other detail)

omit [DecidableEq ι] in
/-- The status codes of the refusals of a call whose new ids are not in use. -/
theorem Refusal.statusCode {call : Call} {σ₀ : Store} {e : Exn} (h : Refusal app call σ₀ σ e)
    (hauth : RaisesCredentials app.provider call.authorization)
    (hunused : ∀ k ∈ call.env.keys, σ.has k = false) :
    e.statusCode ∈ [401, 403, 404, 409, 422] := by
  cases h with
  | unreadable => cases call.operation.body <;> simp [RawBody.syntaxError]
  | denied hcaller =>
    unfold Call.caller at hcaller
    split at hcaller
    · obtain rfl := Except.error.inj hcaller
      simp [Exn.statusCode]
    · rename_i detail hother
      exact absurd hother (hauth detail)
    · split_ifs at hcaller <;> obtain rfl := Except.error.inj hcaller <;> simp [Exn.statusCode]
  | idInUse hop hused =>
    have hnew := hunused _ List.mem_cons_self
    exact absurd hused (by rw [hnew]; decide)
  | keyReused => simp [Idempotency.keyReused, Exn.statusCode]
  | keyInProgress => simp [Idempotency.keyInProgress, Exn.statusCode]
  | trailInUse => simp [Idempotency.keyInProgress, Exn.statusCode]
  | invalid => simp
  | _ => simp [Exn.statusCode]

omit [DecidableEq ι] in
/-- The response to a refusal can be rendered. -/
theorem Refusal.renderable {call : Call} {σ₀ : Store} {e : Exn} (h : Refusal app call σ₀ σ e) :
    Errors.Renderable e := by
  cases h with
  | unreadable =>
    cases call.operation.body <;> exact Errors.renderable_ofItems _
  | denied hcaller =>
    unfold Call.caller at hcaller
    split at hcaller
    · obtain rfl := Except.error.inj hcaller
      trivial
    · obtain rfl := Except.error.inj hcaller
      trivial
    · split_ifs at hcaller <;> obtain rfl := Except.error.inj hcaller <;> trivial
  | invalid => exact Errors.renderable_ofItems _
  | _ => trivial

/-- An exception that no handler of the service is registered for is answered with 500. -/
theorem Exn.Unhandled.statusCode {e : Exn} (h : e.Unhandled) : e.statusCode = 500 := by
  cases e with
  | integrityError => rfl
  | unexpected detail => rfl
  | _ => exact h.elim

omit [DecidableEq ι] in
/-- A refusal of a call whose new ids are not in use is answered. -/
theorem Refusal.answered {call : Call} {σ₀ : Store} {e : Exn} (h : Refusal app call σ₀ σ e)
    (hauth : RaisesCredentials app.provider call.authorization)
    (hunused : ∀ k ∈ call.env.keys, σ.has k = false) : ∃ sent : Errors.Sent,
      Middleware.exceptionMiddleware (.raised e) = .returned (.ofSent sent) ∧
        sent.mediaType = Errors.problemMediaType ∧
        sent.statusCode = e.statusCode ∧ e.statusCode ∈ [401, 403, 404, 409, 422] := by
  have hstatus := h.statusCode hauth hunused
  have hhandled : ¬ e.Unhandled := by
    intro hnot
    rw [hnot.statusCode] at hstatus
    simp at hstatus
  obtain ⟨sent, hsent, hcode, hmedia⟩ := Errors.response_rendered h.renderable
  refine ⟨sent, ?_, hmedia, hcode, hstatus⟩
  rw [Middleware.exceptionMiddleware, if_neg hhandled, hsent]

/-- **Every refusal is answered.** With new ids and a provider that raises nothing but
`InvalidCredentialsError`, from any registered store and in any order of the statements: an
exception of a call is turned into a problem document, and its status is none but 401, 403, 404, 409
and 422, unless the database has refused one of its statements. A call that was answered and did not
commit was rolled back from outside, or refused. -/
theorem refusals_answered (hσ : σ.Registered)
    (hids : ∀ i j, i ≠ j → (call i).env.Apart (call j).env) (hnew : ∀ i, (call i).env.New σ)
    (hauth : ∀ i, RaisesCredentials app.provider (call i).authorization)
    (h : Run approvalDb (ApiWorld.startOn ok app call σ) ls w) :
    (∀ i e, w.session i = .failed e → (∃ sent : Errors.Sent,
      Middleware.exceptionMiddleware (.raised e) = .returned (.ofSent sent) ∧
        sent.mediaType = Errors.problemMediaType ∧
        sent.statusCode = e.statusCode ∧ e.statusCode ∈ [401, 403, 404, 409, 422]) ∨
        e = dataError ∧ (request app (call i)).Refusable ok) ∧
    ∀ i a, w.session i = .lost a →
      (i, .lose) ∈ ls ∨ (i, .raise) ∈ ls ∧ (request app (call i)).Refusable ok := by
  obtain ⟨ls', u, hrun, hu, hlabels⟩ := ApiWorld.unlimited h
  refine ⟨fun i e hi => ?_, fun i a hi => ?_⟩
  · refine (hu.session i).failed hi |>.imp_left fun hfailed => ?_
    have hexcused := ApiWorld.excused hσ .nil (i := i) rfl hrun
    rw [hfailed] at hexcused
    exact Refusal.answered hexcused (hauth i) (unused_of_failed hσ hrun hids hnew hfailed)
  · have hlost := (hu.session i).lost hi
    have hexcused := ApiWorld.excused hσ .nil (i := i) rfl hrun
    rw [hlost] at hexcused
    rcases hexcused with hlose | ⟨-, hinUse⟩
    · exact lose_of_limits hlabels hlose
    · obtain ⟨k, hk, hused⟩ := hinUse.used
      rw [unused_of_uncommitted hσ hrun hids hnew (fun a δ hc => by rw [hlost] at hc; cases hc)
        (List.mem_cons_of_mem _ hk)] at hused
      cases hused

/-! ## Conflicts -/

variable {ws route key : String}

/-- If a call is told that its key is being processed, it is a create, and the key has come into the
ledger since any moment at which the call had not begun. -/
theorem key_recorded_since (hσ : σ.Registered)
    (hids : ∀ i j, i ≠ j → (call i).env.Apart (call j).env) (hnew : ∀ i, (call i).env.New σ)
    (h₀ : Run approvalDb (ApiWorld.start app call σ) ls₀ w₀) {i : ι}
    (hstart : w₀.session i = .running (request app (call i)) []) (h : Run approvalDb w₀ ls w)
    (hi : w.session i = .failed keyInProgress) : ∃ ws key,
      (call i).KeyedBy ws "create" key ∧ w₀.store.key? ws "create" key = none ∧
        (w.store.key? ws "create" key).isSome = true := by
  have hrefusal := ApiWorld.excused hσ h₀ hstart h
  rw [hi] at hrefusal
  obtain ⟨key, hkey, hbefore, hfound⟩ := Refusal.key_used hrefusal rfl
    (unused_of_failed hσ (h₀.trans h) hids hnew hi)
  exact ⟨(call i).workspaceId, key, ⟨rfl, hkey⟩, hbefore, hfound⟩

/-- An answer that was committed for a key is recorded by the row of the ledger. -/
theorem committed_recorded (hσ : σ.Registered)
    (h : Run approvalDb (ApiWorld.start app call σ) ls w) {i : ι} {a : Answer} {δ : List Write}
    (hkeyed : (call i).KeyedBy ws route key) (hi : w.session i = .committed a δ) :
    ∃ r, w.store.key? ws route key = some r ∧ Records app (call i) a r := by
  have hw := ApiWorld.sound hσ h
  obtain ⟨commits, hh⟩ := h.history
  obtain ⟨cases, hrep⟩ : w.store.Registered := hw.inv
  obtain ⟨P, -, heff⟩ := World.Sound.committed hw hi
  rcases heff.recorded hkeyed with ⟨-, r, hfound, hr⟩ | ⟨r, hmem, hr⟩
  · exact ⟨r, hfound, hr⟩
  · refine ⟨r, ?_, hr⟩
    obtain ⟨rfl, rfl, rfl⟩ := (heff.keyedBy hmem).unique hkeyed
    refine Store.key?_of_mem hrep.keys rfl ?_
    rw [hh.store, view_idempotencyKeys]
    refine List.mem_append_right _ (mem_filterMap_ledgerRow?.mpr ?_)
    exact List.mem_flatMap.mpr ⟨(i, δ), (hh.session i δ).mpr ⟨a, hi⟩, hmem⟩

/-- Under one key at most one call executes. -/
theorem executed_unique (hσ : σ.Registered)
    (h : Run approvalDb (ApiWorld.start app call σ) ls w) {i j : ι}
    (hi : Executed call w ws route key i) (hj : Executed call w ws route key j) : i = j := by
  have hw := ApiWorld.sound hσ h
  obtain ⟨commits, hh⟩ := h.history
  obtain ⟨cases, hrep⟩ : w.store.Registered := hw.inv
  obtain ⟨a, δ, r, hcommitted, hr, hkey⟩ := hi.ledgerRow hw
  obtain ⟨b, δ', r', hcommitted', hr', hkey'⟩ := hj.ledgerRow hw
  exact commit_unique hh hrep.keys ((hh.session i δ).mpr ⟨a, hcommitted⟩)
    ((hh.session j δ').mpr ⟨b, hcommitted'⟩) hr hr' (hkey.trans hkey'.symm)

/-- **Conflicts overlap.** With new ids, in any order of the statements: a call is told that its key
is being processed only if it is a create, and another create with the same key has executed and has
committed between two steps of this one. -/
theorem conflicts_overlap (hσ : σ.Registered)
    (hids : ∀ i j, i ≠ j → (call i).env.Apart (call j).env) (hnew : ∀ i, (call i).env.New σ)
    (h : Run approvalDb (ApiWorld.start app call σ) ls w) {i : ι}
    (hi : w.session i = .failed keyInProgress) : ∃ ws key j ls₁ ls₂,
      (call i).KeyedBy ws "create" key ∧ Executed call w ws "create" key j ∧
        ls = ls₁ ++ (j, .commit) :: ls₂ ∧ (∃ b, (i, b) ∈ ls₁) ∧ (i, .raise) ∈ ls₂ := by
  obtain ⟨ws, key, hkeyed, hbefore, hfound⟩ := key_recorded_since hσ hids hnew .nil rfl h hi
  obtain ⟨j, hj⟩ := exists_executed hσ h hbefore hfound
  have ⟨hkeyed', a, δ, hcommitted, hne⟩ := hj
  obtain ⟨ls₁, ls₂, v, v', rfl, h₁, hcommit, h₂⟩ := h.exists_commit hcommitted nofun
  have hij : i ≠ j := by
    rintro rfl
    rw [hi] at hcommitted
    cases hcommitted
  have hv' : v'.session i = v.session i := hcommit.session_ne hij
  obtain ⟨b, δ', hanswered, -, hcommitted'⟩ := hcommit.store_commit
  -- The key is in the ledger from the commit on.
  have hbegun : v.session i ≠ .running (request app (call i)) [] := by
    intro hstart
    obtain ⟨ws', key', hkeyed'', hnone, -⟩ :=
      key_recorded_since hσ hids hnew (h₁.snoc hcommit) (hv'.trans hstart) h₂ hi
    obtain ⟨rfl, -, rfl⟩ := hkeyed''.unique hkeyed
    obtain ⟨r, hr, -⟩ := committed_recorded hσ (h₁.snoc hcommit) hkeyed' hcommitted'
    rw [hnone] at hr
    cases hr
  -- An earlier refusal would need an earlier execution, and there is only one.
  have hunfinished : v.session i ≠ .failed keyInProgress := by
    intro hfailed
    obtain ⟨ws', key', hkeyed'', hbefore', hfound'⟩ :=
      key_recorded_since hσ hids hnew .nil rfl h₁ hfailed
    obtain ⟨rfl, -, rfl⟩ := hkeyed''.unique hkeyed
    obtain ⟨k, hkeyed₁, c, δ₁, hk, hne₁⟩ := exists_executed hσ h₁ hbefore' hfound'
    obtain rfl := executed_unique hσ h
      ⟨hkeyed₁, c, δ₁, h₂.committed (hcommit.committed hk), hne₁⟩ hj
    rw [hanswered] at hk
    cases hk
  refine ⟨ws, key, j, ls₁, ls₂, hkeyed, hj, rfl, ?_, ?_⟩
  · by_contra hnone
    push Not at hnone
    exact hbegun (h₁.session_eq hnone)
  · exact h₂.raise_mem hi (hv' ▸ hunfinished)

end Runs

/-! ## Carol is refused -/

/-- Carol is no reviewer; Bob approves after her attempt, with the key she has used. -/
def Sample.deniedCalls : Fin 3 → Call
  | 0 => launch "1" "key-1"
  | 1 => approve "2" carolToken (some "key-2")
  | 2 => approve "3" bobToken (some "key-2")

/-- The three calls one after the other: Carol is refused, and Bob's approval is committed. -/
theorem Sample.denied_run : ∃ ls w e,
    Run approvalDb (ApiWorld.startOn (fun _ => True) app deniedCalls Store.empty) ls w ∧
      w.session 1 = .failed e ∧ e.statusCode = 403 := by
  rw [ApiWorld.startOn_eq fun _ => trivial]
  obtain ⟨ls, w, h, -, hsessions, -⟩ := Run.serveAll approvalDb
    (fun i => request app (deniedCalls i)) [0, 1, 2] (by decide)
    (w := ApiWorld.start app deniedCalls Store.empty) (fun _ => rfl) (fun _ _ => rfl)
  have hends : ([0, 1, 2].map w.session).map failedStatus? = [none, some 403, none] := by
    rw [hsessions]
    decide +kernel
  simp only [List.map_cons, List.map_nil, List.cons.injEq, and_true] at hends
  obtain ⟨e, hfailed, hcode⟩ := failed_of_status hends.2.1
  exact ⟨ls, w, e, h, hfailed, hcode⟩

theorem exceptions_have_reasons_sample : ∃ ls w e,
    Run approvalDb (ApiWorld.startOn (fun _ => True) Sample.app Sample.deniedCalls Store.empty) ls w ∧
      w.session 1 = .failed e ∧ e.statusCode = 403 ∧
      Refusal Sample.app (Sample.deniedCalls 1) Store.empty w.store e := by
  obtain ⟨ls, w, e, h, hfailed, hcode⟩ := Sample.denied_run
  rcases (exceptions_have_reasons ⟨[], represents_empty⟩ .nil (fun _ => List.not_mem_nil) h).1 e
    hfailed with hrefusal | ⟨-, hrefused⟩
  · exact ⟨ls, w, e, h, hfailed, hcode, hrefusal⟩
  · exact absurd hrefused (Prog.not_refusable (fun _ => trivial) _)

theorem refusals_answered_sample : ∃ ls w e sent,
    Run approvalDb (ApiWorld.startOn (fun _ => True) Sample.app Sample.deniedCalls Store.empty) ls w ∧
      w.session 1 = .failed e ∧
      Middleware.exceptionMiddleware (.raised e) = .returned (.ofSent sent) ∧
      sent.statusCode = 403 := by
  obtain ⟨ls, w, e, h, hfailed, hcode⟩ := Sample.denied_run
  have hauth : ∀ i, RaisesCredentials Sample.app.provider
      (Sample.deniedCalls i).authorization := by
    intro i detail herr
    have hknown : ∀ i, (Sample.app.provider.authenticate
        (Sample.deniedCalls i).authorization).toOption.isSome = true := by decide +kernel
    have hi := hknown i
    rw [herr] at hi
    cases hi
  have hids : ∀ i j, i ≠ j → (Sample.deniedCalls i).env.Apart (Sample.deniedCalls j).env := by
    decide
  have hnew : ∀ i, (Sample.deniedCalls i).env.New Store.empty := by
    intro i k hk
    cases k <;> rfl
  rcases (refusals_answered ⟨[], represents_empty⟩ hids hnew hauth h).1 1 e hfailed with
    ⟨sent, hsent, -, hstatus, -⟩ | ⟨-, hrefused⟩
  · exact ⟨ls, w, e, sent, h, hfailed, hsent, hstatus.trans hcode⟩
  · exact absurd hrefused (Prog.not_refusable (fun _ => trivial) _)

/-! ## Two creates at the same time -/

namespace Sample

/-- The session was told that its key is being processed. -/
def toldInProgress : Session Reply Write Exn Answer → Bool
  | .failed (.httpException code detail) => code = 409 && detail = keyInProgress.detail
  | _ => false

theorem failed_of_told {s : Session Reply Write Exn Answer} (h : toldInProgress s = true) :
    s = .failed keyInProgress := by
  unfold toldInProgress at h
  split at h
  · rename_i code detail
    obtain ⟨rfl, rfl⟩ : code = 409 ∧ detail = keyInProgress.detail := by simpa using h
    rfl
  · cases h

/-- The second create looks its key up before the first one commits, and fails at its flush. -/
theorem overtaken_run : ∃ ls w a δ,
    Run approvalDb (ApiWorld.start app retryCalls Store.empty) ls w ∧
      w.session 0 = .committed a δ ∧ w.session 1 = .failed keyInProgress := by
  obtain ⟨ls, w, h, -, h₀, h₁, -⟩ := Run.overtake approvalDb (i := 0) (j := 1) (by decide)
    (p := request app (retryCalls 0)) (q := request app (retryCalls 1))
    (w := ApiWorld.start app retryCalls Store.empty) (fun _ => rfl) rfl rfl (by decide +kernel)
  obtain ⟨a, δ, hcommitted, -⟩ := committed_of_status (s := w.session 0) (n := 201) (by
    rw [h₀]
    decide +kernel)
  exact ⟨ls, w, a, δ, h, hcommitted, failed_of_told (by rw [h₁]; decide +kernel)⟩

theorem retry_ids : ∀ i j, i ≠ j → (retryCalls i).env.Apart (retryCalls j).env := by
  decide

theorem retry_new : ∀ i, (retryCalls i).env.New Store.empty := by
  intro i k hk
  cases k <;> rfl

end Sample

theorem conflicts_overlap_sample : ∃ ls w ws key j ls₁ ls₂,
    Run approvalDb (ApiWorld.start Sample.app Sample.retryCalls Store.empty) ls w ∧
      w.session 1 = .failed keyInProgress ∧ Executed Sample.retryCalls w ws "create" key j ∧
      ls = ls₁ ++ (j, .commit) :: ls₂ ∧ (∃ b, (1, b) ∈ ls₁) ∧ (1, .raise) ∈ ls₂ := by
  obtain ⟨ls, w, a, δ, h, -, hfailed⟩ := Sample.overtaken_run
  obtain ⟨ws, key, j, ls₁, ls₂, -, hj, hls⟩ := conflicts_overlap ⟨[], represents_empty⟩
    Sample.retry_ids Sample.retry_new h hfailed
  exact ⟨ls, w, ws, key, j, ls₁, ls₂, h, hfailed, hj, hls⟩

end ContentApproval
