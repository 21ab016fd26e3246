import ContentApproval.Properties.Finality
import ContentApproval.Specs.Served
import ContentApproval.Specs.Termination

/-!
# Exactly one winner

Decisions without a key race for one pending request (`Contest`). Alone, each of them
would decide it (`Contender.alone`). In any interleaving the store stays as it was and
every session on the way that it would go alone, until the first of them commits; from
then on no other session can be answered (`Stage`). The others end in
`InvalidTransitionError` with the winner's status, as they do when they are served after
the winner one by one.
-/

namespace ContentApproval

open Transactions SqlApprovalRequestRepository AsyncSession ApprovalService Idempotency
  AuthDependencies

/-! ## Contenders -/

/-- A call without a key that makes the decision `d` on the request `id` of the store `σ`,
with a valid body, by a caller entitled to it. Its generated ids are new. -/
structure Contender (app : App) (σ : Store) (ws id : String) (call : Call) (d : Decision) :
    Prop where
  workspace : call.workspaceId = ws
  decides : ∃ body, call.operation = .decide d id none body
  valid : call.operation.normalized.isSome
  entitled : ∃ P, call.By app P ∧ σ.Entitles ws id d P.userId
  auditId : σ.has (.auditLogEntry call.env.auditId) = false
  eventId : σ.has (.outboxEvent call.env.eventId) = false

/-- A decision without a key: authorization and validation send no statement. -/
theorem request_eq_decide {app : App} {call : Call} {P : Principal} (hby : call.By app P)
    {d : Decision} {id : String} {body : RawBody} (hop : call.operation = .decide d id none body)
    {document : Option Json} (hdoc : body.document? = some document) {b : DecisionBody}
    (hb : d.readBody document = .ok b) :
    request app call = (decideRequest call.env d call.workspaceId id P.userId b.comment b.reason
      []).bind (fun p => .ret (⟨200, .request (.ofEntity p.1)⟩, insertAll p.2)) := by
  rw [request_decide hby hop hdoc (fun _ h => by cases h) hb, runIdempotent_none]
  change ((decideRequest call.env d call.workspaceId id P.userId b.comment b.reason []).bind
    (fun p => .ret ((ApprovalRequestOut.ofEntity p.1, 200), p.2))).bind _ = _
  rw [Prog.bind_assoc]
  rfl

section Contender

variable {app : App} {σ σ₁ : Store} {ws id : String} {call : Call} {d : Decision}

/-- What a contender relies on while it runs: the store has evolved from `σ`, and if the
contender holds any writes, it has updated the row. -/
def Contending (σ : Store) (ws id : String) (δ : List Write) (σ₁ : Store) : Prop :=
  σ.Evolves σ₁ ∧ (δ = [] ∨ ∃ values, Write.update ws id values ∈ δ)

theorem Contending.env {δ : List Write} {σ σ₁ σ₂ : Store} (h : Contending σ ws id δ σ₁)
    (he : approvalDiscipline.EnvStep δ σ₁ σ₂) : Contending σ ws id δ σ₂ :=
  ⟨h.1.trans (approves_approvalDiscipline.envStep he), h.2⟩

/-- Where the program of a contender ends. -/
def ContenderPost (app : App) (ws id : String) (call : Call) (d : Decision) :
    Except Exn (Answer × Prog Reply Exn Unit) → List Write → Store → Prop
  | .ok (a, exit), δ, σ => ∃ (P : Principal) (v : Verdict) (row : ApprovalRequestRow),
    call.By app P ∧ v.env = call.env ∧ v.decision = d ∧ v.actorUserId = P.userId ∧ v.key = none ∧
      σ.request? ws id = some row ∧ row.status = .pending ∧
      a = ⟨200, .request (v.out row)⟩ ∧ δ = [.update ws id v.values] ∧
      exit = insertAll [.auditLogEntry (v.auditEntry ws id), .outboxEvent (v.event ws id)]
  | .error e, _, σ => ∃ r, σ.request? ws id = some r ∧ r.status ≠ .pending ∧
    e = .invalidTransitionError id r.status

/-- What a contender is accepted with. -/
theorem Contender.accepted (h : Contender app σ ws id call d) : ∃ (P : Principal) (body : RawBody)
    (document : Option Json) (b : DecisionBody), call.By app P ∧ σ.Entitles ws id d P.userId ∧
      call.operation = .decide d id none body ∧ body.document? = some document ∧
      d.readBody document = .ok b := by
  obtain ⟨body, hop⟩ := h.decides
  obtain ⟨P, hby, hent⟩ := h.entitled
  obtain ⟨payload, hnorm⟩ := Option.isSome_iff_exists.mp h.valid
  rw [hop] at hnorm
  obtain ⟨document, hdoc, hbody⟩ := Option.bind_eq_some_iff.mp hnorm
  obtain ⟨b, hb, -⟩ := Option.map_eq_some_iff.mp hbody
  exact ⟨P, body, document, b, hby, hent, hop, hdoc, ok_of_toOption hb⟩

/-- The program of a contender. -/
theorem Contender.program (h : Contender app σ ws id call d) : ∃ (P : Principal) (v : Verdict),
    call.By app P ∧ σ.Entitles ws id d P.userId ∧ v.env = call.env ∧ v.decision = d ∧
      v.actorUserId = P.userId ∧ v.key = none ∧ request app call =
        (decideRequest v.env v.decision ws id v.actorUserId v.comment v.reason []).bind
          (fun p => .ret (⟨200, .request (.ofEntity p.1)⟩, insertAll p.2)) := by
  obtain ⟨P, body, document, b, hby, hent, hop, hdoc, hb⟩ := h.accepted
  let v : Verdict := ⟨call.env, d, P.userId, b.comment, b.reason, [], none,
    Decision.readBody_accepts hb⟩
  refine ⟨P, v, hby, hent, rfl, rfl, rfl, rfl, ?_⟩
  rw [request_eq_decide hby hop hdoc hb, h.workspace]

theorem Contender.wp (h : Contender app σ ws id call d) :
    Wp approvalDiscipline (Contending σ ws id) (request app call) (ContenderPost app ws id call d)
      [] σ₁ := by
  obtain ⟨P, v, hby, hent, henv, rfl, hactor, hkey, hprogram⟩ := h.program
  rw [hprogram]
  refine Wp.of_found fun σ₂ h₂ => Wp.bind ?_
  refine decideRequest_wp approves_approvalDiscipline v ?_ ?_ ?_
  · intro σ₃ h₃ _
    exact ⟨h₃.during.1, Or.inr ⟨v.values, List.mem_singleton_self _⟩⟩
  · intro σ₃ row shown h₃ hrow _ _ σ₄ h₄
    have hrow₄ := approves_approvalDiscipline.own_env h₄.env List.mem_cons_self hrow
    have hp := Store.Registered.pending_of_held h₄.inv h₄.held List.mem_cons_self hrow₄
    exact ⟨P, { v with shown := shown }, row, hby, henv, rfl, hactor, hkey, hrow₄, hp, rfl, rfl,
      rfl⟩
  · intro σ₃ e h₃ hfail
    cases hfail with
    | notFound hnone =>
      obtain ⟨r, hr, -⟩ := h₂.during.1.entitles hent
      rw [hnone] at hr
      cases hr
    | denied hr hd =>
      obtain ⟨r', hr', hent'⟩ := h₃.during.1.entitles hent
      rw [hr] at hr'
      obtain rfl := Option.some.inj hr'
      exact absurd (hactor ▸ hent') hd
    | late hr hp _ => exact ⟨_, hr, hp, rfl⟩

/-- A contender sends six statements before its answer at most, and two after it. -/
theorem Contender.ends (h : Contender app σ ws id call d) :
    (request app call).Ends (fun r => r.2.Ends (fun _ => True) 2) 6 := by
  obtain ⟨P, v, -, -, -, -, -, -, hprogram⟩ := h.program
  rw [hprogram]
  refine (decideRequest_ends v ws id).bind (n := 0) fun p hp => ?_
  change (insertAll p.2).Ends _ 2
  exact hp ▸ insertAll_ends p.2

/-! ## A contender alone -/

/-- **Alone, a contender decides the request.** -/
theorem Contender.alone (h : Contender app σ ws id call d) (hσ : σ.Registered)
    {row : ApprovalRequestRow} (hrow : σ.request? ws id = some row) (hp : row.status = .pending) :
    ∃ (P : Principal) (v : Verdict), call.By app P ∧ v.env = call.env ∧ v.decision = d ∧
      v.actorUserId = P.userId ∧ ((request app call).serve approvalDb σ).2.1 =
        .committed ⟨200, .request (v.out row)⟩ (v.writes ws id row) := by
  obtain ⟨P, body, document, b, hby, ⟨row', hrow', hentitled⟩, hop, hdoc, hb⟩ := h.accepted
  rw [hrow] at hrow'
  obtain rfl := Option.some.inj hrow'
  obtain rfl := h.workspace
  let v := call.verdict app P d none b (σ.shown call.env 1 row) (Decision.readBody_accepts hb)
  have hserve := serve_decided hby hop hdoc (fun _ h => by cases h) hb hσ h.auditId h.eventId
    (fun _ h => by cases h) hrow hentitled hp (Eq.refl v)
  exact ⟨P, v, hby, rfl, rfl, rfl, by rw [hserve]⟩

/-- Once the request is decided, a contender is told by whom it was decided. -/
theorem Contender.late (h : Contender app σ ws id call d) (hσ : σ₁.Registered)
    (hev : σ.Evolves σ₁) {r : ApprovalRequestRow} (hr : σ₁.request? ws id = some r)
    (hp : r.status ≠ .pending) : ((request app call).serve approvalDb σ₁).1 = σ₁ ∧
      ((request app call).serve approvalDb σ₁).2.1 =
        .failed (.invalidTransitionError id r.status) := by
  obtain ⟨P, body, document, b, hby, hent, hop, hdoc, hb⟩ := h.accepted
  obtain ⟨r', hr', hentitled⟩ := hev.entitles hent
  rw [hr] at hr'
  obtain rfl := Option.some.inj hr'
  obtain rfl := h.workspace
  have hlate := run_decideRequest_late
    (v := call.verdict app P d none b [] (Decision.readBody_accepts hb)) hσ hr hentitled hp
  have hserve := serve_undecided hby hop hdoc (fun _ h => by cases h) hb (fun _ h => by cases h)
    hlate
  rw [hserve]
  exact ⟨rfl, rfl⟩

/-- The contender wins with the verdict `v` on the request that has this row. -/
structure Wins (app : App) (σ : Store) (ws id : String) (call : Call) (d : Decision)
    (v : Verdict) (row : ApprovalRequestRow) : Prop where
  caller : ∃ P, call.By app P ∧ v.actorUserId = P.userId
  env : v.env = call.env
  decision : v.decision = d
  found : σ.request? ws id = some row
  alone : ((request app call).serve approvalDb σ).2.1 =
    .committed ⟨200, .request (v.out row)⟩ (v.writes ws id row)

end Contender

/-! ## The race -/

section Contest

variable {ι : Type} {app : App} {σ : Store} {ws id : String} {call : ι → Call}
  {d : ι → Decision} {w w' : ApiWorld ι}

/-- Any number of contenders for one pending request of a store that the service has
built. -/
structure Contest (app : App) (σ : Store) (ws id : String) (call : ι → Call) (d : ι → Decision) :
    Prop where
  registered : σ.Registered
  pending : ∃ row, σ.request? ws id = some row ∧ row.status = .pending
  contender : ∀ i, Contender app σ ws id (call i) (d i)

theorem Contest.wins (hc : Contest app σ ws id call d) (i : ι) :
    ∃ v row, Wins app σ ws id (call i) (d i) v row := by
  obtain ⟨row, hrow, hp⟩ := hc.pending
  obtain ⟨P, v, hby, henv, hd, hactor, halone⟩ := (hc.contender i).alone hc.registered hrow hp
  exact ⟨v, row, ⟨P, hby, hactor⟩, henv, hd, hrow, halone⟩

/-- A contender that was answered has updated the row, which is still pending. -/
theorem Contest.answered (hc : Contest app σ ws id call d)
    (hw : w.Sound (fun i => contract app (call i))) {i : ι} {a : Answer}
    {exit : Prog Reply Exn Unit} {δ : List Write} (hi : w.session i = .answered a exit δ) :
    (∃ values, Write.update ws id values ∈ δ) ∧
      ∃ r, w.store.request? ws id = some r ∧ r.status = .pending := by
  obtain ⟨body, hop⟩ := (hc.contender i).decides
  obtain ⟨hheld, P, writes, hby, heff, hanchored⟩ := World.Sound.answered hw hi
  cases heff with
  | read a hread => rw [hop] at hread; exact hread.elim
  | created c hcreate => rw [hop] at hcreate; cases hcreate
  | replayed hkey => rw [hop] at hkey; cases hkey
  | @decided v id' key body' payload row row' hop' henv hactor hkey hbody hid hrow =>
    rw [hop] at hop'
    obtain ⟨-, rfl, -, -⟩ := Operation.decide.inj hop'
    rw [(hc.contender i).workspace] at hanchored hrow
    have hu : Write.update ws id v.values ∈ δ := hanchored.first _ rfl
    exact ⟨⟨_, hu⟩, row', hrow, Store.Registered.pending_of_held hw.inv hheld hu hrow⟩

variable [DecidableEq ι]

theorem Contest.watched (hc : Contest app σ ws id call d) {ls : List (ι × Transactions.Action)}
    (h : Run approvalDb (ApiWorld.start app call σ) ls w) (i : ι) :
    (w.session i).Watched approvalDiscipline (Contending σ ws id)
      (ContenderPost app ws id (call i) (d i)) w.store := by
  exact (ApiWorld.sound_start hc.registered).watch Contending.env h
    ⟨⟨.refl σ, Or.inl rfl⟩, (hc.contender i).wp⟩

/-- A contender that failed was told how the request is decided. -/
theorem Contest.failed (hc : Contest app σ ws id call d) {ls : List (ι × Transactions.Action)}
    (h : Run approvalDb (ApiWorld.start app call σ) ls w) {i : ι} {e : Exn}
    (hi : w.session i = .failed e) : ∃ r, w.store.request? ws id = some r ∧ r.status ≠ .pending ∧
      e = .invalidTransitionError id r.status := by
  have hwatched := hc.watched h i
  rw [hi] at hwatched
  obtain ⟨δ, σ', ⟨r, hr, hp, rfl⟩, henv⟩ := hwatched
  obtain ⟨r', hr', hb⟩ := (approves_approvalDiscipline.env henv).request hr
  obtain rfl := hb.eq_of_final hp
  exact ⟨_, hr', hp, rfl⟩

/-- A contender that holds anything holds an update of the row. -/
theorem Contest.held (hc : Contest app σ ws id call d) {ls : List (ι × Transactions.Action)}
    (h : Run approvalDb (ApiWorld.start app call σ) ls w) {i : ι} (hi : w.held i ≠ []) :
    ∃ values, Write.update ws id values ∈ w.held i := by
  have hw := ApiWorld.sound hc.registered h
  have hwatched := hc.watched h i
  unfold World.held at hi ⊢
  cases hs : w.session i with
  | running p δ =>
    rw [hs] at hwatched hi
    exact hwatched.1.2.resolve_left hi
  | answered a exit δ => exact (hc.answered hw hs).1
  | _ => rw [hs] at hi; exact absurd rfl hi

/-! ## Before and after the first commit -/

/-- Until the first commit the store is as it was and every contender is where it would be
alone; after it one contender has won, and no other is answered. -/
inductive Stage (app : App) (σ : Store) (ws id : String) (call : ι → Call) (d : ι → Decision)
    (w : ApiWorld ι) : Prop
  | racing (store : w.store = σ) (unfinished : ∀ i, ¬ (w.session i).Finished)
    (track : ∀ i, (w.session i).finish approvalDb σ =
      ((request app (call i)).serve approvalDb σ).2.1)
  | decided (winner : ι) (v : Verdict) (row : ApprovalRequestRow)
    (wins : Wins app σ ws id (call winner) (d winner) v row)
    (store : w.store = approvalDb.view σ (v.writes ws id row))
    (session : w.session winner = .committed ⟨200, .request (v.out row)⟩ (v.writes ws id row))
    (others : ∀ j, j ≠ winner → (∃ p δ, w.session j = .running p δ) ∨ ∃ e, w.session j = .failed e)

omit [DecidableEq ι] in
theorem Stage.start : Stage app σ ws id call d (ApiWorld.start app call σ) :=
  .racing rfl (fun _ h => h) (fun _ => (Prog.serve_eq_finish approvalDb _ _).symm)

/-- The row of the request after a verdict. -/
theorem Verdict.request?_writes {v : Verdict} {row : ApprovalRequestRow}
    (hrow : σ.request? ws id = some row) :
    (approvalDb.view σ (v.writes ws id row)).request? ws id = some (row.decided v.values) := by
  rw [v.view_writes]
  change (σ.update ws id v.values).request? ws id = _
  rw [Store.request?_update, hrow]
  simp

omit [DecidableEq ι] in
/-- Nobody but the winner is answered any more. -/
theorem Contest.not_answered (hc : Contest app σ ws id call d)
    (hw : w.Sound (fun i => contract app (call i))) {v : Verdict} {row : ApprovalRequestRow}
    (hrow : σ.request? ws id = some row)
    (hstore : w.store = approvalDb.view σ (v.writes ws id row)) {i : ι} {a : Answer}
    {exit : Prog Reply Exn Unit} {δ : List Write} : w.session i ≠ .answered a exit δ := by
  intro hi
  obtain ⟨-, r, hr, hp⟩ := hc.answered hw hi
  rw [hstore, Verdict.request?_writes hrow] at hr
  obtain rfl := Option.some.inj hr
  exact Case.newStatus_ne_pending v.decision hp

theorem Contest.stage_step (hc : Contest app σ ws id call d)
    (hw : w.Sound (fun i => contract app (call i))) {l : ι × Transactions.Action}
    (hs : Step approvalDb w l w') (hl : l.2 ≠ .abort ∧ l.2 ≠ .lose)
    (hst : Stage app σ ws id call d w) : Stage app σ ws id call d w' := by
  have hw' := hw.step hs
  obtain ⟨i, b⟩ := l
  cases hst with
  | racing hstore hopen htrack =>
    -- the session that moves stays on its way, and the others do not move
    have htrack' : ∀ j, (w'.session j).finish approvalDb σ =
        ((request app (call j)).serve approvalDb σ).2.1 := by
      intro j
      by_cases hj : j = i
      · subst hj
        rw [← htrack j, ← hstore]
        exact hs.finish hl
      · rw [hs.session_ne hj, htrack j]
    obtain ⟨v, row, hwins⟩ := hc.wins i
    by_cases hb : b = .commit
    · subst hb
      obtain ⟨a, δ, hi, hstore', hi'⟩ := hs.store_commit
      have hend := htrack' i
      rw [hi', hwins.alone] at hend
      obtain ⟨rfl, rfl⟩ := Session.committed.inj hend
      rw [hstore] at hstore'
      refine .decided i v row hwins hstore' hi' fun j hj => ?_
      have hsame := hs.session_ne hj
      have hunfinished := hopen j
      cases hsj : w.session j with
      | running p δ => exact Or.inl ⟨p, δ, hsame.trans hsj⟩
      | answered a exit δ =>
        exact absurd (hsame.trans hsj) (hc.not_answered hw' hwins.found hstore')
      | _ => rw [hsj] at hunfinished; exact absurd trivial hunfinished
    · refine .racing ((hs.store_eq hb).trans hstore) (fun j hfin => ?_) htrack'
      by_cases hj : j = i
      · subst hj
        have hend := htrack' j
        rw [hfin.finish, hwins.alone] at hend
        rcases hs.committed_of hend with hcommitted | ⟨-, hcommit⟩
        · exact hopen j (hcommitted ▸ trivial)
        · exact hb hcommit
      · rw [hs.session_ne hj] at hfin
        exact hopen j hfin
  | decided winner v row hwins hstore hwinner hothers =>
    have hi : i ≠ winner := by
      rintro rfl
      cases hs <;> simp_all
    have hb : b ≠ .commit := by
      rintro rfl
      obtain ⟨a, δ, ha, -⟩ := hs.store_commit
      exact hc.not_answered hw hwins.found hstore ha
    have hstore' := (hs.store_eq hb).trans hstore
    refine .decided winner v row hwins hstore' ((hs.session_ne (Ne.symm hi)).trans hwinner)
      fun j hj => ?_
    by_cases hji : j = i
    · subst hji
      cases hs with
      | statement _ _ => exact Or.inl ⟨_, _, World.set_session_self _ _ _⟩
      | raise _ => exact Or.inr ⟨_, World.set_session_self _ _ _⟩
      | answer _ =>
        exact absurd (World.set_session_self _ _ _) (hc.not_answered hw' hwins.found hstore')
      | exitStatement ha _ => exact absurd ha (hc.not_answered hw hwins.found hstore)
      | exitRaise ha => exact absurd ha (hc.not_answered hw hwins.found hstore)
      | commit _ => exact absurd rfl hb
      | abort _ => exact absurd rfl hl.1
      | lose _ => exact absurd rfl hl.2
    · rw [hs.session_ne hji]
      exact hothers j hj

theorem Contest.stage (hc : Contest app σ ws id call d) {ls : List (ι × Transactions.Action)}
    (h : Run approvalDb (ApiWorld.start app call σ) ls w)
    (hcalm : ∀ l ∈ ls, l.2 ≠ .abort ∧ l.2 ≠ .lose) : Stage app σ ws id call d w := by
  induction h with
  | nil => exact .start
  | snoc hrun hs ih =>
    have hw := ApiWorld.sound hc.registered hrun
    exact hc.stage_step hw hs (hcalm _ (by simp)) (ih fun l hl => hcalm l (by simp [hl]))

/-! ## The end of the race -/

/-- The race has been won: the winner has committed, every other contender was told the
winner's status, the trail has one more entry and one more event, and all of this is as if
the contenders had been served one after the other. -/
structure Won (app : App) (σ : Store) (ws id : String) (call : ι → Call) (d : ι → Decision)
    (w : ApiWorld ι) (winner : ι) : Prop where
  success : ∃ a δ, w.session winner = .committed a δ ∧ a.statusCode = 200
  status : ∃ r, w.store.request? ws id = some r ∧ r.status = (d winner).newStatus ∧
    r.status ≠ .pending
  losers : ∀ j, j ≠ winner →
    w.session j = .failed (.invalidTransitionError id (d winner).newStatus) ∧
      ((d j).newStatus = (d winner).newStatus → d j = d winner)
  audit : ∃ entry, w.store.auditLogEntries = σ.auditLogEntries ++ [entry] ∧
    entry.workspaceId = ws ∧ entry.approvalRequestId = id ∧ entry.action = (d winner).auditAction
  event : ∃ event, w.store.outboxEvents = σ.outboxEvents ++ [event] ∧
    event.workspaceId = ws ∧ event.approvalRequestId = id ∧
      event.eventType = (d winner).eventType.value
  serial : ∃ order : List ι, order.Nodup ∧ (∀ i, i ∈ order) ∧
    w.store = (serveAll approvalDb (order.map (fun i => request app (call i))) σ).1 ∧
    order.map w.session =
      (serveAll approvalDb (order.map (fun i => request app (call i))) σ).2.map Prod.fst

theorem Decision.newStatus_inj {d d' : Decision} (h : d.newStatus = d'.newStatus) : d = d' := by
  cases d <;> cases d' <;> first | rfl | cases h

omit [DecidableEq ι] in
/-- Contenders that are served after the decision, one by one. -/
theorem Contest.serveAll_late (hc : Contest app σ ws id call d) {σ₁ : Store}
    (hσ : σ₁.Registered) (hev : σ.Evolves σ₁) {r : ApprovalRequestRow}
    (hr : σ₁.request? ws id = some r) (hp : r.status ≠ .pending) (js : List ι) :
    (serveAll approvalDb (js.map (fun i => request app (call i))) σ₁).1 = σ₁ ∧
      (serveAll approvalDb (js.map (fun i => request app (call i))) σ₁).2.map Prod.fst =
        js.map (fun _ => .failed (.invalidTransitionError id r.status)) := by
  induction js with
  | nil => exact ⟨rfl, rfl⟩
  | cons j js ih =>
    obtain ⟨hstore, hend⟩ := (hc.contender j).late hσ hev hr hp
    simp only [List.map_cons, serveAll, hstore, hend]
    exact ⟨ih.1, congrArg _ ih.2⟩

/-- Nobody is stuck: whoever holds the row, or else anybody, has a next step. -/
theorem Contest.goes_on (hc : Contest app σ ws id call d) {ls : List (ι × Transactions.Action)}
    (h : Run approvalDb (ApiWorld.start app call σ) ls w) {i : ι}
    (hi : ¬ (w.session i).Finished) :
    ∃ l w', Step approvalDb w l w' ∧ l.2 ≠ .abort ∧ l.2 ≠ .lose := by
  have hw := ApiWorld.sound hc.registered h
  obtain ⟨j, hq, hj⟩ : ∃ j, w.Quiet j ∧ ¬ (w.session j).Finished := by
    by_cases hheld : ∃ j, w.held j ≠ []
    · obtain ⟨j, hj⟩ := hheld
      refine ⟨j, fun k hk => ?_, fun hfin => ?_⟩
      · by_contra hkheld
        obtain ⟨values, hu⟩ := hc.held h hj
        obtain ⟨values', hu'⟩ := hc.held h hkheld
        exact hw.apart j k (Ne.symm hk) _ hu _ hu' ⟨rfl, rfl⟩
      · unfold World.held at hj
        cases hs : w.session j <;> rw [hs] at hj hfin <;> first
          | exact hfin
          | exact hj rfl
    · exact ⟨i, fun k _ => by_contra fun hk => hheld ⟨k, hk⟩, hi⟩
  obtain ⟨b, w', hs, hcalm⟩ := Step.exists_of_quiet hq hj
  exact ⟨(j, b), w', hs, hcalm⟩

/-- When all contenders have finished, one has won. -/
theorem Contest.won [Fintype ι] [Nonempty ι] (hc : Contest app σ ws id call d)
    {ls : List (ι × Transactions.Action)}
    (h : Run approvalDb (ApiWorld.start app call σ) ls w)
    (hcalm : ∀ l ∈ ls, l.2 ≠ .abort ∧ l.2 ≠ .lose) (hfin : ∀ i, (w.session i).Finished) :
    ∃ winner, Won app σ ws id call d w winner := by
  have hw := ApiWorld.sound hc.registered h
  cases hc.stage h hcalm with
  | racing _ hopen => exact absurd (hfin _) (hopen (Classical.arbitrary ι))
  | decided winner v row hwins hstore hwinner hothers =>
    have hrow : w.store.request? ws id = some (row.decided v.values) := by
      rw [hstore, Verdict.request?_writes hwins.found]
    have hstatus : (row.decided v.values).status = (d winner).newStatus :=
      congrArg Decision.newStatus hwins.decision
    have hfinal : (row.decided v.values).status ≠ .pending :=
      hstatus ▸ Case.newStatus_ne_pending _
    have hlosers : ∀ j, j ≠ winner →
        w.session j = .failed (.invalidTransitionError id (d winner).newStatus) := by
      intro j hj
      rcases hothers j hj with ⟨p, δ, hrunning⟩ | ⟨e, hfailed⟩
      · have hunfinished := hfin j
        rw [hrunning] at hunfinished
        exact hunfinished.elim
      · obtain ⟨r, hr, -, rfl⟩ := hc.failed h hfailed
        rw [hrow] at hr
        obtain rfl := Option.some.inj hr
        rw [hfailed, hstatus]
    have htables := hstore.trans (v.view_writes ws id row σ)
    refine ⟨winner, ⟨_, _, hwinner, rfl⟩, ⟨_, hrow, hstatus, hfinal⟩,
      fun j hj => ⟨hlosers j hj, Decision.newStatus_inj⟩, ?_, ?_, ?_⟩
    · refine ⟨v.auditEntry ws id, congrArg Store.auditLogEntries htables, rfl, rfl, ?_⟩
      exact congrArg Decision.auditAction hwins.decision
    · refine ⟨v.event ws id, congrArg Store.outboxEvents htables, rfl, rfl, ?_⟩
      exact congrArg (fun d => d.eventType.value) hwins.decision
    · have hserve : ((request app (call winner)).serve approvalDb σ).1 = w.store := by
        rw [hstore]
        exact Prog.serve_committed hwins.alone
      have hlate := hc.serveAll_late hw.inv (Run.evolves (ApiWorld.sound_start hc.registered) h) hrow hfinal
        (Finset.univ.erase winner).toList
      refine ⟨winner :: (Finset.univ.erase winner).toList, ?_, ?_, ?_, ?_⟩
      · exact List.nodup_cons.mpr ⟨by simp, Finset.nodup_toList _⟩
      · intro i
        by_cases hi : i = winner
        · exact List.mem_cons.mpr (Or.inl hi)
        · exact List.mem_cons.mpr (Or.inr (by simpa using hi))
      · simp only [List.map_cons, serveAll, hserve]
        exact hlate.1.symm
      · simp only [List.map_cons, serveAll, hserve, hwins.alone, hlate.2, hwinner, hstatus]
        refine congrArg _ (List.map_congr_left fun j hj => hlosers j ?_)
        simpa using hj

/-- **Exactly one winner.** Any number of entitled decisions without a key on one pending
request, in any interleaving in which no transaction is aborted from outside: the race is
bounded, it goes on until all have finished, and then exactly one of them has won. -/
theorem exactly_one_winner [Fintype ι] [Nonempty ι] (hc : Contest app σ ws id call d)
    {ls : List (ι × Transactions.Action)}
    (h : Run approvalDb (ApiWorld.start app call σ) ls w)
    (hcalm : ∀ l ∈ ls, l.2 ≠ .abort ∧ l.2 ≠ .lose) :
    ls.length ≤ 10 * Fintype.card ι ∧
    (∀ i, ¬ (w.session i).Finished →
      ∃ l w', Step approvalDb w l w' ∧ l.2 ≠ .abort ∧ l.2 ≠ .lose) ∧
    ((∀ i, (w.session i).Finished) → ∃! winner, Won app σ ws id call d w winner) := by
  refine ⟨?_, fun i hi => hc.goes_on h hi, fun hfin => ?_⟩
  · have hlength := h.length_le (n := fun _ => 10)
      fun i => ⟨6, 2, (hc.contender i).ends, le_refl 10⟩
    simpa [Nat.mul_comm] using hlength
  · obtain ⟨winner, hwon⟩ := hc.won h hcalm hfin
    refine ⟨winner, hwon, fun other hother => ?_⟩
    by_contra hne
    obtain ⟨a, δ, hcommitted, -⟩ := hother.success
    have hlost := (hwon.losers other hne).1
    rw [hcommitted] at hlost
    cases hlost

end Contest

/-! ## Two approvals -/

/-- The store after the create of the sample. -/
def Sample.launched : Store :=
  (serveAll approvalDb [request app (launch "1" "key-1")] Store.empty).1

/-- Bob approves twice. -/
def Sample.raceCalls : Fin 2 → Call
  | 0 => approve "2" bobToken none
  | 1 => approve "3" bobToken none

theorem Sample.launched_registered : launched.Registered := by
  obtain ⟨ls, w, h, hstore, -⟩ := Run.serveAll approvalDb (fun i => request app (calls i)) [0]
    (by decide) (w := ApiWorld.start app calls Store.empty) (fun _ => rfl) (fun _ _ => rfl)
  have hinv := (ApiWorld.sound ⟨[], represents_empty⟩ h).inv
  rwa [hstore] at hinv

theorem Sample.approve_by_bob (n : String) (key : Option String) :
    (approve n bobToken key).By app bob :=
  ⟨rfl, rfl, show bob.hasAction .decide = true by decide⟩

theorem Sample.launched_entitles : launched.Entitles "ws_1" launchId .approve bob.userId := by
  obtain ⟨row, hrow⟩ := Option.isSome_iff_exists.mp
    (show (launched.request? "ws_1" launchId).isSome = true by decide +kernel)
  refine ⟨row, hrow, Or.inr ?_⟩
  change "bob" ∈ launched.reviewerIds "ws_1" launchId
  decide +kernel

/-- Each of the two approvals is a contender. -/
theorem Sample.contest : Contest app launched "ws_1" launchId raceCalls (fun _ => .approve) where
  registered := launched_registered
  pending := by
    have hstatus : (launched.request? "ws_1" launchId).map ApprovalRequestRow.status =
        some .pending := by decide +kernel
    exact Option.map_eq_some_iff.mp hstatus
  contender i := by
    obtain rfl | rfl : i = 0 ∨ i = 1 := by omega
    · exact ⟨rfl, ⟨_, rfl⟩, by decide, ⟨bob, approve_by_bob _ _, launched_entitles⟩,
        by decide +kernel, by decide +kernel⟩
    · exact ⟨rfl, ⟨_, rfl⟩, by decide, ⟨bob, approve_by_bob _ _, launched_entitles⟩,
        by decide +kernel, by decide +kernel⟩

/-- The race of the two approvals, run to its end. -/
theorem Sample.race : ∃ ls w,
    Run approvalDb (ApiWorld.start app raceCalls launched) ls w ∧
      (∀ l ∈ ls, l.2 ≠ .abort ∧ l.2 ≠ .lose) ∧ ∀ i, (w.session i).Finished := by
  obtain ⟨ls, w, h, -, hsessions, -, -, hcalm⟩ := Run.serveAll approvalDb
    (fun i => request app (raceCalls i)) [0, 1] (by decide)
    (w := ApiWorld.start app raceCalls launched) (fun _ => rfl) (fun _ _ => rfl)
  refine ⟨ls, w, h, hcalm, fun i => ?_⟩
  have hall := serveAll_finished approvalDb ([0, 1].map fun i => request app (raceCalls i))
    (ApiWorld.start app raceCalls launched).store
  rw [← hsessions] at hall
  exact hall _ (List.mem_map_of_mem (by simp; omega))

/-- The loser of two approvals is told its own attempted status, as it is the winner's. -/
theorem loser_told_own_status : ∃ ls w,
    Run approvalDb (ApiWorld.start Sample.app Sample.raceCalls Sample.launched) ls w ∧
      (∀ l ∈ ls, l.2 ≠ .abort ∧ l.2 ≠ .lose) ∧ (∀ i, (w.session i).Finished) ∧
      ∃ loser body, (Sample.raceCalls loser).operation = .decide .approve Sample.launchId none body ∧
        w.session loser =
          .failed (.invalidTransitionError Sample.launchId Decision.approve.newStatus) := by
  obtain ⟨ls, w, h, hcalm, hfin⟩ := Sample.race
  obtain ⟨winner, hwon⟩ := Sample.contest.won h hcalm hfin
  obtain ⟨loser, hne⟩ := exists_ne winner
  obtain ⟨body, hop⟩ := (Sample.contest.contender loser).decides
  exact ⟨ls, w, h, hcalm, hfin, loser, body, hop, (hwon.losers loser hne).1⟩

theorem exactly_one_winner_sample : ∃ ls w,
    Run approvalDb (ApiWorld.start Sample.app Sample.raceCalls Sample.launched) ls w ∧
      ls.length ≤ 20 ∧ ∃! winner, Won Sample.app Sample.launched "ws_1" Sample.launchId
        Sample.raceCalls (fun _ => .approve) w winner := by
  obtain ⟨ls, w, h, hcalm, hfin⟩ := Sample.race
  obtain ⟨hlength, -, hwon⟩ := exactly_one_winner Sample.contest h hcalm
  exact ⟨ls, w, h, hlength, hwon hfin⟩

end ContentApproval
