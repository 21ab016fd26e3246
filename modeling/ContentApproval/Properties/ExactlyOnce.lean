import ContentApproval.Properties.Acknowledged
import ContentApproval.Properties.OneWinner
import ContentApproval.Properties.ReadBack
import ContentApproval.Properties.Refusals

/-!
# A call that is sent again and again is executed exactly once

Clients may send one create any number of times under one key, at the same time, among any other
calls, and while transactions are rolled back from outside. As soon as one of them has ended by
itself, exactly one has created the request, and each of the others gets the same answer or is told
that the key is being processed (`creates_exactly_once`). A call that was told so finds the answer
when it is sent again (`conflicts_resolve`). Of a decision under one key at most one executes, and
the others get the same answer or are told that the request is decided, be it by the very decision
that they repeat (`decisions_settle_once`).
-/

namespace ContentApproval

open Transactions Idempotency

/-- The call is an accepted create of this payload. -/
structure Call.Creates (app : App) (call : Call) (ws key : String)
    (payload : ApprovalRequestCreate) : Prop where
  workspace : call.workspaceId = ws
  keyAccepted : KeyAccepted key
  accepted : ∃ P body document, call.By app P ∧ call.operation = .create (some key) body ∧
    body.document? = some document ∧
    validateBody ApprovalRequestCreate.modelValidate document = .ok payload

/-- The call is an accepted decision of this request with this body, and its caller is entitled to
it. -/
structure Call.Decides (app : App) (call : Call) (ws id key : String) (d : Decision)
    (b : DecisionBody) (σ : Store) : Prop where
  workspace : call.workspaceId = ws
  keyAccepted : KeyAccepted key
  accepted : ∃ P body document, call.By app P ∧ call.operation = .decide d id (some key) body ∧
    body.document? = some document ∧ d.readBody document = .ok b ∧ σ.Entitles ws id d P.userId

section Single

variable {app : App} {call : Call} {ws id key : String} {payload : ApprovalRequestCreate}
  {d : Decision} {b : DecisionBody} {P : Principal} {σ₀ σ : Store}

theorem Call.By.caller (hby : call.By app P) : call.caller app = .ok P := by
  unfold Call.caller
  rw [hby.authenticated]
  dsimp only
  rw [if_neg (not_not.mpr hby.workspace), if_neg (by rw [hby.action]; decide)]

theorem Call.Creates.normalized (h : call.Creates app ws key payload) :
    call.operation.normalized = some payload.modelDump := by
  obtain ⟨P, body, document, -, hop, hdoc, hpayload⟩ := h.accepted
  rw [hop, Operation.normalized, hdoc, Option.bind_some, hpayload]
  rfl

/-- The reasons for which such a create can be refused. -/
theorem Call.Creates.refusal (h : call.Creates app ws key payload) {e : Exn}
    (hrefusal : Refusal app call σ₀ σ e)
    (hid : σ.has (.approvalRequest call.env.requestId) = false)
    (hledger : ∀ r, σ.key? ws "create" key = some r →
      r.requestFingerprint = fingerprint app.sha256 payload.modelDump) :
    e = Idempotency.keyInProgress := by
  obtain ⟨P, body, document, hby, hop, hdoc, hpayload⟩ := h.accepted
  have hbody : call.operation.body.document? = some document := by rw [hop]; exact hdoc
  cases hrefusal with
  | keyInProgress => rfl
  | unreadable hnone =>
    rw [hbody] at hnone
    cases hnone
  | denied hcaller =>
    rw [hby.caller] at hcaller
    cases hcaller
  | invalid hdoc' herrors =>
    obtain rfl := Option.some.inj (hbody.symm.trans hdoc')
    have hkey : requiredIdempotencyKey (some key) = .ok key := h.keyAccepted
    rw [hop, Operation.errors?, hkey, hpayload] at herrors
    cases herrors
  | notFound hid' =>
    rw [hop] at hid'
    cases hid'
  | notEntitled _ hop' =>
    rw [hop] at hop'
    cases hop'
  | late _ hop' =>
    rw [hop] at hop'
    cases hop'
  | trailInUse => rfl
  | keyReused hkey hnormalized hfound hne =>
    rw [hop] at hkey
    cases hkey
    rw [h.normalized] at hnormalized
    obtain rfl := Option.some.inj hnormalized
    rw [h.workspace] at hfound
    exact absurd (hledger _ hfound) hne
  | idInUse _ hused =>
    rw [hid] at hused
    cases hused

theorem Call.Decides.normalized (h : call.Decides app ws id key d b σ₀) :
    call.operation.normalized = some b.payload := by
  obtain ⟨P, body, document, -, hop, hdoc, hb, -⟩ := h.accepted
  simp [hop, Operation.normalized, hdoc, hb, Except.toOption]

/-- Such a decision can be refused only because the request is decided. -/
theorem Call.Decides.refusal (h : call.Decides app ws id key d b σ₀) {e : Exn}
    (hrefusal : Refusal app call σ₀ σ e) (hev : σ₀.Evolves σ)
    (hunused : ∀ k ∈ call.trailKeys, σ.has k = false)
    (hledger : ∀ r, σ.key? ws (d.route id) key = some r →
      r.requestFingerprint = fingerprint app.sha256 b.payload) :
    ∃ row, σ.request? ws id = some row ∧ row.status ≠ .pending ∧
      e = .invalidTransitionError id row.status := by
  obtain ⟨P, body, document, hby, hop, hdoc, hb, hentitled⟩ := h.accepted
  have hbody : call.operation.body.document? = some document := by rw [hop]; exact hdoc
  cases hrefusal with
  | late _ hop' hrow _ hstatus =>
    rw [hop] at hop'
    cases hop'
    rw [h.workspace] at hrow
    exact ⟨_, hrow, hstatus, rfl⟩
  | unreadable hnone =>
    rw [hbody] at hnone
    cases hnone
  | denied hcaller =>
    rw [hby.caller] at hcaller
    cases hcaller
  | invalid hdoc' herrors =>
    obtain rfl := Option.some.inj (hbody.symm.trans hdoc')
    have haccepted : validateLength 1 255 keyLoc key = .ok key := h.keyAccepted
    have hkey : optionalIdempotencyKey (some key) = .ok (some key) := by
      rw [optionalIdempotencyKey, haccepted]
      rfl
    rw [hop, Operation.errors?, hkey, hb] at herrors
    cases herrors
  | notFound hid hnone =>
    rw [hop] at hid
    cases hid
    obtain ⟨row, hrow, -⟩ := hentitled
    rw [h.workspace, hrow] at hnone
    cases hnone
  | @notEntitled P' d' id' key' body' row hby' hop' hrow hnot =>
    rw [hop] at hop'
    cases hop'
    obtain rfl := hby.eq hby'
    obtain ⟨row', hrow', hent⟩ := hev.entitles hentitled
    rw [h.workspace] at hrow hnot
    obtain rfl := Option.some.inj (hrow.symm.trans hrow')
    exact absurd hent hnot
  | keyReused hkey hnormalized hfound hne =>
    rw [hop] at hkey
    cases hkey
    rw [h.normalized] at hnormalized
    obtain rfl := Option.some.inj hnormalized
    rw [h.workspace] at hfound
    exact absurd (hledger _ hfound) hne
  | keyInProgress hop' =>
    rw [hop] at hop'
    cases hop'
  | trailInUse _ hused =>
    obtain ⟨k, hk, hhas⟩ := hused
    rw [hunused k hk] at hhas
    cases hhas
  | idInUse hop' =>
    rw [hop] at hop'
    cases hop'

/-- A create that has written something was answered with 201. -/
theorem Effect.created_status {a : Answer} {δ : List Write} (h : Effect app call P σ a δ)
    {k : Option String} {body : RawBody} (hop : call.operation = .create k body) (hδ : δ ≠ []) :
    a.statusCode = 201 := by
  cases h with
  | read => exact absurd rfl hδ
  | replayed => exact absurd rfl hδ
  | created => rfl
  | decided v hop' =>
    rw [hop] at hop'
    cases hop'

/-- A decision is answered with 200. -/
theorem Effect.decided_status {a : Answer} {δ : List Write} (h : Effect app call P σ a δ)
    {k : Option String} {body : RawBody} (hop : call.operation = .decide d id k body)
    (hδ : δ ≠ []) : a.statusCode = 200 := by
  cases h with
  | read => exact absurd rfl hδ
  | replayed => exact absurd rfl hδ
  | created c hop' =>
    rw [hop] at hop'
    cases hop'
  | decided => rfl

end Single

section Runs

variable {ι : Type} [DecidableEq ι] {app : App} {call : ι → Call} {σ : Store} {w : ApiWorld ι}
  {ls : List (ι × Transactions.Action)} {ws route key : String}

/-- If all calls under a new key have one payload, the key stands in the ledger with it. -/
theorem fingerprint_of_key (hσ : σ.Registered)
    (h : Run approvalDb (ApiWorld.start app call σ) ls w) (hbefore : σ.key? ws route key = none)
    {p : Json}
    (hcalls : ∀ i, (call i).KeyedBy ws route key → (call i).operation.normalized = some p)
    {r : IdempotencyKey} (hr : w.store.key? ws route key = some r) :
    r.requestFingerprint = fingerprint app.sha256 p := by
  obtain ⟨i, hkeyed, a, δ, hcommitted, -⟩ :=
    exists_executed hσ h hbefore (Option.isSome_iff_exists.mpr ⟨r, hr⟩)
  obtain ⟨r', hr', hrecords⟩ := committed_recorded hσ h hkeyed hcommitted
  obtain rfl := Option.some.inj (hr.symm.trans hr')
  obtain ⟨q, hq, hfp⟩ := hrecords.fingerprint
  rw [hcalls i hkeyed] at hq
  rw [hfp, Option.some.inj hq]

/-- The answers that were committed for a key are one answer. -/
theorem answer_unique (hσ : σ.Registered)
    (h : Run approvalDb (ApiWorld.start app call σ) ls w) {i j : ι} {a b : Answer}
    {δ δ' : List Write} (hi : (call i).KeyedBy ws route key) (hj : (call j).KeyedBy ws route key)
    (ha : w.session i = .committed a δ) (hb : w.session j = .committed b δ') : a = b := by
  obtain ⟨r, hr, hrecords⟩ := committed_recorded hσ h hi ha
  obtain ⟨r', hr', hrecords'⟩ := committed_recorded hσ h hj hb
  obtain rfl := Option.some.inj (hr.symm.trans hr')
  exact hrecords.answer_eq hrecords'

/-- The effects of an answer that was committed for a key are in the tables. -/
theorem committed_in_tables (hσ : σ.Registered)
    (h : Run approvalDb (ApiWorld.start app call σ) ls w) {i : ι} {a : Answer} {δ : List Write}
    (hkeyed : (call i).KeyedBy ws route key) (hi : w.session i = .committed a δ) :
    Recorded (call i) a w.store := by
  obtain ⟨r, hr, hrecords⟩ := committed_recorded hσ h hkeyed hi
  obtain ⟨out, hout, hvalid⟩ := hrecords.body
  obtain ⟨status, body⟩ := a
  obtain rfl : body = .request out := hout
  refine Recorded.of_key (ApiWorld.sound hσ h).inv hkeyed.2 ?_ hvalid
  rw [hkeyed.1]
  exact hr

/-- Accepted creates of one payload under a new key, against a database that refuses nothing. -/
theorem creates_settle {payload : ApprovalRequestCreate} (hσ : σ.Registered)
    (hbefore : σ.key? ws "create" key = none)
    (hids : ∀ i j, i ≠ j → (call i).env.Apart (call j).env) (hnew : ∀ i, (call i).env.New σ)
    (hcalls : ∀ i, (call i).KeyedBy ws "create" key → (call i).Creates app ws key payload)
    (h : Run approvalDb (ApiWorld.start app call σ) ls w)
    (hends : ∃ i, (call i).KeyedBy ws "create" key ∧
      ((∃ a δ, w.session i = .committed a δ) ∨ ∃ e, w.session i = .failed e)) :
    ∃ i a, (∀ j, Executed call w ws "create" key j ↔ j = i) ∧
      (∃ δ, w.session i = .committed a δ) ∧ a.statusCode = 201 ∧ Recorded (call i) a w.store ∧
      ∀ j, (call j).KeyedBy ws "create" key → (∀ b δ, w.session j = .committed b δ → b = a) ∧
        ∀ e, w.session j = .failed e → e = keyInProgress := by
  -- A call that has failed was told that the key is being processed, so another has executed.
  have hfailed : ∀ i e, (call i).KeyedBy ws "create" key → w.session i = .failed e →
      e = keyInProgress ∧ ∃ j, Executed call w ws "create" key j := by
    intro i e hkeyed hi
    have hexcused := ApiWorld.excused hσ .nil (i := i) rfl h
    rw [hi] at hexcused
    have hunused := unused_of_failed hσ h hids hnew hi
    have he := (hcalls i hkeyed).refusal hexcused (hunused _ List.mem_cons_self) fun r hr =>
      fingerprint_of_key hσ h hbefore (fun i hi => (hcalls i hi).normalized) hr
    obtain ⟨key', hkey, -, hfound⟩ := Refusal.key_used hexcused he hunused
    obtain ⟨-, -, rfl⟩ := hkeyed.unique ⟨rfl, hkey⟩
    rw [hkeyed.1] at hfound
    exact ⟨he, exists_executed hσ h hbefore hfound⟩
  obtain ⟨i, hi⟩ : ∃ i, Executed call w ws "create" key i := by
    obtain ⟨j, hj, ⟨a, δ, hcommitted⟩ | ⟨e, hj'⟩⟩ := hends
    · obtain ⟨r, hr, -⟩ := committed_recorded hσ h hj hcommitted
      exact exists_executed hσ h hbefore (Option.isSome_iff_exists.mpr ⟨r, hr⟩)
    · exact (hfailed j e hj hj').2
  have ⟨hkeyed, a, δ, hcommitted, hne⟩ := hi
  refine ⟨i, a, fun j => ⟨fun hj => executed_unique hσ h hj hi, ?_⟩, ⟨δ, hcommitted⟩, ?_,
    committed_in_tables hσ h hkeyed hcommitted, fun j hj =>
      ⟨fun b δ' hcommitted' => ?_, fun e hj' => (hfailed j e hj hj').1⟩⟩
  · rintro rfl
    exact hi
  · obtain ⟨P, -, heff⟩ := World.Sound.committed (ApiWorld.sound hσ h) hcommitted
    obtain ⟨P', body, document, -, hop, -⟩ := (hcalls i hkeyed).accepted
    exact heff.created_status hop hne
  · exact answer_unique hσ h hj hkeyed hcommitted' hcommitted

/-- The same creates, once one of them has been told that the key is being processed. -/
theorem conflicts_settle {payload : ApprovalRequestCreate} {ls₀ : List (ι × Transactions.Action)}
    {w₀ : ApiWorld ι} (hσ : σ.Registered)
    (hids : ∀ i j, i ≠ j → (call i).env.Apart (call j).env) (hnew : ∀ i, (call i).env.New σ)
    (hcalls : ∀ i, (call i).KeyedBy ws "create" key → (call i).Creates app ws key payload)
    (h₀ : Run approvalDb (ApiWorld.start app call σ) ls₀ w₀) {i : ι}
    (hkeyed : (call i).KeyedBy ws "create" key) (hi : w₀.session i = .failed keyInProgress) :
    ∃ k a δ, w₀.session k = .committed a δ ∧ a.statusCode = 201 ∧
      ∀ ls w j, Run approvalDb w₀ ls w → (call j).KeyedBy ws "create" key →
        w₀.session j = .running (request app (call j)) [] →
        (∀ e, w.session j ≠ .failed e) ∧ ∀ b δ', w.session j = .committed b δ' → b = a ∧ δ' = [] := by
  obtain ⟨ws', key', hkeyed', hbefore, hfound⟩ := key_recorded_since hσ hids hnew .nil rfl h₀ hi
  obtain ⟨rfl, -, rfl⟩ := hkeyed'.unique hkeyed
  obtain ⟨k, hk⟩ := exists_executed hσ h₀ hbefore hfound
  have ⟨hkeyedk, a, δ, hcommitted, hne⟩ := hk
  refine ⟨k, a, δ, hcommitted, ?_, fun ls w j h hj hstart => ⟨fun e hfailed => ?_, fun b δ' hb => ?_⟩⟩
  · obtain ⟨P, -, heff⟩ := World.Sound.committed (ApiWorld.sound hσ h₀) hcommitted
    obtain ⟨P', body, document, -, hop, -⟩ := (hcalls k hkeyedk).accepted
    exact heff.created_status hop hne
  · -- The call would have been told so itself, but the key was there when it began.
    have hrun := h₀.trans h
    have hexcused := ApiWorld.excused hσ h₀ hstart h
    rw [hfailed] at hexcused
    have hunused := unused_of_failed hσ hrun hids hnew hfailed
    have he := (hcalls j hj).refusal hexcused (hunused _ List.mem_cons_self) fun r hr =>
      fingerprint_of_key hσ hrun hbefore (fun i hi => (hcalls i hi).normalized) hr
    obtain ⟨key'', hkey, hnone, -⟩ := Refusal.key_used hexcused he hunused
    obtain ⟨hws, -, rfl⟩ := hj.unique ⟨rfl, hkey⟩
    rw [← hws, Option.eq_none_iff_forall_ne_some] at hnone
    obtain ⟨r, hr⟩ := Option.isSome_iff_exists.mp hfound
    exact hnone r hr
  · have hcommitted' := h.committed hcommitted
    have hrun := h₀.trans h
    refine ⟨answer_unique hσ hrun hj hkeyedk hb hcommitted', ?_⟩
    by_contra hne'
    obtain rfl := executed_unique hσ hrun ⟨hj, b, δ', hb, hne'⟩
      ⟨hkeyedk, a, δ, hcommitted', hne⟩
    rw [hstart] at hcommitted
    cases hcommitted

/-- Entitled decisions with one body under a new key, against a database that refuses nothing. -/
theorem decisions_settle {id : String} {d : Decision} {b : DecisionBody} (hσ : σ.Registered)
    (hbefore : σ.key? ws (d.route id) key = none)
    (hids : ∀ i j, i ≠ j → (call i).env.Apart (call j).env) (hnew : ∀ i, (call i).env.New σ)
    (hcalls : ∀ i, (call i).KeyedBy ws (d.route id) key → (call i).Decides app ws id key d b σ)
    (h : Run approvalDb (ApiWorld.start app call σ) ls w)
    (hends : ∃ i, (call i).KeyedBy ws (d.route id) key ∧
      ((∃ a δ, w.session i = .committed a δ) ∨ ∃ e, w.session i = .failed e)) :
    ∃ row, w.store.request? ws id = some row ∧ row.status ≠ .pending ∧
      (∀ j, (call j).KeyedBy ws (d.route id) key →
        ∀ e, w.session j = .failed e → e = .invalidTransitionError id row.status) ∧
      ((∃ i a, (∀ j, Executed call w ws (d.route id) key j ↔ j = i) ∧
          (∃ δ, w.session i = .committed a δ) ∧ a.statusCode = 200 ∧
          Recorded (call i) a w.store ∧ row.status = d.newStatus ∧
          ∀ j, (call j).KeyedBy ws (d.route id) key →
            ∀ b δ, w.session j = .committed b δ → b = a) ∨
        ∀ j, (call j).KeyedBy ws (d.route id) key → ∀ b δ, w.session j ≠ .committed b δ) := by
  have hev : σ.Evolves w.store := Run.evolves (ApiWorld.sound_start hσ) h
  -- A call that has failed was told that the request is decided.
  have hfailed : ∀ j e, (call j).KeyedBy ws (d.route id) key → w.session j = .failed e →
      ∃ row, w.store.request? ws id = some row ∧ row.status ≠ .pending ∧
        e = .invalidTransitionError id row.status := by
    intro j e hkeyed hj
    have hexcused := ApiWorld.excused hσ .nil (i := j) rfl h
    rw [hj] at hexcused
    refine (hcalls j hkeyed).refusal hexcused hev (fun k hk => ?_) fun r hr =>
      fingerprint_of_key hσ h hbefore (fun i hi => (hcalls i hi).normalized) hr
    exact unused_of_failed hσ h hids hnew hj k (List.mem_cons_of_mem _ hk)
  have htold : ∀ {row}, w.store.request? ws id = some row →
      ∀ j, (call j).KeyedBy ws (d.route id) key →
        ∀ e, w.session j = .failed e → e = .invalidTransitionError id row.status := by
    intro row hrow j hj e hj'
    obtain ⟨row', hrow', -, rfl⟩ := hfailed j e hj hj'
    rw [Option.some.inj (hrow.symm.trans hrow')]
  cases hkey : w.store.key? ws (d.route id) key with
  | some r =>
    have hinv : w.store.Registered := (ApiWorld.sound hσ h).inv
    obtain ⟨row, hrow, hstatus⟩ := hinv.status_of_key hkey
    obtain ⟨i, hi⟩ := exists_executed hσ h hbefore (Option.isSome_iff_exists.mpr ⟨r, hkey⟩)
    have ⟨hkeyed, a, δ, hcommitted, hne⟩ := hi
    refine ⟨row, hrow, hstatus ▸ Case.newStatus_ne_pending d, htold hrow, Or.inl ⟨i, a, fun j =>
      ⟨fun hj => executed_unique hσ h hj hi, ?_⟩, ⟨δ, hcommitted⟩, ?_,
      committed_in_tables hσ h hkeyed hcommitted, hstatus, fun j hj b δ' hcommitted' =>
        answer_unique hσ h hj hkeyed hcommitted' hcommitted⟩⟩
    · rintro rfl
      exact hi
    · obtain ⟨P, -, heff⟩ := World.Sound.committed (ApiWorld.sound hσ h) hcommitted
      obtain ⟨P', body, document, -, hop, -⟩ := (hcalls i hkeyed).accepted
      exact heff.decided_status hop hne
  | none =>
    -- Without a row of the ledger no call has committed.
    have huncommitted : ∀ j, (call j).KeyedBy ws (d.route id) key →
        ∀ a δ, w.session j ≠ .committed a δ := by
      intro j hj a δ hcommitted
      obtain ⟨r, hr, -⟩ := committed_recorded hσ h hj hcommitted
      rw [hkey] at hr
      cases hr
    obtain ⟨i, hi, ⟨a, δ, hcommitted⟩ | ⟨e, hi'⟩⟩ := hends
    · exact absurd hcommitted (huncommitted i hi a δ)
    · obtain ⟨row, hrow, hstatus, -⟩ := hfailed i e hi hi'
      exact ⟨row, hrow, hstatus, htold hrow, Or.inr huncommitted⟩

/-! ## A database that refuses statements -/

variable {ok : Statement → Prop} [DecidablePred ok] {u : ApiWorld ι}
  {refusable : ι → Prop}

omit [DecidableEq ι] in
/-- Who has executed has committed there, too. -/
theorem executed_unlimited (hu : w.Limits ok dataError refusable u) (j : ι) :
    Executed call w ws route key j ↔ Executed call u ws route key j := by
  simp only [Executed, (hu.session j).committed_iff]

/-- Who has ended without being refused has ended there, too. -/
theorem ended_unlimited {s t : Session Reply Write Exn Answer} {p : Prop}
    (hst : s.Limits ok dataError p t)
    (h : (∃ a δ, s = .committed a δ) ∨ ∃ e, s = .failed e ∧ e ≠ dataError) :
    (∃ a δ, t = .committed a δ) ∨ ∃ e, t = .failed e := by
  rcases h with ⟨a, δ, hcommitted⟩ | ⟨e, hfailed, hne⟩
  · exact Or.inl ⟨a, δ, hst.committed_iff.mp hcommitted⟩
  · exact Or.inr ⟨e, (hst.failed hfailed).resolve_right fun he => hne he.1⟩

/-- **Exactly once.** In every run from a registered store without the key, in which all calls
generate new ids, let the calls under the key be accepted creates of one payload. As soon as one of
them has committed or has failed without being refused by the database, whatever the others do and
whatever is rolled back from outside, exactly one has executed. Its answer is a 201 whose effects are
in the tables; whoever else commits has the same answer, and whoever fails has been told that the key
is being processed, or was refused. -/
theorem creates_exactly_once {payload : ApprovalRequestCreate} (hσ : σ.Registered)
    (hbefore : σ.key? ws "create" key = none)
    (hids : ∀ i j, i ≠ j → (call i).env.Apart (call j).env) (hnew : ∀ i, (call i).env.New σ)
    (hcalls : ∀ i, (call i).KeyedBy ws "create" key → (call i).Creates app ws key payload)
    (h : Run approvalDb (ApiWorld.startOn ok app call σ) ls w)
    (hends : ∃ i, (call i).KeyedBy ws "create" key ∧ ((∃ a δ, w.session i = .committed a δ) ∨
      ∃ e, w.session i = .failed e ∧ e ≠ dataError)) :
    ∃ i a, (∀ j, Executed call w ws "create" key j ↔ j = i) ∧
      (∃ δ, w.session i = .committed a δ) ∧ a.statusCode = 201 ∧ Recorded (call i) a w.store ∧
      ∀ j, (call j).KeyedBy ws "create" key → (∀ b δ, w.session j = .committed b δ → b = a) ∧
        ∀ e, w.session j = .failed e → e = keyInProgress ∨
          e = dataError ∧ (request app (call j)).Refusable ok := by
  obtain ⟨ls', u, hrun, hu, -⟩ := ApiWorld.unlimited h
  have hends' := hends.imp fun i hi => hi.imp_right (ended_unlimited (hu.session i))
  obtain ⟨i, a, hexecuted, ⟨δ, hcommitted⟩, hstatus, hrecorded, hothers⟩ :=
    creates_settle hσ hbefore hids hnew hcalls hrun hends'
  refine ⟨i, a, fun j => (executed_unlimited hu j).trans (hexecuted j),
    ⟨δ, (hu.session i).committed_iff.mpr hcommitted⟩, hstatus, hu.store ▸ hrecorded, fun j hj => ?_⟩
  obtain ⟨hsame, htold⟩ := hothers j hj
  exact ⟨fun b δ' hb => hsame b δ' ((hu.session j).committed_iff.mp hb),
    fun e he => ((hu.session j).failed he).imp_left (htold e)⟩

/-- **Conflicts resolve.** Let the calls under the key be accepted creates of one payload, all with
new ids. Once one of them has been told that the key is being processed, the answer is there: a call
under the key that begins from then on does not fail, unless the database refuses it, and if it
commits, it has written nothing and has the answer that was committed before. -/
theorem conflicts_resolve {payload : ApprovalRequestCreate} {ls₀ : List (ι × Transactions.Action)}
    {w₀ : ApiWorld ι} (hσ : σ.Registered)
    (hids : ∀ i j, i ≠ j → (call i).env.Apart (call j).env) (hnew : ∀ i, (call i).env.New σ)
    (hcalls : ∀ i, (call i).KeyedBy ws "create" key → (call i).Creates app ws key payload)
    (h₀ : Run approvalDb (ApiWorld.startOn ok app call σ) ls₀ w₀) {i : ι}
    (hkeyed : (call i).KeyedBy ws "create" key) (hi : w₀.session i = .failed keyInProgress) :
    ∃ k a δ, w₀.session k = .committed a δ ∧ a.statusCode = 201 ∧
      ∀ ls w j, Run approvalDb w₀ ls w → (call j).KeyedBy ws "create" key →
        (∀ b, (j, b) ∉ ls₀) →
        (∀ e, w.session j = .failed e → e = dataError ∧ (request app (call j)).Refusable ok) ∧
          ∀ b δ', w.session j = .committed b δ' → b = a ∧ δ' = [] := by
  obtain ⟨ls₀', u₀, hrun₀, hu₀, hlabels₀⟩ := ApiWorld.unlimited h₀
  have hi' : u₀.session i = .failed keyInProgress := by
    rcases (hu₀.session i).failed hi with hfailed | ⟨he, -⟩
    · exact hfailed
    · cases he
  obtain ⟨k, a, δ, hcommitted, hstatus, hlater⟩ :=
    conflicts_settle hσ hids hnew hcalls hrun₀ hkeyed hi'
  refine ⟨k, a, δ, (hu₀.session k).committed_iff.mpr hcommitted, hstatus,
    fun ls w j h hj hbegun => ?_⟩
  obtain ⟨ls', u, hrun, hu, -⟩ := h.unlimited hu₀
  have hstart : u₀.session j = .running (request app (call j)) [] :=
    hrun₀.session_eq (not_mem_of_limits hlabels₀ hbegun)
  obtain ⟨hunfailed, hsame⟩ := hlater ls' u j hrun hj hstart
  refine ⟨fun e he => ?_, fun b δ' hb => hsame b δ' ((hu.session j).committed_iff.mp hb)⟩
  rcases (hu.session j).failed he with hfailed | hrefused
  · exact absurd hfailed (hunfailed e)
  · exact hrefused

/-- **A decision that is sent again and again settles once.** In every run from a registered store
without the key, in which all calls generate new ids, let the calls under the key be entitled
decisions with one body. As soon as one of them has committed or has failed without being refused by
the database, the request is decided, and whoever fails has been told its status or was refused. If
one of them has executed, it is the only one, the status is that of the decision, and whoever else
commits has the same answer. If none has, then another call has decided the request, and none of them
commits. -/
theorem decisions_settle_once {id : String} {d : Decision} {b : DecisionBody} (hσ : σ.Registered)
    (hbefore : σ.key? ws (d.route id) key = none)
    (hids : ∀ i j, i ≠ j → (call i).env.Apart (call j).env) (hnew : ∀ i, (call i).env.New σ)
    (hcalls : ∀ i, (call i).KeyedBy ws (d.route id) key → (call i).Decides app ws id key d b σ)
    (h : Run approvalDb (ApiWorld.startOn ok app call σ) ls w)
    (hends : ∃ i, (call i).KeyedBy ws (d.route id) key ∧ ((∃ a δ, w.session i = .committed a δ) ∨
      ∃ e, w.session i = .failed e ∧ e ≠ dataError)) :
    ∃ row, w.store.request? ws id = some row ∧ row.status ≠ .pending ∧
      (∀ j, (call j).KeyedBy ws (d.route id) key → ∀ e, w.session j = .failed e →
        e = .invalidTransitionError id row.status ∨
          e = dataError ∧ (request app (call j)).Refusable ok) ∧
      ((∃ i a, (∀ j, Executed call w ws (d.route id) key j ↔ j = i) ∧
          (∃ δ, w.session i = .committed a δ) ∧ a.statusCode = 200 ∧
          Recorded (call i) a w.store ∧ row.status = d.newStatus ∧
          ∀ j, (call j).KeyedBy ws (d.route id) key →
            ∀ b δ, w.session j = .committed b δ → b = a) ∨
        ∀ j, (call j).KeyedBy ws (d.route id) key → ∀ b δ, w.session j ≠ .committed b δ) := by
  obtain ⟨ls', u, hrun, hu, -⟩ := ApiWorld.unlimited h
  have hends' := hends.imp fun i hi => hi.imp_right (ended_unlimited (hu.session i))
  obtain ⟨row, hrow, hstatus, htold, hcases⟩ :=
    decisions_settle hσ hbefore hids hnew hcalls hrun hends'
  refine ⟨row, hu.store ▸ hrow, hstatus,
    fun j hj e he => ((hu.session j).failed he).imp_left (htold j hj e), ?_⟩
  rcases hcases with ⟨i, a, hexecuted, ⟨δ, hcommitted⟩, hcode, hrecorded, hdecided, hsame⟩ | hnone
  · refine Or.inl ⟨i, a, fun j => (executed_unlimited hu j).trans (hexecuted j),
      ⟨δ, (hu.session i).committed_iff.mpr hcommitted⟩, hcode, hu.store ▸ hrecorded, hdecided, ?_⟩
    exact fun j hj c δ' hc => hsame j hj c δ' ((hu.session j).committed_iff.mp hc)
  · exact Or.inr fun j hj c δ' hc => hnone j hj c δ' ((hu.session j).committed_iff.mp hc)

end Runs

/-! ## Two creates at the same time -/

namespace Sample

theorem launch_creates (n : String) :
    (launch n "key-1").Creates app "ws_1" "key-1" (launchPayload ["bob"]) where
  workspace := rfl
  keyAccepted := rfl
  accepted := ⟨alice, _, _, ⟨authenticate_alice, rfl, rfl⟩, rfl, rfl,
    ok_of_toOption (by decide +kernel)⟩

end Sample

theorem creates_exactly_once_sample : ∃ ls w i a,
    Run approvalDb (ApiWorld.startOn (fun _ => True) Sample.app Sample.retryCalls Store.empty) ls w ∧
      (∀ j, Executed Sample.retryCalls w "ws_1" "create" "key-1" j ↔ j = i) ∧
      (∃ δ, w.session i = .committed a δ) ∧ w.session 1 = .failed keyInProgress := by
  obtain ⟨ls, w, a, δ, h, hcommitted, hfailed⟩ := Sample.overtaken_run
  rw [← ApiWorld.startOn_eq fun _ => trivial] at h
  have hcalls : ∀ i, (Sample.retryCalls i).KeyedBy "ws_1" "create" "key-1" ∧
      (Sample.retryCalls i).Creates Sample.app "ws_1" "key-1" (Sample.launchPayload ["bob"]) := by
    intro i
    obtain rfl | rfl : i = 0 ∨ i = 1 := by omega
    · exact ⟨⟨rfl, rfl⟩, Sample.launch_creates "1"⟩
    · exact ⟨⟨rfl, rfl⟩, Sample.launch_creates "2"⟩
  obtain ⟨i, b, hexecuted, hi, -⟩ := creates_exactly_once ⟨[], represents_empty⟩ rfl
    Sample.retry_ids Sample.retry_new (fun i _ => (hcalls i).2) h
    ⟨1, (hcalls 1).1, Or.inr ⟨_, hfailed, nofun⟩⟩
  exact ⟨ls, w, i, b, h, hexecuted, hi, hfailed⟩

/-! ## A third create -/

namespace Sample

/-- The client sends the same create three times. -/
def thriceCalls : Fin 3 → Call
  | 0 => launch "1" "key-1"
  | 1 => launch "2" "key-1"
  | 2 => launch "3" "key-1"

/-- The second create is overtaken by the first one; the third one is sent after that. -/
theorem retried_run : ∃ ls w ls' w' a,
    Run approvalDb (ApiWorld.start app thriceCalls Store.empty) ls w ∧ Run approvalDb w ls' w' ∧
      w.session 1 = .failed keyInProgress ∧ (∀ b, (2, b) ∉ ls) ∧
      ∃ δ, w'.session 2 = .committed a δ := by
  obtain ⟨ls, w, h, hstore, -, h₁, hrest, hheld⟩ := Run.overtake approvalDb (i := 0) (j := 1)
    (by decide) (p := request app (thriceCalls 0)) (q := request app (thriceCalls 1))
    (w := ApiWorld.start app thriceCalls Store.empty) (fun _ => rfl) rfl rfl (by decide +kernel)
  obtain ⟨h₂, hbegun⟩ := hrest 2 (by decide) (by decide)
  obtain ⟨ls', w', h', -, hsessions, -⟩ := Run.serveAll approvalDb
    (fun i => request app (thriceCalls i)) [2] (by decide) hheld fun i hi => by
      rw [List.mem_singleton.mp hi]
      exact h₂
  have hends : ([2].map w'.session).map committedStatus? = [some 201] := by
    rw [hsessions, hstore]
    decide +kernel
  simp only [List.map_cons, List.map_nil, List.cons.injEq, and_true] at hends
  obtain ⟨a, δ, hcommitted, -⟩ := committed_of_status hends
  exact ⟨ls, w, ls', w', a, h, h', failed_of_told (by rw [h₁]; decide +kernel), hbegun, δ,
    hcommitted⟩

end Sample

theorem conflicts_resolve_sample : ∃ ls w ls' w' k a δ,
    Run approvalDb (ApiWorld.startOn (fun _ => True) Sample.app Sample.thriceCalls Store.empty) ls w ∧
      Run approvalDb w ls' w' ∧ w.session 1 = .failed keyInProgress ∧
      w.session k = .committed a δ ∧ w'.session 2 = .committed a [] := by
  obtain ⟨ls, w, ls', w', b, h, h', hfailed, hbegun, δ', hcommitted⟩ := Sample.retried_run
  rw [← ApiWorld.startOn_eq fun _ => trivial] at h
  have hcalls : ∀ i, (Sample.thriceCalls i).KeyedBy "ws_1" "create" "key-1" ∧
      (Sample.thriceCalls i).Creates Sample.app "ws_1" "key-1" (Sample.launchPayload ["bob"]) := by
    intro i
    obtain rfl | rfl | rfl : i = 0 ∨ i = 1 ∨ i = 2 := by omega
    · exact ⟨⟨rfl, rfl⟩, Sample.launch_creates "1"⟩
    · exact ⟨⟨rfl, rfl⟩, Sample.launch_creates "2"⟩
    · exact ⟨⟨rfl, rfl⟩, Sample.launch_creates "3"⟩
  have hids : ∀ i j, i ≠ j → (Sample.thriceCalls i).env.Apart (Sample.thriceCalls j).env := by
    decide
  have hnew : ∀ i, (Sample.thriceCalls i).env.New Store.empty := by
    intro i k hk
    cases k <;> rfl
  obtain ⟨k, a, δ, hk, -, hlater⟩ := conflicts_resolve ⟨[], represents_empty⟩ hids hnew
    (fun i _ => (hcalls i).2) h (hcalls 1).1 hfailed
  obtain ⟨rfl, rfl⟩ := (hlater ls' w' 2 h' (hcalls 2).1 hbegun).2 b δ' hcommitted
  exact ⟨ls, w, ls', w', k, b, δ, h, h', hfailed, hk, hcommitted⟩

/-! ## Two approvals with one key at the same time -/

namespace Sample

/-- Bob sends the same approval twice. -/
def retryApprovals : Fin 2 → Call
  | 0 => approve "2" bobToken (some "key-2")
  | 1 => approve "3" bobToken (some "key-2")

/-- The second approval looks its key up before the first one commits. -/
theorem approvals_overtaken : ∃ ls w a δ e,
    Run approvalDb (ApiWorld.start app retryApprovals launched) ls w ∧
      w.session 0 = .committed a δ ∧ w.session 1 = .failed e ∧ e.statusCode = 409 := by
  obtain ⟨ls, w, h, -, h₀, h₁, -⟩ := Run.overtake approvalDb (i := 0) (j := 1) (by decide)
    (p := request app (retryApprovals 0)) (q := request app (retryApprovals 1))
    (w := ApiWorld.start app retryApprovals launched) (fun _ => rfl) rfl rfl (by decide +kernel)
  obtain ⟨a, δ, hcommitted, -⟩ := committed_of_status (s := w.session 0) (n := 200) (by
    rw [h₀]
    decide +kernel)
  obtain ⟨e, hfailed, hcode⟩ := failed_of_status (s := w.session 1) (n := 409) (by
    rw [h₁]
    decide +kernel)
  exact ⟨ls, w, a, δ, e, h, hcommitted, hfailed, hcode⟩

end Sample

theorem decisions_settle_once_sample : ∃ ls w row,
    Run approvalDb
        (ApiWorld.startOn (fun _ => True) Sample.app Sample.retryApprovals Sample.launched) ls w ∧
      w.store.request? "ws_1" Sample.launchId = some row ∧ row.status = .approved ∧
      w.session 1 = .failed (.invalidTransitionError Sample.launchId .approved) := by
  obtain ⟨ls, w, a, δ, e, h, hcommitted, hfailed, hcode⟩ := Sample.approvals_overtaken
  rw [← ApiWorld.startOn_eq fun _ => trivial] at h
  have hne : e ≠ dataError := by
    rintro rfl
    cases hcode
  obtain ⟨b, hb⟩ : ∃ b, Decision.approve.readBody (some (.obj [])) = .ok b := by
    have hread : (Decision.approve.readBody (some (.obj []))).toOption.isSome = true := by
      decide +kernel
    obtain ⟨b, hb⟩ := Option.isSome_iff_exists.mp hread
    exact ⟨b, ok_of_toOption hb⟩
  have hdecides : ∀ n, (Sample.approve n Sample.bobToken (some "key-2")).Decides Sample.app "ws_1"
      Sample.launchId "key-2" .approve b Sample.launched := fun n =>
    ⟨rfl, rfl, Sample.bob, _, _, Sample.approve_by_bob _ _, rfl, rfl, hb, Sample.launched_entitles⟩
  have hcalls : ∀ i, (Sample.retryApprovals i).KeyedBy "ws_1" (Decision.approve.route
      Sample.launchId) "key-2" ∧ (Sample.retryApprovals i).Decides Sample.app "ws_1"
      Sample.launchId "key-2" .approve b Sample.launched := by
    intro i
    obtain rfl | rfl : i = 0 ∨ i = 1 := by omega
    · exact ⟨⟨rfl, rfl⟩, hdecides "2"⟩
    · exact ⟨⟨rfl, rfl⟩, hdecides "3"⟩
  have hids : ∀ i j, i ≠ j →
      (Sample.retryApprovals i).env.Apart (Sample.retryApprovals j).env := by decide
  have hnew : ∀ i, ∀ k ∈ (Sample.retryApprovals i).env.keys, Sample.launched.has k = false := by
    decide +kernel
  obtain ⟨row, hrow, -, htold, ⟨i, a', -, -, -, -, hstatus, -⟩ | hnone⟩ :=
    decisions_settle_once Sample.launched_registered (by decide +kernel) hids hnew
      (fun i _ => (hcalls i).2) h ⟨1, (hcalls 1).1, Or.inr ⟨e, hfailed, hne⟩⟩
  · refine ⟨ls, w, row, h, hrow, hstatus, ?_⟩
    rcases htold 1 (hcalls 1).1 e hfailed with rfl | ⟨he, -⟩
    · rw [hfailed, hstatus]
      rfl
    · exact absurd he hne
  · exact absurd hcommitted (hnone 0 (hcalls 0).1 a δ)

end ContentApproval
