import ContentApproval.Properties.Finality
import ContentApproval.Registry.Ledger

/-!
# At most once per key

Among the calls with one key, one workspace and one route, at most one has ever committed
the effects of its handler (`Executed`), and it has committed the ledger row with them.
Every answer that was given for the key is the one that this row records (`Records`).
-/

namespace ContentApproval

open Transactions Idempotency

/-! ## Keyed calls -/

/-- The call is entered in the ledger under this workspace, route and key. -/
def Call.KeyedBy (call : Call) (ws route key : String) : Prop :=
  call.workspaceId = ws ∧ call.operation.ledgerKey = some (route, key)

theorem Call.KeyedBy.unique {call : Call} {ws route key ws' route' key' : String}
    (h : call.KeyedBy ws route key) (h' : call.KeyedBy ws' route' key') :
    ws = ws' ∧ route = route' ∧ key = key' := by
  obtain ⟨rfl, hkey⟩ := h
  obtain ⟨rfl, hkey'⟩ := h'
  rw [hkey] at hkey'
  obtain ⟨rfl, rfl⟩ := Prod.mk.inj (Option.some.inj hkey')
  exact ⟨rfl, rfl, rfl⟩

/-- The ledger row records this answer and the normalized body of the call. -/
structure Records (app : App) (call : Call) (a : Answer) (r : IdempotencyKey) : Prop where
  status : r.responseStatus = a.statusCode
  body : ∃ out, a.body = .request out ∧ ApprovalRequestOut.modelValidate r.responseBody = some out
  fingerprint : ∃ payload, call.operation.normalized = some payload ∧
    r.requestFingerprint = fingerprint app.sha256 payload

/-- One row records one answer. -/
theorem Records.answer_eq {app : App} {call call' : Call} {a b : Answer} {r : IdempotencyKey}
    (ha : Records app call a r) (hb : Records app call' b r) : a = b := by
  obtain ⟨status, body⟩ := a
  obtain ⟨status', body'⟩ := b
  obtain ⟨out, rfl, hout⟩ := ha.body
  obtain ⟨out', rfl, hout'⟩ := hb.body
  rw [hout] at hout'
  obtain rfl := Option.some.inj hout'
  obtain rfl : status = status' := ha.status.symm.trans hb.status
  rfl

/-- The operations that are entered in the ledger. -/
theorem Operation.ledgerKey_eq_some {o : Operation} {route key : String}
    (h : o.ledgerKey = some (route, key)) :
    (∃ body, o = .create (some key) body ∧ route = "create") ∨
      ∃ d id body, o = .decide d id (some key) body ∧ route = d.route id := by
  cases o with
  | create k body =>
    obtain ⟨k', rfl, hk⟩ := Option.map_eq_some_iff.mp h
    obtain ⟨rfl, rfl⟩ := Prod.mk.inj hk
    exact Or.inl ⟨body, rfl, rfl⟩
  | decide d id k body =>
    obtain ⟨k', rfl, hk⟩ := Option.map_eq_some_iff.mp h
    obtain ⟨rfl, rfl⟩ := Prod.mk.inj hk
    exact Or.inr ⟨d, id, body, rfl, rfl⟩
  | list _ _ _ => cases h
  | get _ => cases h

section Effect

variable {app : App} {call : Call} {P : Principal} {σ : Store} {a : Answer} {δ : List Write}

theorem Creation.ledgerRow_of_mem {c : Creation} {r : IdempotencyKey}
    (h : Write.insert (.idempotencyKey r) ∈ c.writes) : r = c.ledgerRow := by
  simpa [Creation.writes, Creation.newRows] using h

theorem Verdict.ledgerRow?_of_mem {v : Verdict} {ws id : String} {row : ApprovalRequestRow}
    {r : IdempotencyKey} (h : Write.insert (.idempotencyKey r) ∈ v.writes ws id row) :
    v.ledgerRow? ws id row = some r := by
  simpa [Verdict.writes, Verdict.newRows] using h

/-- A row that a call enters in the ledger is under its own key. -/
theorem Effect.keyedBy (h : Effect app call P σ a δ) {r : IdempotencyKey}
    (hr : Write.insert (.idempotencyKey r) ∈ δ) :
    call.KeyedBy r.workspaceId r.route r.idempotencyKey := by
  cases h with
  | read => cases hr
  | replayed => cases hr
  | created c hop henv hws hactor hkey =>
    obtain rfl := Creation.ledgerRow_of_mem hr
    refine ⟨hws.symm, ?_⟩
    rw [hop, ← hkey]
    rfl
  | @decided v id key body payload row row' hop henv hactor hkey =>
    obtain ⟨k, fp, hv, rfl⟩ := Verdict.ledgerRow?_some (Verdict.ledgerRow?_of_mem hr)
    refine ⟨rfl, ?_⟩
    rw [hkey] at hv
    obtain ⟨k', rfl, hk⟩ := Option.map_eq_some_iff.mp hv
    obtain ⟨rfl, -⟩ := Prod.mk.inj hk
    rw [hop]
    rfl

/-- The answer to a keyed call is a replay of a ledger row that is in the store, or it is
recorded by the ledger row that the call enters. -/
theorem Effect.recorded (h : Effect app call P σ a δ) {ws route key : String}
    (hk : call.KeyedBy ws route key) :
    (δ = [] ∧ ∃ r, σ.key? ws route key = some r ∧ Records app call a r) ∨
      ∃ r, Write.insert (.idempotencyKey r) ∈ δ ∧ Records app call a r := by
  obtain ⟨rfl, hk⟩ := hk
  cases h with
  | read a hop =>
    rcases Operation.ledgerKey_eq_some hk with ⟨body, hcall, -⟩ | ⟨d, id, body, hcall, -⟩ <;>
      rw [hcall] at hop <;> exact hop.elim
  | replayed hkey hbody hfound hfp hout =>
    rw [hkey] at hk
    obtain ⟨rfl, rfl⟩ := Prod.mk.inj (Option.some.inj hk)
    exact Or.inl ⟨rfl, _, hfound, rfl, ⟨_, rfl, hout⟩, _, hbody, hfp⟩
  | created c hop henv hws hactor hkey hbody hfp =>
    refine Or.inr ⟨c.ledgerRow, c.mem_writes_ledgerRow, rfl, ⟨c.out, rfl, ?_⟩, _, hbody, hfp⟩
    exact ApprovalRequestOut.modelValidate_modelDump _
  | @decided v id key' body payload row row' hop henv hactor hkey hbody =>
    obtain ⟨k, rfl⟩ : ∃ k, key' = some k := by
      rw [hop] at hk
      obtain ⟨k, hk, -⟩ := Option.map_eq_some_iff.mp hk
      exact ⟨k, hk⟩
    have hrow : v.ledgerRow? call.workspaceId id row = some ⟨call.workspaceId,
        v.decision.route id, k, fingerprint app.sha256 payload, 200, (v.out row).modelDump,
        v.env.keyCreatedAt⟩ := by
      simp [Verdict.ledgerRow?, hkey]
    refine Or.inr ⟨_, Verdict.mem_writes_ledgerRow hrow, rfl, ⟨v.out row, rfl, ?_⟩, _, hbody, rfl⟩
    exact ApprovalRequestOut.modelValidate_modelDump _

end Effect

/-! ## The ledger is what has been committed -/

def Write.ledgerRow? : Write → Option IdempotencyKey
  | .insert (.idempotencyKey r) => some r
  | _ => none

theorem Write.ledgerRow?_eq_some {x : Write} {r : IdempotencyKey} :
    x.ledgerRow? = some r ↔ x = .insert (.idempotencyKey r) := by
  constructor
  · intro h
    cases x with
    | update => cases h
    | insert row => cases row <;> cases h; rfl
  · rintro rfl
    rfl

theorem mem_filterMap_ledgerRow? {δ : List Write} {r : IdempotencyKey} :
    r ∈ δ.filterMap Write.ledgerRow? ↔ Write.insert (.idempotencyKey r) ∈ δ := by
  simp only [List.mem_filterMap, Write.ledgerRow?_eq_some, exists_eq_right]

theorem view_idempotencyKeys (σ : Store) (δ : List Write) :
    (approvalDb.view σ δ).idempotencyKeys =
      σ.idempotencyKeys ++ δ.filterMap Write.ledgerRow? := by
  induction δ generalizing σ with
  | nil => simp
  | cons x δ ih =>
    rw [Database.view_cons, ih]
    cases x with
    | update => rfl
    | insert row =>
      cases row <;> simp [approvalDb, Store.apply, Store.insert, Write.ledgerRow?,
        List.filterMap_cons]

/-- The ledger row that a primary key names. -/
theorem Store.key?_of_mem {σ : Store} (hσ : (σ.idempotencyKeys.map IdempotencyKey.primaryKey).Nodup)
    {r : IdempotencyKey} {ws route key : String} (hprimary : r.primaryKey = (ws, route, key))
    (hr : r ∈ σ.idempotencyKeys) : σ.key? ws route key = some r := by
  obtain ⟨rfl, rfl, rfl⟩ : r.workspaceId = ws ∧ r.route = route ∧ r.idempotencyKey = key := by
    simpa [IdempotencyKey.primaryKey] using hprimary
  cases hfound : σ.key? r.workspaceId r.route r.idempotencyKey with
  | none =>
    rw [Store.key?, List.find?_eq_none] at hfound
    simpa using hfound r hr
  | some r' =>
    obtain ⟨hr', hws, hroute, hkey⟩ := Store.key?_some hfound
    refine congrArg some (List.inj_on_of_nodup_map hσ hr' hr ?_)
    simp only [IdempotencyKey.primaryKey, hws, hroute, hkey]

section Runs

variable {ι : Type} {app : App} {call : ι → Call} {w : ApiWorld ι}
  {commits : List (ι × List Write)} {ws route key : String}

theorem mem_ledger_iff (hh : History approvalDb Store.empty w commits) {r : IdempotencyKey} :
    r ∈ w.store.idempotencyKeys ↔
      ∃ i δ, (i, δ) ∈ commits ∧ Write.insert (.idempotencyKey r) ∈ δ := by
  rw [hh.store, view_idempotencyKeys]
  change r ∈ [] ++ _ ↔ _
  rw [List.nil_append, mem_filterMap_ledgerRow?, List.mem_flatMap]
  constructor
  · rintro ⟨⟨i, δ⟩, hmem, hr⟩
    exact ⟨i, δ, hmem, hr⟩
  · rintro ⟨i, δ, hmem, hr⟩
    exact ⟨(i, δ), hmem, hr⟩

/-- Two commits do not enter rows with one key. -/
theorem commit_unique {σ : Store} (hh : History approvalDb σ w commits)
    (hnd : (w.store.idempotencyKeys.map IdempotencyKey.primaryKey).Nodup) {i j : ι}
    {δ δ' : List Write} (hi : (i, δ) ∈ commits) (hj : (j, δ') ∈ commits) {r r' : IdempotencyKey}
    (hr : Write.insert (.idempotencyKey r) ∈ δ) (hr' : Write.insert (.idempotencyKey r') ∈ δ')
    (hkey : r.primaryKey = r'.primaryKey) : i = j := by
  let keys (c : ι × List Write) := (c.2.filterMap Write.ledgerRow?).map IdempotencyKey.primaryKey
  have hkeys : (commits.flatMap keys).Nodup := by
    rw [hh.store, view_idempotencyKeys, List.map_append] at hnd
    have hnew := (List.nodup_append.mp hnd).2.1
    rwa [List.filterMap_flatMap, List.map_flatMap] at hnew
  obtain ⟨-, hdisjoint⟩ := List.nodup_flatMap.mp hkeys
  have hsymm : Std.Symm (Function.onFun List.Disjoint keys) :=
    ⟨fun _ _ h => List.Disjoint.symm h⟩
  by_contra hne
  have hij : List.Disjoint (keys (i, δ)) (keys (j, δ')) :=
    hdisjoint.forall hi hj (fun h => hne (congrArg Prod.fst h))
  refine hij (List.mem_map_of_mem (mem_filterMap_ledgerRow?.mpr hr)) ?_
  rw [hkey]
  exact List.mem_map_of_mem (mem_filterMap_ledgerRow?.mpr hr')

/-! ## Executions -/

/-- The call has committed the effects of its own handler under this key. -/
def Executed (call : ι → Call) (w : ApiWorld ι) (ws route key : String) (i : ι) : Prop :=
  (call i).KeyedBy ws route key ∧ ∃ a δ, w.session i = .committed a δ ∧ δ ≠ []

/-- An execution commits a ledger row with its effects. -/
theorem Executed.ledgerRow (hw : w.Sound (fun i => contract app (call i))) {i : ι}
    (h : Executed call w ws route key i) : ∃ a δ r, w.session i = .committed a δ ∧
      Write.insert (.idempotencyKey r) ∈ δ ∧ r.primaryKey = (ws, route, key) := by
  obtain ⟨hkeyed, a, δ, hi, hne⟩ := h
  obtain ⟨P, -, heff⟩ := World.Sound.committed hw hi
  rcases heff.recorded hkeyed with ⟨hnil, -⟩ | ⟨r, hr, -⟩
  · exact absurd hnil hne
  · obtain ⟨rfl, rfl, rfl⟩ := (heff.keyedBy hr).unique hkeyed
    exact ⟨a, δ, r, hi, hr, rfl⟩

end Runs

/-! ## The same create twice -/

/-- Alice sends the same create twice. -/
def Sample.retryCalls : Fin 2 → Call
  | 0 => launch "1" "key-1"
  | 1 => launch "2" "key-1"

end ContentApproval
