import ContentApproval.Properties.AtMostOnce
import ContentApproval.Properties.Isolation
import ContentApproval.Specs.Served

/-!
# A replay is the original response

A stored response body is read back as the response it was dumped from, in whatever order
the database keeps the members of the object (`modelValidate_reordered`). Ledger rows stay
(`after_evolves`), so in a sequence of calls a retry is answered as the first call was and
writes nothing (`replay_reproduces`).
-/

namespace ContentApproval

open Transactions Idempotency

/-! ## Reading a stored body -/

/-- The member of an object with distinct names does not depend on their order. -/
theorem lookup_perm {fields fields' : List (String × Json)} (h : fields.Perm fields') :
    (fields.map Prod.fst).Nodup → ∀ name, fields.lookup name = fields'.lookup name := by
  induction h with
  | nil => exact fun _ _ => rfl
  | cons field _ ih =>
    intro hnd name
    rw [List.lookup_cons, List.lookup_cons, ih (List.nodup_cons.mp hnd).2]
  | swap x y fields =>
    intro hnd name
    obtain ⟨m, u⟩ := x
    obtain ⟨n, v⟩ := y
    have hne : n ≠ m := by
      rintro rfl
      simp at hnd
    simp only [List.lookup_cons]
    by_cases hn : name = n
    · have hm : (name == m) = false := by simpa [hn] using hne
      simp [hm]
    · have hn : (name == n) = false := by simpa using hn
      simp [hn]
  | trans h _ ih ih' => exact fun hnd name =>
      (ih hnd name).trans (ih' ((h.map Prod.fst).nodup hnd) name)

theorem ApprovalRequestOut.modelDump_nodup {r : ApprovalRequestOut} {fields : List (String × Json)}
    (h : r.modelDump = .obj fields) : (fields.map Prod.fst).Nodup := by
  obtain rfl := Json.obj.inj h
  simp

/-- **Whatever the order of its members, a stored body is the response it came from.** -/
theorem modelValidate_reordered {r : ApprovalRequestOut} {fields stored : List (String × Json)}
    (h : r.modelDump = .obj fields) (hstored : stored.Perm fields) :
    ApprovalRequestOut.modelValidate (.obj stored) = some r := by
  have hfield : lookupField stored = lookupField fields := by
    funext camel name
    have hlookup := lookup_perm hstored.symm (ApprovalRequestOut.modelDump_nodup h)
    rw [lookupField, ← hlookup, ← hlookup, lookupField]
  rw [← ApprovalRequestOut.modelValidate_modelDump r, h]
  simp only [ApprovalRequestOut.modelValidate, hfield]

/-! ## Calls one after the other -/

section Sequence

variable {app : App} {call : Call} {σ : Store} {a : Answer} {δ : List Write}

/-- What a call does that is served alone. -/
theorem Store.Registered.serve (hσ : σ.Registered) (app : App) (call : Call) :
    ((request app call).serve approvalDb σ).1.Registered ∧
      σ.Evolves ((request app call).serve approvalDb σ).1 ∧
      ∀ a δ, ((request app call).serve approvalDb σ).2.1 = .committed a δ →
        ∃ P, call.By app P ∧ Effect app call P ((request app call).serve approvalDb σ).1 a δ := by
  -- the world of this one call
  have hquiet : (ApiWorld.start app (fun _ : Unit => call) σ).Quiet () :=
    fun j hj => absurd rfl hj
  obtain ⟨ls, -, hrun⟩ := Run.serve approvalDb hquiet rfl
  have hw := ApiWorld.sound hσ hrun
  refine ⟨hw.inv, Run.evolves (ApiWorld.sound_start hσ) hrun, fun a δ h => ?_⟩
  refine World.Sound.committed hw (i := ()) ?_
  dsimp only
  rw [Function.update_self]
  exact h

/-- **What a sequence of calls does to the database**: it stays a registry, and what is in
it stays. -/
theorem after_evolves (hσ : σ.Registered) (calls : List Call) :
    (after app calls σ).Registered ∧ σ.Evolves (after app calls σ) := by
  induction calls generalizing σ with
  | nil => exact ⟨hσ, .refl _⟩
  | cons call calls ih =>
    obtain ⟨hfirst, hev, -⟩ := hσ.serve app call
    obtain ⟨hrest, hev'⟩ := ih hfirst
    exact ⟨hrest, hev.trans hev'⟩

theorem after_append (calls calls' : List Call) :
    after app (calls ++ calls') σ = after app calls' (after app calls σ) := by
  simp only [after, List.map_append, serveAll_append]

/-- A call that did not commit changed nothing. -/
theorem serve_eq_self (p : Request Reply Exn Answer)
    (h : ∀ a δ, (p.serve approvalDb σ).2.1 ≠ .committed a δ) : (p.serve approvalDb σ).1 = σ := by
  unfold Prog.serve at h ⊢
  dsimp only at h ⊢
  split
  · rfl
  · rename_i b exit hbody
    split
    · rfl
    · rename_i hexit
      refine absurd ?_ (h b (exit.run approvalDb σ (p.run approvalDb σ []).writes).writes)
      simp only [hbody, hexit]

variable {ws route key : String}

/-- The answer to a call with a key is committed, and its key was accepted. -/
theorem committed_of_response (hkeyed : call.KeyedBy ws route key)
    (h : response app call σ = some (.ok a)) : KeyAccepted key ∧
      ∃ δ, ((request app call).serve approvalDb σ).2.1 = .committed a δ := by
  have honly : (request app call).Only _ _ _ := request_keyed_only hkeyed.2
  unfold response at h
  cases hs : ((request app call).serve approvalDb σ).2.1 with
  | committed b δ =>
    rw [hs] at h
    obtain rfl := Except.ok.inj (Option.some.inj h)
    refine ⟨?_, δ, rfl⟩
    unfold Prog.serve at hs
    dsimp only at hs
    split at hs
    · cases hs
    · rename_i hbody
      exact (honly.result hbody).1
  | lost b => exact absurd hs (honly.serve_ne_lost (fun _ hq => hq.2) σ b)
  | failed e => rw [hs] at h; cases Option.some.inj h
  | _ => rw [hs] at h; cases h

/-- After the first success the ledger records its answer. -/
theorem recorded_of_committed (hkeyed : call.KeyedBy ws route key) (hσ : σ.Registered)
    (h : ((request app call).serve approvalDb σ).2.1 = .committed a δ) :
    ∃ r, ((request app call).serve approvalDb σ).1.key? ws route key = some r ∧
      Records app call a r := by
  obtain ⟨hσ', -, heffect⟩ := hσ.serve app call
  obtain ⟨P, -, heff⟩ := heffect a δ h
  rcases heff.recorded hkeyed with ⟨-, r, hfound, hr⟩ | ⟨r, hmem, hr⟩
  · exact ⟨r, hfound, hr⟩
  · obtain ⟨rfl, rfl, rfl⟩ := (heff.keyedBy hmem).unique hkeyed
    obtain ⟨cases, hrep⟩ := hσ'
    refine ⟨r, Store.key?_of_mem hrep.keys rfl ?_, hr⟩
    rw [Prog.serve_committed h, view_idempotencyKeys]
    exact List.mem_append_right _ (mem_filterMap_ledgerRow?.mpr hmem)

/-- A call finds its answer in the ledger and writes nothing. -/
theorem serve_replay {P : Principal} (hby : call.By app P) (hkeyed : call.KeyedBy ws route key)
    (hok : KeyAccepted key) {payload : Json} (hbody : call.operation.normalized = some payload)
    {r : IdempotencyKey} (hfound : σ.key? ws route key = some r)
    {first : Call} (hr : Records app first a r) (hsame : first.operation.normalized = some payload) :
    (request app call).serve approvalDb σ =
      (σ, .committed a [], [.selectKey ws route key]) := by
  obtain ⟨rfl, hkey⟩ := hkeyed
  obtain ⟨status, body⟩ := a
  obtain ⟨out, rfl, hout⟩ := hr.body
  obtain ⟨payload', hpayload, hfp⟩ := hr.fingerprint
  obtain rfl := Option.some.inj (hpayload.symm.trans hsame)
  rw [serve_found hby hkey hok hbody hfound hout, if_neg (not_not.mpr hfp), hr.status]

end Sequence

/-- **A replay reproduces the original response.** The row that was entered with the
response for an entity, its body stored with the members in any order, is replayed as that
response with the stored status. Hence in every sequence of calls: if a call with a key was
answered, a later call with the same key and normalized body in the same workspace and
route leaves the database as it is, and if its caller may call the endpoint it gets the same
answer, whatever calls were served in between. -/
theorem replay_reproduces (app : App) :
    (∀ (entity : ApprovalRequest) (existing : IdempotencyKey)
      (fields stored : List (String × Json)),
      (ApprovalRequestOut.ofEntity entity).modelDump = .obj fields → stored.Perm fields →
      existing.responseBody = .obj stored →
      replay existing = pure (ApprovalRequestOut.ofEntity entity, existing.responseStatus)) ∧
    ∀ (before between : List Call) (first again : Call) (ws route key : String) (payload : Json)
      (a : Answer), first.KeyedBy ws route key → again.KeyedBy ws route key →
      first.operation.normalized = some payload → again.operation.normalized = some payload →
      response app first (after app before Store.empty) = some (.ok a) →
      after app (before ++ first :: between ++ [again]) Store.empty =
        after app (before ++ first :: between) Store.empty ∧
      ∀ P, again.By app P → ((request app again).serve approvalDb
        (after app (before ++ first :: between) Store.empty)).2.1 = .committed a [] := by
  constructor
  · intro entity existing fields stored hfields hperm hbody
    unfold replay
    rw [hbody, modelValidate_reordered hfields hperm]
  · intro before between first again ws route key payload a hfirst hagain hp hq ha
    obtain ⟨hσ, -⟩ := @after_evolves app _ ⟨[], represents_empty⟩ before
    obtain ⟨hok, δ, hcommitted⟩ := committed_of_response hfirst ha
    obtain ⟨r, hfound, hr⟩ := recorded_of_committed hfirst hσ hcommitted
    -- the ledger row is still there after the calls in between
    obtain ⟨hσ₁, -, -⟩ := hσ.serve app first
    obtain ⟨hσ₂, hev⟩ := after_evolves hσ₁ between
    have hstore : after app (before ++ first :: between) Store.empty =
        after app between ((request app first).serve approvalDb (after app before Store.empty)).1 := by
      rw [after_append, after_cons]
    rw [after_append (before ++ first :: between), hstore]
    have hreplay := fun P (hby : again.By app P) =>
      serve_replay hby hagain hok hq (hev.key hfound) hr hp
    refine ⟨?_, fun P hby => by rw [hreplay P hby]⟩
    by_cases hby : ∃ P, again.By app P
    · obtain ⟨P, hby⟩ := hby
      rw [after_cons, hreplay P hby]
      rfl
    · refine serve_eq_self _ fun b δ' hb => hby ?_
      obtain ⟨P, hP, -⟩ := (hσ₂.serve app again).2.2 b δ' hb
      exact ⟨P, hP⟩

/-- Alice's create is approved by Bob, and then she sends it again. -/
theorem replay_reproduces_sample : ∃ a, a.statusCode = 201 ∧
    response Sample.app (Sample.launch "1" "key-1") Store.empty = some (.ok a) ∧
    ((request Sample.app (Sample.launch "3" "key-1")).serve approvalDb
      (after Sample.app [Sample.launch "1" "key-1", Sample.approve "2" Sample.bobToken none]
        Store.empty)).2.1 = .committed a [] := by
  have hstatus : Sample.committedStatus? ((request Sample.app (Sample.launch "1" "key-1")).serve
      approvalDb Store.empty).2.1 = some 201 := by
    decide +kernel
  obtain ⟨a, δ, hcommitted, ha⟩ := Sample.committed_of_status hstatus
  have hfirst : response Sample.app (Sample.launch "1" "key-1") Store.empty = some (.ok a) := by
    rw [response, hcommitted]
    rfl
  have hby : (Sample.launch "3" "key-1").By Sample.app Sample.alice :=
    ⟨Sample.authenticate_alice, rfl, by decide⟩
  obtain ⟨payload, hpayload⟩ : ∃ payload,
      (Sample.launch "1" "key-1").operation.normalized = some payload :=
    Option.isSome_iff_exists.mp (by decide +kernel)
  have hreplay := (replay_reproduces Sample.app).2 [] [Sample.approve "2" Sample.bobToken none]
    (Sample.launch "1" "key-1") (Sample.launch "3" "key-1") "ws_1" "create" "key-1" payload a
    ⟨rfl, rfl⟩ ⟨rfl, rfl⟩ hpayload hpayload hfirst
  rw [List.nil_append] at hreplay
  exact ⟨a, ha, hfirst, hreplay.2 Sample.alice hby⟩

end ContentApproval
