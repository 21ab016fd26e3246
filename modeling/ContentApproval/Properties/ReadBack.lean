import ContentApproval.Properties.AtMostOnce
import ContentApproval.Properties.Finality
import ContentApproval.Specs.Undisturbed
import ContentApproval.Transactions.Exchanges

/-!
# Reading a request back

The entity that a create returns is built from its payload, the entities that `get`, `list`
and the decisions return from the tables. `Store.Files.readsBack` compares them: all fields
are the same on both kinds of database, except that the reviewers come in the order in which
the database returns their rows. So they are sure to agree exactly if there is at most one
(`read_back_iff`).
-/

namespace ContentApproval

open Transactions SqlApprovalRequestRepository ApprovalService

/-! ## Reading -/

/-- What a function of the service returns in a session of its own, if nobody interferes. -/
def returned? {α : Type} (σ : Store) (m : Tx α) : Option α :=
  match ((m []).run approvalDb σ []).result with
  | .ok (a, _) => some a
  | .error _ => none

/-- `get` and `list` return the entity that the create has returned. -/
structure Store.ReadsBack (σ : Store) (created : ApprovalRequest) : Prop where
  get : ∀ env, returned? σ (getRequest env created.workspaceId created.id) = some created
  list : ∀ env filter limit offset items total,
    returned? σ (listRequests env created.workspaceId filter limit offset) = some (items, total) →
    ∀ e ∈ items, e.id = created.id → e = created
  listed : ∀ env limit, 0 < limit → ∃ offset items total,
    returned? σ (listRequests env created.workspaceId none limit offset) = some (items, total) ∧
      created ∈ items

/-- What a decision leaves of an entity. -/
def ApprovalRequest.decided (e : ApprovalRequest) (values : DecisionValues) : ApprovalRequest :=
  { e with
    status := values.status
    decidedByUserId := some values.decidedByUserId
    decidedAt := some values.decidedAt
    decisionComment := values.decisionComment
    decisionReason := values.decisionReason
    updatedAt := values.updatedAt }

/-- A decision returns the entity that the create has returned, with the decision. -/
def Store.DecidesBack (σ : Store) (created : ApprovalRequest) : Prop :=
  ∀ (v : Verdict) e, returned? σ (decideRequest v.env v.decision created.workspaceId created.id
    v.actorUserId v.comment v.reason) = some e → e = created.decided v.values

/-! ## A request that has just been created -/

/-- The entity that the create returns. -/
def Creation.entity (c : Creation) : ApprovalRequest := toEntity fresh c.row c.payload.reviewerUserIds

theorem ApprovalRequestOut.ofEntity_injective {e e' : ApprovalRequest}
    (h : ApprovalRequestOut.ofEntity e = .ofEntity e') : e = e' := by
  cases e
  cases e'
  simpa [ofEntity] using h

/-- The tables have the request of the create, and it may have been decided since. -/
structure Store.Files (σ : Store) (c : Creation) (row : ApprovalRequestRow) : Prop where
  registered : σ.Registered
  request : σ.request? c.workspaceId c.requestId = some row
  becomes : c.row.Becomes row
  reviewers : σ.reviewersOf c.workspaceId c.requestId = c.reviewerRows

namespace Store.Files

variable {σ σ' : Store} {c : Creation} {row : ApprovalRequestRow}

theorem ids (h : σ.Files c row) : row.workspaceId = c.workspaceId ∧ row.id = c.requestId :=
  (Store.request?_some h.request).2

theorem reviewerIds (h : σ.Files c row) :
    σ.reviewerIds c.workspaceId c.requestId = c.payload.reviewerUserIds := by
  rw [Store.reviewerIds, h.reviewers, Creation.reviewerRows, List.map_map]
  exact List.map_id _

/-- The reviewers are shown in some order. -/
theorem shown_perm (h : σ.Files c row) (env : Env) (site : Nat) :
    (σ.shown env site row).Perm c.payload.reviewerUserIds := by
  have hshown := σ.shown_perm env site row
  rwa [h.ids.1, h.ids.2, h.reviewerIds] at hshown

/-- If there is at most one reviewer there is only one order. -/
theorem eq_of_length_le_one {l l' : List String} (h : l.Perm l') (hl : l'.length ≤ 1) : l = l' := by
  match l', hl with
  | [], _ => exact h.eq_nil
  | [a], _ => exact List.perm_singleton.mp h

theorem evolves (h : σ.Files c row) (hσ' : σ'.Registered) (hev : σ.Evolves σ') :
    ∃ row', σ'.Files c row' := by
  obtain ⟨row', hrow', hbecomes⟩ := hev.request h.request
  exact ⟨row', hσ', hrow', h.becomes.trans hbecomes, (hev.reviewers h.request).trans h.reviewers⟩

/-- What the database returns of the reviewers of one request, in the other order. -/
def reversed : RowOrder := ⟨List.reverse, List.reverse_perm⟩

theorem shown_reversed (h : σ.Files c row) {env : Env} (henv : env.rowOrder 0 = reversed) :
    σ.shown env 0 row = c.payload.reviewerUserIds.reverse := by
  obtain ⟨hws, hid⟩ := h.ids
  rw [← h.reviewerIds, ← hws, ← hid, Store.reviewerIds, ← List.map_reverse, Store.reviewersOf,
    ← List.filter_reverse, Store.shown, henv, Store.loaded, reviewersOfRow]
  change ((σ.approvalRequestReviewers.filter _).reverse.filter _).map _ = _
  rw [← List.filter_reverse, List.filter_filter]
  refine congrArg (List.map _) (List.filter_congr fun r _ => ?_)
  rw [Bool.and_eq_left_iff_imp]
  intro hr
  simp only [Bool.and_eq_true, beq_iff_eq] at hr
  simp [hr.1, hr.2]

theorem getRequest (h : σ.Files c row) (env : Env) :
    returned? σ (getRequest env c.workspaceId c.requestId) =
      some (toEntity fresh row (σ.shown env 0 row)) := by
  unfold returned?
  rw [run_getRequest h.request]

/-- What a list call returns of the request. -/
theorem item (h : σ.Files c row) (env : Env) {filter : Option ApprovalStatus} {limit offset : Nat}
    {r : ApprovalRequestRow} (hr : r ∈ σ.page c.workspaceId filter limit offset)
    (hid : r.id = c.requestId) : ∃ shown, shown.Perm c.payload.reviewerUserIds ∧
      toEntity fresh r (reviewersOfRow (σ.loaded (env.rowOrder 0)
        (σ.page c.workspaceId filter limit offset)) r) = toEntity fresh row shown := by
  obtain ⟨hmem, hws, -⟩ := Store.mem_matching.mp (Store.mem_of_mem_page hr)
  -- the id names one row of the workspace
  have hfound := h.registered.request?_of_mem hmem
  rw [hws, hid, h.request] at hfound
  obtain rfl := Option.some.inj hfound
  refine ⟨_, ?_, rfl⟩
  have hperm := reviewersOfRow_perm (env.rowOrder 0)
    (List.mem_map_of_mem (f := fun row => (row.workspaceId, row.id)) hr) σ
  change List.Perm _ (σ.reviewerIds row.workspaceId row.id) at hperm
  rwa [h.ids.1, h.ids.2, h.reviewerIds] at hperm

theorem returned_list (σ : Store) (env : Env) (ws : String) (filter : Option ApprovalStatus)
    (limit offset : Nat) : returned? σ (listRequests env ws filter limit offset) =
      some ((σ.page ws filter limit offset).map (fun row => toEntity fresh row
        (reviewersOfRow (σ.loaded (env.rowOrder 0) (σ.page ws filter limit offset)) row)),
        (σ.matching ws filter).length) := by
  unfold returned?
  rw [run_listRequests]

/-- Some page begins with the request. -/
theorem mem_page (h : σ.Files c row) {limit : Nat} (hlimit : 0 < limit) :
    ∃ offset, row ∈ σ.page c.workspaceId none limit offset := by
  have hmem : row ∈ σ.sorted c.workspaceId none := by
    rw [(σ.sorted_perm _ _).mem_iff, Store.mem_matching]
    exact ⟨(Store.request?_some h.request).1, h.ids.1, fun _ ht => by cases ht⟩
  obtain ⟨n, hn, hrow⟩ := List.getElem_of_mem hmem
  refine ⟨n, ?_⟩
  rw [Store.page_eq, List.mem_take_iff_getElem]
  refine ⟨0, ?_, ?_⟩
  · rw [List.length_drop]
    omega
  · rw [List.getElem_drop]
    exact hrow

/-- What a decision returns of the request. -/
theorem decided (h : σ.Files c row) {v : Verdict} {e : ApprovalRequest}
    (he : returned? σ (decideRequest v.env v.decision c.workspaceId c.requestId v.actorUserId
      v.comment v.reason) = some e) : ∃ shown, shown.Perm c.payload.reviewerUserIds ∧
      e = toEntity fresh (row.decided v.values) shown := by
  unfold returned? at he
  by_cases hentitled : v.decision.Entitled row.createdByUserId
      (σ.reviewerIds c.workspaceId c.requestId) v.actorUserId
  · by_cases hp : row.status = .pending
    · rw [run_decideRequest h.registered h.request hentitled hp] at he
      exact ⟨_, h.shown_perm v.env 1, (Option.some.inj he).symm⟩
    · rw [run_decideRequest_late h.registered h.request hentitled hp] at he
      cases he
  · obtain ⟨reason, hrun⟩ := run_decideRequest_denied h.request hentitled
    rw [hrun] at he
    cases he

/-- **Right after the create** `get` and `list` return what the create returned. -/
theorem readsBack (h : σ.Files c c.row) (hc : c.payload.reviewerUserIds.length ≤ 1) :
    σ.ReadsBack c.entity := by
  refine ⟨fun env => ?_, ?_, fun env limit hlimit => ?_⟩
  · refine (h.getRequest env).trans ?_
    rw [eq_of_length_le_one (h.shown_perm env 0) hc]
    rfl
  · intro env filter limit offset items total hreturned e he hid
    obtain ⟨rfl, -⟩ := Prod.mk.inj (Option.some.inj ((returned_list σ env c.workspaceId filter limit
      offset).symm.trans hreturned))
    obtain ⟨r, hr, rfl⟩ := List.mem_map.mp he
    obtain ⟨shown, hshown, heq⟩ := h.item env hr hid
    rw [heq, eq_of_length_le_one hshown hc]
    rfl
  · obtain ⟨offset, hmem⟩ := h.mem_page hlimit
    refine ⟨offset, _, _, returned_list σ env c.workspaceId none limit offset, ?_⟩
    obtain ⟨shown, hshown, heq⟩ := h.item env hmem rfl
    rw [eq_of_length_le_one hshown hc] at heq
    exact List.mem_map.mpr ⟨_, hmem, heq⟩

/-- **A decision** returns what the create returned, with the decision. -/
theorem decidesBack (h : σ.Files c row) (hc : c.payload.reviewerUserIds.length ≤ 1) :
    σ.DecidesBack c.entity := by
  intro v e he
  obtain ⟨shown, hshown, rfl⟩ := h.decided he
  rw [eq_of_length_le_one hshown hc]
  rcases h.becomes with rfl | ⟨-, values, -, rfl⟩ <;> rfl

/-- Two reviewers or more may come back in another order. -/
theorem length_le_one (h : σ.Files c c.row) (hread : σ.ReadsBack c.entity) :
    c.payload.reviewerUserIds.length ≤ 1 := by
  let env : Env := { c.env with rowOrder := fun _ => reversed }
  have hget := (h.getRequest env).symm.trans (hread.get env)
  rw [h.shown_reversed rfl] at hget
  have hsame : c.payload.reviewerUserIds.reverse = c.payload.reviewerUserIds :=
    congrArg ApprovalRequest.reviewerUserIds (Option.some.inj hget)
  by_contra hlength
  have hfirst : c.payload.reviewerUserIds[0] =
      c.payload.reviewerUserIds[c.payload.reviewerUserIds.length - 1] := by
    have hget₀ := List.getElem_reverse (l := c.payload.reviewerUserIds) (i := 0) (by simp; omega)
    simpa only [hsame, Nat.sub_zero] using hget₀
  have := c.valid.reviewers_nodup.getElem_inj_iff.mp hfirst
  omega

end Store.Files

/-! ## Every create -/

section Runs

variable {ι : Type} [DecidableEq ι] {app : App} {call : ι → Call} {w w' : ApiWorld ι}
  {ls : List (ι × Transactions.Action)} {i : ι} {created : ApprovalRequest} {δ : List Write}
  {key : Option String} {body : RawBody} {document : Option Json} {payload : ApprovalRequestCreate}

/-- When a create has committed, the tables have its request. -/
theorem files_of_commit {σ : Store} {c : Creation} (hσ : σ.Registered) (hheld : Held c.writes σ)
    (hσ' : (approvalDb.view σ c.writes).Registered) :
    (approvalDb.view σ c.writes).Files c c.row := by
  have hview := c.view_writes σ
  have hid : σ.has (.approvalRequest c.requestId) = false :=
    hheld.fresh _ (List.mem_map_of_mem List.mem_cons_self)
  refine ⟨hσ', ?_, .refl _, ?_⟩
  · refine hσ'.request?_of_mem (r := c.row) ?_
    rw [hview]
    exact List.mem_append_right _ (List.mem_singleton_self _)
  · have hold : σ.approvalRequestReviewers.filter (fun r => r.workspaceId == c.workspaceId &&
        r.approvalRequestId == c.requestId) = [] := by
      rw [List.filter_eq_nil_iff]
      intro r hr hmatch
      have hnone := @Store.Registered.no_reviewers σ hσ c.workspaceId _ r.reviewerUserId hid
      rw [Store.has, List.any_eq_false] at hnone
      exact hnone r hr (by simpa using hmatch)
    have hown : c.reviewerRows.filter (fun r => r.workspaceId == c.workspaceId &&
        r.approvalRequestId == c.requestId) = c.reviewerRows := by
      rw [List.filter_eq_self]
      intro r hr
      obtain ⟨user, -, rfl⟩ := List.mem_map.mp hr
      simp
    rw [Store.reviewersOf, hview, List.filter_append, hold, hown, List.nil_append]

/-- What a create that has just committed has returned. -/
theorem filed_of_commit
    (h : Run approvalDb (ApiWorld.start app call Store.empty) (ls ++ [(i, .commit)]) w)
    (hop : (call i).operation = .create key body) (hdoc : body.document? = some document)
    (hpayload : validateBody ApprovalRequestCreate.modelValidate document = .ok payload)
    (hanswer : w.session i = .committed ⟨201, .request (.ofEntity created)⟩ δ) (hnew : δ ≠ []) :
    ∃ c : Creation, c.payload = payload ∧ c.entity = created ∧ w.store.Files c c.row := by
  have hw := ApiWorld.sound ⟨[], represents_empty⟩ h
  obtain ⟨v, hv, hs⟩ := h.last
  have hsound := ApiWorld.sound ⟨[], represents_empty⟩ hv
  obtain ⟨a, δ', hi, hstore, hi'⟩ := hs.store_commit
  obtain ⟨rfl, rfl⟩ := Session.committed.inj (hi'.symm.trans hanswer)
  obtain ⟨-, hheld, -⟩ := hsound.commits hi
  obtain ⟨P, -, heff⟩ := World.Sound.committed hw hanswer
  generalize ha : (⟨201, .request (.ofEntity created)⟩ : Answer) = a at heff
  cases heff with
  | read a hread =>
    rw [hop] at hread
    exact hread.elim
  | created c hop' henv hws hactor hkey hbody hfp =>
    have hout : ApprovalRequestOut.ofEntity created = .ofEntity c.entity :=
      AnswerBody.request.inj (Answer.mk.inj ha).2
    refine ⟨c, ?_, (ApprovalRequestOut.ofEntity_injective hout).symm, ?_⟩
    · rw [hop, Operation.normalized, hdoc, Option.bind_some, hpayload] at hbody
      exact (ApprovalRequestCreate.modelDump_injective
        (congrArg Json.canonical (Option.some.inj hbody))).symm
    · have hinv : w.store.Registered := hw.inv
      rw [hstore] at hinv ⊢
      exact files_of_commit hsound.inv hheld hinv
  | decided v hop' => rw [hop] at hop'; cases hop'
  | replayed => exact absurd rfl hnew

/-- **Reading back.** In every run of any calls in which a create that was accepted has just
inserted its request and committed: `get` and `list` return the entity that the create
returned, and a decision that is taken at any time later returns it with the decision only,
whatever the kind of database and the order in which it returns reviewers, if and only if the
payload has at most one reviewer. -/
theorem read_back_iff
    (h : Run approvalDb (ApiWorld.start app call Store.empty) (ls ++ [(i, .commit)]) w)
    (hop : (call i).operation = .create key body) (hdoc : body.document? = some document)
    (hpayload : validateBody ApprovalRequestCreate.modelValidate document = .ok payload)
    (hanswer : w.session i = .committed ⟨201, .request (.ofEntity created)⟩ δ) (hnew : δ ≠ []) :
    (w.store.ReadsBack created ∧ ∀ ls' w', Run approvalDb w ls' w' → w'.store.DecidesBack created) ↔
      payload.reviewerUserIds.length ≤ 1 := by
  obtain ⟨c, rfl, rfl, hfiles⟩ := filed_of_commit h hop hdoc hpayload hanswer hnew
  constructor
  · exact fun hread => hfiles.length_le_one hread.1
  · intro hlength
    refine ⟨hfiles.readsBack hlength, fun ls' w' h' => ?_⟩
    have hw := ApiWorld.sound ⟨[], represents_empty⟩ h
    obtain ⟨row, hlater⟩ := hfiles.evolves (hw.run h').inv (Run.evolves hw h')
    exact hlater.decidesBack hlength

end Runs

/-! ## Two reviewers -/

namespace Sample

/-- Alice asks for reviews of publication `pub_1`. -/
def launchFor (reviewers : List String) : Call where
  env := env "1" 1
  authorization := some aliceToken
  workspaceId := "ws_1"
  operation := .create (some "key-1") (.json (.obj [("sourceType", .str "publication"),
    ("sourceId", .str "pub_1"), ("title", .str "Launch"),
    ("reviewerUserIds", .arr (reviewers.map .str))]))

def launchPayload (reviewers : List String) : ApprovalRequestCreate :=
  ⟨.publication, "pub_1", "Launch", none, reviewers⟩

def launchEntity (reviewers : List String) : ApprovalRequest :=
  ⟨launchId, "ws_1", .publication, "pub_1", "Launch", none, reviewers, .pending, "alice",
    (env "1" 1).createdAt, (env "1" 1).updatedAt, none, none, none, none⟩

/-- The answer of a committed session that has written something. -/
def executed? : Session Reply Write Exn Answer → Option Answer
  | .committed a (_ :: _) => some a
  | _ => none

theorem committed_of_executed {s : Session Reply Write Exn Answer} {a : Answer}
    (h : executed? s = some a) : ∃ δ, s = .committed a δ ∧ δ ≠ [] := by
  cases s with
  | committed b δ =>
    cases δ with
    | nil => cases h
    | cons x δ =>
      obtain rfl := Option.some.inj h
      exact ⟨x :: δ, rfl, List.cons_ne_nil x δ⟩
  | _ => cases h

/-- The run of one call up to its commit. -/
theorem run_to_commit (call : Call) (a : Answer)
    (h : executed? ((request app call).serve approvalDb Store.empty).2.1 = some a) :
    ∃ ls w δ, Run approvalDb (ApiWorld.start app (fun _ : Unit => call) Store.empty)
        (ls ++ [((), .commit)]) w ∧ w.session () = .committed a δ ∧ δ ≠ [] ∧
      w.store = ((request app call).serve approvalDb Store.empty).1 := by
  obtain ⟨δ, hcommitted, hδ⟩ := committed_of_executed h
  obtain ⟨ls, -, hrun⟩ := Run.serve_committed (i := ())
    (w := ApiWorld.start app (fun _ : Unit => call) Store.empty)
    (fun j hj => absurd rfl hj) rfl hcommitted
  refine ⟨ls, _, δ, hrun, ?_, hδ, ?_⟩
  · dsimp only
    rw [Function.update_self]
  · exact (Prog.serve_committed hcommitted).symm

/-- The rows in the order of the primary key. -/
def byPrimaryKey : RowOrder where
  arrange rows := rows.insertionSort (fun r s => r.reviewerUserId ≤ s.reviewerUserId)
  perm rows := List.perm_insertionSort _ rows

end Sample

theorem read_back_iff_sample : ∃ ls w δ,
    Run approvalDb (ApiWorld.start Sample.app (fun _ : Unit => Sample.launchFor ["bob"]) Store.empty)
        (ls ++ [((), .commit)]) w ∧
      w.session () = .committed ⟨201, .request (.ofEntity (Sample.launchEntity ["bob"]))⟩ δ ∧
      w.store.ReadsBack (Sample.launchEntity ["bob"]) := by
  obtain ⟨ls, w, δ, h, hanswer, hδ, -⟩ := Sample.run_to_commit (Sample.launchFor ["bob"])
    ⟨201, .request (.ofEntity (Sample.launchEntity ["bob"]))⟩ (by decide +kernel)
  have hpayload : validateBody ApprovalRequestCreate.modelValidate (some (.obj
      [("sourceType", .str "publication"), ("sourceId", .str "pub_1"), ("title", .str "Launch"),
        ("reviewerUserIds", .arr [.str "bob"])])) = .ok (Sample.launchPayload ["bob"]) :=
    ok_of_toOption (by decide +kernel)
  have hiff := read_back_iff h rfl rfl hpayload hanswer hδ
  exact ⟨ls, w, δ, h, hanswer, (hiff.mpr (by decide)).1⟩

/-- Carol and Bob shall review the request. The create returns them in this order, and `get`
in the order of the primary key. -/
theorem read_back_reordered : ∃ ls w δ env,
    Run approvalDb (ApiWorld.start Sample.app (fun _ : Unit => Sample.launchFor ["carol", "bob"])
      Store.empty) (ls ++ [((), .commit)]) w ∧
    w.session () =
      .committed ⟨201, .request (.ofEntity (Sample.launchEntity ["carol", "bob"]))⟩ δ ∧ δ ≠ [] ∧
    returned? w.store (getRequest env "ws_1" Sample.launchId) =
      some (Sample.launchEntity ["bob", "carol"]) ∧
    Sample.launchEntity ["bob", "carol"] ≠ Sample.launchEntity ["carol", "bob"] := by
  obtain ⟨ls, w, δ, h, hanswer, hδ, hstore⟩ := Sample.run_to_commit
    (Sample.launchFor ["carol", "bob"])
    ⟨201, .request (.ofEntity (Sample.launchEntity ["carol", "bob"]))⟩ (by decide +kernel)
  refine ⟨ls, w, δ, { Sample.env "2" 2 with rowOrder := fun _ => Sample.byPrimaryKey }, h, hanswer,
    hδ, ?_, fun h => absurd (congrArg ApprovalRequest.reviewerUserIds h) (by decide)⟩
  rw [hstore]
  decide +kernel

end ContentApproval
