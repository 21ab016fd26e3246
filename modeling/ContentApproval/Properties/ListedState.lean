import ContentApproval.Properties.Pagination

/-!
# The states that a list response describes

A list call counts, then reads a page, then reads reviewers, each in the store as last
committed. `list_describes` says which committed states its response describes: the total
is that of the state at the count, the items are the page of the state at the second
statement, and if nothing is committed between the two statements it is one state.
-/

namespace ContentApproval

open Transactions

/-- The response describes this state: its total and its items are those of the state. -/
structure Store.Describes (σ : Store) (ws : String) (filter : Option ApprovalStatus)
    (out : ApprovalRequestListOut) : Prop where
  total : out.total = (σ.matching ws filter).length
  items : List.Forall₂ σ.Shows (σ.page ws filter out.limit out.offset) out.items

namespace Store

variable {σ σ' : Store} {ws : String} {filter : Option ApprovalStatus}

/-- Reviewers of a row that was there stay, so the row is shown as before. -/
theorem Shows.of_evolves (hσ : σ.Registered) (h : σ.Evolves σ') {row : ApprovalRequestRow}
    (hrow : row ∈ σ.approvalRequests) {out : ApprovalRequestOut} (hs : σ'.Shows row out) :
    σ.Shows row out := by
  obtain ⟨shown, hperm, rfl⟩ := hs
  refine ⟨shown, ?_, rfl⟩
  rwa [reviewerIds, h.reviewers (hσ.request?_of_mem hrow)] at hperm

/-- Rows that were there are shown as before by reviewers that are loaded later. -/
theorem shows_loaded (hσ : σ.Registered) (h : σ.Evolves σ') (env : Env)
    {rows : List ApprovalRequestRow} (hrows : ∀ row ∈ rows, row ∈ σ.approvalRequests) :
    List.Forall₂ σ.Shows rows (rows.map (fun row => .ofEntity
      (SqlApprovalRequestRepository.toEntity env.dialect.load row
        (SqlApprovalRequestRepository.reviewersOfRow (σ'.loaded (env.rowOrder 0) rows) row)))) := by
  have hlater := σ'.shows_items env rows
  rw [List.forall₂_map_right_iff, List.forall₂_same] at hlater ⊢
  exact fun row hrow => (hlater row hrow).of_evolves hσ h (hrows row hrow)

/-- Items that show a page are of the workspace and let through by the filter. -/
theorem shown_matching {limit offset : Nat} {items : List ApprovalRequestOut}
    (h : List.Forall₂ σ.Shows (σ.page ws filter limit offset) items) :
    ∀ item ∈ items, item.workspaceId = ws ∧ ∀ t ∈ filter, item.status = t := by
  have hpage : ∀ row ∈ σ.page ws filter limit offset,
      row.workspaceId = ws ∧ ∀ t ∈ filter, row.status = t :=
    fun row hrow => (mem_matching.mp (mem_of_mem_page hrow)).2
  generalize σ.page ws filter limit offset = rows at h hpage
  induction h with
  | nil => simp
  | @cons row item rows items hshow _ ih =>
    intro item' hitem'
    rcases List.mem_cons.mp hitem' with rfl | hitem'
    · obtain ⟨shown, -, rfl⟩ := hshow
      exact hpage row List.mem_cons_self
    · exact ih (fun row' hrow' => hpage row' (List.mem_cons_of_mem _ hrow')) item' hitem'

end Store

section Runs

variable {ι : Type} [DecidableEq ι] {app : App} {call : ι → Call} {w : ApiWorld ι}

/-- **A list response describes the committed states of its two statements.** In every run
of any calls, if a list call was answered, then its count was taken in one committed state
and its page in that state or a later one. The total is the number of matching rows of the
first, the items are exactly the page of the second with its values; so they are as many
as a page of the second has, and each of them satisfies the filter there. If no other call
commits between the two statements, the response describes a single state. -/
theorem list_describes {ls : List (ι × Transactions.Action)}
    (h : Run approvalDb (ApiWorld.start app call Store.empty) ls w) {i : ι}
    {status : Option String} {limit offset : QueryInt}
    (hop : (call i).operation = .list status limit offset) {a : Answer}
    (ha : (w.session i).answer? = some a) :
    ∃ filter out v₁ v₂ ls₁ ls₂ ls₃, listParameters status limit offset =
        .ok (filter, out.limit, out.offset) ∧ a = ⟨200, .list out⟩ ∧
      ls = ls₁ ++ ls₂ ++ ls₃ ∧ Run approvalDb (ApiWorld.start app call Store.empty) ls₁ v₁ ∧
      Run approvalDb v₁ ls₂ v₂ ∧ v₁.store.Evolves v₂.store ∧
      out.total = (v₁.store.matching (call i).workspaceId filter).length ∧
      List.Forall₂ v₂.store.Shows
        (v₂.store.page (call i).workspaceId filter out.limit out.offset) out.items ∧
      out.items.length = min out.limit
        ((v₂.store.matching (call i).workspaceId filter).length - out.offset) ∧
      (∀ item ∈ out.items, item.workspaceId = (call i).workspaceId ∧
        ∀ t ∈ filter, item.status = t) ∧
      ((∀ l ∈ ls₂, l.2 ≠ .commit) → v₁.store.Describes (call i).workspaceId filter out) := by
  have htold : ((call i).opened app).Told _ _ _ := request_list_told hop
  obtain ⟨hs, hheard, hi⟩ := h.told (i := i) htold
  obtain ⟨h₀, ⟨rest, hprefix⟩, filter, l, o, total, rows, reviewers, loaded, hparams, rfl, rfl,
    hloaded⟩ := hi.answer ha
  -- the first two exchanges and the steps in which they took place
  rw [List.cons_append, List.cons_append] at hprefix
  obtain ⟨⟨m, x⟩, hs₁, rfl, rfl, hrest⟩ := List.map_eq_cons_iff.mp hprefix.symm
  obtain ⟨⟨n, y⟩, hs₂, rfl, rfl, hlast⟩ := List.map_eq_cons_iff.mp hrest
  obtain ⟨v₁, hcount⟩ := hheard.took _ List.mem_cons_self
  obtain ⟨v₂, hpage⟩ := hheard.took _ (List.mem_cons_of_mem _ List.mem_cons_self)
  have hmn : m < n := (List.pairwise_cons.mp hheard.ordered).1 _ List.mem_cons_self
  have hbetween := hcount.between hpage hmn
  -- the call holds no writes, so it sees the committed store
  have hquiet : ∀ {k x v}, Took approvalDb (ApiWorld.start app call Store.empty) ls i k x v →
      approvalDb.view v.store (v.held i) = v.store := by
    intro k x v hv
    rw [World.held_of_made (hv.before.made_eq_nil htold rfl fun _ _ hs => hs), Database.view_nil]
  have htotal : total = (v₁.store.matching (call i).workspaceId filter).length := by
    have hreply := hcount.reply
    rwa [hquiet hcount] at hreply
  have hrows : rows = v₂.store.page (call i).workspaceId filter l o := by
    have hreply := hpage.reply
    rwa [hquiet hpage] at hreply
  have hv₁ := ApiWorld.sound ⟨[], represents_empty⟩ hcount.before
  have hv₂ := hv₁.run hbetween
  have hitems : List.Forall₂ v₂.store.Shows (v₂.store.page (call i).workspaceId filter l o)
      (rows.map (fun row => .ofEntity (SqlApprovalRequestRepository.toEntity
        (call i).env.dialect.load row
        (SqlApprovalRequestRepository.reviewersOfRow reviewers row)))) := by
    rw [← hrows]
    by_cases hempty : rows = []
    · rw [hempty]
      exact .nil
    · rw [hloaded hempty] at hlast
      obtain ⟨⟨k, z⟩, hs₃, rfl, rfl, -⟩ := List.map_eq_cons_iff.mp hlast
      obtain ⟨v₃, hload⟩ := hheard.took _
        (List.mem_cons_of_mem _ (List.mem_cons_of_mem _ List.mem_cons_self))
      have hnk : n < k :=
        (List.pairwise_cons.mp (List.pairwise_cons.mp hheard.ordered).2).1 _ List.mem_cons_self
      have hreply := hload.reply
      rw [hquiet hload] at hreply
      obtain rfl : reviewers = v₃.store.loaded ((call i).env.rowOrder 0) rows := hreply
      exact Store.shows_loaded hv₂.inv (Run.evolves hv₂ (hpage.between hload hnk)) (call i).env
        fun row hrow => (Store.mem_matching.mp (Store.mem_of_mem_page (hrows ▸ hrow))).1
  have hlength := congrArg List.length hrows
  rw [Store.length_page] at hlength
  refine ⟨filter, ⟨_, total, l, o⟩, v₁, v₂, _, _, ls.drop n, hparams, rfl, ?_, hcount.before,
    hbetween, Run.evolves hv₁ hbetween, htotal, hitems, by simpa using hlength,
    Store.shown_matching hitems, fun hcalm => ⟨htotal, ?_⟩⟩
  · have htake : ls.take m = (ls.take n).take m := by
      rw [List.take_take, Nat.min_eq_left (Nat.le_of_lt hmn)]
    rw [htake, List.take_append_drop, List.take_append_drop]
  · rwa [← hbetween.store_eq hcalm]

end Runs

/-! ## A decision between the two statements -/

namespace Sample

/-- Alice lists the pending requests of her workspace. -/
def listPending : Call := pageCall (env "3" 3) (some aliceToken) "ws_1" (some .pending) 20 0

/-- The create, Bob's approval, and the list. -/
def listCalls : Fin 3 → Call
  | 0 => launch "1" "key-1"
  | 1 => approve "2" bobToken none
  | 2 => listPending

/-- The list call after its count. -/
def afterCount (total : Nat) : Request Reply Exn Answer :=
  .exec (.selectPage "ws_1" (some .pending) 20 0)
    (fun rows : List ApprovalRequestRow => afterPage (env "3" 3) total 20 0 rows)

theorem request_listPending :
    request app listPending = .exec (.countRequests "ws_1" (some .pending)) afterCount :=
  request_list ⟨authenticate_alice, rfl, by decide⟩ rfl (listParameters_page (by decide) 0)

/-- The list call counts the pending request, Bob approves it, and the page is empty. -/
theorem list_interleaved : ∃ ls w,
    Run approvalDb (ApiWorld.start app listCalls Store.empty) ls w ∧
      (w.session 2).answer? = some ⟨200, .list ⟨[], 1, 20, 0⟩⟩ := by
  obtain ⟨ls, w, h, hstore, -, hrest, hheld, -⟩ := Run.serveAll
    approvalDb (fun i => request app (listCalls i)) [0] (by decide)
    (w := ApiWorld.start app listCalls Store.empty) (fun _ => rfl) (fun _ _ => rfl)
  have hlist : w.session 2 = .running (request app listPending) [] := hrest 2 (by decide)
  rw [request_listPending] at hlist
  have htotal : (w.store.matching "ws_1" (some .pending)).length = 1 := by
    rw [hstore]
    decide +kernel
  have hcount : Run approvalDb (ApiWorld.start app listCalls Store.empty) _
      (w.set 2 (.running (afterCount (w.store.matching "ws_1" (some .pending)).length) [])) :=
    h.snoc (Step.statement hlist fun j _ x hx => by rw [hheld j] at hx; cases hx)
  rw [htotal] at hcount
  have hquiet : ∀ j, (w.set 2 (.running (afterCount 1) [])).held j = [] := by
    intro j
    by_cases hj : j = 2
    · rw [World.held, hj, World.set_session_self]
      rfl
    · rw [World.held, World.set_session_ne _ hj]
      exact hheld j
  have happrove : (w.set 2 (.running (afterCount 1) [])).session 1 =
      .running (request app (listCalls 1)) [] := by
    rw [World.set_session_ne _ (by decide), hrest 1 (by decide)]
    rfl
  -- Bob's approval commits, and the list call goes on
  obtain ⟨ls', w₂, hserve, hstore₂, hlist₂⟩ : ∃ ls' w₂,
      Run approvalDb (w.set 2 (.running (afterCount 1) [])) ls' w₂ ∧
        w₂.store = ((request app (listCalls 1)).serve approvalDb w.store).1 ∧
        w₂.session 2 = .running (afterCount 1) [] := by
    obtain ⟨ls', -, hserve⟩ := Run.serve approvalDb (fun j _ => hquiet j) happrove
    refine ⟨ls', _, hserve, rfl, ?_⟩
    dsimp only
    rw [Function.update_of_ne (by decide), World.set_session_self]
  have hpage : Run approvalDb (ApiWorld.start app listCalls Store.empty) _ (w₂.set 2 (.running
      (afterPage (env "3" 3) 1 20 0 (w₂.store.page "ws_1" (some .pending) 20 0)) [])) :=
    (hcount.trans hserve).snoc (Step.statement hlist₂ fun _ _ _ _ hw => hw)
  have hrows : w₂.store.page "ws_1" (some .pending) 20 0 = [] := by
    rw [hstore₂, hstore]
    decide +kernel
  rw [hrows] at hpage
  refine ⟨_, _, hpage.snoc (Step.answer (World.set_session_self _ _ _)), ?_⟩
  rw [World.set_session_self]
  rfl

end Sample

/-- The response describes no state at all: it has a total of one and no item. -/
theorem list_of_no_state : ∃ ls w out,
    Run approvalDb (ApiWorld.start Sample.app Sample.listCalls Store.empty) ls w ∧
      (w.session 2).answer? = some ⟨200, .list out⟩ ∧
      ∀ σ : Store, ¬ σ.Describes "ws_1" (some .pending) out := by
  obtain ⟨ls, w, h, ha⟩ := Sample.list_interleaved
  refine ⟨ls, w, _, h, ha, fun σ hσ => ?_⟩
  have htotal : 1 = (σ.matching "ws_1" (some .pending)).length := hσ.total
  have hlength := hσ.items.length_eq
  rw [Store.length_page, ← htotal] at hlength
  exact absurd hlength (by decide)

theorem list_describes_sample : ∃ ls w v₁ v₂ ls₁ ls₂,
    Run approvalDb (ApiWorld.start Sample.app Sample.listCalls Store.empty) ls w ∧
      Run approvalDb (ApiWorld.start Sample.app Sample.listCalls Store.empty) ls₁ v₁ ∧
      Run approvalDb v₁ ls₂ v₂ ∧
      1 = (v₁.store.matching "ws_1" (some .pending)).length ∧
      0 = min 20 ((v₂.store.matching "ws_1" (some .pending)).length - 0) := by
  obtain ⟨ls, w, h, ha⟩ := Sample.list_interleaved
  obtain ⟨filter, out, v₁, v₂, ls₁, ls₂, ls₃, hparams, hout, -, h₁, h₂, -, htotal, -, hlength, -⟩ :=
    list_describes h rfl ha
  obtain rfl : (⟨[], 1, 20, 0⟩ : ApprovalRequestListOut) = out := by simpa using hout
  obtain rfl : some .pending = filter := by
    have hpage := @listParameters_page (some .pending) 20 (by decide) 0 (toString 20) (toString 0)
    rw [hparams] at hpage
    exact (Prod.mk.inj (Except.ok.inj hpage)).1.symm
  exact ⟨ls, w, v₁, v₂, ls₁, ls₂, h, h₁, h₂, htotal, hlength⟩

end ContentApproval
