import ContentApproval.Specs.Pages
import ContentApproval.Properties.Finality

/-!
# Pagination

A client reads the pages of a list one after the other until an empty one (`readPages`).
On a store that does not change they are the slices of one strictly ordered list of the
matching rows, so nothing is lost and nothing repeated.
-/

namespace ContentApproval

open Transactions

/-- The list of a list response. -/
def Answer.list? (a : Answer) : Option ApprovalRequestListOut :=
  match a.body with
  | .list out => some out
  | .request _ => none

/-- The list response to a call that is served in `σ`. -/
def listed (app : App) (call : Call) (σ : Store) : Option ApprovalRequestListOut :=
  ((request app call).answer? approvalDb σ).bind Answer.list?

/-- The list call of a client for one page. -/
def pageCall (env : Env) (authorization : Option String) (ws : String)
    (filter : Option ApprovalStatus) (limit offset : Nat) : Call where
  env := env
  authorization := authorization
  workspaceId := ws
  operation := .list (filter.map ApprovalStatus.value) (.value (toString limit) limit)
    (.value (toString offset) offset)

/-- The pages from the `n`-th one on, up to an empty one. -/
def readPages (app : App) (σ : Store) (env : Nat → Env) (authorization : Option String)
    (ws : String) (filter : Option ApprovalStatus) (limit : Nat) :
    Nat → Nat → Option (List ApprovalRequestListOut)
  | 0, _ => none
  | fuel + 1, n =>
    (listed app (pageCall (env n) authorization ws filter limit (n * limit)) σ).bind (fun page =>
      if page.items.isEmpty then some [page]
      else (readPages app σ env authorization ws filter limit fuel (n + 1)).map (page :: ·))

section Pages

variable {app : App} {σ : Store} {authorization : Option String} {ws : String}
  {filter : Option ApprovalStatus} {limit : Nat} {P : Principal}

theorem listParameters_page (hlimit : 1 ≤ limit ∧ limit ≤ 100) (offset : Nat) {raw raw' : String} :
    listParameters (filter.map ApprovalStatus.value) (.value raw limit) (.value raw' offset) =
      .ok (filter, limit, offset) := by
  have hstatus : statusQuery (filter.map ApprovalStatus.value) = .ok filter := by
    cases filter <;> simp [statusQuery]
  have hl : integerQuery "limit" 20 1 (some 100) (.value raw limit) = .ok limit := by
    have h1 : ¬ (limit : Int) < (1 : Nat) := by omega
    have h2 : ¬ ((100 : Nat) : Int) < limit := by omega
    simp only [integerQuery, h1, h2, if_false, Int.toNat_natCast]
  have ho : integerQuery "offset" 0 0 none (.value raw' offset) = .ok offset := by
    have h1 : ¬ (offset : Int) < (0 : Nat) := by omega
    simp only [integerQuery, h1, if_false, Int.toNat_natCast]
  rw [listParameters, hstatus, hl, ho]
  rfl

/-- One page: the total and a slice of the sorted rows. -/
theorem listed_page (filter : Option ApprovalStatus)
    (hauth : app.provider.authenticate authorization = .ok P)
    (hws : P.workspaceId = ws) (hread : P.hasAction .read = true)
    (hlimit : 1 ≤ limit ∧ limit ≤ 100) (env : Env) (offset : Nat) :
    ∃ items, listed app (pageCall env authorization ws filter limit offset) σ =
        some ⟨items, (σ.matching ws filter).length, limit, offset⟩ ∧
      List.Forall₂ σ.Shows (σ.page ws filter limit offset) items := by
  have hby : (pageCall env authorization ws filter limit offset).By app P := ⟨hauth, hws, hread⟩
  refine ⟨_, ?_, σ.shows_items env (σ.page ws filter limit offset)⟩
  unfold listed
  rw [answer?_list hby rfl (listParameters_page hlimit offset)]
  rfl

/-- The pages from the `n`-th one on show the rows from there on. -/
theorem readPages_spec (filter : Option ApprovalStatus)
    (hauth : app.provider.authenticate authorization = .ok P)
    (hws : P.workspaceId = ws) (hread : P.hasAction .read = true)
    (hlimit : 1 ≤ limit ∧ limit ≤ 100) (env : Nat → Env) (n : Nat) :
    ∃ pages, (∀ k, (σ.matching ws filter).length ≤ (n + k) * limit →
        readPages app σ env authorization ws filter limit (k + 1) n = some pages) ∧
      List.Forall₂ σ.Shows ((σ.sorted ws filter).drop (n * limit))
        (pages.flatMap ApprovalRequestListOut.items) ∧
      ∀ page ∈ pages, page.total = (σ.matching ws filter).length := by
  obtain ⟨items, hpage, hitems⟩ := listed_page (σ := σ) filter hauth hws hread hlimit
    (env n) (n * limit)
  have hlen : items.length = min limit ((σ.matching ws filter).length - n * limit) := by
    rw [← hitems.length_eq, Store.length_page]
  -- how many rows are left after this page
  induction hrest : (σ.matching ws filter).length - n * limit using Nat.strong_induction_on
    generalizing n items with
  | h rest ih =>
    by_cases hempty : rest = 0
    · have hnil : items = [] := List.eq_nil_of_length_eq_zero (by omega)
      refine ⟨[⟨items, (σ.matching ws filter).length, limit, n * limit⟩], ?_, ?_, by simp⟩
      · intro k _
        rw [readPages, hpage, Option.bind_some, hnil]
        rfl
      · have hdrop : (σ.sorted ws filter).drop (n * limit) = [] := by
          apply List.drop_eq_nil_of_le
          rw [(σ.sorted_perm ws filter).length_eq]
          omega
        rw [hdrop, hnil]
        exact .nil
    · have hnext : (n + 1) * limit = n * limit + limit := Nat.succ_mul n limit
      have hne : items.isEmpty = false := by
        rw [List.isEmpty_eq_false_iff, ne_eq, ← List.length_eq_zero_iff]
        omega
      obtain ⟨items', hpage', hitems'⟩ := listed_page (σ := σ) filter hauth hws hread
        hlimit (env (n + 1)) ((n + 1) * limit)
      have hlen' : items'.length =
          min limit ((σ.matching ws filter).length - (n + 1) * limit) := by
        rw [← hitems'.length_eq, Store.length_page]
      obtain ⟨pages, hread', hshow, htotal⟩ :=
        ih _ (by omega) (n + 1) items' hpage' hitems' hlen' rfl
      refine ⟨⟨items, (σ.matching ws filter).length, limit, n * limit⟩ :: pages, ?_, ?_, ?_⟩
      · intro k hk
        match k, hk with
        | 0, hk =>
          rw [Nat.add_zero] at hk
          omega
        | k + 1, hk =>
          rw [readPages, hpage, Option.bind_some, hne, hread' k (by rwa [Nat.add_right_comm])]
          rfl
      · rw [List.flatMap_cons, ← List.take_append_drop limit ((σ.sorted ws filter).drop (n * limit)),
          List.drop_drop, ← hnext]
        exact List.rel_append hitems hshow
      · intro page hmem
        rcases List.mem_cons.mp hmem with rfl | hmem
        · rfl
        · exact htotal page hmem

/-- **Pagination loses and repeats nothing.** On every store whose ids are distinct, which
its primary key says, an authorized client that reads page after page comes to an empty
page; its pages show every matching row once and no other row, each strictly after the one
before it; every page has the same total, and no page is shorter than it should be. -/
theorem pagination (hkey : (σ.approvalRequests.map ApprovalRequestRow.id).Nodup)
    (hauth : app.provider.authenticate authorization = .ok P) (hws : P.workspaceId = ws)
    (hread : P.hasAction .read = true) (hlimit : 1 ≤ limit ∧ limit ≤ 100) (env : Nat → Env) :
    (∃ pages, (∀ fuel, (σ.matching ws filter).length / limit + 2 ≤ fuel →
        readPages app σ env authorization ws filter limit fuel 0 = some pages) ∧
      (∃ rows, rows.Perm (σ.matching ws filter) ∧
        List.Forall₂ σ.Shows rows (pages.flatMap ApprovalRequestListOut.items)) ∧
      (pages.flatMap ApprovalRequestListOut.items).Pairwise
        (fun r s => Store.After (r.createdAt, r.id) (s.createdAt, s.id)) ∧
      ∀ page ∈ pages, page.total = (σ.matching ws filter).length) ∧
    ∀ env offset, ∃ page,
      listed app (pageCall env authorization ws filter limit offset) σ = some page ∧
        page.total = (σ.matching ws filter).length ∧
        page.items.length = min limit (page.total - offset) := by
  constructor
  · obtain ⟨pages, hpages, hshow, htotal⟩ :=
      readPages_spec (σ := σ) filter hauth hws hread hlimit env 0
    rw [Nat.zero_mul, List.drop_zero] at hshow
    refine ⟨pages, ?_, ⟨_, σ.sorted_perm ws filter, hshow⟩, ?_, htotal⟩
    · intro fuel hfuel
      match fuel, hfuel with
      | fuel + 1, hfuel =>
        refine hpages fuel ?_
        have hdiv := Nat.lt_mul_div_succ (σ.matching ws filter).length
          (show 0 < limit by omega)
        have hmono : limit * ((σ.matching ws filter).length / limit + 1) ≤ limit * fuel :=
          Nat.mul_le_mul_left limit (by omega)
        rw [Nat.zero_add, Nat.mul_comm fuel]
        omega
    · -- the shown items have the keys of their rows
      have hkeys : (σ.sorted ws filter).map (fun r => (r.createdAt, r.id)) =
          (pages.flatMap ApprovalRequestListOut.items).map (fun r => (r.createdAt, r.id)) := by
        rw [← List.forall₂_eq_eq_eq, List.forall₂_map_left_iff, List.forall₂_map_right_iff]
        refine hshow.imp fun row out h => ?_
        obtain ⟨shown, -, rfl⟩ := h
        rfl
      have hsorted := Store.sorted_pairwise ws filter hkey
      rw [← List.pairwise_map (f := fun r : ApprovalRequestRow => (r.createdAt, r.id)), hkeys,
        List.pairwise_map] at hsorted
      exact hsorted
  · intro env offset
    obtain ⟨items, hpage, hitems⟩ := listed_page (σ := σ) filter hauth hws hread hlimit
      env offset
    exact ⟨_, hpage, rfl, by rw [← hitems.length_eq, Store.length_page]⟩

end Pages

namespace Sample

/-- A pending request that Alice has created. -/
def shelfRow (id ws : String) (micros : Fin 1000000) : ApprovalRequestRow where
  id := id
  workspaceId := ws
  sourceType := .publication
  sourceId := "pub_1"
  title := "Launch"
  description := none
  status := .pending
  createdByUserId := "alice"
  createdAt := ⟨micros, micros_bound micros⟩
  updatedAt := ⟨micros, micros_bound micros⟩
  decidedByUserId := none
  decidedAt := none
  decisionComment := none
  decisionReason := none

/-- Three requests of `ws_1`, two of them created at the same time, and one of `ws_2`. -/
def shelf : Store where
  approvalRequests := [shelfRow "ar_1" "ws_1" 5, shelfRow "ar_2" "ws_2" 5, shelfRow "ar_3" "ws_1" 5,
    shelfRow "ar_4" "ws_1" 4]
  approvalRequestReviewers := [⟨"ws_1", "ar_1", "bob"⟩, ⟨"ws_1", "ar_1", "carol"⟩]
  auditLogEntries := []
  outboxEvents := []
  idempotencyKeys := []

end Sample

theorem pagination_sample : ∃ pages,
    readPages Sample.app Sample.shelf (fun _ => Sample.env "1" 1) (some Sample.aliceToken) "ws_1"
      (some .pending) 2 3 0 = some pages ∧
    (pages.flatMap ApprovalRequestListOut.items).map ApprovalRequestOut.id =
      ["ar_3", "ar_1", "ar_4"] ∧
    (pages.flatMap ApprovalRequestListOut.items).Pairwise
      (fun r s => Store.After (r.createdAt, r.id) (s.createdAt, s.id)) := by
  obtain ⟨⟨pages, hpages, -, hsorted, -⟩, -⟩ := pagination (σ := Sample.shelf)
    (by decide) Sample.authenticate_alice (show Sample.alice.workspaceId = "ws_1" from rfl) (by decide)
    (show 1 ≤ 2 ∧ 2 ≤ 100 by decide) (fun _ => Sample.env "1" 1)
  have hread : readPages Sample.app Sample.shelf (fun _ => Sample.env "1" 1)
      (some Sample.aliceToken) "ws_1" (some .pending) 2 3 0 = some pages :=
    hpages 3 (by decide +kernel)
  have hids : (readPages Sample.app Sample.shelf (fun _ => Sample.env "1" 1)
      (some Sample.aliceToken) "ws_1" (some .pending) 2 3 0).map (fun pages =>
        (pages.flatMap ApprovalRequestListOut.items).map ApprovalRequestOut.id) =
      some ["ar_3", "ar_1", "ar_4"] := by decide +kernel
  rw [hread] at hids
  exact ⟨pages, hread, Option.some.inj hids, hsorted⟩

end ContentApproval
