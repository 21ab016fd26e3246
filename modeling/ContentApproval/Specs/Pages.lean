import ContentApproval.Specs.Exchanges

/-!
# Pages

The order of a page is a strict total order on the rows of a table whose ids are its
primary key (`sorted_pairwise`), so pages are slices of one list. `answer?_list` is the
response to a list call that nobody interferes with.
-/

namespace ContentApproval

open Transactions SqlApprovalRequestRepository

/-! ## The order of the rows -/

namespace Store

variable (σ : Store) (ws : String) (filter : Option ApprovalStatus)

theorem newestFirst_total (r s : ApprovalRequestRow) : newestFirst r s ∨ newestFirst s r := by
  unfold newestFirst
  rcases Nat.lt_trichotomy r.createdAt.micros s.createdAt.micros with h | h | h
  · exact Or.inr (Or.inl h)
  · have heq : r.createdAt = s.createdAt := by
      cases hr : r.createdAt
      cases hs : s.createdAt
      simp_all
    rcases String.le_total r.id s.id with hid | hid
    · exact Or.inr (Or.inr ⟨heq, hid⟩)
    · exact Or.inl (Or.inr ⟨heq.symm, hid⟩)
  · exact Or.inl (Or.inl h)

theorem newestFirst_trans {r s t : ApprovalRequestRow} (h : newestFirst r s)
    (h' : newestFirst s t) : newestFirst r t := by
  unfold newestFirst at *
  rcases h with h | ⟨h, hid⟩
  · rcases h' with h' | ⟨h', -⟩
    · exact Or.inl (Nat.lt_trans h' h)
    · rw [h']
      exact Or.inl h
  · rcases h' with h' | ⟨h', hid'⟩
    · rw [← h]
      exact Or.inl h'
    · exact Or.inr ⟨h'.trans h, String.le_trans hid' hid⟩

instance : Std.Total newestFirst := ⟨newestFirst_total⟩

instance : IsTrans ApprovalRequestRow newestFirst := ⟨fun _ _ _ => newestFirst_trans⟩

/-- The matching rows in the order of the pages. -/
def sorted : List ApprovalRequestRow := (σ.matching ws filter).insertionSort newestFirst

theorem page_eq (limit offset : Nat) :
    σ.page ws filter limit offset = ((σ.sorted ws filter).drop offset).take limit := rfl

theorem sorted_perm : (σ.sorted ws filter).Perm (σ.matching ws filter) :=
  List.perm_insertionSort _ _

theorem length_page (limit offset : Nat) :
    (σ.page ws filter limit offset).length =
      min limit ((σ.matching ws filter).length - offset) := by
  rw [page_eq, List.length_take, List.length_drop, (σ.sorted_perm ws filter).length_eq]

variable {σ ws filter}

theorem mem_matching {r : ApprovalRequestRow} : r ∈ σ.matching ws filter ↔
    r ∈ σ.approvalRequests ∧ r.workspaceId = ws ∧ ∀ t ∈ filter, r.status = t := by
  cases filter <;> simp [matching]

theorem mem_of_mem_page {limit offset : Nat} {r : ApprovalRequestRow}
    (h : r ∈ σ.page ws filter limit offset) : r ∈ σ.matching ws filter :=
  (σ.sorted_perm ws filter).mem_iff.mp (List.mem_of_mem_drop (List.mem_of_mem_take h))

/-- `created_at` and then `id` are smaller. -/
def After (key key' : Instant × String) : Prop :=
  key'.1 < key.1 ∨ (key'.1 = key.1 ∧ key'.2 < key.2)

/-- The primary key makes the order strict. -/
theorem sorted_pairwise (ws : String) (filter : Option ApprovalStatus)
    (hkey : (σ.approvalRequests.map ApprovalRequestRow.id).Nodup) :
    (σ.sorted ws filter).Pairwise (fun r s => After (r.createdAt, r.id) (s.createdAt, s.id)) := by
  have hmatching : ((σ.matching ws filter).map ApprovalRequestRow.id).Nodup :=
    hkey.sublist (List.filter_sublist.map _)
  have hnodup : ((σ.sorted ws filter).map ApprovalRequestRow.id).Nodup :=
    ((σ.sorted_perm ws filter).map _).nodup_iff.mpr hmatching
  have hdistinct : (σ.sorted ws filter).Pairwise (fun r s => r.id ≠ s.id) :=
    List.pairwise_map.mp hnodup
  have hsorted : (σ.sorted ws filter).Pairwise newestFirst := List.pairwise_insertionSort _ _
  refine (hsorted.and hdistinct).imp fun {r s} h => ?_
  obtain ⟨h | ⟨h, hid⟩, hne⟩ := h
  · exact Or.inl h
  · exact Or.inr ⟨h, String.not_le.mp fun hle => hne (String.le_antisymm hle hid)⟩

/-- How a row is shown: with its reviewers in some order. -/
def Shows (σ : Store) (row : ApprovalRequestRow) (out : ApprovalRequestOut) : Prop :=
  ∃ shown, shown.Perm (σ.reviewerIds row.workspaceId row.id) ∧
    out = .ofEntity (toEntity fresh row shown)

/-- The reviewer rows that come with these rows. -/
def loaded (σ : Store) (order : RowOrder) (rows : List ApprovalRequestRow) :
    List ApprovalRequestReviewer :=
  order.arrange (σ.approvalRequestReviewers.filter
    (fun r => decide ((r.workspaceId, r.approvalRequestId) ∈
      rows.map (fun row => (row.workspaceId, row.id)))))

end Store

/-- Both kinds of database give back the instants that were stored. -/
@[simp] theorem toEntity_load (d : Dialect) (row : ApprovalRequestRow) (shown : List String) :
    toEntity d.load row shown = toEntity fresh row shown := by
  cases d <;> rfl

/-- The items of a list response show the rows of their page. -/
theorem Store.shows_items (σ : Store) (env : Env) (rows : List ApprovalRequestRow) :
    List.Forall₂ σ.Shows rows (rows.map (fun row => .ofEntity (toEntity env.dialect.load row
      (reviewersOfRow (σ.loaded (env.rowOrder 0) rows) row)))) := by
  rw [List.forall₂_map_right_iff, List.forall₂_same]
  intro row hrow
  have hkey := List.mem_map_of_mem (f := fun row => (row.workspaceId, row.id)) hrow
  exact ⟨_, reviewersOfRow_perm (env.rowOrder 0) hkey σ, by rw [toEntity_load]; rfl⟩

/-! ## A list call -/

/-- A list call after its page. -/
def afterPage (env : Env) (total limit offset : Nat) (rows : List ApprovalRequestRow) :
    Request Reply Exn Answer :=
  if rows.isEmpty then .ret (listAnswer env [] [] total limit offset, .ret ())
  else .exec (.selectReviewers (rows.map (fun row => (row.workspaceId, row.id))) (env.rowOrder 0))
    (fun reviewers : List ApprovalRequestReviewer =>
      .ret (listAnswer env rows reviewers total limit offset, .ret ()))

section Listed

variable {app : App} {call : Call} {P : Principal} {status : Option String}
  {limit offset : QueryInt} {filter : Option ApprovalStatus} {l o : Nat}

/-- The whole program of a list call. -/
theorem request_list (hby : call.By app P) (hop : call.operation = .list status limit offset)
    (hparams : listParameters status limit offset = .ok (filter, l, o)) :
    request app call = .exec (.countRequests call.workspaceId filter) (fun total : Nat =>
      .exec (.selectPage call.workspaceId filter l o)
        (fun rows : List ApprovalRequestRow => afterPage call.env total l o rows)) := by
  have hdoc : call.operation.body.document? = some none := by rw [hop]; rfl
  have hend : endpoint app call P none = listApprovalRequests call.env call.workspaceId filter l o := by
    funext pending
    unfold endpoint
    rw [hop]
    dsimp only
    rw [orRequestValidationError_bind]
    unfold listParameters at hparams
    rw [hparams]
  rw [request_by hby hdoc, hend]
  refine congrArg (Prog.exec _) (funext fun total => congrArg (Prog.exec _) (funext fun rows => ?_))
  change List ApprovalRequestRow at rows
  cases rows with
  | nil => rfl
  | cons row rows =>
    refine congrArg (Prog.exec _) (funext fun reviewers => ?_)
    have hitems : ((row :: rows).map (fun row => toEntity call.env.dialect.load row
        (reviewersOfRow reviewers row))).map ApprovalRequestOut.ofEntity = _ := List.map_map
    exact congrArg (fun items => Prog.ret
      ((⟨200, .list ⟨items, total, l, o⟩⟩ : Answer), (.ret () : Prog Reply Exn Unit))) hitems

/-- The response to a list call that nobody interferes with. -/
theorem answer?_list (hby : call.By app P) (hop : call.operation = .list status limit offset)
    (hparams : listParameters status limit offset = .ok (filter, l, o)) (σ : Store) :
    (request app call).answer? approvalDb σ = some (listAnswer call.env
      (σ.page call.workspaceId filter l o)
      (σ.loaded (call.env.rowOrder 0) (σ.page call.workspaceId filter l o))
      (σ.matching call.workspaceId filter).length l o) := by
  have hrun : ((request app call).run approvalDb σ []).result = .ok (listAnswer call.env
      (σ.page call.workspaceId filter l o)
      (σ.loaded (call.env.rowOrder 0) (σ.page call.workspaceId filter l o))
      (σ.matching call.workspaceId filter).length l o, .ret ()) := by
    rw [request_list hby hop hparams]
    change ((afterPage call.env (σ.matching call.workspaceId filter).length l o
      (σ.page call.workspaceId filter l o)).run approvalDb σ []).result = _
    cases σ.page call.workspaceId filter l o <;> rfl
  unfold Prog.answer?
  rw [hrun]

end Listed

end ContentApproval
