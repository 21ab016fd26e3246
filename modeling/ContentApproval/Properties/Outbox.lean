import ContentApproval.Properties.Trail
import ContentApproval.Replication.Latest

/-!
# The outbox as a replication log

An event says of a request which status it has and, after a decision, who took it. Whoever is told
the events of the outbox, in any order and each of them any number of times, knows the status and the
decider of every request (`outbox_replicates`). Who has missed some knows at worst that a request was
created, and who has read the outbox up to anywhere, in the order of the commits, knows a state that
the service was in. In the order of `created_at` this need not be so: an event may be committed after
a later one.
-/

namespace ContentApproval

open Transactions Replication

/-! ## What an event says -/

/-- What the payload of an event says about a request. -/
structure Notice where
  workspaceId : String
  requestId : String
  status : ApprovalStatus
  decidedByUserId : Option String
  deriving DecidableEq

def Notice.key (n : Notice) : String × String := (n.workspaceId, n.requestId)

/-- A decision is later than the create. -/
def Notice.rank (n : Notice) : Nat := if n.status = .pending then 0 else 1

/-- The text that an object has under a name. -/
def payloadText? (document : Json) (name : String) : Option String :=
  match document with
  | .obj fields =>
    match fields.lookup name with
    | some (.str text) => some text
    | _ => none
  | _ => none

def readNotice (payload : Json) : Option Notice := do
  let requestId ← payloadText? payload "id"
  let workspaceId ← payloadText? payload "workspace_id"
  let status ← ApprovalStatus.ofValue? (← payloadText? payload "status")
  some ⟨workspaceId, requestId, status, payloadText? payload "decided_by_user_id"⟩

def notices (events : List OutboxEvent) : List Notice :=
  events.filterMap fun o => readNotice o.payload

/-- What a consumer of these events knows about a request. -/
def statuses (events : List OutboxEvent) : String × String → Option Notice :=
  replica Notice.key Notice.rank (notices events)

def ApprovalRequestRow.notice (row : ApprovalRequestRow) : Notice :=
  ⟨row.workspaceId, row.id, row.status, row.decidedByUserId⟩

/-- What was to be said of the request when it was created. -/
def ApprovalRequestRow.filed (row : ApprovalRequestRow) : Notice :=
  ⟨row.workspaceId, row.id, .pending, none⟩

/-! ## The notices of a case -/

section Case

variable {k : Case} {v : Verdict} {n : Notice}

theorem Creation.readNotice_event (c : Creation) :
    readNotice c.event.payload = some c.row.notice := by
  simp [readNotice, payloadText?, Creation.event, Creation.row, ApprovalRequestRow.notice,
    List.lookup_cons]

theorem Case.readNotice_event (h : k.verdict = some v) :
    readNotice (v.event k.workspaceId k.requestId).payload = some k.row.notice := by
  rw [Case.row_settled h]
  simp [readNotice, payloadText?, Verdict.event, ApprovalService.decisionPayload, Verdict.values,
    ApprovalRequestRow.decided, ApprovalRequestRow.notice, Creation.row, Case.workspaceId,
    Case.requestId, List.lookup_cons]

/-- A case is told of when it is filed and when it is settled. -/
theorem Case.mem_notices : n ∈ notices k.events ↔ n = k.creation.row.notice ∨ n = k.row.notice := by
  cases hv : k.verdict with
  | none =>
    have hrow : k.row = k.creation.row := by rw [Case.row, hv]
    simp [notices, Case.events, hv, hrow, k.creation.readNotice_event]
  | some v =>
    simp [notices, Case.events, hv, k.creation.readNotice_event, Case.readNotice_event hv]

theorem Case.filed_eq : k.creation.row.notice = k.row.filed := by
  unfold Case.row
  split <;> rfl

theorem Case.rank_filed : k.creation.row.notice.rank = 0 := rfl

theorem Case.rank_settled (h : k.verdict = some v) : k.row.notice.rank = 1 := by
  refine if_neg fun hp => ?_
  rw [(Case.status_pending k).mp hp] at h
  cases h

theorem Case.key_notice (h : n ∈ notices k.events) : n.key = (k.workspaceId, k.requestId) := by
  rcases Case.mem_notices.mp h with rfl | rfl
  · rfl
  · exact Prod.ext k.row_workspaceId k.row_id

/-- What is said of a case at one rank is one notice. -/
theorem Case.notice_unique {m : Notice} (hm : m ∈ notices k.events) (hn : n ∈ notices k.events)
    (hrank : m.rank = n.rank) : m = n := by
  cases hv : k.verdict with
  | none =>
    have hrow : k.row = k.creation.row := by rw [Case.row, hv]
    rw [Case.mem_notices, hrow, or_self] at hm hn
    rw [hm, hn]
  | some v =>
    have hlate := Case.rank_settled hv
    rcases Case.mem_notices.mp hm with rfl | rfl <;>
      rcases Case.mem_notices.mp hn with rfl | rfl
    · rfl
    · rw [Case.rank_filed, hlate] at hrank
      cases hrank
    · rw [Case.rank_filed, hlate] at hrank
      cases hrank
    · rfl

theorem Case.rank_le (h : n ∈ notices k.events) : n.rank ≤ k.row.notice.rank := by
  rcases Case.mem_notices.mp h with rfl | rfl
  · exact Nat.zero_le _
  · exact le_rfl

end Case

/-! ## The notices of a registry -/

namespace Represents

variable {cases : Registry} {σ : Store} {n : Notice}

theorem mem_notices (h : Represents cases σ) :
    n ∈ notices σ.outboxEvents ↔ ∃ k ∈ cases, n ∈ notices k.events := by
  unfold notices
  rw [(h.events.filterMap _).mem_iff, List.filterMap_flatMap, List.mem_flatMap]

theorem notice_of_key (h : Represents cases σ) {k : Case} (hk : k ∈ cases)
    (hn : n ∈ notices σ.outboxEvents) (hkey : n.key = (k.workspaceId, k.requestId)) :
    n ∈ notices k.events := by
  obtain ⟨k', hk', hn⟩ := h.mem_notices.mp hn
  rw [Case.key_notice hn] at hkey
  obtain rfl := h.eq_of_id hk' hk (Prod.mk.inj hkey).2
  exact hn

theorem coherent (h : Represents cases σ) :
    Coherent Notice.key Notice.rank (notices σ.outboxEvents) := by
  intro m hm n hn hkey hrank
  obtain ⟨k, hk, hmk⟩ := h.mem_notices.mp hm
  refine Case.notice_unique hmk (h.notice_of_key hk hn ?_) hrank
  rw [← hkey, Case.key_notice hmk]

theorem latest (h : Represents cases σ) {k : Case} (hk : k ∈ cases) :
    Latest Notice.key Notice.rank (notices σ.outboxEvents) k.row.notice := by
  have hrow : k.row.notice ∈ notices k.events := Case.mem_notices.mpr (Or.inr rfl)
  refine ⟨h.mem_notices.mpr ⟨k, hk, hrow⟩, fun m hm hkey => ?_⟩
  exact Case.rank_le (h.notice_of_key hk hm (hkey.trans (Case.key_notice hrow)))

/-- **The outbox tells the status of every request.** -/
theorem statuses_eq (h : Represents cases σ) (ws id : String) :
    statuses σ.outboxEvents (ws, id) = (σ.request? ws id).map ApprovalRequestRow.notice := by
  cases hrow : σ.request? ws id with
  | none =>
    refine replica_eq_none fun n hn hkey => ?_
    obtain ⟨k, hk, hnk⟩ := h.mem_notices.mp hn
    obtain ⟨hws, hid⟩ := Prod.mk.inj ((Case.key_notice hnk).symm.trans hkey)
    rw [h.request?_eq_some.mpr ⟨k, hk, hws, hid, rfl⟩] at hrow
    cases hrow
  | some row =>
    obtain ⟨k, hk, rfl, rfl, rfl⟩ := h.request?_eq_some.mp hrow
    have hkey : k.row.notice.key = (k.workspaceId, k.requestId) :=
      Case.key_notice (Case.mem_notices.mpr (Or.inr rfl))
    rw [← hkey]
    exact (h.latest hk).replica_eq h.coherent

/-- Who was told some of the events knows of no request more than is true. -/
theorem statuses_of_some (h : Represents cases σ) {events : List OutboxEvent}
    (hevents : ∀ o ∈ events, o ∈ σ.outboxEvents) {ws id : String}
    (hn : statuses events (ws, id) = some n) :
    ∃ row, σ.request? ws id = some row ∧ (n = row.filed ∨ n = row.notice) := by
  obtain ⟨hkey, hlatest⟩ := latest_of_replica hn
  have hmem : n ∈ notices σ.outboxEvents := by
    obtain ⟨o, ho, hread⟩ := List.mem_filterMap.mp hlatest.mem
    exact List.mem_filterMap.mpr ⟨o, hevents o ho, hread⟩
  obtain ⟨k, hk, hnk⟩ := h.mem_notices.mp hmem
  obtain ⟨hws, hid⟩ := Prod.mk.inj ((Case.key_notice hnk).symm.trans hkey)
  refine ⟨k.row, h.request?_eq_some.mpr ⟨k, hk, hws, hid, rfl⟩, ?_⟩
  rw [← Case.filed_eq]
  exact Case.mem_notices.mp hnk

end Represents

/-! ## The outbox in a run -/

section Runs

variable {ι : Type} [DecidableEq ι] {app : App} {call : ι → Call} {σ : Store} {w w' : ApiWorld ι}
  {ls : List (ι × Transactions.Action)}

/-- A step adds one event at most. -/
theorem Step.outbox (hw : w.Sound (fun i => contract app (call i))) {l : ι × Transactions.Action}
    (h : Step approvalDb w l w') : w'.store.outboxEvents = w.store.outboxEvents ∨
      ∃ o, w'.store.outboxEvents = w.store.outboxEvents ++ [o] := by
  obtain ⟨i, a⟩ := l
  by_cases ha : a = .commit
  · subst ha
    obtain ⟨a, δ, hi, hstore, -⟩ := h.store_commit
    rw [hstore]
    cases (hw.commits hi).1 with
    | quiet => exact Or.inl rfl
    | creation c =>
      rw [c.view_writes]
      exact Or.inr ⟨_, rfl⟩
    | verdict v =>
      rw [v.view_writes]
      exact Or.inr ⟨_, rfl⟩
  · rw [h.store_eq ha]
    exact Or.inl rfl

/-- What has been read of the outbox is all that there was of it at some moment. -/
theorem Run.outbox_moment (hσ : σ.Registered)
    (h : Run approvalDb (ApiWorld.start app call σ) ls w) {read : List OutboxEvent}
    (hold : σ.outboxEvents <+: read) (hread : read <+: w.store.outboxEvents) :
    ∃ ls₁ ls₂ v, ls = ls₁ ++ ls₂ ∧ Run approvalDb (ApiWorld.start app call σ) ls₁ v ∧
      Run approvalDb v ls₂ w ∧ v.store.outboxEvents = read := by
  induction h with
  | nil => exact ⟨[], [], _, rfl, .nil, .nil, hold.eq_of_length_le hread.length_le⟩
  | @snoc ls l v v' hrun hs ih =>
    have hbefore : read <+: v.store.outboxEvents →
        ∃ ls₁ ls₂ u, ls ++ [l] = ls₁ ++ ls₂ ∧ Run approvalDb (ApiWorld.start app call σ) ls₁ u ∧
          Run approvalDb u ls₂ v' ∧ u.store.outboxEvents = read := by
      intro hread
      obtain ⟨ls₁, ls₂, u, rfl, h₁, h₂, hu⟩ := ih hread
      exact ⟨ls₁, ls₂ ++ [l], u, List.append_assoc .., h₁, h₂.snoc hs, hu⟩
    rcases Step.outbox (ApiWorld.sound hσ hrun) hs with hsame | ⟨o, hnew⟩
    · rw [hsame] at hread
      exact hbefore hread
    · rw [hnew] at hread
      rcases List.prefix_concat_iff.mp hread with rfl | hread
      · exact ⟨ls ++ [l], [], v', (List.append_nil _).symm, hrun.snoc hs, .nil, hnew⟩
      · exact hbefore hread

/-- **The outbox replicates the statuses**, in every run of any calls. A consumer that was told its
events, in any order and any of them more than once, knows of every request the status and the
decider. If it has missed some, what it knows of a request is true now or was true when the request
was created. If it has read the outbox up to some event, in the order in which the events were
committed, it knows what was true at some moment of the run. -/
theorem outbox_replicates (hσ : σ.Registered)
    (h : Run approvalDb (ApiWorld.start app call σ) ls w) :
    (∀ events, (∀ o, o ∈ events ↔ o ∈ w.store.outboxEvents) → ∀ ws id,
      statuses events (ws, id) = (w.store.request? ws id).map ApprovalRequestRow.notice) ∧
    (∀ events, (∀ o ∈ events, o ∈ w.store.outboxEvents) → ∀ ws id n,
      statuses events (ws, id) = some n →
        ∃ row, w.store.request? ws id = some row ∧ (n = row.filed ∨ n = row.notice)) ∧
    ∀ events, σ.outboxEvents <+: events → events <+: w.store.outboxEvents →
      ∃ ls₁ ls₂ v, ls = ls₁ ++ ls₂ ∧ Run approvalDb (ApiWorld.start app call σ) ls₁ v ∧
        Run approvalDb v ls₂ w ∧ ∀ ws id,
          statuses events (ws, id) = (v.store.request? ws id).map ApprovalRequestRow.notice := by
  obtain ⟨cases, hrep⟩ : w.store.Registered := (ApiWorld.sound hσ h).inv
  refine ⟨fun events hevents ws id => ?_, fun events hevents ws id n hn =>
    hrep.statuses_of_some hevents hn, fun events hold hread => ?_⟩
  · have hmem : ∀ n, n ∈ notices events ↔ n ∈ notices w.store.outboxEvents := by
      intro n
      simp only [notices, List.mem_filterMap, hevents]
    rw [← hrep.statuses_eq, statuses, replica_congr hrep.coherent hmem]
    rfl
  · obtain ⟨ls₁, ls₂, v, hls, h₁, h₂, rfl⟩ := Run.outbox_moment hσ h hold hread
    obtain ⟨cases', hrep'⟩ : v.store.Registered := (ApiWorld.sound hσ h₁).inv
    exact ⟨ls₁, ls₂, v, hls, h₁, h₂, hrep'.statuses_eq⟩

end Runs

/-- The events of a request that Bob has approved, the last one first, and the first one twice. -/
theorem outbox_replicates_sample : ∃ ls w,
    Run approvalDb (ApiWorld.start Sample.app Sample.calls Store.empty) ls w ∧
      statuses (w.store.outboxEvents.reverse ++ w.store.outboxEvents.take 1)
          ("ws_1", Sample.launchId) =
        some ⟨"ws_1", Sample.launchId, .approved, some "bob"⟩ := by
  obtain ⟨ls, w, h, hstore, -⟩ := Run.serveAll
    approvalDb (fun i => request Sample.app (Sample.calls i)) [0, 1] (by decide)
    (w := ApiWorld.start Sample.app Sample.calls Store.empty) (fun _ => rfl) (fun _ _ => rfl)
  refine ⟨ls, w, h, ?_⟩
  rw [(outbox_replicates ⟨[], represents_empty⟩ h).1 _ fun o => ?_, hstore]
  · decide +kernel
  · rw [List.mem_append, List.mem_reverse, or_iff_left_of_imp List.mem_of_mem_take]

end ContentApproval
