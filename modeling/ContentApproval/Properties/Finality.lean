import ContentApproval.Specs.Contract
import ContentApproval.Transactions.Sequential

/-!
# Finality and frame

A request is decided at most once and changes in no other way. `Step.moves` says what one
step of any call may do to the committed store, `Run.evolves` what a run may do, and
`HoldsUpdate` what is true of the row while the `UPDATE` of a decision is uncommitted.
-/

namespace ContentApproval

open Transactions

section Runs

variable {ι : Type} [DecidableEq ι] {app : App} {call : ι → Call} {w w' : ApiWorld ι}

/-! ## One step -/

/-- What one step may do to the committed store: the old rows keep their places, each is as
it was or has been decided, a new row is pending, and no reviewer of an old row changes. -/
structure Store.Moves (σ σ' : Store) : Prop where
  rows : ∃ old new, σ'.approvalRequests = old ++ new ∧
    List.Forall₂ ApprovalRequestRow.Becomes σ.approvalRequests old ∧
    ∀ r ∈ new, r.status = .pending
  reviewers : ∀ r ∈ σ.approvalRequests,
    σ'.reviewersOf r.workspaceId r.id = σ.reviewersOf r.workspaceId r.id

theorem Store.Registered.moves {σ : Store} {δ : List Write} (h : σ.Registered)
    (hc : Commits σ δ) (hheld : Held δ σ) : σ.Moves (approvalDb.view σ δ) := by
  refine ⟨?_, fun r hr => (h.evolves hc hheld).reviewers (h.request?_of_mem hr)⟩
  obtain ⟨cases, hrep⟩ := h
  obtain ⟨cases', hstep, hrep'⟩ := hrep.commit hc hheld
  have hsame : ∀ l : Registry, List.Forall₂ ApprovalRequestRow.Becomes (l.map Case.row)
      (l.map Case.row) := fun l => List.forall₂_same.mpr fun r _ => .refl r
  rw [hrep.requests, hrep'.requests]
  cases hstep with
  | stay => exact ⟨_, [], (List.append_nil _).symm, hsame _, by simp⟩
  | file _ c =>
    refine ⟨_, [c.row], by simp [Case.filed, Case.row], hsame _, ?_⟩
    intro r hr
    rw [List.mem_singleton.mp hr]
    rfl
  | settle before after c v entitled shown =>
    refine ⟨_, [], (List.append_nil _).symm, ?_, by simp⟩
    rw [List.map_append, List.map_append, List.map_cons, List.map_cons]
    refine List.rel_append (hsame before) (.cons ?_ (hsame after))
    exact Case.Becomes.row ⟨rfl, fun _ h => by cases h⟩

theorem Store.Moves.refl {σ : Store} : σ.Moves σ :=
  ⟨⟨_, [], (List.append_nil _).symm, List.forall₂_same.mpr fun r _ => .refl r, by simp⟩,
    fun _ _ => rfl⟩

/-- **Step.** -/
theorem Step.moves (hw : w.Sound (fun i => contract app (call i))) {l : ι × Transactions.Action}
    (h : Step approvalDb w l w') : w.store.Moves w'.store := by
  obtain ⟨i, a⟩ := l
  by_cases ha : a = .commit
  · subst ha
    obtain ⟨a, δ, hi, hstore, -⟩ := h.store_commit
    obtain ⟨hc, hheld, -⟩ := hw.commits hi
    rw [hstore]
    exact Store.Registered.moves hw.inv hc hheld
  · rw [h.store_eq ha]
    exact .refl

/-- A row that a step changes was decided by the call that committed. -/
theorem Step.changes (hw : w.Sound (fun i => contract app (call i))) {i : ι}
    {a : Transactions.Action} (h : Step approvalDb w (i, a) w') {r : ApprovalRequestRow}
    (hr : r ∈ w.store.approvalRequests) : r ∈ w'.store.approvalRequests ∨
      (a = .commit ∧ r.status = .pending ∧ ∃ values, r.decided values ∈ w'.store.approvalRequests ∧
        HoldsUpdate app (call i) w.store r.workspaceId r.id values) := by
  by_cases ha : a = .commit
  · subst ha
    obtain ⟨a, δ, hi, hstore, -⟩ := h.store_commit
    obtain ⟨hc, hheld, hopen⟩ := hw.commits hi
    rw [hstore]
    by_cases hδ : ∃ values, Write.update r.workspaceId r.id values ∈ δ
    · obtain ⟨values, hu⟩ := hδ
      have hσ : w.store.Registered := hw.inv
      refine Or.inr ⟨rfl, hσ.pending_of_held hheld hu (hσ.request?_of_mem hr), values, ?_,
        hopen.1 _ _ _ hu⟩
      cases hc with
      | quiet => cases hu
      | creation c => simp [Creation.writes] at hu
      | @verdict ws id row v hrow entitled shown =>
        have hv : Write.update r.workspaceId r.id values = .update ws id v.values := by
          simpa [Verdict.writes] using hu
        obtain ⟨rfl, rfl, rfl⟩ := Write.update.inj hv
        rw [v.view_writes]
        exact List.mem_map.mpr ⟨r, hr, if_pos ⟨rfl, rfl⟩⟩
    · exact Or.inl (mem_foldl_requests hr fun values hu => hδ ⟨values, hu⟩)
  · rw [h.store_eq ha]
    exact Or.inl hr

/-! ## Whole runs -/

theorem Run.evolves (hw : w.Sound (fun i => contract app (call i)))
    {ls : List (ι × Transactions.Action)} (h : Run approvalDb w ls w') :
    w.store.Evolves w'.store := by
  induction h with
  | nil => exact .refl _
  | @snoc ls l v v' hrun hs ih =>
    have hv := hw.run hrun
    refine ih.trans ?_
    obtain ⟨i, a⟩ := l
    by_cases ha : a = .commit
    · subst ha
      obtain ⟨a, δ, hi, hstore, -⟩ := hs.store_commit
      obtain ⟨hc, hheld, -⟩ := hv.commits hi
      rw [hstore]
      exact Store.Registered.evolves hv.inv hc hheld
    · rw [hs.store_eq ha]
      exact .refl _

omit [DecidableEq ι] in
/-- The update that a call holds uncommitted is of a row that is still pending, and the
check that the call made on its earlier read is still true. -/
theorem held_update (hw : w.Sound (fun i => contract app (call i))) {i : ι} {ws id : String}
    {values : DecisionValues} (hu : Write.update ws id values ∈ w.held i) :
    HoldsUpdate app (call i) w.store ws id values ∧
      ∃ r, w.store.request? ws id = some r ∧ r.status = .pending := by
  have hduring : HoldsUpdate app (call i) w.store ws id values := by
    have hh := hw.holds i
    unfold World.held at hu
    cases hs : w.session i with
    | running p δ => rw [hs] at hh hu; exact hh.1 ws id values hu
    | answered a exit δ => rw [hs] at hh hu; exact hh.1.1 ws id values hu
    | _ => rw [hs] at hu; cases hu
  refine ⟨hduring, ?_⟩
  obtain ⟨P, d, key, body, -, -, -, -, -, r, hr, -⟩ := hduring
  exact ⟨r, hr, Store.Registered.pending_of_held hw.inv (hw.held i) hu hr⟩

/-- **Finality and frame.** In every run of any calls: a step moves rows as `Store.Moves`
says and changes only the row that the committing call decides; from any reachable state
on, a row is as it was or has been decided once, a final row stays as it is, and so do
all reviewers; and an uncommitted decision is of a pending row by somebody entitled. -/
theorem finality_and_frame {ls ls' : List (ι × Transactions.Action)}
    (h : Run approvalDb (ApiWorld.start app call Store.empty) ls w)
    (h' : Run approvalDb w ls' w') :
    (∀ i a w'', Step approvalDb w (i, a) w'' → w.store.Moves w''.store ∧
      ∀ r ∈ w.store.approvalRequests, r ∈ w''.store.approvalRequests ∨
        (a = .commit ∧ r.status = .pending ∧ ∃ values,
          r.decided values ∈ w''.store.approvalRequests ∧
          HoldsUpdate app (call i) w.store r.workspaceId r.id values)) ∧
    (∃ old new, w'.store.approvalRequests = old ++ new ∧
      List.Forall₂ (fun r r' => ApprovalRequestRow.Becomes r r' ∧
        (r.status.isFinal = true → r' = r)) w.store.approvalRequests old) ∧
    (∀ r ∈ w.store.approvalRequests, w'.store.reviewersOf r.workspaceId r.id =
      w.store.reviewersOf r.workspaceId r.id) ∧
    (∀ i ws id values, Write.update ws id values ∈ w.held i →
      HoldsUpdate app (call i) w.store ws id values ∧
        ∃ r, w.store.request? ws id = some r ∧ r.status = .pending) := by
  have hw := ApiWorld.sound ⟨[], represents_empty⟩ h
  have hev := Run.evolves hw h'
  refine ⟨?_, ?_, ?_, ?_⟩
  · exact fun i a w'' hs => ⟨Step.moves hw hs, fun r hr => Step.changes hw hs hr⟩
  · obtain ⟨old, new, hrows, hold⟩ := hev.rows
    refine ⟨old, new, hrows, hold.imp fun r r' hb => ⟨hb, fun hf => hb.eq_of_final ?_⟩⟩
    simpa [ApprovalStatus.isFinal] using hf
  · exact fun r hr => hev.reviewers (Store.Registered.request?_of_mem hw.inv hr)
  · exact fun i ws id values hu => held_update hw hu

end Runs

/-! ## A sample deployment

Alice may create and cancel in workspace `ws_1`, Bob and Carol may decide. Dave may create,
decide and read in `ws_2`. -/

namespace Sample

def aliceToken : String :=
  "Bearer eyJ3b3Jrc3BhY2VfaWQiOiAid3NfMSIsICJ1c2VyX2lkIjogImFsaWNlIiwgImFjdGlvbnMiOiBbImFwcHJ" ++
    "vdmFsOmNyZWF0ZSIsICJhcHByb3ZhbDpjYW5jZWwiLCAiYXBwcm92YWw6cmVhZCJdfQ"

def bobToken : String :=
  "Bearer eyJ3b3Jrc3BhY2VfaWQiOiAid3NfMSIsICJ1c2VyX2lkIjogImJvYiIsICJhY3Rpb25zIjogWyJhcHByb3Z" ++
    "hbDpkZWNpZGUiXX0"

def carolToken : String :=
  "Bearer eyJ3b3Jrc3BhY2VfaWQiOiAid3NfMSIsICJ1c2VyX2lkIjogImNhcm9sIiwgImFjdGlvbnMiOiBbImFwcHJ" ++
    "vdmFsOmRlY2lkZSJdfQ"

def daveToken : String :=
  "Bearer eyJ3b3Jrc3BhY2VfaWQiOiAid3NfMiIsICJ1c2VyX2lkIjogImRhdmUiLCAiYWN0aW9ucyI6IFsiYXBwcm9" ++
    "2YWw6Y3JlYXRlIiwgImFwcHJvdmFsOmRlY2lkZSIsICJhcHByb3ZhbDpyZWFkIl19"

def alice : Principal := ⟨"ws_1", "alice", {.create, .cancel, .read}, by decide, by decide⟩

def bob : Principal := ⟨"ws_1", "bob", {.decide}, by decide, by decide⟩

def carol : Principal := ⟨"ws_1", "carol", {.decide}, by decide, by decide⟩

def dave : Principal := ⟨"ws_2", "dave", {.create, .decide, .read}, by decide, by decide⟩

/-- The stub provider on the tokens above. -/
def provider : AuthProvider where
  authenticate
    | none => .error (.invalidCredentials "Missing Authorization header")
    | some header =>
      if header = aliceToken then .ok alice
      else if header = bobToken then .ok bob
      else if header = carolToken then .ok carol
      else if header = daveToken then .ok dave
      else .error (.invalidCredentials "Malformed bearer token")

/-- SHA-256 of the canonical texts of the bodies of the samples: of the create with title
`Launch`, of an approval without a comment, and of the create with title `Relaunch`. -/
def sha256 (s : String) : String :=
  if s = "\x7b\"description\":null,\"reviewer_user_ids\":[\"bob\"],\"source_id\":\"pub_1\"," ++
    "\"source_type\":\"publication\",\"title\":\"Launch\"\x7d" then
    "20fdaa144fc39947b9648b76a52d44a9082487a94d3d50fbdf8585b6bbe577da"
  else if s = "\x7b\"comment\":null\x7d" then
    "bf73103a2276e83b3e7e0558d153f6f07fb13fce2b3562be573a068454001929"
  else "a2cdd0a051eb18f4f505f1a307e55b41afe26af06c55e905a003b1969a851850"

def app : App := ⟨provider, sha256⟩

theorem authenticate_alice : app.provider.authenticate (some aliceToken) = .ok alice := by
  simp [app, provider]

instance neZero_micros : NeZero 1000000 := ⟨by decide⟩

theorem micros_bound (micros : Fin 1000000) : (micros : Nat) < 315537897600000000 := by omega

/-- The ids and clock readings of the call with this number. -/
def env (n : String) (micros : Fin 1000000) : Env where
  requestToken := "00000000000000000000000" ++ n
  auditToken := "00000000000000000000000" ++ n
  eventToken := "00000000000000000000000" ++ n
  createdAt := ⟨micros, micros_bound micros⟩
  updatedAt := ⟨micros, micros_bound micros⟩
  decidedAt := ⟨micros, micros_bound micros⟩
  auditCreatedAt := ⟨micros, micros_bound micros⟩
  eventCreatedAt := ⟨micros, micros_bound micros⟩
  keyCreatedAt := ⟨micros, micros_bound micros⟩
  rowOrder _ := ⟨id, fun _ => .refl _⟩
  dialect := .sqlite

def launchId : String := "ar_000000000000000000000001"

/-- Alice asks Bob to review publication `pub_1`. -/
def launch (n : String) (key : String) : Call where
  env := env n 1
  authorization := some aliceToken
  workspaceId := "ws_1"
  operation := .create (some key) (.json (.obj [("sourceType", .str "publication"),
    ("sourceId", .str "pub_1"), ("title", .str "Launch"), ("reviewerUserIds", .arr [.str "bob"])]))

/-- Somebody approves it. -/
def approve (n : String) (token : String) (key : Option String) : Call where
  env := env n 2
  authorization := some token
  workspaceId := "ws_1"
  operation := .decide .approve launchId key (.json (.obj []))

/-- The create and then Bob's approval. -/
def calls : Fin 2 → Call
  | 0 => launch "1" "key-1"
  | 1 => approve "2" bobToken none

/-- The run of the first calls of a sample up to the answer of the next one. -/
theorem run_to_answer {ι : Type} [DecidableEq ι] (calls : ι → Call) (before : List ι) (i : ι)
    (hnd : before.Nodup) (hi : i ∉ before) {a : Answer}
    (ha : (request app (calls i)).answer? approvalDb (serveAll approvalDb
      (before.map (fun j => request app (calls j))) Store.empty).1 = some a) :
    ∃ ls w w', Run approvalDb (ApiWorld.start app calls Store.empty) ls w ∧
      Step approvalDb w (i, .answer) w' ∧ (w'.session i).answer? = some a ∧
      w.store = (serveAll approvalDb (before.map (fun j => request app (calls j)))
        Store.empty).1 := by
  obtain ⟨ls, w, h, hstore, -, hrest, hheld, -⟩ := Run.serveAll
    approvalDb (fun j => request app (calls j)) before hnd
    (w := ApiWorld.start app calls Store.empty) (fun _ => rfl) (fun _ _ => rfl)
  obtain ⟨ls', w', w'', h', hs, hstore', ha', -⟩ := Run.to_answer (fun j _ => hheld j)
    (hrest i hi) (by rw [hstore]; exact ha)
  exact ⟨_, w', w'', h.trans h', hs, ha', hstore'.trans hstore⟩

/-- The status code with which a session has committed. -/
def committedStatus? : Session Reply Write Exn Answer → Option Nat
  | .committed a _ => some a.statusCode
  | _ => none

theorem committed_of_status {s : Session Reply Write Exn Answer} {n : Nat}
    (h : committedStatus? s = some n) : ∃ a δ, s = .committed a δ ∧ a.statusCode = n := by
  cases s with
  | committed a δ => exact ⟨a, δ, rfl, Option.some.inj h⟩
  | _ => cases h

/-- The status code with which a session has failed. -/
def failedStatus? : Session Reply Write Exn Answer → Option Nat
  | .failed e => some e.statusCode
  | _ => none

theorem failed_of_status {s : Session Reply Write Exn Answer} {n : Nat}
    (h : failedStatus? s = some n) : ∃ e, s = .failed e ∧ e.statusCode = n := by
  cases s with
  | failed e => exact ⟨e, rfl, Option.some.inj h⟩
  | _ => cases h

end Sample

theorem finality_and_frame_sample :
    ∃ ls ls' w w', Run approvalDb (ApiWorld.start Sample.app Sample.calls Store.empty) ls w ∧
      Run approvalDb w ls' w' ∧
      w.store.approvalRequests.map ApprovalRequestRow.status = [.pending] ∧
      w'.store.approvalRequests.map ApprovalRequestRow.status = [.approved] ∧
      ∃ old new, w'.store.approvalRequests = old ++ new ∧
        List.Forall₂ (fun r r' => ApprovalRequestRow.Becomes r r' ∧
          (r.status.isFinal = true → r' = r)) w.store.approvalRequests old := by
  obtain ⟨ls, w, h, hstore, -, hrest, hheld, -⟩ := Run.serveAll
    approvalDb (fun i => request Sample.app (Sample.calls i)) [0] (by decide)
    (w := ApiWorld.start Sample.app Sample.calls Store.empty) (fun _ => rfl) (fun _ _ => rfl)
  obtain ⟨ls', w', h', hstore', -⟩ := Run.serveAll
    approvalDb (fun i => request Sample.app (Sample.calls i)) [1] (by decide)
    hheld (fun i hi => hrest i (by simp_all))
  refine ⟨ls, ls', w, w', h, h', ?_, ?_, (finality_and_frame h h').2.1⟩
  · rw [hstore]
    decide +kernel
  · rw [hstore', hstore]
    decide +kernel

end ContentApproval
