import ContentApproval.Db.Domains
import ContentApproval.Specs.Served

/-!
# What calls bind

When Postgres can take all values that the statements of a call bind, and its indexes the
entries that they make: for each row that a create or a decision inserts and for each list of
statements of `Specs.Served`, the texts it depends on. What the service generates itself (ids,
fingerprints, datetimes, the values of the enumerations, the keys of JSON objects) is never at
fault.
-/

namespace ContentApproval

open Transactions ApprovalService

/-! ## Rows -/

variable {pg : Postgres}

/-- The generated parts of the ids; `secrets.token_hex` gives a few hexadecimal digits. -/
structure Env.Bindable (env : Env) (pg : Postgres) : Prop where
  requestToken : NulFree env.requestToken
  auditToken : NulFree env.auditToken
  eventToken : NulFree env.eventToken
  requestIndexed : pg.indexes [env.requestId] = true
  auditIndexed : pg.indexes [env.auditId] = true
  eventIndexed : pg.indexes [env.eventId] = true

namespace Env.Bindable

variable {env : Env} (h : env.Bindable pg)

include h

theorem requestId : NulFree env.requestId := NulFree.append.mpr ⟨by decide, h.requestToken⟩

theorem auditId : NulFree env.auditId := NulFree.append.mpr ⟨by decide, h.auditToken⟩

theorem eventId : NulFree env.eventId := NulFree.append.mpr ⟨by decide, h.eventToken⟩

end Env.Bindable

/-- The texts of an accepted body of a create. -/
def ApprovalRequestCreate.texts (p : ApprovalRequestCreate) : List String :=
  p.sourceId :: p.title :: (p.description.toList ++ p.reviewerUserIds)

/-- The texts of an accepted body of a decision. -/
def DecisionBody.texts (b : DecisionBody) : List String := b.comment.toList ++ b.reason.toList

theorem texts_dumpNullable (o : Option String) : (dumpNullable o).texts = o.toList := by
  cases o <;> simp [dumpNullable, Json.texts]

theorem nulFree_dumpInstant? (o : Option Instant) : ∀ t ∈ (dumpInstant? o).texts, NulFree t := by
  cases o with
  | none => simp [dumpInstant?, Json.texts]
  | some t => simpa [dumpInstant?, Json.texts] using NulFree.isoformat t

/-- The texts of a response that the database has or the caller has sent. -/
theorem nulFree_modelDump {r : ApprovalRequestOut} (hid : NulFree r.id) (hws : NulFree r.workspaceId)
    (hsource : NulFree r.sourceId) (htitle : NulFree r.title)
    (hdescription : ∀ t ∈ r.description, NulFree t) (hreviewers : ∀ t ∈ r.reviewerUserIds, NulFree t)
    (hcreator : NulFree r.createdByUserId) (hdecider : ∀ t ∈ r.decidedByUserId, NulFree t)
    (hcomment : ∀ t ∈ r.decisionComment, NulFree t) (hreason : ∀ t ∈ r.decisionReason, NulFree t) :
    ∀ t ∈ r.modelDump.texts, NulFree t := by
  refine Json.forall_texts_obj.mpr ⟨by simp only [List.map_cons, List.map_nil]; decide, ?_⟩
  simp only [List.map_cons, List.map_nil, List.forall_mem_singleton, List.forall_mem_cons,
    Json.texts, texts_dumpNullable, Json.itemTexts_str, Option.mem_toList]
  exact ⟨hid, hws, NulFree.sourceType _, hsource, htitle, hdescription, hreviewers, NulFree.status _,
    hcreator, NulFree.isoformat _, NulFree.isoformat _, hdecider, nulFree_dumpInstant? _, hcomment,
    hreason⟩

/-! ## A create -/

/-- The entries of indexes that have texts of the caller of a create. -/
def createEntries (ws requestId key : String) (p : ApprovalRequestCreate) : List (List String) :=
  [[ws], [ws, requestId], [ws, "create", key]] ++
    p.reviewerUserIds.map (fun user => [ws, requestId, user])

section Create

variable {c : Creation}

theorem Creation.newRows_texts (henv : c.env.Bindable pg) (hfp : NulFree c.fingerprint)
    (hws : NulFree c.workspaceId) (hkey : NulFree c.idempotencyKey) (hactor : NulFree c.actorUserId)
    (htexts : ∀ t ∈ c.payload.texts, NulFree t) : ∀ row ∈ c.newRows, ∀ t ∈ row.texts, NulFree t := by
  simp only [ApprovalRequestCreate.texts, List.forall_mem_cons, List.forall_mem_append,
    Option.mem_toList] at htexts
  obtain ⟨hsource, htitle, hdescription, hreviewers⟩ := htexts
  have hid : NulFree c.requestId := henv.requestId
  intro row hrow
  rcases List.mem_cons.mp hrow with rfl | hrow
  · simp only [NewRow.texts, row, List.forall_mem_cons, List.forall_mem_append, Option.mem_toList]
    have hnil : ∀ t ∈ ([] : List String), NulFree t := fun _ h => absurd h List.not_mem_nil
    have hnone : ∀ t, (none : Option String) = some t → NulFree t := fun _ h => by cases h
    exact ⟨⟨⟨⟨⟨⟨hid, hws, NulFree.sourceType _, hsource, htitle, hnil⟩, hdescription⟩,
      NulFree.status _, hactor, hnil⟩, hnone⟩, hnone⟩, hnone⟩
  rcases List.mem_append.mp hrow with hrow | hrow
  · obtain ⟨r, hr, rfl⟩ := List.mem_map.mp hrow
    obtain ⟨user, huser, rfl⟩ := List.mem_map.mp hr
    simp only [NewRow.texts, List.forall_mem_cons]
    exact ⟨hws, hid, hreviewers user huser, fun _ h => absurd h List.not_mem_nil⟩
  simp only [List.mem_cons, List.not_mem_nil, or_false] at hrow
  obtain rfl | rfl | rfl := hrow
  · simp +decide [NewRow.texts, auditEntry, Json.texts, Json.fieldTexts, hws, hid, hactor, hsource,
      htitle, henv.auditId, NulFree.sourceType]
  · simp +decide [NewRow.texts, event, Json.texts, Json.fieldTexts, hws, hid, hsource, henv.eventId,
      NulFree.sourceType]
    exact hreviewers
  · refine List.forall_mem_append.mpr ⟨?_, ?_⟩
    · simp +decide [ledgerRow, hws, hkey, hfp]
    · exact nulFree_modelDump hid hws hsource htitle hdescription hreviewers hactor
        (fun _ h => by cases h) (fun _ h => by cases h) (fun _ h => by cases h)

/-- The entries of indexes that a create makes are those, and those of the ids it generates. -/
theorem Creation.entries_iff (henv : c.env.Bindable pg) :
    (∀ row ∈ c.newRows, ∀ e ∈ row.indexEntries, pg.indexes e = true) ↔
      ∀ e ∈ createEntries c.workspaceId c.requestId c.idempotencyKey c.payload,
        pg.indexes e = true := by
  constructor
  · intro h
    have hrow := h (.approvalRequest c.row) List.mem_cons_self
    have hledger := h (.idempotencyKey c.ledgerRow) (by simp [newRows])
    simp only [createEntries, List.cons_append, List.nil_append, List.forall_mem_cons]
    refine ⟨hrow _ (by simp [NewRow.indexEntries, row]), hrow _ (by simp [NewRow.indexEntries, row]),
      hledger _ List.mem_cons_self, fun e he => ?_⟩
    obtain ⟨user, huser, rfl⟩ := List.mem_map.mp he
    refine h (.reviewer ⟨c.workspaceId, c.requestId, user⟩) ?_ _ List.mem_cons_self
    exact List.mem_cons_of_mem _ (List.mem_append_left _
      (List.mem_map_of_mem (List.mem_map_of_mem huser)))
  · intro h
    simp only [createEntries, List.cons_append, List.nil_append, List.forall_mem_cons] at h
    obtain ⟨hws, hrequest, hledger, hreviewers⟩ := h
    have hnil : ∀ e ∈ ([] : List (List String)), pg.indexes e = true :=
      fun _ he => absurd he List.not_mem_nil
    intro row hrow
    rcases List.mem_cons.mp hrow with rfl | hrow
    · simp only [NewRow.indexEntries, List.forall_mem_cons]
      exact ⟨henv.requestIndexed, hrequest, hws, hnil⟩
    rcases List.mem_append.mp hrow with hrow | hrow
    · obtain ⟨r, hr, rfl⟩ := List.mem_map.mp hrow
      obtain ⟨user, huser, rfl⟩ := List.mem_map.mp hr
      exact List.forall_mem_singleton.mpr (hreviewers _ (List.mem_map_of_mem huser))
    simp only [List.mem_cons, List.not_mem_nil, or_false] at hrow
    obtain rfl | rfl | rfl := hrow
    · simp only [NewRow.indexEntries, List.forall_mem_cons]
      exact ⟨henv.auditIndexed, hrequest, hnil⟩
    · exact List.forall_mem_singleton.mpr henv.eventIndexed
    · exact List.forall_mem_singleton.mpr hledger

/-- **What a create needs**: the texts of its path, its key, its caller and its body, and room in
the indexes for the ids among them. -/
theorem Creation.sends_bindable (henv : c.env.Bindable pg) (hfp : NulFree c.fingerprint) :
    (∀ s ∈ c.sends, s.Bindable pg) ↔ NulFree c.workspaceId ∧ NulFree c.idempotencyKey ∧
      NulFree c.actorUserId ∧ (∀ t ∈ c.payload.texts, NulFree t) ∧
        ∀ e ∈ createEntries c.workspaceId c.requestId c.idempotencyKey c.payload,
          pg.indexes e = true := by
  constructor
  · intro h
    have hkey : (Statement.selectKey c.workspaceId "create" c.idempotencyKey).Bindable pg :=
      h _ List.mem_cons_self
    have hrows : ∀ row ∈ c.newRows, row.Bindable pg := by
      intro row hrow
      refine Statement.bindable_insert.mp (h _ (List.mem_cons_of_mem _ ?_))
      have hsplit : row ∈ c.firstRows ++ c.lastRows := hrow
      rcases List.mem_append.mp hsplit with hfirst | hlast
      · exact List.mem_append_left _ (List.mem_append_left _ (List.mem_map_of_mem hfirst))
      · exact List.mem_append_right _ (List.mem_map_of_mem hlast)
    have hrow := (hrows (.approvalRequest c.row) List.mem_cons_self).texts
    have hreviewer : ∀ user ∈ c.payload.reviewerUserIds, NulFree user := by
      intro user huser
      refine (hrows (.reviewer ⟨c.workspaceId, c.requestId, user⟩) ?_).texts user
        (by simp [NewRow.texts])
      exact List.mem_cons_of_mem _ (List.mem_append_left _
        (List.mem_map_of_mem (List.mem_map_of_mem huser)))
    refine ⟨hkey.texts _ (by simp [Statement.texts]), hkey.texts _ (by simp [Statement.texts]),
      hrow _ (by simp [NewRow.texts, row]), ?_,
      (entries_iff henv).mp fun row hr => (hrows row hr).entries⟩
    simp only [ApprovalRequestCreate.texts, List.forall_mem_cons, List.forall_mem_append]
    refine ⟨hrow _ (by simp [NewRow.texts, row]), hrow _ (by simp [NewRow.texts, row]),
      fun t ht => hrow t ?_, hreviewer⟩
    simp only [NewRow.texts, row, List.mem_append]
    tauto
  · rintro ⟨hws, hkey, hactor, htexts, hentries⟩ s hs
    have hrows : ∀ row ∈ c.newRows, row.Bindable pg := fun row hrow =>
      ⟨newRows_texts henv hfp hws hkey hactor htexts row hrow,
        (entries_iff henv).mpr hentries row hrow⟩
    simp only [sends, List.mem_cons, List.mem_append, List.mem_map, List.not_mem_nil,
      or_false] at hs
    rcases hs with rfl | (⟨row, hrow, rfl⟩ | rfl) | ⟨row, hrow, rfl⟩
    · refine ⟨?_, fun _ hn => absurd hn List.not_mem_nil, fun _ he => absurd he List.not_mem_nil⟩
      simp +decide [Statement.texts, hws, hkey]
    · exact Statement.bindable_insert.mpr (hrows row (List.mem_append_left c.lastRows hrow))
    · exact Statement.bindable_log _
    · exact Statement.bindable_insert.mpr (hrows row (List.mem_append_right c.firstRows hrow))

end Create

/-! ## Reads and lookups -/

section Reads

variable {σ : Store} {env : Env} {ws id : String}

/-- Statements that bind no integers and insert nothing. -/
theorem Statement.bindable_iff {s : Statement} (h : s.integers = []) (h' : s.indexEntries = []) :
    s.Bindable pg ↔ ∀ t ∈ s.texts, NulFree t :=
  ⟨Bindable.texts, fun ht => ⟨ht, fun _ hn => absurd hn (h ▸ List.not_mem_nil),
    fun _ he => absurd he (h' ▸ List.not_mem_nil)⟩⟩

theorem Store.Clean.shown (hσ : σ.Clean pg) (env : Env) (site : Nat) (row : ApprovalRequestRow) :
    ∀ t ∈ σ.shown env site row, NulFree t := by
  intro t ht
  obtain ⟨r, hr, rfl⟩ := List.mem_map.mp ((σ.shown_perm env site row).mem_iff.mp ht)
  exact (hσ.reviewer (List.mem_of_mem_filter hr)).texts r.reviewerUserId (by simp [NewRow.texts])

theorem reads_bindable (site : Nat) :
    (∀ s ∈ σ.reads env site ws id, s.Bindable pg) ↔ NulFree ws ∧ NulFree id := by
  have hselect : (Statement.selectRequest ws id).Bindable pg ↔ NulFree ws ∧ NulFree id := by
    rw [Statement.bindable_iff rfl rfl]
    simp [Statement.texts]
  rw [Store.reads, List.forall_mem_cons, hselect]
  refine ⟨And.left, fun h => ⟨h, ?_⟩⟩
  intro s hs
  obtain ⟨row, hrow, rfl⟩ := List.mem_map.mp hs
  obtain ⟨-, rfl, rfl⟩ := Store.request?_some (Option.mem_toList.mp hrow)
  rw [Statement.bindable_iff rfl rfl]
  simpa [Statement.texts] using h

/-- A list needs an offset that fits. -/
theorem lists_bindable (hσ : σ.Clean pg) {filter : Option ApprovalStatus} {limit offset : Nat} :
    (∀ s ∈ σ.lists env ws filter limit offset, s.Bindable pg) ↔
      NulFree ws ∧ limit < 2 ^ 63 ∧ offset < 2 ^ 63 := by
  have hstatus : ∀ t ∈ filter.toList.map ApprovalStatus.value, NulFree t := by
    intro t ht
    obtain ⟨s, -, rfl⟩ := List.mem_map.mp ht
    exact NulFree.status s
  have hcount : (Statement.countRequests ws filter).Bindable pg ↔ NulFree ws := by
    rw [Statement.bindable_iff rfl rfl, Statement.texts, List.forall_mem_cons]
    exact and_iff_left hstatus
  have hpage : (Statement.selectPage ws filter limit offset).Bindable pg ↔
      NulFree ws ∧ limit < 2 ^ 63 ∧ offset < 2 ^ 63 := by
    constructor
    · intro h
      exact ⟨h.texts ws List.mem_cons_self, h.integers limit List.mem_cons_self,
        h.integers offset (List.mem_cons_of_mem _ List.mem_cons_self)⟩
    · rintro ⟨hws, hlimit, hoffset⟩
      refine ⟨List.forall_mem_cons.mpr ⟨hws, hstatus⟩, ?_, fun _ he => absurd he List.not_mem_nil⟩
      exact List.forall_mem_cons.mpr ⟨hlimit, List.forall_mem_singleton.mpr hoffset⟩
  have hrows : ∀ row ∈ σ.page ws filter limit offset, NulFree row.workspaceId ∧ NulFree row.id := by
    intro row hrow
    have hmem : row ∈ σ.approvalRequests  :=
      (Store.mem_matching.mp (Store.mem_of_mem_page hrow)).1
    have hbindable := (hσ.request hmem).texts
    exact ⟨hbindable _ (by simp [NewRow.texts]), hbindable _ (by simp [NewRow.texts])⟩
  rw [Store.lists, List.forall_mem_cons, List.forall_mem_cons, hcount, hpage]
  refine ⟨fun h => h.2.1, fun h => ⟨h.1, h, ?_⟩⟩
  split_ifs
  · exact fun _ hs => absurd hs List.not_mem_nil
  · rw [List.forall_mem_singleton, Statement.bindable_iff rfl rfl]
    intro t ht
    obtain ⟨key, hkey, ht⟩ := List.mem_flatMap.mp ht
    obtain ⟨row, hrow, rfl⟩ := List.mem_map.mp hkey
    have hboth := hrows row hrow
    simp only [List.mem_cons, List.not_mem_nil, or_false] at ht
    rcases ht with rfl | rfl
    · exact hboth.1
    · exact hboth.2

/-- A call without a key needs nothing for its lookup. -/
theorem keyLookup_bindable {route : String} {key : Option String} :
    (∀ s ∈ keyLookup ws route key, s.Bindable pg) ↔
      ∀ k ∈ key, NulFree ws ∧ NulFree route ∧ NulFree k := by
  cases key with
  | none => simp [keyLookup]
  | some k =>
    rw [keyLookup, Option.toList_some, List.map_singleton, List.forall_mem_singleton,
      Statement.bindable_iff rfl rfl]
    simp [Statement.texts]

end Reads

/-! ## A decision -/

section Decide

variable {σ : Store} {v : Verdict} {ws id : String} {row : ApprovalRequestRow}

/-- The texts that a decision brings along. -/
def Verdict.texts (v : Verdict) : List String :=
  v.actorUserId :: (v.comment.toList ++ v.reason.toList)

theorem decides_bindable (site : Nat) : (∀ s ∈ v.decides σ site ws id, s.Bindable pg) ↔
    NulFree ws ∧ NulFree id ∧ ∀ t ∈ v.texts, NulFree t := by
  have hupdate : (Statement.updatePending ws id v.values).Bindable pg ↔
      NulFree ws ∧ NulFree id ∧ ∀ t ∈ v.texts, NulFree t := by
    rw [Statement.bindable_iff rfl rfl]
    simp only [Statement.texts, DecisionValues.texts, Verdict.values, Verdict.texts,
      List.forall_mem_cons]
    have := NulFree.status v.decision.newStatus
    tauto
  rw [Verdict.decides, List.forall_mem_cons, hupdate, reads_bindable]
  tauto

theorem nulFree_decisionDetails {comment reason : Option String}
    (hcomment : ∀ t ∈ comment, NulFree t) (hreason : ∀ t ∈ reason, NulFree t) :
    ∀ t ∈ (decisionDetails comment reason).toList.flatMap Json.texts, NulFree t := by
  cases comment <;> cases reason <;>
    simp +decide [decisionDetails, Json.texts, Json.fieldTexts] <;> simp_all

theorem nulFree_route {d : Decision} : NulFree (d.route id) ↔ NulFree id := by
  have hname : NulFree d.routeName := by cases d <;> decide
  rw [Decision.route, NulFree.append, NulFree.append]
  exact and_iff_right ⟨hname, by decide⟩

theorem Verdict.newRows_bindable (hσ : σ.Clean pg) (hrow : σ.request? ws id = some row)
    (henv : v.env.Bindable pg) (hws : NulFree ws) (hid : NulFree id)
    (htexts : ∀ t ∈ v.texts, NulFree t)
    (hkey : ∀ k ∈ v.key, NulFree k.1 ∧ NulFree k.2 ∧
      pg.indexes [ws, v.decision.route id, k.1] = true) (hshown : ∀ t ∈ v.shown, NulFree t) :
    ∀ r ∈ v.newRows ws id row, r.Bindable pg := by
  simp only [Verdict.texts, List.forall_mem_cons, List.forall_mem_append, Option.mem_toList] at htexts
  obtain ⟨hactor, hcomment, hreason⟩ := htexts
  obtain ⟨hmem, rfl, rfl⟩ := Store.request?_some hrow
  have hold := (hσ.request hmem).texts
  have hindexed : pg.indexes [row.workspaceId, row.id] = true :=
    (hσ.request hmem).entries _ (by simp [NewRow.indexEntries])
  intro r hr
  rcases List.mem_cons.mp hr with rfl | hr
  · constructor
    · refine List.forall_mem_append.mpr ⟨?_, nulFree_decisionDetails hcomment hreason⟩
      simp only [auditEntry, List.forall_mem_cons]
      exact ⟨henv.auditId, hws, hid, hactor, NulFree.auditAction _,
        fun _ h => absurd h List.not_mem_nil⟩
    · exact List.forall_mem_cons.mpr ⟨henv.auditIndexed, List.forall_mem_singleton.mpr hindexed⟩
  rcases List.mem_cons.mp hr with rfl | hr
  · have hstatus := NulFree.status v.decision.newStatus
    have hevent := NulFree.eventType v.decision.eventType
    refine ⟨?_, List.forall_mem_singleton.mpr henv.eventIndexed⟩
    simp +decide [NewRow.texts, event, decisionPayload, Json.texts, Json.fieldTexts, hws, hid,
      hactor, henv.eventId, hstatus, hevent]
  obtain ⟨r', hr', rfl⟩ := List.mem_map.mp hr
  obtain ⟨k, fp, hk, rfl⟩ := ledgerRow?_some (Option.mem_toList.mp hr')
  obtain ⟨hk, hfp, hentry⟩ := hkey _ hk
  refine ⟨List.forall_mem_append.mpr ⟨?_, ?_⟩, List.forall_mem_singleton.mpr hentry⟩
  · simp only [List.forall_mem_cons]
    exact ⟨hws, nulFree_route.mpr hid, hk, hfp, fun _ h => absurd h List.not_mem_nil⟩
  · have hdecider : ∀ t ∈ some v.actorUserId, NulFree t := fun t ht => Option.some.inj ht ▸ hactor
    refine nulFree_modelDump hid hws ?_ ?_ ?_ hshown ?_ hdecider hcomment hreason
    · exact hold row.sourceId (by simp [NewRow.texts])
    · exact hold row.title (by simp [NewRow.texts])
    · intro t ht
      have ht : row.description = some t := ht
      exact hold t (by simp [NewRow.texts, ht])
    · exact hold row.createdByUserId (by simp [NewRow.texts])

/-- **What a decision needs** that goes through. -/
theorem Verdict.sends_bindable (hσ : σ.Clean pg) (hrow : σ.request? ws id = some row)
    (henv : v.env.Bindable pg) {sha256 : String → String} (hsha : ∀ s, NulFree (sha256 s))
    {key : Option String} {payload : Json}
    (hkey : v.key = key.map (fun k => (k, Idempotency.fingerprint sha256 payload)))
    (hshown : v.shown = σ.shown v.env 1 row) :
    (∀ s ∈ v.sends σ ws id row key, s.Bindable pg) ↔
      NulFree ws ∧ NulFree id ∧ (∀ k ∈ key, NulFree k) ∧ (∀ t ∈ v.texts, NulFree t) ∧
        ∀ k ∈ key, pg.indexes [ws, v.decision.route id, k] = true := by
  simp only [sends, List.forall_mem_append, List.forall_mem_singleton, keyLookup_bindable,
    reads_bindable, decides_bindable, nulFree_route, Statement.bindable_log]
  constructor
  · rintro ⟨hlookup, ⟨⟨hws, hid⟩, ⟨-, -, htexts⟩, -⟩, hrows⟩
    refine ⟨hws, hid, fun k hk => (hlookup k hk).2.2, htexts, fun k hk => ?_⟩
    obtain ⟨r, hr⟩ : ∃ r, v.ledgerRow? ws id row = some r := by
      rw [ledgerRow?, hkey, hk]
      exact ⟨_, rfl⟩
    have hbindable := hrows (.insert (.idempotencyKey r))
      (List.mem_map_of_mem (by simp [newRows, hr]))
    obtain ⟨k', fp, hk', rfl⟩ := ledgerRow?_some hr
    rw [hkey, hk] at hk'
    obtain ⟨rfl, -⟩ := Prod.mk.inj (Option.some.inj hk')
    exact hbindable.entries _ List.mem_cons_self
  · rintro ⟨hws, hid, hkeys, htexts, hentries⟩
    refine ⟨fun k hk => ⟨hws, hid, hkeys k hk⟩, ⟨⟨hws, hid⟩, ⟨hws, hid, htexts⟩, trivial⟩, ?_⟩
    intro s hs
    obtain ⟨r, hr, rfl⟩ := List.mem_map.mp hs
    refine Statement.bindable_insert.mpr
      (newRows_bindable hσ hrow henv hws hid htexts ?_ ?_ r hr)
    · intro k hk
      rw [hkey] at hk
      obtain ⟨k', hk', rfl⟩ := Option.map_eq_some_iff.mp hk
      exact ⟨hkeys k' hk', hsha _, hentries k' hk'⟩
    · rw [hshown]
      exact hσ.shown v.env 1 row

end Decide

end ContentApproval
