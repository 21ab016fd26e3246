import ContentApproval.Specs.FreeText
import ContentApproval.Properties.Isolation

/-!
# Free text in events and logs

Titles, descriptions, comments and reasons reach neither the outbox nor the log
(`free_text_hidden`): two runs whose calls differ in nothing else leave the same events and
log the same records, although the texts decide whether a retry is replayed or refused.
-/

namespace ContentApproval

open Transactions

/-- What the calls logged that were served one after the other. -/
def logs (traceback : Call → String) (app : App) (calls : List Call) (σ : Store) :
    List LogRecord :=
  (calls.zip (serveAll approvalDb (calls.map (request app)) σ).2).flatMap
    (fun p => records traceback p.1 p.2)

/-- A call of the sequence ended in an unhandled exception. -/
def AnyUnhandled (app : App) (calls : List Call) (σ : Store) : Prop :=
  ∃ s ∈ (serveAll approvalDb (calls.map (request app)) σ).2, EndedUnhandled s.1

instance (app : App) (calls : List Call) (σ : Store) : Decidable (AnyUnhandled app calls σ) :=
  inferInstanceAs (Decidable (∃ s ∈ _, EndedUnhandled _))

section Serve

variable {app : App} {call call' : Call} {calls calls' : List Call} {σ τ : Store}
  {traceback traceback' : Call → String}

theorem logs_cons : logs traceback app (call :: calls) σ =
    records traceback call ((request app call).serve approvalDb σ).2 ++
      logs traceback app calls ((request app call).serve approvalDb σ).1 := rfl

theorem not_anyUnhandled_cons (h : ¬ AnyUnhandled app (call :: calls) σ) :
    ¬ EndedUnhandled ((request app call).serve approvalDb σ).2.1 ∧
      ¬ AnyUnhandled app calls ((request app call).serve approvalDb σ).1 :=
  ⟨fun hh => h ⟨_, List.mem_cons_self, hh⟩,
    fun ⟨s, hs, hh⟩ => h ⟨s, List.mem_cons_of_mem _ hs, hh⟩⟩

/-- One call. -/
theorem records_sameButText (hcall : call.SameButText call') (hσ : σ.SameButText τ)
    (h : ¬ EndedUnhandled ((request app call).serve approvalDb σ).2.1)
    (h' : ¬ EndedUnhandled ((request app call').serve approvalDb τ).2.1) :
    records traceback call ((request app call).serve approvalDb σ).2 =
      records traceback' call' ((request app call').serve approvalDb τ).2 := by
  unfold records
  rw [if_neg h, if_neg h', (serve_sameButText hcall hσ).2]

/-- **Run.** Databases that are the same but for text stay so, and the logs are the same. -/
theorem run_sameButText (hcalls : List.Forall₂ Call.SameButText calls calls')
    (hσ : σ.SameButText τ) (h : ¬ AnyUnhandled app calls σ) (h' : ¬ AnyUnhandled app calls' τ) :
    (after app calls σ).SameButText (after app calls' τ) ∧
      logs traceback app calls σ = logs traceback' app calls' τ := by
  induction hcalls generalizing σ τ with
  | nil => exact ⟨hσ, rfl⟩
  | cons hcall _ ih =>
    obtain ⟨hone, hrest⟩ := not_anyUnhandled_cons h
    obtain ⟨hone', hrest'⟩ := not_anyUnhandled_cons h'
    obtain ⟨hafter, hlogs⟩ := ih (serve_sameButText hcall hσ).1 hrest hrest'
    rw [after_cons, after_cons, logs_cons, logs_cons, hlogs]
    exact ⟨hafter, congrArg (· ++ _) (records_sameButText hcall hσ hone hone')⟩

end Serve

/-- **Free text never reaches events or logs.** Two runs from the same database make the same
calls but for titles, descriptions, comments and reasons, which pass validation in both or in
none of them, and no call ends in an unhandled exception. Then the outbox has the same events,
row by row, and the log the same records. -/
theorem free_text_hidden (app : App) {calls calls' : List Call} (σ : Store)
    (traceback traceback' : Call → String) (hcalls : List.Forall₂ Call.SameButText calls calls')
    (h : ¬ AnyUnhandled app calls σ) (h' : ¬ AnyUnhandled app calls' σ) :
    (after app calls σ).outboxEvents = (after app calls' σ).outboxEvents ∧
      logs traceback app calls σ = logs traceback' app calls' σ := by
  obtain ⟨hafter, hlogs⟩ := run_sameButText hcalls rfl h h'
  have hsame : (after app calls σ).withoutText = (after app calls' σ).withoutText := hafter
  have hevents := congrArg Store.outboxEvents hsame
  exact ⟨hevents, hlogs⟩

namespace Sample

/-- Alice's request under another title. -/
def relaunch (n : String) (key : String) (title : String) : Call where
  env := env n 1
  authorization := some aliceToken
  workspaceId := "ws_1"
  operation := .create (some key) (.json (.obj [("sourceType", .str "publication"),
    ("sourceId", .str "pub_1"), ("title", .str title), ("reviewerUserIds", .arr [.str "bob"])]))

/-- Bob's approval with a comment. -/
def comment (n : String) (text : String) : Call where
  env := env n 2
  authorization := some bobToken
  workspaceId := "ws_1"
  operation := .decide .approve launchId none (.json (.obj [("comment", .str text)]))

/-- A create, another one under its key, and an approval. -/
def texts (title text : String) : List Call :=
  [launch "1" "key-1", relaunch "2" "key-1" title, comment "3" text]

theorem texts_sameButText :
    List.Forall₂ Call.SameButText (texts "Launch" "Fine.") (texts "Relaunch" "Go ahead!") := by
  have hcreate : SameOutcome
      (fun p p' : ApprovalRequestCreate => p.withoutText = p'.withoutText)
      (some (.ok ⟨.publication, "pub_1", "Launch", none, ["bob"]⟩))
      (some (.ok ⟨.publication, "pub_1", "Relaunch", none, ["bob"]⟩)) := .accepted rfl
  have happrove : SameOutcome (fun _ _ : DecisionBody => True)
      (some (.ok ⟨some "Fine.", none, .obj [("comment", .str "Fine.")]⟩))
      (some (.ok ⟨some "Go ahead!", none, .obj [("comment", .str "Go ahead!")]⟩)) :=
    .accepted trivial
  refine .cons (.refl _) (.cons ?_ (.cons ?_ .nil))
  · exact ⟨rfl, rfl, rfl, .create _ hcreate⟩
  · exact ⟨rfl, rfl, rfl, .decide _ _ _ happrove⟩

end Sample

/-- With the same title the second create is replayed, with another one it is refused. -/
theorem free_text_hidden_sample :
    Sample.statuses (Sample.texts "Launch" "Fine.") = [some 201, some 201, some 200] ∧
      Sample.statuses (Sample.texts "Relaunch" "Go ahead!") = [some 201, some 409, some 200] ∧
      (after Sample.app (Sample.texts "Launch" "Fine.") .empty).outboxEvents =
        (after Sample.app (Sample.texts "Relaunch" "Go ahead!") .empty).outboxEvents ∧
      logs (fun _ => "") Sample.app (Sample.texts "Launch" "Fine.") .empty =
        logs (fun _ => "") Sample.app (Sample.texts "Relaunch" "Go ahead!") .empty := by
  refine ⟨by decide +kernel, by decide +kernel, ?_⟩
  exact free_text_hidden Sample.app .empty _ _ Sample.texts_sameButText (by decide +kernel)
    (by decide +kernel)

end ContentApproval
