import ContentApproval.Properties.Finality
import ContentApproval.Specs.Agreement
import ContentApproval.Specs.Undisturbed

/-!
# The normal form of a create body

A create body is accepted exactly if its fields are allowed and the strings that have a
length are Unicode text; the payload has the trimmed fields, is accepted as itself, and its
reviewer rows never violate their primary key (`create_body_normalization`).
-/

namespace ContentApproval

open Transactions SqlApprovalRequestRepository AsyncSession

/-! ## Inserting a request under a fresh id -/

section Insert

variable {σ : Store} {env : Env} {id ws user : String} {p : ApprovalRequestCreate}

theorem run_create (h : σ.Unused ws id) (hdistinct : p.reviewerUserIds.Nodup) :
    (create env id ws user p.sourceType p.sourceId p.title p.description p.reviewerUserIds []).run
      approvalDb σ [] = ⟨.ok (toEntity fresh (createdRow env id ws user p) p.reviewerUserIds, []),
        (createdRows env id ws user p).map .insert, (createdRows env id ws user p).map .insert⟩ := by
  rw [create_eq]
  refine (Prog.run_bind_ok (run_insertAll (δ := []) (h.admits hdistinct)) rfl).trans ?_
  exact congrArg (Outcome.mk _ _) (List.append_nil _)

end Insert

namespace Values

open PyStr Errors

/-- **What a create body is accepted as.** A body with string fields is accepted exactly if its
fields are allowed, on the raw strings for the lengths and on the trimmed ones for the rest,
and its source id, title and description are Unicode text. The payload has the trimmed
strings and the trimmed reviewer ids in their order. It is accepted again as itself, both as it
is dumped and in any other body that has its fields. The keys of its reviewer rows are distinct,
and to insert it under a fresh id succeeds. -/
theorem create_body_normalization (raw : RawCreate) (entries : List (PyStr × PyValue))
    (hraw : raw.In entries) :
    ((∃ p, ApprovalRequestCreate.modelValidate entries = .ok p) ↔ raw.Allowed ∧ raw.IsText) ∧
    ∀ p, ApprovalRequestCreate.modelValidate entries = .ok p → raw.NormalForm p ∧
      ApprovalRequestCreate.modelValidate p.modelDump = .ok p ∧
      (∀ again, p.raw.In again → ApprovalRequestCreate.modelValidate again = .ok p) ∧
      ∀ (ws id : String), (p.reviewerUserIds.map (fun user => (ws, id, user))).Nodup ∧
        ∀ stored, ofPayload stored = p → ∀ (env : Env) (user : String) (σ : Store), σ.Unused ws id →
          (create env id ws user stored.sourceType stored.sourceId stored.title stored.description
            stored.reviewerUserIds []).run approvalDb σ [] =
            ⟨.ok (toEntity fresh (createdRow env id ws user stored) stored.reviewerUserIds, []),
              (createdRows env id ws user stored).map .insert,
              (createdRows env id ws user stored).map .insert⟩ := by
  constructor
  · constructor
    · rintro ⟨p, hp⟩
      exact ((modelValidate_iff hraw).mp hp).1
    · intro hok
      obtain ⟨p, hp⟩ := RawCreate.exists_normalForm hok.1 hok.2
      exact ⟨p, (modelValidate_iff hraw).mpr ⟨hok, hp⟩⟩
  · intro p hp
    obtain ⟨hok, hnormal⟩ := (modelValidate_iff hraw).mp hp
    have hagain : ∀ again, p.raw.In again → ApprovalRequestCreate.modelValidate again = .ok p :=
      fun again h => (modelValidate_iff h).mpr (hnormal.stable hok.1)
    have hdistinct : p.reviewerUserIds.Nodup := by
      rw [hnormal.reviewerUserIds]
      exact hok.1.reviewers_distinct
    refine ⟨hnormal, hagain _ p.raw_in_modelDump, hagain, fun ws id => ⟨?_, ?_⟩⟩
    · exact hdistinct.map fun user user' h => (Prod.mk.inj (Prod.mk.inj h).2).2
    · rintro stored rfl env user σ hσ
      exact run_create hσ (List.Nodup.of_map ofString hdistinct)

namespace Sample

/-- A title with blanks around it, and two reviewers. -/
def padded : RawCreate :=
  ⟨ofString "edit", ofString "e1 ", ofString " Fix a typo\n", none,
    [ofString " bob", ofString "carol\t"]⟩

def paddedBody : List (PyStr × PyValue) :=
  [(ofString "sourceType", .str padded.sourceType), (ofString "sourceId", .str padded.sourceId),
    (ofString "title", .str padded.title),
    (ofString "reviewerUserIds", .list (padded.reviewerUserIds.map .str))]

/-- A source id that is one surrogate. -/
def surrogate : RawCreate := ⟨ofString "edit", [0xd800], ofString "t", none, []⟩

def surrogateBody : List (PyStr × PyValue) :=
  [(ofString "sourceType", .str surrogate.sourceType), (ofString "sourceId", .str surrogate.sourceId),
    (ofString "title", .str surrogate.title)]

end Sample

theorem nonblank_of_mem {s : String} {c : Char} (hc : c ∈ s.toList)
    (h : ContentApproval.isSpace c = false) : ∃ c ∈ ofString s, PyStr.isSpace c = false :=
  ⟨codePoint c, List.mem_map_of_mem hc, (isSpace_codePoint c).trans h⟩

theorem Sample.padded_reviewers :
    Sample.padded.reviewerUserIds.map PyStr.strip = [ofString "bob", ofString "carol"] := by
  have hbob : ContentApproval.strip " bob" = "bob" := by decide +kernel
  have hcarol : ContentApproval.strip "carol\t" = "carol" := by decide +kernel
  simp only [Sample.padded, List.map_cons, List.map_nil, strip_ofString, hbob, hcarol]

theorem Sample.padded_allowed : Sample.padded.Allowed := by
  have hreviewers := Sample.padded_reviewers
  refine ⟨⟨.edit, rfl⟩, by decide, nonblank_of_mem (c := 'e') (by decide) (by decide), by decide,
    nonblank_of_mem (c := 'F') (by decide) (by decide), by decide, ?_, ?_⟩
  · intro id hid hnil
    have hmem : PyStr.strip id ∈ Sample.padded.reviewerUserIds.map PyStr.strip :=
      List.mem_map_of_mem hid
    rw [hreviewers, hnil] at hmem
    exact absurd hmem (by decide)
  · rw [hreviewers]
    decide

theorem create_body_normalization_sample :
    ∃ p, ApprovalRequestCreate.modelValidate Sample.paddedBody = .ok p ∧
      ofString p.title = PyStr.strip Sample.padded.title ∧
      ApprovalRequestCreate.modelValidate p.modelDump = .ok p := by
  have hraw : Sample.padded.In Sample.paddedBody := ⟨rfl, rfl, rfl, Or.inr ⟨rfl, rfl⟩, Or.inl rfl⟩
  obtain ⟨hiff, hnormal⟩ := create_body_normalization Sample.padded Sample.paddedBody hraw
  obtain ⟨p, hp⟩ := hiff.mpr ⟨Sample.padded_allowed, encodable_ofString _, encodable_ofString _,
    by decide⟩
  obtain ⟨hform, hdump, -⟩ := hnormal p hp
  exact ⟨p, hp, hform.title, hdump⟩

/-- `{"sourceType": "edit", "sourceId": "\ud800", "title": "t"}` is allowed, but rejected. -/
theorem surrogate_rejected : Sample.surrogate.In Sample.surrogateBody ∧ Sample.surrogate.Allowed ∧
    ¬ ∃ p, ApprovalRequestCreate.modelValidate Sample.surrogateBody = .ok p := by
  have hraw : Sample.surrogate.In Sample.surrogateBody :=
    ⟨rfl, rfl, rfl, Or.inr ⟨rfl, rfl⟩, Or.inr ⟨rfl, rfl⟩⟩
  have hspace : PyStr.isSpace 0xd800 = false := isSpace_of_isSurrogate (by decide)
  refine ⟨hraw, ⟨⟨.edit, rfl⟩, by decide, ⟨_, List.mem_cons_self, hspace⟩, by decide,
    nonblank_of_mem (c := 't') (by decide) (by decide), by decide, by decide, by decide⟩, ?_⟩
  rintro ⟨p, hp⟩
  have htext := ((modelValidate_iff hraw).mp hp).1.2.sourceId
  exact absurd htext (by decide +kernel)

end Values

end ContentApproval
