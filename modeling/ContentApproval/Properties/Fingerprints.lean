import ContentApproval.Json.Reading
import ContentApproval.Properties.Credentials
import ContentApproval.Specs.Agreement
import ContentApproval.Specs.Payloads

/-!
# What a fingerprint identifies

The fingerprint of an accepted body is to identify its normalized payload. That of a decision
does. That of a create does unless the two payloads differ only in the spelling of their
reviewer ids (`Respelled`): where one id has a code point above `U+FFFF`, another may have
its two surrogates, and `json.dumps` writes both in the same way (`fingerprint_identifies`).
-/

namespace ContentApproval

namespace Values

open PyStr Json.Reader Idempotency

/-- The hash tells the two texts apart. -/
def CollisionFree (sha256 : String → String) (s t : String) : Prop := sha256 s = sha256 t → s = t

/-- The reviewer ids differ, but spell the same UTF-16 code units, and all else is equal. -/
structure ApprovalRequestCreate.Respelled (p q : ApprovalRequestCreate) : Prop where
  differ : p.reviewerUserIds ≠ q.reviewerUserIds
  units : p.SameUnits q

section Payloads

variable {p q : ApprovalRequestCreate}

/-- Payloads of the same units are equal unless they are respelled. -/
theorem ApprovalRequestCreate.SameUnits.eq_iff (h : p.SameUnits q) : p = q ↔ ¬ p.Respelled q := by
  constructor
  · rintro rfl hrespelled
    exact hrespelled.differ rfl
  · intro hrespelled
    have hids : p.reviewerUserIds = q.reviewerUserIds := by
      by_contra hne
      exact hrespelled ⟨hne, h⟩
    obtain ⟨htype, hid, htitle, hdescription, -⟩ := h
    cases p
    cases q
    simp only [ApprovalRequestCreate.mk.injEq]
    exact ⟨htype, hid, htitle, hdescription, hids⟩

theorem ApprovalRequestCreate.SameUnits.refl (p : ApprovalRequestCreate) : p.SameUnits p :=
  ⟨rfl, rfl, rfl, rfl, rfl⟩

/-- Lists of texts are determined by the code units of their items. -/
theorem map_utf16_injOn {ids ids' : List PyStr} (hids : ∀ id ∈ ids, id.Encodable)
    (hids' : ∀ id ∈ ids', id.Encodable) (h : ids.map utf16 = ids'.map utf16) : ids = ids' := by
  induction ids generalizing ids' with
  | nil => exact (List.map_eq_nil_iff.mp h.symm).symm
  | cons id ids ih =>
    cases ids' with
    | nil => cases h
    | cons id' ids' =>
      rw [List.forall_mem_cons] at hids hids'
      obtain ⟨hunits, hmore⟩ := List.cons.inj h
      rw [utf16_injOn hids.1 hids'.1 hunits, ih hids.2 hids'.2 hmore]

/-- Ids without surrogates have one spelling. -/
theorem not_respelled (hp : ∀ id ∈ p.reviewerUserIds, id.Encodable)
    (hq : ∀ id ∈ q.reviewerUserIds, id.Encodable) : ¬ p.Respelled q :=
  fun h => h.differ (map_utf16_injOn hp hq h.units.reviewerUserIds)

end Payloads

section Fingerprints

variable {sha256 : String → String}

theorem fingerprintValue_eq_iff {v w : PyValue} (h : CollisionFree sha256 v.canonical w.canonical) :
    fingerprintValue sha256 v = fingerprintValue sha256 w ↔ v.canonical = w.canonical :=
  ⟨h, congrArg sha256⟩

theorem fingerprint_create_iff {p q : ApprovalRequestCreate}
    (h : CollisionFree sha256 (PyValue.canonical (.dict p.modelDump))
      (PyValue.canonical (.dict q.modelDump))) :
    (fingerprintValue sha256 (.dict p.modelDump) = fingerprintValue sha256 (.dict q.modelDump) ↔
      p = q) ↔ ¬ p.Respelled q := by
  rw [fingerprintValue_eq_iff h, canonical_eq_iff]
  constructor
  · intro hiff hrespelled
    have hsame := hiff.mp hrespelled.units
    exact hrespelled.differ (congrArg _ hsame)
  · intro hrespelled
    constructor
    · exact fun hunits => hunits.eq_iff.mpr hrespelled
    · rintro rfl
      exact .refl p

/-- The accepted payloads are equal exactly if their bodies differ at most in whitespace. -/
theorem create_eq_iff {entries entries' : List (PyStr × PyValue)} {p q : ApprovalRequestCreate}
    (hp : ApprovalRequestCreate.modelValidate entries = .ok p)
    (hq : ApprovalRequestCreate.modelValidate entries' = .ok q) :
    ∃ raw raw' : RawCreate, raw.In entries ∧ raw'.In entries' ∧ (p = q ↔ raw.Same raw') := by
  obtain ⟨raw, hraw⟩ := exists_raw hp
  obtain ⟨raw', hraw'⟩ := exists_raw hq
  have hform := ((modelValidate_iff hraw).mp hp).2
  have hform' := ((modelValidate_iff hraw').mp hq).2
  exact ⟨raw, raw', hraw, hraw', hform.eq_iff hform'⟩

/-- A dump whose canonical text determines the payload has a fingerprint that does. -/
theorem fingerprint_iff {α : Type} {dump : α → Json} {p q : α}
    (hdump : (dump p).canonical = (dump q).canonical → p = q)
    (h : CollisionFree sha256 (dump p).canonical (dump q).canonical) :
    fingerprint sha256 (dump p) = fingerprint sha256 (dump q) ↔ p = q := by
  constructor
  · intro hsame
    exact hdump (h hsame)
  · rintro rfl
    rfl

/-- The accepted reasons are equal exactly if they are the same after trimming. -/
theorem reason_eq_iff {entries entries' : List (PyStr × PyValue)} {p q : DecisionReasonRequest}
    (hp : DecisionReasonRequest.modelValidate entries = .ok p)
    (hq : DecisionReasonRequest.modelValidate entries' = .ok q) :
    ∃ s s', lookupEntry entries "reason" "reason" = some (.str s) ∧
      lookupEntry entries' "reason" "reason" = some (.str s') ∧
      (p = q ↔ PyStr.strip s = PyStr.strip s') := by
  obtain ⟨s, hs, hreason⟩ := exists_reason hp
  obtain ⟨s', hs', hreason'⟩ := exists_reason hq
  refine ⟨s, s', hs, hs', ?_⟩
  rw [← hreason, ← hreason', ofString_injective.eq_iff]
  cases p
  cases q
  exact ⟨fun h => by cases h; rfl, fun h => by cases h; rfl⟩

end Fingerprints

/-- **What a fingerprint identifies.** Two accepted create bodies have equal fingerprints
exactly if their payloads are equal, provided that the payloads are not respelled, and they
are never respelled if no reviewer id has a surrogate. The payloads of two accepted decisions are
identified without a condition. Equal payloads are those of bodies that differ at most in the
whitespace around their trimmed fields, and the order of the keys does not matter. -/
theorem fingerprint_identifies (sha256 : String → String) :
    (∀ (entries entries' : List (PyStr × PyValue)) (p q : ApprovalRequestCreate),
      ApprovalRequestCreate.modelValidate entries = .ok p →
      ApprovalRequestCreate.modelValidate entries' = .ok q →
      CollisionFree sha256 (PyValue.canonical (.dict p.modelDump))
        (PyValue.canonical (.dict q.modelDump)) →
      ((fingerprintValue sha256 (.dict p.modelDump) = fingerprintValue sha256 (.dict q.modelDump) ↔
        p = q) ↔ ¬ p.Respelled q) ∧
      ((∀ id ∈ p.reviewerUserIds, id.Encodable) → (∀ id ∈ q.reviewerUserIds, id.Encodable) →
        ¬ p.Respelled q) ∧
      ∃ raw raw' : RawCreate, raw.In entries ∧ raw'.In entries' ∧ (p = q ↔ raw.Same raw')) ∧
    (∀ (entries entries' : List (PyStr × PyValue)) (p q : ApproveRequest),
      ApproveRequest.modelValidate entries = .ok p → ApproveRequest.modelValidate entries' = .ok q →
      CollisionFree sha256 p.modelDump.canonical q.modelDump.canonical →
      (fingerprint sha256 p.modelDump = fingerprint sha256 q.modelDump ↔ p = q)) ∧
    (∀ (entries entries' : List (PyStr × PyValue)) (p q : DecisionReasonRequest),
      DecisionReasonRequest.modelValidate entries = .ok p →
      DecisionReasonRequest.modelValidate entries' = .ok q →
      CollisionFree sha256 p.modelDump.canonical q.modelDump.canonical →
      (fingerprint sha256 p.modelDump = fingerprint sha256 q.modelDump ↔ p = q) ∧
      ∃ s s', lookupEntry entries "reason" "reason" = some (.str s) ∧
        lookupEntry entries' "reason" "reason" = some (.str s') ∧
        (p = q ↔ PyStr.strip s = PyStr.strip s')) ∧
    ∀ (dump dump' : List (PyStr × PyValue)), dump.Perm dump' → (dump.map Prod.fst).Nodup →
      fingerprintValue sha256 (.dict dump) = fingerprintValue sha256 (.dict dump') := by
  refine ⟨?_, ?_, ?_, ?_⟩
  · intro entries entries' p q hp hq hfree
    exact ⟨fingerprint_create_iff hfree, not_respelled, create_eq_iff hp hq⟩
  · intro entries entries' p q _ _ hfree
    exact fingerprint_iff ApproveRequest.modelDump_injective hfree
  · intro entries entries' p q hp hq hfree
    exact ⟨fingerprint_iff DecisionReasonRequest.modelDump_injective hfree, reason_eq_iff hp hq⟩
  · intro dump dump' hperm hnodup
    exact congrArg sha256 (PyValue.canonical_perm hperm hnodup)

namespace Sample

/-- A create body whose only reviewer id is spelled by these bytes. -/
def reviewedBody (id : List UInt8) : List UInt8 :=
  bytes "\x7b\"sourceType\":\"edit\",\"sourceId\":\"e\",\"title\":\"t\",\"reviewerUserIds\":[\"".toList ++
    id ++ bytes "\"]\x7d".toList

/-- The body as text. -/
def reviewedText (id : PyStr) : PyStr :=
  text "\x7b\"sourceType\":\"edit\",\"sourceId\":\"e\",\"title\":\"t\",\"reviewerUserIds\":[\"".toList ++
    id ++ text "\"]\x7d".toList

def reviewed (id : PyStr) : ApprovalRequestCreate := ⟨.edit, "e", "t", none, [id]⟩

/-- `U+1F600` and its two surrogates. -/
def face : PyStr := [0x1f600]

def faceSurrogates : PyStr := [0xd83d, 0xde00]

/-- The fields of such a body, and the bodies of two decisions. -/
def reviewedFields (id : String) : List (PyStr × PyValue) :=
  [(ofString "title", .str (ofString "t")), (ofString "sourceType", .str (ofString "edit")),
    (ofString "sourceId", .str (ofString "e")),
    (ofString "reviewerUserIds", .list [.str (ofString id)])]

def commented (comment : PyValue) : List (PyStr × PyValue) := [(ofString "comment", comment)]

def reasoned (reason : String) : List (PyStr × PyValue) :=
  [(ofString "reason", .str (ofString reason))]

end Sample

/-- Bodies by `bob` and `carol`, a comment that is `null` and one that says so, a reason with
blanks around it, and the keys of a payload in reverse. -/
theorem fingerprint_identifies_sample :
    (fingerprintValue id (.dict (Sample.reviewed (ofString "bob")).modelDump) =
        fingerprintValue id (.dict (Sample.reviewed (ofString "carol")).modelDump) ↔
      Sample.reviewed (ofString "bob") = Sample.reviewed (ofString "carol")) ∧
    (fingerprint id (ApproveRequest.mk none).modelDump =
        fingerprint id (ApproveRequest.mk (some "null")).modelDump ↔
      ApproveRequest.mk none = ApproveRequest.mk (some "null")) ∧
    (fingerprint id (DecisionReasonRequest.mk "no").modelDump =
        fingerprint id (DecisionReasonRequest.mk "no").modelDump ↔
      DecisionReasonRequest.mk "no" = DecisionReasonRequest.mk "no") ∧
    fingerprintValue id (.dict (Sample.reviewed (ofString "bob")).modelDump) =
      fingerprintValue id (.dict (Sample.reviewed (ofString "bob")).modelDump.reverse) := by
  obtain ⟨hcreate, happrove, hreason, horder⟩ := fingerprint_identifies id
  have hbob : ApprovalRequestCreate.modelValidate (Sample.reviewedFields " bob") =
      .ok (Sample.reviewed (ofString "bob")) := rfl
  have hcarol : ApprovalRequestCreate.modelValidate (Sample.reviewedFields "carol") =
      .ok (Sample.reviewed (ofString "carol")) := rfl
  have hbobs : ∀ i ∈ (Sample.reviewed (ofString "bob")).reviewerUserIds, i.Encodable :=
    List.forall_mem_singleton.mpr (encodable_ofString "bob")
  have hcarols : ∀ i ∈ (Sample.reviewed (ofString "carol")).reviewerUserIds, i.Encodable :=
    List.forall_mem_singleton.mpr (encodable_ofString "carol")
  obtain ⟨hiff, hspelled, -⟩ := hcreate _ _ _ _ hbob hcarol fun h => h
  refine ⟨hiff.mpr (hspelled hbobs hcarols), ?_, ?_, ?_⟩
  · exact happrove (Sample.commented .none) (Sample.commented (.str (ofString "null"))) _ _ rfl rfl
      fun h => h
  · exact (hreason (Sample.reasoned "no") (Sample.reasoned " no ") _ _ rfl rfl fun h => h).1
  · exact horder _ _ (List.reverse_perm _).symm (by decide)

theorem readCreate_of_decode {float : PyStr → PyFloat} {room : Nat} {body : List UInt8} {s : PyStr}
    (h : decode body (detectEncoding body) = some s) : readCreate float room body =
      (decodeText float room s).toOption.bind (fun document => (Errors.validateBodyValue
        ApprovalRequestCreate.modelValidate (some document)).toOption) := by
  unfold readCreate loads
  rw [h]

theorem Sample.readCreate_face : readCreate ContentApproval.Sample.interpreter.float 1000
    (reviewedBody [0xf0, 0x9f, 0x98, 0x80]) = some (reviewed face) := by
  have htext : decode (reviewedBody [0xf0, 0x9f, 0x98, 0x80])
      (detectEncoding (reviewedBody [0xf0, 0x9f, 0x98, 0x80])) = some (reviewedText face) := by
    decide +kernel
  rw [readCreate_of_decode htext]
  decide +kernel

theorem Sample.readCreate_faceSurrogates : readCreate ContentApproval.Sample.interpreter.float 1000
    (reviewedBody [0xed, 0xa0, 0xbd, 0xed, 0xb8, 0x80]) = some (reviewed faceSurrogates) := by
  have htext : decode (reviewedBody [0xed, 0xa0, 0xbd, 0xed, 0xb8, 0x80])
      (detectEncoding (reviewedBody [0xed, 0xa0, 0xbd, 0xed, 0xb8, 0x80])) =
        some (reviewedText faceSurrogates) := by
    decide +kernel
  rw [readCreate_of_decode htext]
  decide +kernel

/-- The bodies with the id `F0 9F 98 80` and with the id `ED A0 BD ED B8 80` are accepted, as
different payloads with one fingerprint. -/
theorem surrogates_same_fingerprint : ∃ p q : ApprovalRequestCreate,
    readCreate ContentApproval.Sample.interpreter.float 1000
      (Sample.reviewedBody [0xf0, 0x9f, 0x98, 0x80]) = some p ∧
    readCreate ContentApproval.Sample.interpreter.float 1000
      (Sample.reviewedBody [0xed, 0xa0, 0xbd, 0xed, 0xb8, 0x80]) = some q ∧
    p ≠ q ∧ ∀ sha256 : String → String,
      fingerprintValue sha256 (.dict p.modelDump) = fingerprintValue sha256 (.dict q.modelDump) := by
  refine ⟨_, _, Sample.readCreate_face, Sample.readCreate_faceSurrogates, by decide, fun sha256 => ?_⟩
  exact congrArg sha256 (canonical_eq_iff.mpr ⟨rfl, rfl, rfl, rfl, by decide⟩)

end Values

end ContentApproval
