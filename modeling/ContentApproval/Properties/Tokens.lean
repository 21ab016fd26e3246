import ContentApproval.Json.Reading
import ContentApproval.Properties.Credentials

/-!
# The token round trip

`authenticate` gives back what `encodeBearerToken` was given: the ids, whatever Unicode text
they are, and the set of the actions (`token_round_trip`). The letter case of
the scheme and the padding of the token make no difference, and different arguments give
different headers.
-/

namespace ContentApproval

open PyStr Json.Reader

namespace StubAuthProvider

variable {py : Interpreter} {workspaceId userId : String} {actions : List Action}

/-! ## The payload -/

theorem ofValue?_value (a : Action) : Action.ofValue? a.value = some a := by
  cases a <;> decide

theorem mapM_ofValue?_value (actions : List Action) :
    (actions.map Action.value).mapM Action.ofValue? = some actions := by
  induction actions with
  | nil => rfl
  | cons a actions ih =>
    rw [List.map_cons, List.mapM_cons, ofValue?_value, ih]
    rfl

/-- Nothing but the two containers of the payload is opened. -/
theorem readable_tokenPayload {room : Nat} (h : 2 ≤ room) :
    Readable room (tokenPayload workspaceId userId actions) := by
  obtain ⟨inner, rfl⟩ : ∃ inner, room = inner + 1 + 1 := ⟨room - 2, by omega⟩
  have hitems : ∀ values : List String, ReadableItems inner (values.map .str) := by
    intro values
    induction values with
    | nil => trivial
    | cons value values ih => exact ⟨trivial, ih⟩
  have hnodup : ["workspace_id", "user_id", "actions"].Nodup := by decide
  refine ⟨hnodup, inner + 1, rfl, trivial, trivial, ?_, trivial⟩
  exact ⟨inner, rfl, hitems _⟩

theorem nonEmptyField_of_lookup {entries : List (PyStr × PyValue)} {name s : String} (hs : s ≠ "")
    (h : entries.lookup (ofString name) = some (.str (ofString s))) :
    Principal.nonEmptyField entries name = some ⟨s, hs⟩ := by
  unfold Principal.nonEmptyField
  rw [h]
  dsimp only
  rw [textOf?_ofString, Option.bind_some, dif_pos hs]

theorem mapM_readAction (actions : List Action) :
    (PyValue.ofItems ((actions.map Action.value).map .str)).mapM Principal.readAction =
      some actions := by
  induction actions with
  | nil => rfl
  | cons a actions ih =>
    have ha : Principal.readAction (.ofJson (.str a.value)) = some a := by
      cases a <;> decide
    rw [List.map_cons, List.map_cons, PyValue.ofItems, List.mapM_cons, ha, ih]
    rfl

theorem modelValidate_tokenPayload (hws : workspaceId ≠ "") (hu : userId ≠ "") :
    Principal.modelValidate (.ofJson (tokenPayload workspaceId userId actions)) =
      some ⟨workspaceId, userId, actions.toFinset, hws, hu⟩ := by
  have hactions : Principal.actionsField (PyValue.ofFields [("workspace_id", .str workspaceId),
      ("user_id", .str userId), ("actions", .arr ((actions.map Action.value).map .str))]) =
        some actions.toFinset := by
    unfold Principal.actionsField
    change ((PyValue.ofItems ((actions.map Action.value).map .str)).mapM
      Principal.readAction).map List.toFinset = _
    rw [mapM_readAction, Option.map_some]
  unfold tokenPayload PyValue.ofJson Principal.modelValidate
  dsimp only
  rw [nonEmptyField_of_lookup hws rfl, nonEmptyField_of_lookup hu rfl, hactions]
  rfl

/-! ## The token -/

/-- The bytes of the payload. -/
def rawPayload (workspaceId userId : String) (actions : List Action) : List UInt8 :=
  bytes (Json.line (tokenPayload workspaceId userId actions))

theorem paddedToken_eq (workspaceId userId : String) (actions : List Action) :
    paddedToken workspaceId userId actions =
      some ((Base64.urlsafeB64encode (rawPayload workspaceId userId actions)).map ofByte) := by
  have hencode : encode ((Json.line (tokenPayload workspaceId userId actions)).map codePoint) =
      some (rawPayload workspaceId userId actions) := encode_line _
  unfold paddedToken
  rw [hencode, Option.bind_eq_bind, Option.bind_some,
    decodeAscii_ascii (isAscii_urlsafeB64encode _)]

theorem ofByte_injective : Function.Injective ofByte := by
  intro b c h
  exact UInt8.toNat_inj.mp (Fin.mk.inj h)

theorem rstrip_ofByte (raw : List UInt8) :
    Base64.rstrip (codePoint '=') ((Base64.urlsafeB64encode raw).map ofByte) =
      (Base64.rstrip Base64.pad (Base64.urlsafeB64encode raw)).map ofByte :=
  Base64.rstrip_map ofByte_injective Base64.pad _

theorem encodeBearerToken_eq (workspaceId userId : String) (actions : List Action) :
    encodeBearerToken workspaceId userId (actions.map Action.value) = some (ofString "Bearer " ++
      (Base64.rstrip Base64.pad
        (Base64.urlsafeB64encode (rawPayload workspaceId userId actions))).map ofByte) := by
  unfold encodeBearerToken
  rw [mapM_ofValue?_value]
  change (paddedToken workspaceId userId actions).bind _ = _
  rw [paddedToken_eq]
  exact congrArg (fun t => some (ofString "Bearer " ++ t)) (rstrip_ofByte _)

/-- The padding is put back if it is missing, and left alone otherwise. -/
theorem repad_token {token : PyStr} {raw : List UInt8}
    (h : token = (Base64.urlsafeB64encode raw).map ofByte ∨
      token = (Base64.rstrip Base64.pad (Base64.urlsafeB64encode raw)).map ofByte) :
    Base64.repad (codePoint '=') token = (Base64.urlsafeB64encode raw).map ofByte := by
  rcases h with rfl | rfl
  · refine Base64.repad_of_length ?_
    rw [List.length_map]
    exact Base64.length_urlsafeB64encode raw
  · change Base64.repad (ofByte Base64.pad) _ = _
    rw [Base64.repad_map, Base64.repad_rstrip]

/-! ## The scheme -/

/-- A word that is `bearer` up to the case of its letters. -/
theorem casefold_scheme {scheme : PyStr} (h : scheme.map asciiLower = ofString "bearer") :
    py.casefold scheme = ofString "bearer" ∧ codePoint ' ' ∉ scheme := by
  have hletter : ∀ c ∈ scheme, asciiLower c ∈ ofString "bearer" := by
    intro c hc
    rw [← h]
    exact List.mem_map_of_mem hc
  have hascii : ∀ c ∈ scheme, c.val < 0x80 := by
    intro c hc
    have hmem := hletter c hc
    unfold asciiLower at hmem
    split_ifs at hmem with hupper
    · omega
    · obtain ⟨d, hd, rfl⟩ := List.mem_map.mp hmem
      have key : "bearer".toList.all (fun d => decide (d.toNat < 0x80)) = true := rfl
      exact of_decide_eq_true (List.all_eq_true.mp key d hd)
  constructor
  · rw [← h, Interpreter.casefold, ← List.flatMap_singleton' (scheme.map asciiLower),
      List.flatMap_map]
    exact List.flatMap_congr fun c hc => if_pos (hascii c hc)
  · intro hspace
    have hmem := hletter _ hspace
    have hlower : asciiLower (codePoint ' ') = codePoint ' ' := if_neg (by decide)
    rw [hlower] at hmem
    exact absurd hmem (by decide)

/-! ## The round trip -/

theorem authenticate_token (hroom : 2 ≤ py.room) (hws : workspaceId ≠ "") (hu : userId ≠ "")
    {scheme token : PyStr} (hscheme : scheme.map asciiLower = ofString "bearer")
    (htoken : token = (Base64.urlsafeB64encode (rawPayload workspaceId userId actions)).map ofByte ∨
      token = (Base64.rstrip Base64.pad (Base64.urlsafeB64encode
        (rawPayload workspaceId userId actions))).map ofByte) :
    authenticate py (some (scheme ++ codePoint ' ' :: token)) =
      .ok ⟨workspaceId, userId, actions.toFinset, hws, hu⟩ := by
  have hrepad := repad_token htoken
  have hraw : rawPayload workspaceId userId actions ≠ [] := by
    unfold rawPayload tokenPayload
    rw [Json.line]
    exact List.cons_ne_nil _ _
  have hne : token ≠ [] := by
    rintro rfl
    have hencode : (Base64.urlsafeB64encode (rawPayload workspaceId userId actions)).map ofByte =
        [] := hrepad.symm
    have hdecode := Base64.urlsafeB64decode_encode (rawPayload workspaceId userId actions)
    rw [List.map_eq_nil_iff.mp hencode] at hdecode
    exact hraw (Option.some.inj hdecode).symm
  obtain ⟨hfold, hspace⟩ := @casefold_scheme py scheme hscheme
  have hloads : loadsToken py token = .ok (.ofJson (tokenPayload workspaceId userId actions)) := by
    unfold loadsToken
    rw [b64urlDecode_of_repad hrepad]
    dsimp only
    rw [rawPayload, loads_line py.float (readable_tokenPayload hroom)]
  rw [authenticate_bearer ⟨⟨scheme, rfl, hspace, hfold⟩, hne⟩, hloads]
  unfold principalOf
  dsimp only
  rw [modelValidate_tokenPayload hws hu]

/-- **Different arguments give different headers.** -/
theorem encodeBearerToken_injective {workspaceId' userId' : String} {actions' : List Action}
    (h : encodeBearerToken workspaceId userId (actions.map Action.value) =
      encodeBearerToken workspaceId' userId' (actions'.map Action.value)) :
    workspaceId = workspaceId' ∧ userId = userId' ∧ actions = actions' := by
  rw [encodeBearerToken_eq, encodeBearerToken_eq, Option.some.injEq, List.append_cancel_left_eq] at h
  have hstripped := List.map_injective_iff.mpr ofByte_injective h
  have hencoded := congrArg (Base64.repad Base64.pad) hstripped
  rw [Base64.repad_rstrip, Base64.repad_rstrip] at hencoded
  have hraw : rawPayload workspaceId userId actions = rawPayload workspaceId' userId' actions' := by
    have hdecoded := congrArg Base64.urlsafeB64decode hencoded
    rw [Base64.urlsafeB64decode_encode, Base64.urlsafeB64decode_encode] at hdecoded
    exact Option.some.inj hdecoded
  have htext := congrArg (List.map ofByte) hraw
  unfold rawPayload at htext
  rw [map_ofByte_bytes (Json.line_printable _), map_ofByte_bytes (Json.line_printable _)] at htext
  have hcode : Function.Injective codePoint := fun _ _ h => codePoint_inj.mp h
  have hpayload := Json.line_injective (List.map_injective_iff.mpr hcode htext)
  simp only [tokenPayload, Json.obj.injEq, List.cons.injEq, Prod.mk.injEq, Json.str.injEq,
    Json.arr.injEq, true_and, and_true] at hpayload
  obtain ⟨hws, hu, hactions⟩ := hpayload
  have hstr : Function.Injective Json.str := fun _ _ h => Json.str.inj h
  have hvalue : Function.Injective Action.value := by
    intro a b h
    have hback := ofValue?_value a
    rw [h, ofValue?_value] at hback
    exact (Option.some.inj hback).symm
  exact ⟨hws, hu, List.map_injective_iff.mpr hvalue (List.map_injective_iff.mpr hstr hactions)⟩

/-- **The token round trip.** With room for the two containers of the payload, the header that
is built from non-empty ids and actions is resolved to a principal with these ids and the set
of these actions, whatever the letter case of the scheme, and also with the padding left on.
Two headers are equal only if they are built from the same ids and the same actions. -/
theorem token_round_trip (py : Interpreter) (hroom : 2 ≤ py.room) :
    (∀ (workspaceId userId : String) (actions : List Action) (hws : workspaceId ≠ "")
      (hu : userId ≠ ""), ∃ header padded,
      encodeBearerToken workspaceId userId (actions.map Action.value) = some header ∧
      authenticate py (some header) = .ok ⟨workspaceId, userId, actions.toFinset, hws, hu⟩ ∧
      paddedToken workspaceId userId actions = some padded ∧
      header = ofString "Bearer " ++ Base64.rstrip (codePoint '=') padded ∧
      ∀ scheme token, scheme.map asciiLower = ofString "bearer" →
        token = padded ∨ token = Base64.rstrip (codePoint '=') padded →
        authenticate py (some (scheme ++ codePoint ' ' :: token)) =
          .ok ⟨workspaceId, userId, actions.toFinset, hws, hu⟩) ∧
    ∀ (workspaceId userId workspaceId' userId' : String) (actions actions' : List Action),
      encodeBearerToken workspaceId userId (actions.map Action.value) =
        encodeBearerToken workspaceId' userId' (actions'.map Action.value) →
      workspaceId = workspaceId' ∧ userId = userId' ∧ actions = actions' := by
  constructor
  · intro workspaceId userId actions hws hu
    refine ⟨_, _, encodeBearerToken_eq workspaceId userId actions, ?_,
      paddedToken_eq workspaceId userId actions, by rw [rstrip_ofByte], ?_⟩
    · exact @authenticate_token py workspaceId userId actions hroom hws hu (ofString "Bearer") _ (by decide)
        (Or.inr rfl)
    · intro scheme token hscheme htoken
      rw [rstrip_ofByte] at htoken
      exact authenticate_token hroom hws hu hscheme htoken
  · intro workspaceId userId workspaceId' userId' actions actions' h
    exact encodeBearerToken_injective h

/-- Alice's header with the scheme in capital letters. -/
theorem token_round_trip_sample : ∃ token,
    encodeBearerToken "ws_1" "alice" ([.create, .cancel, .read].map Action.value) =
      some (ofString "Bearer " ++ token) ∧
    authenticate Sample.interpreter (some (ofString "BEARER" ++ codePoint ' ' :: token)) =
      .ok Sample.alice := by
  obtain ⟨header, padded, hencode, -, -, rfl, hauth⟩ :=
    (token_round_trip Sample.interpreter (by decide)).1 "ws_1" "alice" [.create, .cancel, .read]
      (by decide) (by decide)
  exact ⟨_, hencode, hauth (ofString "BEARER") _ (by decide) (Or.inr rfl)⟩

end StubAuthProvider

end ContentApproval
