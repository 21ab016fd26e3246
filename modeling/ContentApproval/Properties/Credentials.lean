import ContentApproval.Properties.Finality
import ContentApproval.Specs.Authenticate
import ContentApproval.Specs.Served

/-!
# How authentication fails

`authenticate` is to end with a principal or with `InvalidCredentialsError`, which the API
answers with 401. It does so for every header except those whose token is the base64 of a
text that nests too deeply for the JSON reader (`TooDeep`): there `RecursionError`
escapes, and the API answers 500 (`authenticate_answered_iff`).
-/

namespace ContentApproval

open Transactions PyStr Json.Reader

namespace StubAuthProvider

/-- A principal with non-empty ids and known actions, or `InvalidCredentialsError`. -/
def Answered : Except AuthError Principal → Prop
  | .ok p => p.workspaceId ≠ "" ∧ p.userId ≠ "" ∧ p.actions ⊆ {.read, .create, .decide, .cancel}
  | .error e => ∃ message, e = .invalidCredentials message

/-- The header has a token that decodes to a text which opens more containers inside each
other than the reader has room for, before anything in it is malformed. -/
def TooDeep (py : Interpreter) (header : Option PyStr) : Prop :=
  ∃ token raw text, Bearer py header token ∧ b64urlDecode token = .ok raw ∧
    decode raw (detectEncoding raw) = some text ∧ Nests py.float py.room (skip text)

variable {py : Interpreter} {header : Option PyStr}

theorem answered_principalOf {r : Except TokenError PyValue}
    (h : ∀ e, r = .error e → e.isValueError = true) : Answered (principalOf r) := by
  cases r with
  | error e =>
    rw [principalOf, if_pos (h e rfl)]
    exact ⟨_, rfl⟩
  | ok data =>
    rw [principalOf]
    cases Principal.modelValidate data with
    | none => exact ⟨_, rfl⟩
    | some p =>
      refine ⟨p.workspaceId_ne, p.userId_ne, fun action _ => ?_⟩
      cases action <;> decide

theorem authenticate_answered (h : ¬ TooDeep py header) : Answered (authenticate py header) := by
  by_cases hbearer : ∃ token, Bearer py header token
  · obtain ⟨token, hbearer⟩ := hbearer
    rw [authenticate_bearer hbearer]
    refine answered_principalOf fun e he => ?_
    -- otherwise the token would be too deep
    by_contra hvalue
    obtain ⟨raw, hdecode, hloads⟩ :=
      (loadsToken_error he).mp (Bool.not_eq_true _ ▸ hvalue)
    obtain ⟨text, htext, hnests⟩ := loads_error_iff.mp hloads
    exact h ⟨token, raw, text, hbearer, hdecode, htext, hnests⟩
  · obtain ⟨message, hmessage⟩ := authenticate_other (not_exists.mp hbearer)
    rw [hmessage]
    exact ⟨message, rfl⟩

theorem authenticate_tooDeep (h : TooDeep py header) :
    authenticate py header = .error (.other "maximum recursion depth exceeded") := by
  obtain ⟨token, raw, text, hbearer, hdecode, htext, hnests⟩ := h
  rw [authenticate_bearer hbearer,
    loadsToken_recursionError hdecode (loads_error_iff.mpr ⟨text, htext, hnests⟩)]
  rfl

/-- **When authentication fails as it should.** Whatever the header, `authenticate` ends with
a principal or with `InvalidCredentialsError` exactly if the header is not too deep. If it
does not end with a principal, the API answers every call whose body parses with 401, or with
500 if the header is too deep, and leaves the database as it is. -/
theorem authenticate_answered_iff (py : Interpreter) (header : Option PyStr) :
    (Answered (authenticate py header) ↔ ¬ TooDeep py header) ∧
    ∀ (app : App) (call : Call) (document : Option Json) (σ : Store),
      app.provider = provider py → call.authorization.map ofString = header →
      call.operation.body.document? = some document → (∀ P, authenticate py header ≠ .ok P) →
      ∃ e t, (request app call).serve approvalDb σ = (σ, .failed e, t) ∧
        (e.statusCode = 401 ↔ ¬ TooDeep py header) ∧ (e.statusCode = 500 ↔ TooDeep py header) := by
  constructor
  · refine ⟨fun h hdeep => ?_, authenticate_answered⟩
    rw [authenticate_tooDeep hdeep] at h
    obtain ⟨message, h⟩ := h
    cases h
  · rintro app call document σ hprovider rfl hdoc hfails
    have hauth : app.provider.authenticate call.authorization =
        authenticate py (call.authorization.map ofString) := by
      rw [hprovider]
      rfl
    by_cases hdeep : TooDeep py (call.authorization.map ofString)
    · rw [authenticate_tooDeep hdeep] at hauth
      refine ⟨_, _, serve_authentication_error hauth hdoc, iff_of_false ?_ ?_, iff_of_true rfl hdeep⟩
      · exact fun h => by cases h
      · exact not_not.mpr hdeep
    · have hanswered := authenticate_answered hdeep
      cases hresult : authenticate py (call.authorization.map ofString) with
      | ok P => exact absurd hresult (hfails P)
      | error e =>
        rw [hresult] at hanswered
        obtain ⟨message, rfl⟩ := hanswered
        rw [hresult] at hauth
        refine ⟨_, _, serve_unauthorized hauth hdoc, iff_of_true rfl hdeep, iff_of_false ?_ hdeep⟩
        exact fun h => by cases h

end StubAuthProvider

/-! ## A header that nests too deeply -/

/-- Opening brackets alone nest. -/
theorem nests_brackets (float : PyStr → PyFloat) (n : Nat) (r : PyStr) :
    Nests float n (List.replicate (n + 1) (codePoint '[') ++ r) := by
  induction n with
  | zero => exact .array
  | succ n ih =>
    rw [List.replicate_succ, List.cons_append]
    refine .item ?_ ih
    rw [List.replicate_succ]
    exact .here _

/-- The base64 of opening brackets. -/
theorem urlsafeB64encode_brackets (n : Nat) :
    Base64.urlsafeB64encode (List.replicate (3 * n) 0x5b) =
      (List.replicate n [0x57, 0x31, 0x74, 0x62]).flatten := by
  induction n with
  | zero => rfl
  | succ n ih =>
    rw [show 3 * (n + 1) = 3 * n + 1 + 1 + 1 by omega, List.replicate_succ, List.replicate_succ,
      List.replicate_succ, List.replicate_succ, List.flatten_cons, ← ih]
    rfl

/-- `Bearer` and the base64 of this many groups of three opening brackets. -/
def deepHeader (n : Nat) : PyStr :=
  ofString "Bearer " ++ (List.replicate n (ofString "W1tb")).flatten

namespace StubAuthProvider

theorem deepHeader_tooDeep {py : Interpreter} {n : Nat} (h : py.room < 3 * n) :
    TooDeep py (some (deepHeader n)) := by
  have htoken : (List.replicate n (ofString "W1tb")).flatten =
      (Base64.urlsafeB64encode (List.replicate (3 * n) 0x5b)).map ofByte := by
    rw [urlsafeB64encode_brackets, List.map_flatten, List.map_replicate]
    rfl
  have hascii : ∀ b ∈ List.replicate (3 * n) (0x5b : UInt8), IsAscii b := by
    intro b hb
    rw [List.eq_of_mem_replicate hb]
    exact ⟨by decide, by decide⟩
  obtain ⟨m, rfl⟩ : ∃ m, n = m + 1 := ⟨n - 1, by omega⟩
  obtain ⟨k, hk⟩ : ∃ k, 3 * (m + 1) = py.room + 1 + k := ⟨3 * (m + 1) - py.room - 1, by omega⟩
  refine ⟨(List.replicate (m + 1) (ofString "W1tb")).flatten, _, _,
    ⟨⟨ofString "Bearer", rfl, by decide, rfl⟩, ?_⟩, b64urlDecode_of_repad ?_,
    decode_ascii hascii, ?_⟩
  · exact List.cons_ne_nil _ _
  · rw [htoken]
    refine Base64.repad_of_length ?_
    rw [List.length_map]
    exact Base64.length_urlsafeB64encode _
  · rw [List.map_replicate, hk, ← List.replicate_append_replicate]
    exact nests_brackets py.float py.room _

end StubAuthProvider

namespace Sample

/-- An interpreter with the usual recursion limit, on headers of ASCII without floats. -/
def interpreter : Interpreter where
  foldTable c := [c]
  float text := .finite (String.ofList (text.filterMap toChar?))
  room := 1000

def stubApp : App := ⟨StubAuthProvider.provider interpreter, sha256⟩

/-- An approval by somebody with this header. -/
def approveAs (authorization : Option String) : Call :=
  { approve "1" "" none with authorization := authorization }

/-- `deepHeader 334` -/
def deepToken : String :=
  String.ofList ("Bearer ".toList ++ (List.replicate 334 "W1tb".toList).flatten)

theorem ofString_deepToken : ofString deepToken = deepHeader 334 := by
  unfold ofString deepToken deepHeader
  rw [String.toList_ofList, List.map_append, List.map_flatten, List.map_replicate]
  unfold ofString
  rfl

end Sample

open StubAuthProvider

theorem authenticate_answered_iff_sample :
    Answered (authenticate Sample.interpreter none) ∧
      ∃ e t, (request Sample.stubApp (Sample.approveAs none)).serve approvalDb Store.empty =
        (Store.empty, .failed e, t) ∧ e.statusCode = 401 := by
  obtain ⟨hiff, hserve⟩ := authenticate_answered_iff Sample.interpreter none
  have hdeep : ¬ TooDeep Sample.interpreter none := by
    rintro ⟨token, raw, text, ⟨⟨scheme, h, -⟩, -⟩, -⟩
    cases h
  obtain ⟨e, t, hfailed, hstatus, -⟩ := hserve Sample.stubApp (Sample.approveAs none)
    (some (.obj [])) Store.empty rfl rfl rfl (fun P hP => by cases hP)
  exact ⟨hiff.mpr hdeep, e, t, hfailed, hstatus.mpr hdeep⟩

/-- `Bearer W1tb…W1tb`, 1343 characters long, ends in a `RecursionError` and a 500. -/
theorem deepToken_not_answered :
    ¬ Answered (authenticate Sample.interpreter (some (ofString Sample.deepToken))) ∧
      ∃ e t, (request Sample.stubApp (Sample.approveAs (some Sample.deepToken))).serve approvalDb
        Store.empty = (Store.empty, .failed e, t) ∧ e.statusCode = 500 := by
  have hdeep : TooDeep Sample.interpreter (some (ofString Sample.deepToken)) := by
    rw [Sample.ofString_deepToken]
    exact deepHeader_tooDeep (show 1000 < 3 * 334 by decide)
  generalize Sample.deepToken = token at hdeep ⊢
  have hauth : Sample.stubApp.provider.authenticate (some token) =
      .error (.other "maximum recursion depth exceeded") := authenticate_tooDeep hdeep
  refine ⟨?_, _, _, serve_authentication_error hauth rfl, rfl⟩
  rw [authenticate_tooDeep hdeep]
  rintro ⟨message, h⟩
  cases h

end ContentApproval
