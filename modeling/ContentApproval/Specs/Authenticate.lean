import ContentApproval.Auth.Stub
import ContentApproval.Json.Nesting

/-!
# What the stub auth provider does with a header

A header is split at its first space (`partition_append`); `authenticate_bearer` is what
becomes of one with the scheme `Bearer`, and `authenticate_other` of every other one.
`loadsToken_error` says of the exceptions on the way which of them is no `ValueError`.
-/

namespace ContentApproval

open PyStr Json.Reader

/-! ## Splitting -/

section Partition

variable {sep : CodePoint} {s : PyStr}

theorem partition_append (h : sep ∉ s) (t : PyStr) :
    partition sep (s ++ sep :: t) = (s, [sep], t) := by
  have hall : ∀ c ∈ s, (c != sep) = true := by
    intro c hc
    rw [bne_iff_ne]
    rintro rfl
    exact h hc
  unfold partition
  rw [List.dropWhile_append_of_pos hall, List.takeWhile_append_of_pos hall,
    List.dropWhile_cons_of_neg (by simp), List.takeWhile_cons_of_neg (by simp), List.append_nil]

theorem partition_of_not_mem (h : sep ∉ s) : partition sep s = (s, [], []) := by
  have hdrop : s.dropWhile (· != sep) = [] := by
    rw [List.dropWhile_eq_nil_iff]
    intro c hc
    rw [bne_iff_ne]
    rintro rfl
    exact h hc
  unfold partition
  rw [hdrop]

end Partition

namespace StubAuthProvider

/-! ## The parts of a header -/

/-- The header consists of the scheme `Bearer`, a space and the token. -/
structure Bearer (py : Interpreter) (header : Option PyStr) (token : PyStr) : Prop where
  header_eq : ∃ scheme, header = some (scheme ++ codePoint ' ' :: token) ∧
    codePoint ' ' ∉ scheme ∧ py.casefold scheme = ofString "bearer"
  token_ne : token ≠ []

variable {py : Interpreter} {header : Option PyStr} {token : PyStr}

theorem authenticate_bearer (h : Bearer py header token) :
    authenticate py header = principalOf (loadsToken py token) := by
  obtain ⟨⟨scheme, rfl, hspace, hfold⟩, htoken⟩ := h
  unfold authenticate
  dsimp only
  rw [partition_append hspace]
  exact if_neg (not_or.mpr ⟨not_not.mpr hfold, htoken⟩)

theorem authenticate_other (h : ∀ token, ¬ Bearer py header token) :
    ∃ message, authenticate py header = .error (.invalidCredentials message) := by
  cases header with
  | none => exact ⟨_, rfl⟩
  | some header =>
    refine ⟨"Authorization header must be 'Bearer <token>'", ?_⟩
    unfold authenticate
    dsimp only
    rw [if_pos]
    by_contra hcon
    rw [not_or, not_not] at hcon
    by_cases hmem : codePoint ' ' ∈ header
    · obtain ⟨scheme, token, rfl, hspace⟩ := List.eq_append_cons_of_mem hmem
      rw [partition_append hspace] at hcon
      exact h token ⟨⟨scheme, rfl, hspace, hcon.1⟩, hcon.2⟩
    · rw [partition_of_not_mem hmem] at hcon
      exact hcon.2 rfl

/-- The one exception that is no `ValueError` is the `RecursionError` of the JSON reader. -/
theorem loadsToken_error {e : TokenError} (h : loadsToken py token = .error e) :
    e.isValueError = false ↔
      ∃ raw, b64urlDecode token = .ok raw ∧ loads py.float py.room raw = .error .recursionError := by
  unfold loadsToken at h
  split at h
  · rename_i e' hdecode
    obtain rfl := Except.error.inj h
    have hvalue : e'.isValueError = true := by
      unfold b64urlDecode at hdecode
      split at hdecode
      · rw [← Except.error.inj hdecode]
        rfl
      · split at hdecode
        · rw [← Except.error.inj hdecode]
          rfl
        · cases hdecode
    simp [hvalue, hdecode]
  · rename_i raw hdecode
    split at h
    · rename_i e' hloads
      obtain rfl := Except.error.inj h
      simp only [hdecode, Except.ok.injEq, exists_eq_left', hloads, Except.error.injEq]
      cases e' <;> simp [TokenError.isValueError]
    · cases h

theorem loadsToken_recursionError {raw : List UInt8} (hdecode : b64urlDecode token = .ok raw)
    (hloads : loads py.float py.room raw = .error .recursionError) :
    loadsToken py token = .error (.loads .recursionError) := by
  unfold loadsToken
  rw [hdecode]
  dsimp only
  rw [hloads]

theorem isAscii_urlsafeB64encode (raw : List UInt8) :
    ∀ b ∈ Base64.urlsafeB64encode raw, IsAscii b := by
  intro b hb
  obtain ⟨hlow, hhigh⟩ := Base64.ascii_urlsafeB64encode raw b hb
  rw [UInt8.lt_iff_toNat_lt] at hlow hhigh
  exact ⟨Nat.lt_of_le_of_lt (Nat.zero_le _) hlow, hhigh⟩

/-- A text of base64 is decoded, whether its padding was stripped or left on. -/
theorem b64urlDecode_of_repad {raw : List UInt8} (h : Base64.repad (codePoint '=') token =
    (Base64.urlsafeB64encode raw).map ofByte) : b64urlDecode token = .ok raw := by
  unfold b64urlDecode
  rw [h, encodeAscii_ofByte (isAscii_urlsafeB64encode raw)]
  dsimp only
  rw [Base64.urlsafeB64decode_encode]

end StubAuthProvider

end ContentApproval
