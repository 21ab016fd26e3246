import ContentApproval.Json.Dict
import ContentApproval.Json.Strict

/-!
# Redaction

Which keys look sensitive, and the mapping with their values replaced.
-/

namespace ContentApproval

namespace Redaction

def redacted : String := "[REDACTED]"

def sensitiveMarkers : List String :=
  ["password", "secret", "token", "authorization", "api_key", "apikey", "email", "storage_key",
    "storagekey", "signed_url", "signedurl", "provider_url", "providerurl", "credential"]

/-- `str.lower`, as far as it gives ASCII letters. Besides `A` to `Z` only U+0130 and the
Kelvin sign do; every other code point is left as it is, which no marker can tell. -/
def lower (c : CodePoint) : PyStr :=
  if 0x41 ≤ c.val ∧ c.val ≤ 0x5a then [⟨c.val % 0x80 + 0x20, by omega⟩]
  else if c.val = 0x130 then [0x69, 0x307]
  else if c.val = 0x212a then [0x6b]
  else [c]

/-- `part in s` -/
def occursIn (part s : PyStr) : Bool := s.tails.any (fun t => part.isPrefixOf t)

def looksSensitive (key : PyStr) : Bool :=
  sensitiveMarkers.any (fun marker => occursIn (PyStr.ofString marker) (key.flatMap lower))

/-- `redact_mapping`, for any values that strings are among. -/
def redactMapping {Value : Type} (str : String → Value) (mapping : Dict Value) : Dict Value :=
  mapping.mapValues (fun k v => if looksSensitive (PyStr.ofString k) then str redacted else v)

example : looksSensitive (PyStr.ofString "userEMail") = true := by decide

end Redaction

end ContentApproval
