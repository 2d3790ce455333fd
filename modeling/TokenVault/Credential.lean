import TokenVault.Clock
import TokenVault.Json.Print
import TokenVault.Json.Record

/-!
# Credentials

The tokens that a user has been given: one for access, perhaps one for refreshing it, and
when the former expires.  A credential is due for a refresh when no more whole seconds are
left than the window has.
-/

namespace TokenVault

/-- The tokens of one user. -/
structure Credential where
  accessToken : String
  refreshToken : Option String
  /-- When the access token expires, in milliseconds since the epoch. -/
  expiry : Option Int64
  deriving DecidableEq

namespace Credential

/-- A credential with an access token only. -/
def ofAccessToken (accessToken : String) : Credential := ⟨accessToken, none, none⟩

/-- The credential with a refresh token. -/
def withRefreshToken (c : Credential) (refreshToken : String) : Credential :=
  { c with refreshToken := some refreshToken }

/-- The credential with a time of expiry. -/
def withExpiry (c : Credential) (millis : Int64) : Credential := { c with expiry := some millis }

/-- The credential of an access token that expires in some seconds from now. -/
def expiringIn (c : Credential) (seconds : Int64) (now : Reading) : Credential :=
  c.withExpiry (saturate (now.millis.toInt + (millisOf seconds).toInt))

/-- Whole seconds until the access token expires, rounded down; negative afterwards. -/
def expiresIn? (c : Credential) (now : Reading) : Option Int64 :=
  c.expiry.map fun expiry =>
    Int64.ofInt ((saturate (expiry.toInt - now.millis.toInt)).toInt.fdiv 1000)

/-- Whether the access token expires within a window or has expired.  One that does not
expire never needs a refresh. -/
def needsRefresh (c : Credential) (now : Reading) (window : Duration) : Bool :=
  (c.expiresIn? now).any (· ≤ window.wholeSeconds)

/-- The members of a credential in the order of writing. -/
def members (c : Credential) : List (String × Json.Value) :=
  [("accessToken", .string c.accessToken)] ++
    Json.optionalMember "refreshToken" .string c.refreshToken ++
    Json.optionalMember "expirationTimeMilliseconds"
      (fun millis => .number (.ofInt64 millis)) c.expiry

/-- A credential as a value. -/
def toValue (c : Credential) : Json.Value := .object c.members

/-- A credential as text. -/
def text (c : Credential) : String := c.toValue.text

/-- A credential shown in a log: neither of its tokens is. -/
def redacted (c : Credential) : String :=
  let refresh := match c.refreshToken with
    | some _ => "Some(\"[REDACTED]\")"
    | none => "None"
  let expiry := match c.expiry with
    | some millis => "Some(" ++ toString millis.toInt ++ ")"
    | none => "None"
  "CredentialRecord \x7b access_token: \"[REDACTED]\", refresh_token: " ++ refresh ++
    ", expiration_time_milliseconds: " ++ expiry ++ " \x7d"

/-- How a credential is read. -/
def schema : Json.Schema Credential where
  expected := "struct CredentialRecord"
  empty := ⟨"", none, none⟩
  fields := [
    ⟨"accessToken", fun node c => do return { c with accessToken := ← node.text }⟩,
    ⟨"refreshToken", fun node c => do
      return { c with refreshToken := ← node.optional Json.Node.text }⟩,
    ⟨"expirationTimeMilliseconds", fun node c => do
      return { c with expiry := ← node.optional Json.Node.int64 }⟩]
  required := 1
  positional := true
  other _ node c := do
    node.skip
    return c

/-- The credential that a document holds. -/
def ofOctets (input : Bytes) : Except Json.Error Credential := schema.ofOctets input

end Credential

end TokenVault
