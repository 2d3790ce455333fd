import TokenVault.Token.Payload
import TokenVault.Token.Uuid

/-!
# Issuing tokens

What a new token shall claim is laid down first; its times and its name are filled in when
it is issued.
-/

namespace TokenVault

/-- What a new token shall claim. -/
structure Issuance where
  issuer : String
  subject : Option String
  audience : List String
  /-- Seconds for which the token is valid. -/
  lifetime : Int64
  tokenType : Option String
  custom : SortedMap Json.Value

namespace Issuance

/-- A token of an issuer that is valid for an hour. -/
def ofIssuer (issuer : String) : Issuance := ⟨issuer, none, [], 3600, none, .empty⟩

/-- With a custom claim, unless its name is registered. -/
def withCustom (issuance : Issuance) (name : String) (value : Json.Value) : Issuance :=
  if name ∈ Payload.registered then issuance
  else { issuance with custom := issuance.custom.insert name value }

/-- The audience as it is claimed: none, a single name, or several. -/
def audienceClaim : List String → Option Audience
  | [] => none
  | [name] => some (.single name)
  | names => some (.multiple names)

/-- The payload of the token, issued at a time in seconds under a name of its own. -/
def issue (issuance : Issuance) (now : Int64) (id : Uuid) : Payload where
  iss := some issuance.issuer
  aud := audienceClaim issuance.audience
  sub := issuance.subject
  iat := some now
  exp := some (saturate (now.toInt + issuance.lifetime.toInt))
  nbf := none
  jti := some id.text
  typ := issuance.tokenType
  custom := issuance.custom

end Issuance

end TokenVault
