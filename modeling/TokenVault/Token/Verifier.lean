import TokenVault.Token.Compact

/-!
# Accepting tokens

A verifier checks the signature first and then, of a token that is genuine, the time, the
issuer and the audience.  What it makes of a token that is not genuine depends neither on
the time nor on its lists.
-/

namespace TokenVault

/-- What a token must satisfy. -/
structure Verifier where
  key : VerificationKey
  /-- Seconds by which clocks may differ. -/
  skew : UInt64
  /-- The issuers that are accepted; any if there are none. -/
  issuers : List String
  /-- The audiences that are accepted; any if there are none. -/
  audiences : List String

namespace Verifier

/-- The seconds by which clocks may differ if nothing else is said. -/
def defaultSkew : UInt64 := 300

/-- Accepts any issuer and audience. -/
def ofKey (key : VerificationKey) : Verifier := ⟨key, defaultSkew, [], []⟩

/-- Whether the issuer is accepted. -/
def acceptsIssuer (verifier : Verifier) (payload : Payload) : Bool :=
  verifier.issuers.isEmpty || payload.iss.any (verifier.issuers.contains ·)

/-- Whether one of the audiences is accepted. -/
def acceptsAudience (verifier : Verifier) (payload : Payload) : Bool :=
  verifier.audiences.isEmpty || payload.audiences.any (verifier.audiences.contains ·)

/-- Checks a token at a time, in seconds. -/
def verify (verifier : Verifier) (now : Int64) (token : String) :
    Except TokenError SignedToken := do
  let signed ← SignedToken.ofText token
  signed.check verifier.key
  if !signed.payload.validAt now verifier.skew then throw .time
  if !verifier.acceptsIssuer signed.payload then throw .issuer
  if !verifier.acceptsAudience signed.payload then throw .audience
  return signed

/-- What checking a token tells: only that it was rejected, and for what kind of reason. -/
def events (verifier : Verifier) (now : Int64) (token : String) : List Event :=
  match verifier.verify now token with
  | .ok _ => []
  | .error e => [.rejected e.kind]

end Verifier

end TokenVault
