import TokenVault.Clock
import TokenVault.Json.Print
import TokenVault.Json.Record

/-!
# Token payloads

What a token claims: eight registered claims with a type of their own, and custom claims
of any name and value.  A registered name is never that of a custom claim, unless one is
put there on purpose.
-/

namespace TokenVault

/-- Who a token is meant for. -/
inductive Audience
  | single (name : String)
  | multiple (names : List String)
  deriving DecidableEq, Repr

namespace Audience

/-- The names of an audience. -/
def toList : Audience → List String
  | single name => [name]
  | multiple names => names

/-- Whether a name belongs to the audience. -/
def contains (audience : Audience) (name : String) : Bool := audience.toList.contains name

/-- An audience as it is written: a single name without brackets. -/
def toValue : Audience → Json.Value
  | single name => .string name
  | multiple names => .array (names.map .string)

/-- The text of a value that is one. -/
def name? : Json.Value → Option String
  | .string name => some name
  | _ => none

/-- The audience that a value stands for. -/
def ofValue? : Json.Value → Option Audience
  | .string name => some (single name)
  | .array items => (items.mapM name?).map multiple
  | _ => none

end Audience

/-- What a token claims. -/
structure Payload where
  /-- Who issued the token. -/
  iss : Option String
  /-- Who the token is meant for. -/
  aud : Option Audience
  /-- Whom the token is about. -/
  sub : Option String
  /-- When the token was issued, in seconds since the epoch. -/
  iat : Option Int64
  /-- When the token expires. -/
  exp : Option Int64
  /-- Before when the token should not be used. -/
  nbf : Option Int64
  /-- The name of the token itself. -/
  jti : Option String
  /-- The type of the token. -/
  typ : Option String
  custom : SortedMap Json.Value

namespace Payload

/-- The payload without claims. -/
def empty : Payload := ⟨none, none, none, none, none, none, none, none, .empty⟩

/-- The names of the registered claims. -/
def registered : List String := ["iss", "aud", "sub", "iat", "exp", "nbf", "jti", "typ"]

/-- The payload with a custom claim, unless its name is registered. -/
def withCustom (payload : Payload) (name : String) (value : Json.Value) : Payload :=
  if name ∈ registered then payload
  else { payload with custom := payload.custom.insert name value }

/-- The value of a custom claim. -/
def customClaim? (payload : Payload) (name : String) : Option Json.Value :=
  payload.custom.get? name

/-- The names of the audience; none if there is no audience. -/
def audiences (payload : Payload) : List String := (payload.aud.map Audience.toList).getD []

/-- Whether the token is valid at a time, in seconds, if clocks may differ by `skew`
seconds: it has been issued, and it has not expired. -/
def validAt (payload : Payload) (now : Int64) (skew : UInt64) : Bool :=
  let slack := (span skew).toInt
  payload.iat.all (fun iat => saturate (iat.toInt - slack) ≤ now) &&
    payload.exp.all (fun exp => now < saturate (exp.toInt + slack))

/-- Whether two payloads make the same claims; numbers are compared as numbers. -/
def alike (a b : Payload) : Bool :=
  a.iss == b.iss && a.aud == b.aud && a.sub == b.sub && a.iat == b.iat && a.exp == b.exp &&
    a.nbf == b.nbf && a.jti == b.jti && a.typ == b.typ &&
    Json.Value.alikeMembers a.custom.entries b.custom.entries

/-- A time as it is written. -/
def timeValue (time : Int64) : Json.Value := .number (.ofInt64 time)

/-- The members of the payload in the order of writing: the registered claims in a fixed
order, then the custom ones in ascending order. -/
def members (payload : Payload) : List (String × Json.Value) :=
  Json.optionalMember "iss" .string payload.iss ++
    Json.optionalMember "aud" Audience.toValue payload.aud ++
    Json.optionalMember "sub" .string payload.sub ++
    Json.optionalMember "iat" timeValue payload.iat ++
    Json.optionalMember "exp" timeValue payload.exp ++
    Json.optionalMember "nbf" timeValue payload.nbf ++
    Json.optionalMember "jti" .string payload.jti ++
    Json.optionalMember "typ" .string payload.typ ++ payload.custom.entries

/-- The payload as it is written. -/
def octets (payload : Payload) : Bytes := (Json.Value.object payload.members).compact

/-- The payload as text. -/
def text (payload : Payload) : String := payload.octets.display

/-- How deep the value of a claim may nest: the payload itself is one level. -/
def claimDepth : Nat := Json.depthLimit - 1

/-- Reads an audience: a value that is neither a text nor a list of texts is refused as a
whole. -/
def readAudience (input : Bytes) (node : Json.Node) : Except Json.Report Audience := do
  let value ← node.read claimDepth
  match Audience.ofValue? value with
  | some audience => return audience
  | none =>
    throw ⟨.noVariant "Audience", Json.settle input Json.closingBrace node.stop⟩

/-- How a payload is read from a given document. -/
def schema (input : Bytes) : Json.Schema Payload where
  expected := "struct Payload"
  empty := empty
  fields := [
    ⟨"iss", fun node payload => do
      return { payload with iss := ← node.optional Json.Node.text }⟩,
    ⟨"aud", fun node payload => do
      return { payload with aud := ← node.optional (readAudience input) }⟩,
    ⟨"sub", fun node payload => do
      return { payload with sub := ← node.optional Json.Node.text }⟩,
    ⟨"iat", fun node payload => do
      return { payload with iat := ← node.optional Json.Node.int64 }⟩,
    ⟨"exp", fun node payload => do
      return { payload with exp := ← node.optional Json.Node.int64 }⟩,
    ⟨"nbf", fun node payload => do
      return { payload with nbf := ← node.optional Json.Node.int64 }⟩,
    ⟨"jti", fun node payload => do
      return { payload with jti := ← node.optional Json.Node.text }⟩,
    ⟨"typ", fun node payload => do
      return { payload with typ := ← node.optional Json.Node.text }⟩]
  required := 0
  positional := false
  other name node payload := do
    let value ← node.read claimDepth
    return { payload with custom := payload.custom.insert name value }

/-- The payload that a document holds. -/
def ofOctets (input : Bytes) : Except Json.Error Payload :=
  (schema input).ofOctets input

end Payload

end TokenVault
