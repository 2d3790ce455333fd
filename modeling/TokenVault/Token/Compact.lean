import TokenVault.Base64Url
import TokenVault.Event
import TokenVault.Key
import TokenVault.Token.Header
import TokenVault.Token.Payload

/-!
# Compact tokens

A token is written as three segments between dots: header, payload and signature, each in
base64url.  The signature covers the first two segments exactly as they stand in the text;
what they decode to is never written again for checking it.  They are cut out of the text behind
as many octets as they have, where it can always be cut (`SignedToken.isSome_ofText?`).
-/

namespace TokenVault

/-- Why a token was rejected or not made. -/
inductive TokenError
  /-- The header or the payload is no base64url. -/
  | encoding (cause : Base64Url.Error)
  /-- The token does not have three segments. -/
  | segments (found : Nat)
  | header (cause : Json.Error)
  | payload (cause : Json.Error)
  /-- No algorithm goes by this name. -/
  | algorithm (name : String)
  /-- The signature is not that of the token. -/
  | signature
  | key (cause : KeyError)
  /-- The token is not valid yet or not any more. -/
  | time
  | issuer
  | audience
  deriving DecidableEq

namespace TokenError

/-- The kind of an error. -/
def kind : TokenError → ErrorKind
  | encoding _ => .malformedEncoding
  | segments _ | header _ | payload _ => .malformedToken
  | algorithm _ => .unsupportedAlgorithm
  | signature => .invalidSignature
  | key _ => .signing
  | time => .invalidTime
  | issuer | audience => .claimMismatch

/-- The detail of an error; it never shows a key. -/
def detail : TokenError → String
  | encoding cause => cause.message
  | segments found => "expected 3 segments, found " ++ toString found
  | header cause => "Invalid header: " ++ cause.message
  | payload cause => "Invalid payload: " ++ cause.message
  | algorithm name => name
  | signature | time => ""
  | key cause => cause.message
  | issuer => "issuer not accepted"
  | audience => "audience not accepted"

/-- The wording of an error. -/
def message (e : TokenError) : String := e.kind.describe e.detail

end TokenError

/-- A token whose signature has not been checked. -/
structure SignedToken where
  header : Header
  payload : Payload
  signature : Bytes
  /-- The part of the text that the signature covers. -/
  signedContent : String

/-- Splits at dots. -/
def splitAtDots (chars : List Char) : List (List Char) :=
  chars.foldr (fun c segments =>
    match segments with
    | segment :: rest => if c = '.' then [] :: segment :: rest else (c :: segment) :: rest
    | [] => [[c]]) [[]]

/-- The segments of a token. -/
def segmentsOf (token : String) : List String :=
  (splitAtDots token.toList).map String.ofList

/-- The segments of a text give it back. -/
theorem intercalate_splitAtDots (chars : List Char) :
    List.intercalate ['.'] (splitAtDots chars) = chars := by
  induction chars with
  | nil => rfl
  | cons c rest ih =>
    rw [splitAtDots, List.foldr_cons, ← splitAtDots]
    cases hrest : splitAtDots rest with
    | nil =>
      rw [hrest] at ih
      obtain rfl : [] = rest := ih
      rfl
    | cons segment more =>
      rw [hrest] at ih
      dsimp only
      split
      · next hdot => rw [List.intercalate_cons_cons, ih, hdot]; rfl
      · rw [← ih]
        cases more <;> simp [List.intercalate]

theorem eq_append_of_segmentsOf {token a b c : String} (h : segmentsOf token = [a, b, c]) :
    token = a ++ "." ++ b ++ "." ++ c := by
  have hsplit : splitAtDots token.toList = [a.toList, b.toList, c.toList] := by
    have hlist := congrArg (List.map String.toList) h
    simpa [segmentsOf, Function.comp_def] using hlist
  have hjoin := intercalate_splitAtDots token.toList
  rw [hsplit] at hjoin
  rw [← String.toList_inj, ← hjoin]
  simp [List.intercalate]

/-- The octets up to the second dot are counted from the first two segments. -/
theorem textUpTo?_of_segments {token a b c : String} (h : segmentsOf token = [a, b, c]) :
    textUpTo? token (a.utf8ByteSize + 1 + b.utf8ByteSize) = some (a ++ "." ++ b) := by
  obtain rfl := eq_append_of_segmentsOf h
  rw [textUpTo?_eq_some_iff, String.utf8ByteSize_append, String.utf8ByteSize_append]
  exact ⟨rfl, "." ++ c, String.append_assoc⟩

/-- The algorithm that a header names. -/
def Header.algorithm (header : Header) : Except TokenError Algorithm :=
  match header.algorithm? with
  | some algorithm => .ok algorithm
  | none => .error (.algorithm header.alg)

namespace SignedToken

/-- The part of a token that is signed. -/
def signingInput (header : Header) (payload : Payload) : String :=
  Base64Url.encode header.octets ++ "." ++ Base64Url.encode payload.octets

/-- What the segments of a token stand for.  What is wrong with the writing of a segment comes
before what is wrong with its content. -/
def readSegments (headerSegment payloadSegment signatureSegment : String) :
    Except TokenError (Header × Payload × Bytes) := do
  let headerOctets ← (Base64Url.decode headerSegment).mapError .encoding
  let payloadOctets ← (Base64Url.decode payloadSegment).mapError .encoding
  let signature ← (Base64Url.decode signatureSegment).mapError fun _ => .signature
  let header ← (Header.ofOctets headerOctets).mapError .header
  let payload ← (Payload.ofOctets payloadOctets).mapError .payload
  return (header, payload, signature)

/-- Reads a token; none if it cannot be cut behind its first two segments. -/
def ofText? (token : String) : Option (Except TokenError SignedToken) :=
  match segmentsOf token with
  | [headerSegment, payloadSegment, signatureSegment] =>
    match readSegments headerSegment payloadSegment signatureSegment with
    | .ok (header, payload, signature) =>
      let signedLength := headerSegment.utf8ByteSize + 1 + payloadSegment.utf8ByteSize
      (textUpTo? token signedLength).map fun signedContent =>
        .ok { header, payload, signature, signedContent }
    | .error e => some (.error e)
  | segments => some (.error (.segments segments.length))

/-- Behind the first two segments a token can be cut. -/
theorem isSome_ofText? (token : String) : (ofText? token).isSome = true := by
  unfold ofText?
  split
  · next hsegments =>
    split
    · simp only [textUpTo?_of_segments hsegments]
      rfl
    · rfl
  · rfl

/-- Reads a token. -/
def ofText (token : String) : Except TokenError SignedToken :=
  (ofText? token).get (isSome_ofText? token)

/-- Checks the signature under a key and the algorithm that the header names. -/
def check (token : SignedToken) (key : VerificationKey) : Except TokenError Unit := do
  let algorithm ← token.header.algorithm
  if key.accepts algorithm (Bytes.ofText token.signedContent) token.signature then return ()
  else throw .signature

end SignedToken

/-- Signs a header and a payload. -/
def signToken (key : SigningKey) (header : Header) (payload : Payload) :
    Except TokenError String := do
  let algorithm ← header.algorithm
  let content := SignedToken.signingInput header payload
  let signature ← (key.sign algorithm (Bytes.ofText content)).mapError .key
  return content ++ "." ++ Base64Url.encode signature

/-- What signing a token tells: only success, and under which algorithm and key id. -/
def signEvents (key : SigningKey) (header : Header) (payload : Payload) : List Event :=
  match signToken key header payload, header.algorithm? with
  | .ok _, some algorithm => [.signed algorithm header.kid]
  | _, _ => []

/-- The header and the payload of a token whose signature is right. -/
def verifyToken (key : VerificationKey) (token : String) :
    Except TokenError (Header × Payload) := do
  let signed ← SignedToken.ofText token
  signed.check key
  return (signed.header, signed.payload)

end TokenVault
