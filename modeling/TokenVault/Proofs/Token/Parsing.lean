import Mathlib.Data.List.Basic
import TokenVault.Proofs.Base64Url
import TokenVault.Proofs.Result
import TokenVault.Proofs.Token.Segments

/-!
# Reading and checking a token

What it takes for a token to be read, and for its signature to be right.  The signature
covers the text up to the second dot: whatever follows that dot is the signature segment, or
more than one.
-/

namespace TokenVault

namespace SignedToken

/-- A token with three segments is read segment by segment. -/
theorem ofText_of_segments {token a b c : String} (h : segmentsOf token = [a, b, c]) :
    ofText token = (do
      let headerOctets ← (Base64Url.decode a).mapError .encoding
      let payloadOctets ← (Base64Url.decode b).mapError .encoding
      let signature ← (Base64Url.decode c).mapError fun _ => .signature
      let header ← (Header.ofOctets headerOctets).mapError .header
      let payload ← (Payload.ofOctets payloadOctets).mapError .payload
      return { header, payload, signature, signedContent := a ++ "." ++ b }) := by
  have hread : ofText token = (do
      let (header, payload, signature) ← readSegments a b c
      return { header, payload, signature, signedContent := a ++ "." ++ b }) := by
    refine Option.some.inj ((Option.some_get _).trans ?_)
    rw [ofText?, h]
    dsimp only
    cases readSegments a b c with
    | error e => rfl
    | ok parts =>
      dsimp only
      rw [textUpTo?_of_segments h]
      rfl
  rw [hread, readSegments]
  simp only [bind_assoc, pure_bind]

/-- A token with another number of segments is not read at all. -/
theorem ofText_of_length_ne {token : String} (h : (segmentsOf token).length ≠ 3) :
    ofText token = .error (.segments (segmentsOf token).length) := by
  refine Option.some.inj ((Option.some_get _).trans ?_)
  unfold ofText?
  split
  · next hsegments => exact absurd (congrArg List.length hsegments) h
  · rfl

/-- A token is read if it has three segments, each of them is the base64url form of something,
and the first two of these are a header and a payload. -/
theorem ofText_eq_ok_iff {token : String} {signed : SignedToken} :
    ofText token = .ok signed ↔
      ∃ headerOctets payloadOctets,
        segmentsOf token = [Base64Url.encode headerOctets, Base64Url.encode payloadOctets,
          Base64Url.encode signed.signature] ∧
        Header.ofOctets headerOctets = .ok signed.header ∧
        Payload.ofOctets payloadOctets = .ok signed.payload ∧
        signed.signedContent =
          Base64Url.encode headerOctets ++ "." ++ Base64Url.encode payloadOctets := by
  constructor
  · intro h
    have hlength : (segmentsOf token).length = 3 := by
      apply Decidable.byContradiction
      intro hne
      rw [ofText_of_length_ne hne] at h
      cases h
    obtain ⟨a, b, c, hsegments⟩ := List.length_eq_three.1 hlength
    rw [ofText_of_segments hsegments] at h
    simp only [Result.bind_eq_ok_iff, Result.mapError_eq_ok_iff, Result.pure_eq_ok,
      Except.ok.injEq, Base64Url.decode_eq_ok_iff] at h
    obtain ⟨headerOctets, rfl, payloadOctets, rfl, signature, rfl, header, hheader, payload,
      hpayload, rfl⟩ := h
    exact ⟨headerOctets, payloadOctets, hsegments, hheader, hpayload, rfl⟩
  · rintro ⟨headerOctets, payloadOctets, hsegments, hheader, hpayload, hcontent⟩
    obtain ⟨header, payload, signature, content⟩ := signed
    rw [ofText_of_segments hsegments]
    simp only [Base64Url.decode_encode, hheader, hpayload, Result.mapError_ok, Result.ok_bind,
      Result.pure_eq_ok] at hcontent ⊢
    rw [hcontent]

/-- Whether a text is what the signature of a token covers: the header and the payload, each in
base64url. -/
def Covers (content : String) (header : Header) (payload : Payload) : Prop :=
  ∃ headerOctets payloadOctets,
    content = Base64Url.encode headerOctets ++ "." ++ Base64Url.encode payloadOctets ∧
      Header.ofOctets headerOctets = .ok header ∧ Payload.ofOctets payloadOctets = .ok payload

theorem Covers.count_dot {content : String} {header : Header} {payload : Payload}
    (h : Covers content header payload) : content.toList.count '.' = 1 := by
  obtain ⟨headerOctets, payloadOctets, rfl, -, -⟩ := h
  have hnone (bytes : Bytes) : (Base64Url.encode bytes).toList.count '.' = 0 :=
    List.count_eq_zero_of_not_mem (Base64Url.dot_not_mem_encode bytes)
  simp [hnone]

/-- Behind what the signature covers, only the signature segment is still to be read. -/
theorem ofText_of_covers {content : String} {header : Header} {payload : Payload}
    (h : Covers content header payload) {segment : String} (hsegment : '.' ∉ segment.toList) :
    ofText (content ++ "." ++ segment) = (do
      let signature ← (Base64Url.decode segment).mapError fun _ => .signature
      return { header, payload, signature, signedContent := content }) := by
  obtain ⟨headerOctets, payloadOctets, rfl, hheader, hpayload⟩ := h
  rw [ofText_of_segments (segmentsOf_eq_three_iff.2 ⟨rfl, Base64Url.dot_not_mem_encode _,
    Base64Url.dot_not_mem_encode _, hsegment⟩)]
  simp only [Base64Url.decode_encode, hheader, hpayload, Result.mapError_ok, Result.ok_bind]

/-- A token is read if it consists of what the signature covers and a signature segment. -/
theorem ofText_eq_ok_iff_covers {token : String} {signed : SignedToken} :
    ofText token = .ok signed ↔
      Covers signed.signedContent signed.header signed.payload ∧
        token = signed.signedContent ++ "." ++ Base64Url.encode signed.signature := by
  rw [ofText_eq_ok_iff]
  constructor
  · rintro ⟨headerOctets, payloadOctets, hsegments, hheader, hpayload, hcontent⟩
    rw [hcontent]
    exact ⟨⟨headerOctets, payloadOctets, rfl, hheader, hpayload⟩,
      (segmentsOf_eq_three_iff.1 hsegments).1⟩
  · rintro ⟨⟨headerOctets, payloadOctets, hcontent, hheader, hpayload⟩, htoken⟩
    refine ⟨headerOctets, payloadOctets, segmentsOf_eq_three_iff.2 ⟨?_, ?_⟩, hheader, hpayload,
      hcontent⟩
    · rw [htoken, hcontent]
    · exact ⟨Base64Url.dot_not_mem_encode _, Base64Url.dot_not_mem_encode _,
        Base64Url.dot_not_mem_encode _⟩

/-! A token with most of what a token may have, signed with the octet `6b`. -/

/-- What its signature covers. -/
def sampleContent : String :=
  "eyJhbGciOiJIUzI1NiIsInR5cCI6IkpXVCIsImtpZCI6ImsxIn0" ++ "." ++
    "eyJpc3MiOiJpc3N1ZXIiLCJhdWQiOlsiYSIsImIiXSwiaWF0IjoxNjAwMDAwMDAwLCJleHAiOjIwMDAwMDAwMDAs" ++
    "InJvbGUiOnsiYWRtaW4iOnRydWV9fQ"

/-- Its signature segment. -/
def sampleSegment : String := "Pl-vSbG8QsBtEzvikye_9-lAMGo4ftyi_fINN2FyfSY"

/-- What is read of it. -/
def sample : SignedToken where
  header := (Header.named "HS256").withKeyId "k1"
  payload := { Payload.empty with
    iss := some "issuer", aud := some (.multiple ["a", "b"]), iat := some 1600000000,
    exp := some 2000000000, custom := SortedMap.empty.insert "role" (.object
      [("admin", .boolean true)]) }
  signature := [0x3E, 0x5F, 0xAF, 0x49, 0xB1, 0xBC, 0x42, 0xC0, 0x6D, 0x13, 0x3B, 0xE2, 0x93, 0x27,
    0xBF, 0xF7, 0xE9, 0x40, 0x30, 0x6A, 0x38, 0x7E, 0xDC, 0xA2, 0xFD, 0xF2, 0x0D, 0x37, 0x61, 0x72,
    0x7D, 0x26]
  signedContent := sampleContent

theorem covers_sample : Covers sampleContent sample.header sample.payload := by
  refine ⟨Bytes.ofText "\x7b\"alg\":\"HS256\",\"typ\":\"JWT\",\"kid\":\"k1\"\x7d",
    Bytes.ofText ("\x7b\"iss\":\"issuer\",\"aud\":[\"a\",\"b\"],\"iat\":1600000000," ++
      "\"exp\":2000000000,\"role\":\x7b\"admin\":true\x7d\x7d"), ?_, rfl, rfl⟩
  decide +kernel

theorem ofText_sample : ofText (sampleContent ++ "." ++ sampleSegment) = .ok sample :=
  ofText_eq_ok_iff_covers.2 ⟨covers_sample, by decide +kernel⟩

/-- Whether the signature is that of the token: the header names an algorithm, and the key
accepts the signature under it. -/
def Genuine (signed : SignedToken) (key : VerificationKey) : Prop :=
  ∃ algorithm, signed.header.algorithm? = some algorithm ∧
    key.accepts algorithm (Bytes.ofText signed.signedContent) signed.signature = true

theorem check_eq_ok_iff {signed : SignedToken} {key : VerificationKey} :
    signed.check key = .ok () ↔ signed.Genuine key := by
  rw [check, Header.algorithm, Genuine]
  cases halgorithm : signed.header.algorithm? with
  | none => simp
  | some algorithm =>
    by_cases haccepts :
      key.accepts algorithm (Bytes.ofText signed.signedContent) signed.signature = true
    · simp [haccepts]
    · simp [haccepts]

end SignedToken

theorem verifyToken_eq_ok_iff {key : VerificationKey} {token : String} {header : Header}
    {payload : Payload} :
    verifyToken key token = .ok (header, payload) ↔
      ∃ signed, SignedToken.ofText token = .ok signed ∧ signed.Genuine key ∧
        signed.header = header ∧ signed.payload = payload := by
  rw [verifyToken]
  simp only [← SignedToken.check_eq_ok_iff, Result.bind_eq_ok_iff, Result.pure_eq_ok,
    Except.ok.injEq, Prod.mk.injEq]
  constructor
  · rintro ⟨signed, htext, _, hcheck, hheader, hpayload⟩
    exact ⟨signed, htext, hcheck, hheader, hpayload⟩
  · rintro ⟨signed, htext, hcheck, hheader, hpayload⟩
    exact ⟨signed, htext, (), hcheck, hheader, hpayload⟩

end TokenVault
