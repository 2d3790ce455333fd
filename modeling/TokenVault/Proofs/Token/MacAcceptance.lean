import TokenVault.Proofs.Token.Parsing

/-!
# Acceptance under a shared secret

Under a shared secret exactly one signature segment makes a token out of a text: the base64url
form of the tag of that text.  Any other segment is a wrong signature, however it is wrong,
unless it contains a dot, which makes it more than one segment.  What it is to decode as a header
or a payload is said apart from the decoders by `Header.ReadFrom` and `Payload.ReadFrom`.
-/

namespace TokenVault

theorem Algorithm.family_eq_mac_iff (algorithm : Algorithm) :
    algorithm.family = .mac ↔ algorithm ∈ [Algorithm.hs256, .hs384, .hs512] := by
  cases algorithm <;> decide

theorem VerificationKey.mac_accepts_iff (key : MacKey) (algorithm : Algorithm)
    (message signature : Bytes) :
    (VerificationKey.mac key).accepts algorithm message signature = true ↔
      algorithm.family = .mac ∧ signature = key.tag algorithm.digest message := by
  cases hfamily : algorithm.family with
  | mac => simp [accepts, hfamily, MacKey.accepts_iff]
  | rsa => simp [accepts, hfamily]

/-- Whether a text and a signature segment make a token under a shared secret. -/
def MacSigned (key : MacKey) (content segment : String) (header : Header) (payload : Payload) :
    Prop :=
  SignedToken.Covers content header payload ∧
    ∃ algorithm ∈ [Algorithm.hs256, .hs384, .hs512], header.alg = algorithm.name ∧
      segment = Base64Url.encode (key.tag algorithm.digest (Bytes.ofText content))

theorem genuine_mac_iff {signed : SignedToken} {key : MacKey} :
    signed.Genuine (.mac key) ↔
      ∃ algorithm ∈ [Algorithm.hs256, .hs384, .hs512], signed.header.alg = algorithm.name ∧
        signed.signature = key.tag algorithm.digest (Bytes.ofText signed.signedContent) := by
  constructor
  · rintro ⟨algorithm, hname, haccepts⟩
    obtain ⟨hfamily, hsignature⟩ := (VerificationKey.mac_accepts_iff _ _ _ _).1 haccepts
    exact ⟨algorithm, algorithm.family_eq_mac_iff.1 hfamily,
      (Algorithm.name_of_ofName? hname).symm, hsignature⟩
  · rintro ⟨algorithm, hmem, hname, hsignature⟩
    exact ⟨algorithm, Algorithm.ofName?_eq_some_iff.2 hname.symm,
      (VerificationKey.mac_accepts_iff _ _ _ _).2
        ⟨algorithm.family_eq_mac_iff.2 hmem, hsignature⟩⟩

theorem verifyToken_mac_eq_ok_iff (key : MacKey) (token : String) (header : Header)
    (payload : Payload) :
    verifyToken (.mac key) token = .ok (header, payload) ↔
      ∃ content segment, token = content ++ "." ++ segment ∧
        MacSigned key content segment header payload := by
  rw [verifyToken_eq_ok_iff]
  constructor
  · rintro ⟨signed, htext, hgenuine, rfl, rfl⟩
    obtain ⟨hcovers, htoken⟩ := SignedToken.ofText_eq_ok_iff_covers.1 htext
    obtain ⟨algorithm, hmem, hname, hsignature⟩ := genuine_mac_iff.1 hgenuine
    exact ⟨signed.signedContent, Base64Url.encode signed.signature, htoken, hcovers, algorithm,
      hmem, hname, congrArg Base64Url.encode hsignature⟩
  · rintro ⟨content, segment, rfl, hcovers, algorithm, hmem, hname, rfl⟩
    refine ⟨⟨header, payload, key.tag algorithm.digest (Bytes.ofText content), content⟩,
      ?_, ?_, rfl, rfl⟩
    · exact SignedToken.ofText_eq_ok_iff_covers.2 ⟨hcovers, rfl⟩
    · exact genuine_mac_iff.2 ⟨algorithm, hmem, hname, rfl⟩

/-- A segment without dots in place of the right one is a wrong signature. -/
theorem verifyToken_of_other_segment {key : MacKey} {content segment other : String}
    {header : Header} {payload : Payload} (h : MacSigned key content segment header payload)
    (hother : other ≠ segment) (hdot : '.' ∉ other.toList) :
    verifyToken (.mac key) (content ++ "." ++ other) = .error .signature := by
  obtain ⟨hcovers, algorithm, hmem, hname, rfl⟩ := h
  rw [verifyToken, SignedToken.ofText_of_covers hcovers hdot]
  cases hdecode : Base64Url.decode other with
  | error e => rfl
  | ok signature =>
    obtain rfl := (Base64Url.decode_eq_ok_iff _ _).1 hdecode
    have halgorithm : header.algorithm? = some algorithm :=
      Algorithm.ofName?_eq_some_iff.2 hname.symm
    have hrefused : (VerificationKey.mac key).accepts algorithm (Bytes.ofText content)
        signature = false := by
      rw [Bool.eq_false_iff]
      intro haccepts
      obtain ⟨-, hsignature⟩ := (VerificationKey.mac_accepts_iff _ _ _ _).1 haccepts
      exact hother (congrArg Base64Url.encode hsignature)
    simp [SignedToken.check, Header.algorithm, halgorithm, hrefused]

/-- A segment with dots in place of the right one is more than one segment. -/
theorem verifyToken_of_dotted_segment (key : VerificationKey) {content other : String}
    (hcontent : content.toList.count '.' = 1) (hdot : '.' ∈ other.toList) :
    verifyToken key (content ++ "." ++ other) =
      .error (.segments (other.toList.count '.' + 3)) := by
  have hlength : (segmentsOf (content ++ "." ++ other)).length = other.toList.count '.' + 3 := by
    rw [length_segmentsOf]
    simp [hcontent]
    omega
  have hpositive : 0 < other.toList.count '.' := List.count_pos_iff.2 hdot
  rw [verifyToken, SignedToken.ofText_of_length_ne (by omega), hlength]
  rfl

/-- A token is accepted under a shared secret exactly if it is a text with one dot, which
spells a header for one of the three algorithms of shared secrets and a payload, another dot,
and the base64url form of the tag of that text.  So, behind such a text, any segment but the
right one is a wrong signature, or makes a malformed token if it contains a dot. -/
theorem verifyToken_mac_exact (key : MacKey) :
    (∀ token header payload, verifyToken (.mac key) token = .ok (header, payload) ↔
      ∃ content segment, token = content ++ "." ++ segment ∧ content.toList.count '.' = 1 ∧
        (∃ headerOctets payloadOctets,
          content = Base64Url.encode headerOctets ++ "." ++ Base64Url.encode payloadOctets ∧
            Header.ofOctets headerOctets = .ok header ∧
            Payload.ofOctets payloadOctets = .ok payload) ∧
        ∃ algorithm ∈ [Algorithm.hs256, .hs384, .hs512], header.alg = algorithm.name ∧
          segment = Base64Url.encode (key.tag algorithm.digest (Bytes.ofText content))) ∧
    ∀ content segment, content.toList.count '.' = 1 →
      (verifyToken (.mac key) (content ++ "." ++ segment)).isOk = true →
        ∀ other, other ≠ segment →
          ('.' ∉ other.toList →
            verifyToken (.mac key) (content ++ "." ++ other) = .error .signature) ∧
          ('.' ∈ other.toList →
            verifyToken (.mac key) (content ++ "." ++ other) =
              .error (.segments (other.toList.count '.' + 3))) := by
  constructor
  · intro token header payload
    rw [verifyToken_mac_eq_ok_iff]
    constructor
    · rintro ⟨content, segment, htoken, hcovers, hsegment⟩
      exact ⟨content, segment, htoken, hcovers.count_dot, hcovers, hsegment⟩
    · rintro ⟨content, segment, htoken, -, hcovers, hsegment⟩
      exact ⟨content, segment, htoken, hcovers, hsegment⟩
  · intro content segment hcontent haccepted other hother
    cases hresult : verifyToken (.mac key) (content ++ "." ++ segment) with
    | error e => simp [hresult, Except.isOk, Except.toBool] at haccepted
    | ok result =>
      obtain ⟨content', segment', htoken, hsigned⟩ :=
        (verifyToken_mac_eq_ok_iff key _ result.1 result.2).1 hresult
      -- both texts end at the only place where one dot stands before
      obtain ⟨rfl, rfl⟩ := append_dot_inj (hcontent.trans hsigned.1.count_dot.symm) htoken
      exact ⟨verifyToken_of_other_segment hsigned hother,
        verifyToken_of_dotted_segment (.mac key) hcontent⟩

/-- A token under a secret of one octet.  The last symbol of its signature has a neighbour that
stands for the same octets but is not the one that is written. -/
theorem verifyToken_neighbouring_segments :
    verifyToken (.mac ⟨[0x6B], by decide⟩)
      (SignedToken.sampleContent ++ "." ++ SignedToken.sampleSegment) =
        .ok (SignedToken.sample.header, SignedToken.sample.payload) ∧
    verifyToken (.mac ⟨[0x6B], by decide⟩) (SignedToken.sampleContent ++ "." ++
      "Pl-vSbG8QsBtEzvikye_9-lAMGo4ftyi_fINN2FyfSZ") = .error .signature ∧
    verifyToken (.mac ⟨[0x6B], by decide⟩) (SignedToken.sampleContent ++ "." ++ ".") =
      .error (.segments 4) := by
  obtain ⟨hexact, hother⟩ := verifyToken_mac_exact ⟨[0x6B], by decide⟩
  have haccepted := (hexact (SignedToken.sampleContent ++ "." ++ SignedToken.sampleSegment)
    SignedToken.sample.header SignedToken.sample.payload).2
    ⟨_, _, rfl, SignedToken.covers_sample.count_dot, SignedToken.covers_sample, .hs256, by decide,
      rfl, by decide +kernel⟩
  have hedit := hother SignedToken.sampleContent SignedToken.sampleSegment
    SignedToken.covers_sample.count_dot (by rw [haccepted]; rfl)
  exact ⟨haccepted,
    (hedit "Pl-vSbG8QsBtEzvikye_9-lAMGo4ftyi_fINN2FyfSZ" (by decide)).1 (by decide +kernel),
    (hedit "." (by decide)).2 (by decide +kernel)⟩

end TokenVault
