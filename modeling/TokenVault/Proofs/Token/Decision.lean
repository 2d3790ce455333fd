import TokenVault.Proofs.Token.Parsing
import TokenVault.Token.Verifier

/-!
# What a verifier decides

Checking a token has eleven stages.  Each of them is stated here on its own, by what it looks
at in the token (`Stage.fault?`), and the verdict is that of the first stage that finds fault:
`Verifier.verify_decides`.  The stages that depend on the time and on the lists of the verifier
are the last ones, so a token that is not genuine tells nothing about either.
-/

namespace TokenVault

/-- The error of a step that failed. -/
def Result.error? {ε α : Type} : Except ε α → Option ε
  | .ok _ => none
  | .error e => some e

theorem Result.error?_eq_some_iff {ε α : Type} {x : Except ε α} {e : ε} :
    Result.error? x = some e ↔ x = .error e := by
  cases x <;> simp [Result.error?]

namespace Verifier

/-- Whether a payload comes from one of some issuers, or there are none. -/
def AcceptsIssuer (issuers : List String) (payload : Payload) : Prop :=
  issuers = [] ∨ ∃ iss ∈ payload.iss.toList, iss ∈ issuers

/-- Whether one of some audiences is named, by a single name or in a list. -/
def NamesOneOf (audiences : List String) : Option Audience → Prop
  | none => False
  | some (.single name) => name ∈ audiences
  | some (.multiple names) => ∃ name ∈ names, name ∈ audiences

/-- Whether a payload is meant for one of some audiences, or there are none. -/
def AcceptsAudience (audiences : List String) (payload : Payload) : Prop :=
  audiences = [] ∨ NamesOneOf audiences payload.aud

instance (issuers : List String) (payload : Payload) :
    Decidable (AcceptsIssuer issuers payload) :=
  inferInstanceAs (Decidable (_ ∨ _))

instance (audiences : List String) : (aud : Option Audience) →
    Decidable (NamesOneOf audiences aud)
  | none => inferInstanceAs (Decidable False)
  | some (.single name) => inferInstanceAs (Decidable (name ∈ audiences))
  | some (.multiple names) => inferInstanceAs (Decidable (∃ name ∈ names, name ∈ audiences))

instance (audiences : List String) (payload : Payload) :
    Decidable (AcceptsAudience audiences payload) :=
  inferInstanceAs (Decidable (_ ∨ _))

theorem acceptsIssuer_iff (verifier : Verifier) (payload : Payload) :
    verifier.acceptsIssuer payload = true ↔ AcceptsIssuer verifier.issuers payload := by
  cases hiss : payload.iss <;> simp [acceptsIssuer, AcceptsIssuer, hiss]

/-- It does not matter in which form an audience is written. -/
theorem namesOneOf_iff (audiences : List String) (payload : Payload) :
    NamesOneOf audiences payload.aud ↔ ∃ name ∈ payload.audiences, name ∈ audiences := by
  rw [Payload.audiences]
  rcases payload.aud with _ | (name | names)
  · simp [NamesOneOf]
  · simp [NamesOneOf, Audience.toList]
  · simp [NamesOneOf, Audience.toList]

theorem acceptsAudience_iff (verifier : Verifier) (payload : Payload) :
    verifier.acceptsAudience payload = true ↔ AcceptsAudience verifier.audiences payload := by
  simp [acceptsAudience, AcceptsAudience, namesOneOf_iff]

end Verifier

/-! ### Stages -/

/-- The stages of checking a token. -/
inductive Stage
  | count
  | headerEncoding
  | payloadEncoding
  | signatureEncoding
  | header
  | payload
  | algorithm
  | signature
  | time
  | issuer
  | audience
  deriving DecidableEq, Repr

namespace Stage

/-- Every stage, in order. -/
def all : List Stage :=
  [count, headerEncoding, payloadEncoding, signatureEncoding, header, payload, algorithm,
    signature, time, issuer, audience]

/-- The stages that read the token. -/
def reading : List Stage :=
  [count, headerEncoding, payloadEncoding, signatureEncoding, header, payload]

/-- The stages that check its signature. -/
def checking : List Stage := [algorithm, signature]

/-- The stages that check its claims. -/
def claiming : List Stage := [time, issuer, audience]

theorem all_eq : all = reading ++ checking ++ claiming := rfl

/-- The kind of error that a stage finds. -/
def kind : Stage → ErrorKind
  | count | header | payload => .malformedToken
  | headerEncoding | payloadEncoding => .malformedEncoding
  | signatureEncoding | signature => .invalidSignature
  | algorithm => .unsupportedAlgorithm
  | time => .invalidTime
  | issuer | audience => .claimMismatch

/-- The segments of a token that has three. -/
def segments? (token : String) : Option (String × String × String) :=
  match segmentsOf token with
  | [a, b, c] => some (a, b, c)
  | _ => none

/-- What the header segment stands for. -/
def headerOctets? (token : String) : Option Bytes := do
  let (segment, _, _) ← segments? token
  (Base64Url.decode segment).toOption

/-- What the payload segment stands for. -/
def payloadOctets? (token : String) : Option Bytes := do
  let (_, segment, _) ← segments? token
  (Base64Url.decode segment).toOption

/-- What the signature segment stands for. -/
def signatureOctets? (token : String) : Option Bytes := do
  let (_, _, segment) ← segments? token
  (Base64Url.decode segment).toOption

/-- The header of a token. -/
def header? (token : String) : Option Header := do
  (Header.ofOctets (← headerOctets? token)).toOption

/-- The payload of a token. -/
def payload? (token : String) : Option Payload := do
  (Payload.ofOctets (← payloadOctets? token)).toOption

/-- The fault that a stage finds in a token, whatever the other stages find; none if there is
none, or if the token lacks what the stage looks at. -/
def fault? (verifier : Verifier) (now : Int64) (token : String) : Stage → Option TokenError
  | count =>
    if (segmentsOf token).length = 3 then none else some (.segments (segmentsOf token).length)
  | headerEncoding => do
    let (segment, _, _) ← segments? token
    (Result.error? (Base64Url.decode segment)).map .encoding
  | payloadEncoding => do
    let (_, segment, _) ← segments? token
    (Result.error? (Base64Url.decode segment)).map .encoding
  | signatureEncoding => do
    let (_, _, segment) ← segments? token
    (Result.error? (Base64Url.decode segment)).map fun _ => .signature
  | header => do
    (Result.error? (Header.ofOctets (← headerOctets? token))).map .header
  | payload => do
    (Result.error? (Payload.ofOctets (← payloadOctets? token))).map .payload
  | algorithm => do
    let header ← header? token
    if ∃ algorithm ∈ Algorithm.all, algorithm.name = header.alg then none
    else some (.algorithm header.alg)
  | signature => do
    let (headerSegment, payloadSegment, _) ← segments? token
    let signature ← signatureOctets? token
    let header ← header? token
    let algorithm ← Algorithm.ofName? header.alg
    if verifier.key.accepts algorithm (Bytes.ofText (headerSegment ++ "." ++ payloadSegment))
      signature then none else some .signature
  | time => do
    if (← payload? token).validAt now verifier.skew then none else some .time
  | issuer => do
    if Verifier.AcceptsIssuer verifier.issuers (← payload? token) then none else some .issuer
  | audience => do
    if Verifier.AcceptsAudience verifier.audiences (← payload? token) then none
    else some .audience

variable (verifier : Verifier) (now : Int64) {token : String}

/-- The stages that read the token find what is wrong with its writing. -/
theorem findSome?_reading :
    reading.findSome? (fault? verifier now token) =
      Result.error? (SignedToken.ofText token) := by
  by_cases hlength : (segmentsOf token).length = 3
  · obtain ⟨a, b, c, hsegments⟩ := List.length_eq_three.1 hlength
    rw [SignedToken.ofText_of_segments hsegments]
    have hthree : segments? token = some (a, b, c) := by rw [segments?, hsegments]
    -- one stage after the other, until one of them finds fault
    cases ha : Base64Url.decode a with
    | error e => simp [reading, fault?, hlength, hthree, ha, Result.error?]
    | ok headerOctets =>
    cases hb : Base64Url.decode b with
    | error e => simp [reading, fault?, hlength, hthree, ha, hb, Result.error?]
    | ok payloadOctets =>
    cases hc : Base64Url.decode c with
    | error e => simp [reading, fault?, hlength, hthree, ha, hb, hc, Result.error?]
    | ok signature =>
    have hheaderOctets : headerOctets? token = some headerOctets := by
      simp [headerOctets?, hthree, ha, Except.toOption]
    have hpayloadOctets : payloadOctets? token = some payloadOctets := by
      simp [payloadOctets?, hthree, hb, Except.toOption]
    cases hheader : Header.ofOctets headerOctets with
    | error e =>
      simp [reading, fault?, hlength, hthree, ha, hb, hc, hheaderOctets, hheader, Result.error?]
    | ok header =>
    cases hpayload : Payload.ofOctets payloadOctets with
    | error e =>
      simp [reading, fault?, hlength, hthree, ha, hb, hc, hheaderOctets, hheader,
        hpayloadOctets, hpayload, Result.error?]
    | ok payload =>
      simp [reading, fault?, hlength, hthree, ha, hb, hc, hheaderOctets, hheader,
        hpayloadOctets, hpayload, Result.error?]
  · rw [SignedToken.ofText_of_length_ne hlength]
    simp [reading, fault?, hlength, Result.error?]

variable {signed : SignedToken}

/-- What the stages look at in a token that is read. -/
theorem parts_of_ofText (h : SignedToken.ofText token = .ok signed) :
    (∃ a b c, segments? token = some (a, b, c) ∧ signed.signedContent = a ++ "." ++ b) ∧
      signatureOctets? token = some signed.signature ∧ header? token = some signed.header ∧
        payload? token = some signed.payload := by
  obtain ⟨headerOctets, payloadOctets, hsegments, hheader, hpayload, hcontent⟩ :=
    SignedToken.ofText_eq_ok_iff.1 h
  have hthree : segments? token = some (Base64Url.encode headerOctets,
      Base64Url.encode payloadOctets, Base64Url.encode signed.signature) := by
    rw [segments?, hsegments]
  refine ⟨⟨_, _, _, hthree, hcontent⟩, ?_, ?_, ?_⟩
  · simp [signatureOctets?, hthree, Base64Url.decode_encode, Except.toOption]
  · simp [header?, headerOctets?, hthree, Base64Url.decode_encode, hheader, Except.toOption]
  · simp [payload?, payloadOctets?, hthree, Base64Url.decode_encode, hpayload, Except.toOption]

/-- The stages that check the signature find what is wrong with it. -/
theorem findSome?_checking (h : SignedToken.ofText token = .ok signed) :
    checking.findSome? (fault? verifier now token) =
      Result.error? (signed.check verifier.key) := by
  obtain ⟨⟨a, b, c, hthree, hcontent⟩, hsignature, hheader, -⟩ := parts_of_ofText h
  have hknown : (∃ algorithm ∈ Algorithm.all, algorithm.name = signed.header.alg) ↔
      (Algorithm.ofName? signed.header.alg).isSome = true := by
    rw [Algorithm.ofName?, List.find?_isSome]
    simp
  rw [SignedToken.check, Header.algorithm, Header.algorithm?, hcontent]
  cases halgorithm : Algorithm.ofName? signed.header.alg with
  | none =>
    rw [halgorithm] at hknown
    simp [checking, fault?, hheader, hknown, Result.error?]
  | some algorithm =>
    rw [halgorithm] at hknown
    by_cases haccepts : verifier.key.accepts algorithm (Bytes.ofText (a ++ "." ++ b))
        signed.signature = true
    · simp [checking, fault?, hheader, hknown, hthree, hsignature, halgorithm, haccepts,
        Result.error?, -Bytes.ofText_append]
    · simp [checking, fault?, hheader, hknown, hthree, hsignature, halgorithm, haccepts,
        Result.error?, -Bytes.ofText_append]

/-- The stages that check the claims find the first claim that is not satisfied. -/
theorem findSome?_claiming (h : SignedToken.ofText token = .ok signed) :
    claiming.findSome? (fault? verifier now token) =
      if signed.payload.validAt now verifier.skew then
        if verifier.acceptsIssuer signed.payload then
          if verifier.acceptsAudience signed.payload then none else some .audience
        else some .issuer
      else some .time := by
  obtain ⟨-, -, -, hpayload⟩ := parts_of_ofText h
  simp only [Verifier.acceptsIssuer_iff, Verifier.acceptsAudience_iff]
  by_cases htime : signed.payload.validAt now verifier.skew = true
  · by_cases hissuer : Verifier.AcceptsIssuer verifier.issuers signed.payload
    · by_cases haudience : Verifier.AcceptsAudience verifier.audiences signed.payload
      · simp [claiming, fault?, hpayload, htime, hissuer, haudience]
      · simp [claiming, fault?, hpayload, htime, hissuer, haudience]
    · simp [claiming, fault?, hpayload, htime, hissuer]
  · simp [claiming, fault?, hpayload, htime]

/-- The verdict on a token is that of the first stage that finds fault. -/
theorem findSome?_all :
    all.findSome? (fault? verifier now token) = Result.error? (verifier.verify now token) := by
  rw [all_eq, List.findSome?_append, List.findSome?_append, findSome?_reading, Verifier.verify]
  cases htext : SignedToken.ofText token with
  | error e => rfl
  | ok signed =>
  rw [findSome?_checking verifier now htext]
  cases hcheck : signed.check verifier.key with
  | error e => simp [Result.error?, hcheck]
  | ok _ =>
  rw [findSome?_claiming verifier now htext]
  by_cases htime : signed.payload.validAt now verifier.skew = true
  · by_cases hissuer : verifier.acceptsIssuer signed.payload = true
    · by_cases haudience : verifier.acceptsAudience signed.payload = true
      · simp [Result.error?, hcheck, htime, hissuer, haudience]
      · simp [Result.error?, hcheck, htime, hissuer, haudience]
    · simp [Result.error?, hcheck, htime, hissuer]
  · simp [Result.error?, hcheck, htime]

/-- Each stage finds errors of one kind. -/
theorem kind_of_fault? {stage : Stage} {e : TokenError}
    (h : stage.fault? verifier now token = some e) : e.kind = stage.kind := by
  cases stage with
  | count =>
    simp only [fault?, Option.ite_none_left_eq_some, Option.some.injEq] at h
    obtain ⟨-, rfl⟩ := h
    rfl
  | headerEncoding | payloadEncoding | signatureEncoding | header | payload =>
    simp only [fault?, Option.bind_eq_bind, Option.bind_eq_some_iff, Option.map_eq_some_iff] at h
    obtain ⟨_, -, _, -, rfl⟩ := h
    rfl
  | algorithm | time | issuer | audience =>
    simp only [fault?, Option.bind_eq_bind, Option.bind_eq_some_iff,
      Option.ite_none_left_eq_some, Option.some.injEq] at h
    obtain ⟨_, -, -, rfl⟩ := h
    rfl
  | signature =>
    simp only [fault?, Option.bind_eq_bind, Option.bind_eq_some_iff,
      Option.ite_none_left_eq_some, Option.some.injEq] at h
    obtain ⟨_, -, _, -, _, -, _, -, -, rfl⟩ := h
    rfl

theorem isAuthRejection_kind (stage : Stage) :
    stage.kind.isAuthRejection = true ∧ stage.kind.isStorageFault = false := by
  cases stage <;> exact ⟨rfl, rfl⟩

end Stage

namespace Verifier

theorem verify_eq_ok_iff {verifier : Verifier} {now : Int64} {token : String}
    {signed : SignedToken} :
    verifier.verify now token = .ok signed ↔
      SignedToken.ofText token = .ok signed ∧ signed.Genuine verifier.key ∧
        signed.payload.validAt now verifier.skew = true ∧
          AcceptsIssuer verifier.issuers signed.payload ∧
            AcceptsAudience verifier.audiences signed.payload := by
  rw [← acceptsIssuer_iff, ← acceptsAudience_iff, ← SignedToken.check_eq_ok_iff, verify]
  constructor
  · intro h
    obtain ⟨read, htext, h⟩ := Result.bind_eq_ok_iff.1 h
    obtain ⟨_, hcheck, h⟩ := Result.bind_eq_ok_iff.1 h
    by_cases htime : read.payload.validAt now verifier.skew = true
    · by_cases hissuer : verifier.acceptsIssuer read.payload = true
      · by_cases haudience : verifier.acceptsAudience read.payload = true
        · simp [htime, hissuer, haudience] at h
          subst h
          exact ⟨htext, hcheck, htime, hissuer, haudience⟩
        · simp [htime, hissuer, haudience] at h
      · simp [htime, hissuer] at h
    · simp [htime] at h
  · rintro ⟨htext, hcheck, htime, hissuer, haudience⟩
    simp [htext, hcheck, htime, hissuer, haudience]

/-- What a verifier makes of a token that is not genuine depends on the key only. -/
theorem verify_of_not_genuine {verifier : Verifier} {token : String}
    (h : ∀ signed, SignedToken.ofText token = .ok signed → ¬signed.Genuine verifier.key)
    (now later : Int64) {other : Verifier} (hkey : other.key = verifier.key) :
    other.verify later token = verifier.verify now token := by
  rw [verify, verify, hkey]
  cases htext : SignedToken.ofText token with
  | error e => rw [Result.error_bind, Result.error_bind]
  | ok signed =>
    rw [Result.ok_bind, Result.ok_bind]
    cases hcheck : signed.check verifier.key with
    | error e => rw [Result.error_bind, Result.error_bind]
    | ok _ => exact absurd (SignedToken.check_eq_ok_iff.1 hcheck) (h signed htext)

/-- The decision of a verifier.  A token is accepted exactly if it is read, its signature is
right, the time is, and the issuer and one of the audiences are accepted.  Otherwise the error
is that of the first of the eleven stages that finds fault; its kind is that of the stage, and
always that of a rejected token.  On a token whose signature is not right, verifiers with the
same key agree at all times, whatever their skews and lists are, in what they answer and in
what they tell. -/
theorem verify_decides (verifier : Verifier) (now : Int64) (token : String) :
    (∀ signed, verifier.verify now token = .ok signed ↔
      SignedToken.ofText token = .ok signed ∧ signed.Genuine verifier.key ∧
        signed.payload.validAt now verifier.skew = true ∧
          AcceptsIssuer verifier.issuers signed.payload ∧
            AcceptsAudience verifier.audiences signed.payload) ∧
    (∀ e, verifier.verify now token = .error e ↔
      Stage.all.findSome? (Stage.fault? verifier now token) = some e) ∧
    (∀ stage e, Stage.fault? verifier now token stage = some e → e.kind = stage.kind) ∧
    (∀ e, verifier.verify now token = .error e →
      e.kind.isAuthRejection = true ∧ e.kind.isStorageFault = false) ∧
    ((∀ signed, SignedToken.ofText token = .ok signed → ¬signed.Genuine verifier.key) →
      ∀ (other : Verifier) (later : Int64), other.key = verifier.key →
        other.verify later token = verifier.verify now token ∧
          other.events later token = verifier.events now token) := by
  have hfirst : ∀ e, verifier.verify now token = .error e ↔
      Stage.all.findSome? (Stage.fault? verifier now token) = some e := by
    intro e
    rw [Stage.findSome?_all, Result.error?_eq_some_iff]
  refine ⟨fun signed => verify_eq_ok_iff, hfirst, fun stage e => Stage.kind_of_fault? _ _,
    ?_, ?_⟩
  · intro e he
    obtain ⟨stage, -, hfault⟩ := List.exists_of_findSome?_eq_some ((hfirst e).1 he)
    rw [Stage.kind_of_fault? _ _ hfault]
    exact stage.isAuthRejection_kind
  · intro hnot other later hkey
    have hverify := verify_of_not_genuine hnot now later hkey
    refine ⟨hverify, ?_⟩
    rw [events, events, hverify]

/-- A token without claims, and with a signature of three zero octets. -/
def forgedToken : String := "eyJhbGciOiJIUzI1NiJ9.e30.AAAA"

theorem ofText_forgedToken : SignedToken.ofText forgedToken =
    .ok ⟨⟨"HS256", none, none, none⟩, .empty, [0, 0, 0], "eyJhbGciOiJIUzI1NiJ9.e30"⟩ := by
  refine SignedToken.ofText_eq_ok_iff_covers.2 ⟨⟨Bytes.ofText "\x7b\"alg\":\"HS256\"\x7d",
    Bytes.ofText "\x7b\x7d", ?_, rfl, rfl⟩, ?_⟩
  · decide +kernel
  · decide +kernel

/-- A token for two audiences is accepted where one of them is, and not where neither is.  On a
forged token a verifier with lists and one without them agree. -/
theorem verify_decides_accepted_and_forged :
    (∃ signed, (Verifier.mk (.mac ⟨[0x6B], by decide⟩) 0 ["issuer"] ["c", "b"]).verify 1700000000
      (SignedToken.sampleContent ++ "." ++ SignedToken.sampleSegment) = .ok signed ∧
        signed.payload.aud = some (.multiple ["a", "b"])) ∧
    (¬∃ signed, (Verifier.mk (.mac ⟨[0x6B], by decide⟩) 0 ["issuer"] ["c"]).verify 1700000000
      (SignedToken.sampleContent ++ "." ++ SignedToken.sampleSegment) = .ok signed) ∧
    (Verifier.mk (.mac ⟨[0x6B], by decide⟩) 0 ["issuer"] ["audience"]).verify 1700000000
      forgedToken = (Verifier.ofKey (.mac ⟨[0x6B], by decide⟩)).verify 0 forgedToken := by
  refine ⟨⟨SignedToken.sample, ?_, rfl⟩, ?_, ?_⟩
  · have hgenuine : SignedToken.sample.Genuine (.mac ⟨[0x6B], by decide⟩) :=
      ⟨.hs256, rfl, by decide +kernel⟩
    exact ((verify_decides _ _ _).1 _).2
      ⟨SignedToken.ofText_sample, hgenuine, by decide, by decide, by decide⟩
  · rintro ⟨signed, haccepted⟩
    obtain ⟨hread, -, -, -, haudience⟩ := ((verify_decides _ _ _).1 _).1 haccepted
    obtain rfl := Except.ok.inj (SignedToken.ofText_sample.symm.trans hread)
    revert haudience
    decide
  · have hforged : ∀ signed, SignedToken.ofText forgedToken = .ok signed →
        ¬signed.Genuine (.mac ⟨[0x6B], by decide⟩) := by
      intro signed hsigned
      rw [ofText_forgedToken] at hsigned
      obtain rfl := Except.ok.inj hsigned
      rintro ⟨algorithm, hname, haccepts⟩
      obtain rfl : Algorithm.hs256 = algorithm := Option.some.inj hname
      revert haccepts
      decide +kernel
    exact ((verify_decides (.ofKey (.mac ⟨[0x6B], by decide⟩)) 0 forgedToken).2.2.2.2 hforged
      (.mk (.mac ⟨[0x6B], by decide⟩) 0 ["issuer"] ["audience"]) 1700000000 rfl).1

end Verifier

end TokenVault
