import TokenVault.Proofs.Token.Decision
import TokenVault.Proofs.Token.RoundTrip
import TokenVault.Proofs.Token.TimeWindow
import TokenVault.Token.Issuance

/-!
# Issued tokens

What becomes of an issued token when it is verified.  The window in which it is accepted is that
of exact integers.  The audience is written in three ways, and read as the list that was asked
for.
-/

namespace TokenVault

namespace Issuance

/-! ### What is asked of a token -/

/-- What may be asked of a new token, one thing at a time. -/
inductive Choice
  | subject (subject : String)
  | audience (names : List String)
  | lifetime (seconds : Int64)
  | tokenType (tokenType : String)
  | custom (name : String) (value : Json.Value)

/-- The issuance after a choice.  A later choice takes the place of an earlier one. -/
def choose (issuance : Issuance) : Choice → Issuance
  | .subject subject => { issuance with subject := some subject }
  | .audience names => { issuance with audience := names }
  | .lifetime seconds => { issuance with lifetime := seconds }
  | .tokenType tokenType => { issuance with tokenType := some tokenType }
  | .custom name value => issuance.withCustom name value

/-- What an issuer asks of a token. -/
def ofChoices (issuer : String) (choices : List Choice) : Issuance :=
  choices.foldl choose (ofIssuer issuer)

theorem issuer_choose (issuance : Issuance) (choice : Choice) :
    (issuance.choose choice).issuer = issuance.issuer := by
  cases choice with
  | custom name value =>
    rw [choose, withCustom]
    split <;> rfl
  | subject | audience | lifetime | tokenType => rfl

/-- No choice brings in a custom claim with a registered name. -/
theorem unregistered_choose {issuance : Issuance}
    (h : ∀ claim ∈ issuance.custom.entries, claim.1 ∉ Payload.registered) (choice : Choice) :
    ∀ claim ∈ (issuance.choose choice).custom.entries, claim.1 ∉ Payload.registered := by
  cases choice with
  | custom name value =>
    rw [choose, withCustom]
    split
    · exact h
    · next hname => exact SortedMap.forall_keys_insert (P := (· ∉ Payload.registered)) hname h
  | subject | audience | lifetime | tokenType => exact h

theorem ofChoices_spec (issuer : String) (choices : List Choice) :
    (ofChoices issuer choices).issuer = issuer ∧
      ∀ claim ∈ (ofChoices issuer choices).custom.entries, claim.1 ∉ Payload.registered := by
  -- both hold at the start, and every choice keeps them
  have hrun : ∀ (start : Issuance), start.issuer = issuer →
      (∀ claim ∈ start.custom.entries, claim.1 ∉ Payload.registered) →
      (choices.foldl choose start).issuer = issuer ∧
        ∀ claim ∈ (choices.foldl choose start).custom.entries,
          claim.1 ∉ Payload.registered := by
    induction choices with
    | nil => exact fun start hissuer hcustom => ⟨hissuer, hcustom⟩
    | cons choice rest ih =>
      intro start hissuer hcustom
      exact ih _ ((issuer_choose start choice).trans hissuer)
        (unregistered_choose hcustom choice)
  exact hrun (ofIssuer issuer) rfl fun claim hclaim => absurd hclaim List.not_mem_nil

/-! ### What is issued -/

/-- However the audience is written, it is read as the list that was asked for. -/
theorem audiences_issue (issuance : Issuance) (now : Int64) (id : Uuid) :
    (issuance.issue now id).audiences = issuance.audience := by
  rw [Payload.audiences, issue]
  rcases issuance.audience with _ | ⟨first, _ | ⟨second, rest⟩⟩
  · rfl
  · rfl
  · rfl

/-- An issued payload is valid from when it is issued until its lifetime is over, give or take
the skew. -/
theorem validAt_issue_iff {issuance : Issuance} (hlifetime : 0 ≤ issuance.lifetime.toInt)
    (issuedAt verifiedAt : FixedClock) (id : Uuid) {skew : UInt64}
    (hskew : (skew.toNat : Int) ≤ greatestTime) :
    (issuance.issue issuedAt.seconds id).validAt verifiedAt.seconds skew = true ↔
      issuedAt.seconds.toInt - skew.toNat ≤ verifiedAt.seconds.toInt ∧
        verifiedAt.seconds.toInt <
          issuedAt.seconds.toInt + issuance.lifetime.toInt + skew.toNat := by
  have hissued := issuedAt.seconds_bounds
  have hverified := verifiedAt.seconds_bounds
  rw [Payload.validAt_iff, Int.min_eq_left hskew]
  simp only [issue, Option.mem_def, Option.some.injEq, forall_eq', toInt_saturate]
  rw [leastTime, greatestTime] at *
  omega

end Issuance

/-! ### What is signed is read -/

/-- A token that was signed is read, and its signature is right, if its payload can be read. -/
theorem ofText_signToken {key : SigningKey} {header : Header} {payload : Payload}
    {token : String} (hcustom : ∀ claim ∈ payload.custom.entries, Payload.Writable claim)
    (hdepth : (Json.Value.object payload.members).depth ≤ Json.depthLimit)
    (hsigned : signToken key header payload = .ok token) :
    ∃ signed, SignedToken.ofText token = .ok signed ∧ signed.Genuine key.verificationKey ∧
      signed.header = header ∧ signed.payload = payload := by
  obtain ⟨algorithm, signature, halgorithm, hsignature, rfl⟩ := signToken_eq_ok_iff.1 hsigned
  have hcovers : SignedToken.Covers (SignedToken.signingInput header payload) header payload :=
    ⟨header.octets, payload.octets, rfl, header.ofOctets_octets,
      Payload.ofOctets_octets hcustom hdepth⟩
  exact ⟨⟨header, payload, signature, SignedToken.signingInput header payload⟩,
    SignedToken.ofText_eq_ok_iff_covers.2 ⟨hcovers, rfl⟩,
    ⟨algorithm, halgorithm, SigningKey.accepts_of_sign hsignature⟩, rfl, rfl⟩

/-- A token is issued at one time and verified at another.  Whatever was asked of it, it is
accepted exactly in the window of exact integers that its lifetime and the skew make up, by
verifiers that accept its issuer and one of its audiences; and what is accepted is what was
signed. -/
theorem Issuance.verify_issued (issuer : String) (choices : List Choice)
    (issuedAt verifiedAt : FixedClock) (id : Uuid) (key : SigningKey) (header : Header)
    (token : String) (skew : UInt64) (issuers audiences : List String)
    (hlifetime : 0 ≤ (ofChoices issuer choices).lifetime.toInt)
    (hcustom : ∀ claim ∈ (ofChoices issuer choices).custom.entries,
      claim.2.Ordered ∧ claim.2.FloatFree)
    (hdepth : (Json.Value.object
      ((ofChoices issuer choices).issue issuedAt.seconds id).members).depth ≤ 127)
    (hskew : (skew.toNat : Int) ≤ greatestTime)
    (hsigned : signToken key header ((ofChoices issuer choices).issue issuedAt.seconds id) =
      .ok token) :
    ((∃ signed, (Verifier.mk key.verificationKey skew issuers audiences).verify
        verifiedAt.seconds token = .ok signed) ↔
      (issuedAt.seconds.toInt - skew.toNat ≤ verifiedAt.seconds.toInt ∧
        verifiedAt.seconds.toInt < issuedAt.seconds.toInt +
          (ofChoices issuer choices).lifetime.toInt + skew.toNat) ∧
      (issuers = [] ∨ issuer ∈ issuers) ∧
      (audiences = [] ∨ ∃ name ∈ (ofChoices issuer choices).audience, name ∈ audiences)) ∧
    ∀ signed, (Verifier.mk key.verificationKey skew issuers audiences).verify
        verifiedAt.seconds token = .ok signed →
      signed.header = header ∧
        signed.payload = (ofChoices issuer choices).issue issuedAt.seconds id := by
  obtain ⟨hissuer, hunregistered⟩ := ofChoices_spec issuer choices
  generalize ofChoices issuer choices = issuance at *
  have hwritable : ∀ claim ∈ (issuance.issue issuedAt.seconds id).custom.entries,
      Payload.Writable claim := fun claim hclaim =>
    ⟨hunregistered claim hclaim, (hcustom claim hclaim).1, (hcustom claim hclaim).2⟩
  obtain ⟨read, htext, hgenuine, hheader, hpayload⟩ := ofText_signToken hwritable hdepth hsigned
  have hissuers : Verifier.AcceptsIssuer issuers (issuance.issue issuedAt.seconds id) ↔
      issuers = [] ∨ issuer ∈ issuers := by
    simp [Verifier.AcceptsIssuer, issue, hissuer]
  have haudiences : Verifier.AcceptsAudience audiences (issuance.issue issuedAt.seconds id) ↔
      audiences = [] ∨ ∃ name ∈ issuance.audience, name ∈ audiences := by
    rw [Verifier.AcceptsAudience, Verifier.namesOneOf_iff, audiences_issue]
  have haccepts : ∀ signed, (Verifier.mk key.verificationKey skew issuers audiences).verify
      verifiedAt.seconds token = .ok signed ↔ signed = read ∧
        (issuance.issue issuedAt.seconds id).validAt verifiedAt.seconds skew = true ∧
          Verifier.AcceptsIssuer issuers (issuance.issue issuedAt.seconds id) ∧
            Verifier.AcceptsAudience audiences (issuance.issue issuedAt.seconds id) := by
    intro signed
    rw [Verifier.verify_eq_ok_iff, htext, Except.ok.injEq]
    constructor
    · rintro ⟨rfl, -, htime, hrest⟩
      rw [hpayload] at htime hrest
      exact ⟨rfl, htime, hrest⟩
    · rintro ⟨rfl, htime, hrest⟩
      rw [← hpayload] at htime hrest
      exact ⟨rfl, hgenuine, htime, hrest⟩
  constructor
  · simp only [haccepts, validAt_issue_iff hlifetime issuedAt verifiedAt id hskew, hissuers,
      haudiences, exists_eq_left]
  · intro signed hverify
    obtain ⟨rfl, -⟩ := (haccepts signed).1 hverify
    exact ⟨hheader, hpayload⟩

/-- A token for two audiences that is valid for a minute.  The claim `exp` is not one that may be
asked for. -/
def Issuance.forMinute : List Choice :=
  [.audience ["a", "b"], .lifetime 60, .custom "exp" .null, .custom "role" (.string "admin")]

/-- With a skew of five minutes the token is accepted in the sixth minute, and not after it. -/
theorem Issuance.verify_issued_last_second : ∃ token,
    signToken (.mac ⟨[0x6B], by decide⟩) (.ofAlgorithm .hs256)
      ((ofChoices "issuer" forMinute).issue (FixedClock.ofSeconds 1000).seconds
        (Uuid.ofRandom [])) = .ok token ∧
    (∃ signed, (Verifier.mk (.mac ⟨[0x6B], by decide⟩) 300 ["issuer"] ["b"]).verify
      (FixedClock.ofSeconds 1359).seconds token = .ok signed) ∧
    ¬∃ signed, (Verifier.mk (.mac ⟨[0x6B], by decide⟩) 300 ["issuer"] ["b"]).verify
      (FixedClock.ofSeconds 1360).seconds token = .ok signed := by
  obtain ⟨token, hsigned⟩ : ∃ token, signToken (.mac ⟨[0x6B], by decide⟩) (.ofAlgorithm .hs256)
      ((ofChoices "issuer" forMinute).issue (FixedClock.ofSeconds 1000).seconds
        (Uuid.ofRandom [])) = .ok token :=
    ⟨_, signToken_eq_ok_iff.2 ⟨.hs256, _, rfl, rfl, rfl⟩⟩
  have hcustom : ∀ claim ∈ (ofChoices "issuer" forMinute).custom.entries,
      claim.2.Ordered ∧ claim.2.FloatFree := by
    have hentries : (ofChoices "issuer" forMinute).custom.entries =
        [("role", .string "admin")] := by rfl
    rw [hentries]
    intro claim hclaim
    obtain rfl := List.mem_singleton.1 hclaim
    exact ⟨trivial, trivial⟩
  have hdepth : (Json.Value.object ((ofChoices "issuer" forMinute).issue
      (FixedClock.ofSeconds 1000).seconds (Uuid.ofRandom [])).members).depth ≤ 127 := by
    decide +kernel
  have hdecision (verifiedAt : FixedClock) := verify_issued "issuer" forMinute
    (.ofSeconds 1000) verifiedAt (Uuid.ofRandom []) (.mac ⟨[0x6B], by decide⟩)
    (.ofAlgorithm .hs256) token 300 ["issuer"] ["b"] (by decide) hcustom hdepth (by decide) hsigned
  refine ⟨token, hsigned, (hdecision (.ofSeconds 1359)).1.2 ?_, fun haccepted => ?_⟩
  · decide +kernel
  · have hrefused := (hdecision (.ofSeconds 1360)).1.1 haccepted
    revert hrefused
    decide +kernel

end TokenVault
