import TokenVault.Proofs.Key
import TokenVault.Proofs.Token.Claims
import TokenVault.Proofs.Token.Parsing

/-!
# Signing and verifying

What is signed is verified: a token gives back the header and the payload that it was made
from, as long as the payload can be read.  Writing has no limit to the depth but reading has,
so a payload that nests deeper is signed and then refused.
-/

namespace TokenVault

theorem Header.algorithm_eq_ok_iff {header : Header} {algorithm : Algorithm} :
    header.algorithm = .ok algorithm ↔ header.algorithm? = some algorithm := by
  rw [Header.algorithm]
  cases header.algorithm? <;> simp

/-- A token that is made consists of what is signed, a dot and the signature. -/
theorem signToken_eq_ok_iff {key : SigningKey} {header : Header} {payload : Payload}
    {token : String} :
    signToken key header payload = .ok token ↔
      ∃ algorithm signature, header.algorithm? = some algorithm ∧
        key.sign algorithm (Bytes.ofText (SignedToken.signingInput header payload)) =
          .ok signature ∧
        token = SignedToken.signingInput header payload ++ "." ++ Base64Url.encode signature := by
  rw [signToken]
  simp only [Result.bind_eq_ok_iff, Result.mapError_eq_ok_iff, Result.pure_eq_ok,
    Except.ok.injEq, Header.algorithm_eq_ok_iff]
  constructor
  · rintro ⟨algorithm, halgorithm, signature, hsignature, rfl⟩
    exact ⟨algorithm, signature, halgorithm, hsignature, rfl⟩
  · rintro ⟨algorithm, signature, halgorithm, hsignature, rfl⟩
    exact ⟨algorithm, halgorithm, signature, hsignature, rfl⟩

/-- A token that was made with a key is verified with the key that belongs to it.  If the
payload nests up to 127 arrays and objects, itself counted, the header and the payload are what
they were; if it nests deeper, the payload is refused for that, as a malformed token. -/
theorem verifyToken_signToken (key : SigningKey) (header : Header) (payload : Payload)
    (token : String) (hcustom : ∀ claim ∈ payload.custom.entries, Payload.Writable claim)
    (hsigned : signToken key header payload = .ok token) :
    ((Json.Value.object payload.members).depth ≤ 127 →
      verifyToken key.verificationKey token = .ok (header, payload)) ∧
    (127 < (Json.Value.object payload.members).depth →
      ∃ cause, verifyToken key.verificationKey token = .error (.payload cause) ∧
        cause.cause = .tooDeep ∧ (TokenError.payload cause).kind = .malformedToken) := by
  obtain ⟨algorithm, signature, halgorithm, hsignature, rfl⟩ := signToken_eq_ok_iff.1 hsigned
  constructor
  · intro hdepth
    have hcovers : SignedToken.Covers (SignedToken.signingInput header payload) header payload :=
      ⟨header.octets, payload.octets, rfl, header.ofOctets_octets,
        Payload.ofOctets_octets hcustom hdepth⟩
    refine verifyToken_eq_ok_iff.2
      ⟨⟨header, payload, signature, SignedToken.signingInput header payload⟩, ?_, ?_, rfl, rfl⟩
    · exact SignedToken.ofText_eq_ok_iff_covers.2 ⟨hcovers, rfl⟩
    · exact ⟨algorithm, halgorithm, SigningKey.accepts_of_sign hsignature⟩
  · intro hdepth
    -- the segments and the header are read as before, and only the payload is not
    obtain ⟨cause, hpayload, hcause⟩ := Payload.ofOctets_octets_of_too_deep hcustom hdepth
    refine ⟨cause, ?_, hcause, rfl⟩
    have hsegments : segmentsOf (SignedToken.signingInput header payload ++ "." ++
        Base64Url.encode signature) = [Base64Url.encode header.octets,
          Base64Url.encode payload.octets, Base64Url.encode signature] :=
      segmentsOf_eq_three_iff.2 ⟨rfl, Base64Url.dot_not_mem_encode _,
        Base64Url.dot_not_mem_encode _, Base64Url.dot_not_mem_encode _⟩
    rw [verifyToken, SignedToken.ofText_of_segments hsegments]
    simp only [Base64Url.decode_encode, header.ofOctets_octets, hpayload, Result.mapError_ok,
      Result.mapError_error, Result.ok_bind, Result.error_bind]

/-- So many arrays, each of them within the one before. -/
def Json.Value.nested : Nat → Json.Value
  | 0 => .null
  | n + 1 => .array [nested n]

theorem Json.Value.nested_spec (n : Nat) :
    (nested n).Ordered ∧ (nested n).FloatFree ∧ (nested n).depth = n := by
  induction n with
  | zero => exact ⟨trivial, trivial, rfl⟩
  | succ n ih =>
    obtain ⟨hordered, hfree, hdepth⟩ := ih
    refine ⟨⟨hordered, trivial⟩, ⟨hfree, trivial⟩, ?_⟩
    rw [nested, depth, depthItems, depthItems, hdepth, Nat.max_zero]

/-- A payload with one claim that nests so deep. -/
def Payload.nesting (n : Nat) : Payload :=
  { Payload.empty with custom := SortedMap.empty.insert "claim" (.nested n) }

theorem Payload.writable_nesting (n : Nat) :
    ∀ claim ∈ (nesting n).custom.entries, Writable claim := by
  intro claim hclaim
  obtain rfl := List.mem_singleton.1 hclaim
  obtain ⟨hordered, hfree, -⟩ := Json.Value.nested_spec n
  have hname : "claim" ∉ registered := by decide
  exact ⟨hname, hordered, hfree⟩

theorem Payload.depth_nesting (n : Nat) :
    (Json.Value.object (nesting n).members).depth = n + 1 := by
  show max (Json.Value.nested n).depth 0 + 1 = n + 1
  rw [(Json.Value.nested_spec n).2.2, Nat.max_zero]

/-- The limit is exact: a claim of 126 arrays is read back, and one of 127 is not. -/
theorem verifyToken_signToken_at_limit :
    (∃ token, signToken (.mac ⟨[0x6B], by decide⟩) (.ofAlgorithm .hs256) (.nesting 126) =
        .ok token ∧
      verifyToken (.mac ⟨[0x6B], by decide⟩) token = .ok (.ofAlgorithm .hs256, .nesting 126)) ∧
    ∃ token cause, signToken (.mac ⟨[0x6B], by decide⟩) (.ofAlgorithm .hs256) (.nesting 127) =
        .ok token ∧
      verifyToken (.mac ⟨[0x6B], by decide⟩) token = .error (.payload cause) := by
  have hsigned (payload : Payload) : ∃ token,
      signToken (.mac ⟨[0x6B], by decide⟩) (.ofAlgorithm .hs256) payload = .ok token :=
    ⟨_, signToken_eq_ok_iff.2 ⟨.hs256, _, rfl, rfl, rfl⟩⟩
  constructor
  · obtain ⟨token, htoken⟩ := hsigned (.nesting 126)
    have hdepth := Payload.depth_nesting 126
    exact ⟨token, htoken, (verifyToken_signToken _ _ _ token (Payload.writable_nesting 126)
      htoken).1 (by omega)⟩
  · obtain ⟨token, htoken⟩ := hsigned (.nesting 127)
    have hdepth := Payload.depth_nesting 127
    obtain ⟨cause, hrefused, -, -⟩ := (verifyToken_signToken _ _ _ token
      (Payload.writable_nesting 127) htoken).2 (by omega)
    exact ⟨token, cause, htoken, hrefused⟩

end TokenVault
