import TokenVault.Proofs.Token.Parsing

/-!
# The text of a token

Nothing of the text of a token is lost when it is read: what the signature covers is cut out of
the text as it stands, and the signature segment is the only spelling of the signature.  So the
parts that were read give the text back, and `SignedToken.ofText_keeps_text` says so for every
text.  Of which documents a header and a payload are read is said by `Header.ReadFrom` and
`Payload.ReadFrom`.
-/

namespace TokenVault

namespace SignedToken

/-- A text that cannot be read is malformed, or its signature segment spells nothing. -/
theorem kind_of_ofText {token : String} {e : TokenError} (h : ofText token = .error e) :
    e.kind ∈ [ErrorKind.malformedToken, .malformedEncoding, .invalidSignature] := by
  by_cases hlength : (segmentsOf token).length = 3
  · obtain ⟨a, b, c, hsegments⟩ := List.length_eq_three.1 hlength
    rw [ofText_of_segments hsegments] at h
    simp only [Result.bind_eq_error_iff, Result.mapError_eq_error_iff, Result.pure_eq_ok,
      reduceCtorEq, and_false, exists_false, or_false] at h
    -- one case for each stage that may fail
    rcases h with ⟨_, _, rfl⟩ | ⟨_, _, ⟨_, _, rfl⟩ | ⟨_, _, ⟨_, _, rfl⟩ | ⟨_, _, ⟨_, _, rfl⟩ |
      ⟨_, _, _, _, rfl⟩⟩⟩⟩
    all_goals simp [TokenError.kind]
  · rw [ofText_of_length_ne hlength] at h
    obtain rfl := Except.error.inj h
    simp [TokenError.kind]

theorem text_unique {s t : String} {signed other : SignedToken} (hs : ofText s = .ok signed)
    (ht : ofText t = .ok other) (hcontent : signed.signedContent = other.signedContent)
    (hsignature : signed.signature = other.signature) : s = t := by
  rw [(ofText_eq_ok_iff_covers.1 hs).2, (ofText_eq_ok_iff_covers.1 ht).2, hcontent, hsignature]

/-- A text is refused as malformed or for its signature segment, or it consists of what the
signature covers, a dot and the written form of the signature.  What is covered has one dot, the
header and the payload are what stands on its sides, and it is the text up to the octet that
the lengths of the two segments give; there the text can always be cut.  So two texts that are
read are equal if they agree in what is covered and in the signature. -/
theorem ofText_keeps_text :
    (∀ token : String,
      (∃ e, ofText token = .error e ∧
        e.kind ∈ [ErrorKind.malformedToken, .malformedEncoding, .invalidSignature]) ∨
      ∃ signed, ofText token = .ok signed ∧
        signed.signedContent ++ "." ++ Base64Url.encode signed.signature = token ∧
        signed.signedContent.toList.count '.' = 1 ∧
        ∃ a b, signed.signedContent = a ++ "." ++ b ∧
          (∃ octets, Base64Url.decode a = .ok octets ∧
            Header.ofOctets octets = .ok signed.header) ∧
          (∃ octets, Base64Url.decode b = .ok octets ∧
            Payload.ofOctets octets = .ok signed.payload) ∧
          textUpTo? token (a.utf8ByteSize + 1 + b.utf8ByteSize) = some signed.signedContent) ∧
    (∀ token a b c : String, segmentsOf token = [a, b, c] →
      textUpTo? token (a.utf8ByteSize + 1 + b.utf8ByteSize) = some (a ++ "." ++ b)) ∧
    ∀ (s t : String) (signed other : SignedToken), ofText s = .ok signed →
      ofText t = .ok other → signed.signedContent = other.signedContent →
        signed.signature = other.signature → s = t := by
  refine ⟨?_, fun token a b c h => textUpTo?_of_segments h, ?_⟩
  · intro token
    cases hread : ofText token with
    | error e => exact .inl ⟨e, rfl, kind_of_ofText hread⟩
    | ok signed =>
      obtain ⟨hcovers, htoken⟩ := ofText_eq_ok_iff_covers.1 hread
      obtain ⟨headerOctets, payloadOctets, hsegments, hheader, hpayload, hcontent⟩ :=
        ofText_eq_ok_iff.1 hread
      refine .inr ⟨signed, rfl, htoken.symm, hcovers.count_dot, _, _, hcontent,
        ⟨headerOctets, Base64Url.decode_encode _, hheader⟩,
        ⟨payloadOctets, Base64Url.decode_encode _, hpayload⟩, ?_⟩
      rw [hcontent]
      exact textUpTo?_of_segments hsegments
  · intro s t signed other hs ht hcontent hsignature
    exact text_unique hs ht hcontent hsignature

/-- A text of longer characters is cut behind the second of them, though it is no token; and
what is read of a token with a signature of two octets gives its text back. -/
theorem ofText_keeps_text_of_two_octets :
    (segmentsOf "ä.€.x" = ["ä", "€", "x"] ∧ textUpTo? "ä.€.x" 6 = some "ä.€") ∧
    ∃ signed, ofText (sampleContent ++ ".AQI") = .ok signed ∧
      signed.header = sample.header ∧ signed.payload = sample.payload ∧
      ofText (sampleContent ++ "." ++ Base64Url.encode [0x01, 0x02]) = .ok signed ∧
      sampleContent ++ ".AQI" = sampleContent ++ "." ++ Base64Url.encode [0x01, 0x02] := by
  obtain ⟨-, hcut, hunique⟩ := ofText_keeps_text
  have hsegments : segmentsOf "ä.€.x" = ["ä", "€", "x"] := by decide +kernel
  have hread (text : String) (h : text = sampleContent ++ "." ++ Base64Url.encode [0x01, 0x02]) :
      ofText text = .ok { sample with signature := [0x01, 0x02] } :=
    ofText_eq_ok_iff_covers.2 ⟨covers_sample, h⟩
  have hwritten := hread (sampleContent ++ ".AQI") (by decide +kernel)
  exact ⟨⟨hsegments, hcut _ _ _ _ hsegments⟩, _, hwritten, rfl, rfl, hread _ rfl,
    hunique _ _ _ _ hwritten (hread _ rfl) rfl rfl⟩

end SignedToken

end TokenVault
