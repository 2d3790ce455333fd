import TokenVault.Proofs.Json.Disclosure
import TokenVault.Proofs.Json.Written
import TokenVault.Proofs.Token.Parsing

/-!
# What a refused token discloses

Two tokens whose payloads have interchangeable texts in one place are both read or both refused.
The reason to refuse them is the same, but where the text stands in place of a number or of the
whole payload: then it is quoted, whatever it is (`SignedToken.refused_alike`).
-/

namespace TokenVault

open Json (Agree Field SameOrQuoting UpToValue withText)
open Result (Both)

variable {s t : String}

namespace Audience

theorem isSome_name?_alike {a b : Json.Value} (h : Json.Value.Alike a b) :
    (name? a).isSome = (name? b).isSome := by
  cases h <;> rfl

theorem isSome_mapM_name? (items : List Json.Value) :
    (items.mapM name?).isSome = items.all fun item => (name? item).isSome := by
  induction items with
  | nil => rfl
  | cons item rest ih =>
    rw [List.all_cons, ← ih, List.mapM_cons]
    cases name? item <;> cases rest.mapM name? <;> rfl

theorem isSome_ofValue?_alike {a b : Json.Value} (h : Json.Value.Alike a b) :
    (ofValue? a).isSome = (ofValue? b).isSome := by
  cases h with
  | refl | string | object => rfl
  | array hitems =>
    rw [ofValue?, ofValue?, Option.isSome_map, Option.isSome_map, isSome_mapM_name?,
      isSome_mapM_name?]
    induction hitems with
    | nil => rfl
    | cons hitem _ ih => rw [List.all_cons, List.all_cons, isSome_name?_alike hitem, ih]

end Audience

namespace Payload

variable {input input' : Bytes}

theorem readAudience_alike (hinput : Bytes.Alike input input') (hst : Interchangeable s t)
    {node node' : Json.Node} (h : Json.Node.Alike s t node node') :
    Agree s t (readAudience input node) (readAudience input' node') := by
  refine (Json.Node.Alike.read hst node claimDepth h).bind fun value value' hvalue => ?_
  have hsome := Audience.isSome_ofValue?_alike hvalue
  rw [Json.settle_alike hinput, h.stop hst]
  generalize Audience.ofValue? value = x at hsome ⊢
  generalize Audience.ofValue? value' = y at hsome ⊢
  cases x with
  | none =>
    cases y with
    | none => exact .error (.refl _)
    | some => cases hsome
  | some =>
    cases y with
    | none => cases hsome
    | some => exact .ok trivial

/-- Claims are read from alike nodes alike. -/
theorem schema_alike (hinput : Bytes.Alike input input') (hst : Interchangeable s t) :
    Json.Schema.Alike s t (schema input) (schema input') where
  expected := rfl
  required := rfl
  positional := rfl
  fields := by
    have htext : ∀ name (set : Option String → Payload → Payload), Field.Alike s t
        ⟨name, fun node r => do return set (← node.optional Json.Node.text) r⟩
        ⟨name, fun node r => do return set (← node.optional Json.Node.text) r⟩ :=
      fun name set => Field.alike_of_read name set fun h => h.optional (h.text hst)
    have htime : ∀ name (set : Option Int64 → Payload → Payload), Field.Alike s t
        ⟨name, fun node r => do return set (← node.optional Json.Node.int64) r⟩
        ⟨name, fun node r => do return set (← node.optional Json.Node.int64) r⟩ :=
      fun name set => Field.alike_of_read name set fun h => h.optional (h.int64 hst)
    exact .cons (htext "iss" fun x r => { r with iss := x }) <|
      .cons (Field.alike_of_read "aud" (fun x (r : Payload) => { r with aud := x })
        fun h => h.optional (readAudience_alike hinput hst h)) <|
      .cons (htext "sub" fun x r => { r with sub := x }) <|
      .cons (htime "iat" fun x r => { r with iat := x }) <|
      .cons (htime "exp" fun x r => { r with exp := x }) <|
      .cons (htime "nbf" fun x r => { r with nbf := x }) <|
      .cons (htext "jti" fun x r => { r with jti := x }) <|
      .cons (htext "typ" fun x r => { r with typ := x }) .nil
  other _ _ _ h _ _ := (Json.Node.Alike.read hst _ claimDepth h).bind fun _ _ _ => .ok trivial

/-- Payloads with interchangeable texts in one place are both read or both refused, and the reasons
to refuse them are alike. -/
theorem ofOctets_alike {before : Bytes} (hbefore : UpToValue before) (hst : Interchangeable s t)
    (after : Bytes) :
    Both (Json.Error.Alike s t) (fun _ _ => True) (ofOctets (withText before after s))
      (ofOctets (withText before after t)) := by
  have hinput := Json.alike_withText hst before after
  exact Json.Document.read_alike hbefore hst after fun h =>
    (schema_alike hinput hst).read hinput hst h

end Payload

namespace SignedToken

/-- A token with a payload between a header and a signature that are written already. -/
def around (header signature : String) (payload : Bytes) : String :=
  header ++ "." ++ Base64Url.encode payload ++ "." ++ signature

theorem segmentsOf_around {header signature : String} (hheader : '.' ∉ header.toList)
    (hsignature : '.' ∉ signature.toList) (payload : Bytes) :
    segmentsOf (around header signature payload) =
      [header, Base64Url.encode payload, signature] :=
  segmentsOf_eq_three_iff.2 ⟨rfl, hheader, Base64Url.dot_not_mem_encode payload, hsignature⟩

/-- The payload adds no segments, whatever it is. -/
theorem length_segmentsOf_around (header signature : String) (payload : Bytes) :
    (segmentsOf (around header signature payload)).length =
      header.toList.count '.' + signature.toList.count '.' + 3 := by
  have hnone : (Base64Url.encode payload).toList.count '.' = 0 :=
    List.count_eq_zero_of_not_mem (Base64Url.dot_not_mem_encode payload)
  rw [length_segmentsOf, around]
  simp [hnone]
  omega

/-- Tokens with interchangeable texts in one place of their payloads are both read or both refused.
They are refused for the same reason, but where the text is quoted that stands in place of
something else. -/
theorem refused_alike {before : Bytes} (hbefore : UpToValue before) (hst : Interchangeable s t)
    (after : Bytes) (header signature : String) :
    Both (SameOrQuoting s t TokenError.payload) (fun _ _ => True)
      (ofText (around header signature (withText before after s)))
      (ofText (around header signature (withText before after t))) := by
  have hrefl : ∀ e, SameOrQuoting s t TokenError.payload e e := fun _ => .inl rfl
  by_cases hdots : '.' ∉ header.toList ∧ '.' ∉ signature.toList
  · have hsegments := segmentsOf_around hdots.1 hdots.2
    have hpayload : Both (SameOrQuoting s t TokenError.payload) (fun _ _ => True)
        ((Payload.ofOctets (withText before after s)).mapError .payload)
        ((Payload.ofOctets (withText before after t)).mapError .payload) :=
      (Payload.ofOctets_alike hbefore hst after).mapError fun _ _ h => h.sameOrQuoting _
    rw [ofText_of_segments (hsegments _), ofText_of_segments (hsegments _)]
    simp only [Base64Url.decode_encode, Result.mapError_ok, Result.ok_bind]
    -- only the payload tells the two tokens apart, so all else fails in both or in neither
    refine (Both.refl hrefl (fun _ => rfl) _).bind fun headerOctets headerOctets' hsame => ?_
    obtain rfl : headerOctets = headerOctets' := hsame
    refine (Both.refl hrefl (fun _ => rfl) _).bind fun signature signature' hsame => ?_
    refine (Both.refl hrefl (fun _ => rfl) _).bind fun header header' hsame => ?_
    exact hpayload.bind fun _ _ _ => .ok trivial
  · have hmore : ∀ payload, (segmentsOf (around header signature payload)).length ≠ 3 := by
      intro payload hthree
      rw [length_segmentsOf_around] at hthree
      exact hdots ⟨List.count_eq_zero.1 (by omega), List.count_eq_zero.1 (by omega)⟩
    rw [ofText_of_length_ne (hmore _), ofText_of_length_ne (hmore _), length_segmentsOf_around,
      length_segmentsOf_around]
    exact .error (hrefl _)

/-- A token is refused for the same reason whatever letters and digits stand in one text of its
payload, but where that text is quoted because something else was expected. -/
theorem refused_alike_unless_quoted {before : Bytes} (hbefore : UpToValue before)
    (hst : Interchangeable s t) (after : Bytes) (header signature : String) :
    ((∃ signed, ofText (around header signature (withText before after s)) = .ok signed) ↔
      ∃ signed, ofText (around header signature (withText before after t)) = .ok signed) ∧
    ∀ e, ofText (around header signature (withText before after s)) = .error e →
      ∃ e', ofText (around header signature (withText before after t)) = .error e' ∧
        e'.kind = e.kind ∧ (e'.message = e.message ∨ ∃ expected position,
          e = .payload ⟨.mismatch (.string s) expected, position⟩ ∧
            e' = .payload ⟨.mismatch (.string t) expected, position⟩) := by
  have hboth := refused_alike hbefore hst after header signature
  refine ⟨hboth.exists_ok_iff, fun e he => ?_⟩
  obtain ⟨e', he', halike⟩ := hboth.exists_error he
  refine ⟨e', he', ?_⟩
  rcases halike with rfl | ⟨expected, position, rfl, rfl⟩
  · exact ⟨rfl, .inl rfl⟩
  · exact ⟨rfl, .inr ⟨expected, position, rfl, rfl⟩⟩

/-- A payload with a text in place of the time when the token expires. -/
def expiringAt (text : String) : Bytes :=
  withText (Json.upToMember "exp") (Bytes.ofText "\x7d") text

/-- The header segment of a token. -/
def plainHeader : String := Base64Url.encode (Bytes.ofText "\x7b\"alg\":\"HS256\"\x7d")

theorem ofText_of_expiringAt {text : String} {cause : Json.Error}
    (h : Payload.ofOctets (expiringAt text) = .error cause) :
    ofText (around plainHeader (Base64Url.encode []) (expiringAt text)) =
      .error (.payload cause) := by
  have hheader : Header.ofOctets (Bytes.ofText "\x7b\"alg\":\"HS256\"\x7d") =
      .ok ⟨"HS256", none, none, none⟩ := rfl
  have hdot : '.' ∉ plainHeader.toList := Base64Url.dot_not_mem_encode _
  have hsegments := segmentsOf_around hdot (Base64Url.dot_not_mem_encode []) (expiringAt text)
  rw [ofText_of_segments hsegments, plainHeader]
  simp only [Base64Url.decode_encode, Result.mapError_ok, Result.ok_bind, hheader, h,
    Result.mapError_error, Result.error_bind]

theorem refused_alike_unless_quoted_expiry :
    UpToValue (Json.upToMember "exp") ∧ Interchangeable "A" "B" ∧
      ∃ e, ofText (around plainHeader (Base64Url.encode []) (expiringAt "B")) = .error e ∧
        e.kind = .malformedToken := by
  have herror : ofText (around plainHeader (Base64Url.encode []) (expiringAt "A")) = .error _ :=
    ofText_of_expiringAt rfl
  obtain ⟨e, he, hkind, -⟩ := (refused_alike_unless_quoted (Json.upToValue_upToMember "exp")
    interchangeable_letters (Bytes.ofText "\x7d") plainHeader (Base64Url.encode [])).2 _ herror
  exact ⟨Json.upToValue_upToMember "exp", interchangeable_letters, e, he, hkind⟩

/-- Messages show the text that stands in place of a number. -/
theorem messages_differ :
    ¬∀ (before after : Bytes) (s t header signature : String) (tree : Json.Tree)
      (e e' : TokenError),
      UpToValue before → Interchangeable s t → tree.Document (withText before after s) →
      ofText (around header signature (withText before after s)) = .error e →
      ofText (around header signature (withText before after t)) = .error e' →
        e'.message = e.message := by
  intro hall
  have hdocument : (Json.Value.object [("exp", .string "A")]).tree.Document (expiringAt "A") :=
    Json.Layout.tight.document_write 0 _
  have hsame := hall _ _ "A" "B" _ _ _ _ _ (Json.upToValue_upToMember "exp")
    interchangeable_letters hdocument (ofText_of_expiringAt rfl) (ofText_of_expiringAt rfl)
  revert hsame
  decide

end SignedToken

end TokenVault
