import TokenVault.Proofs.Json.Record
import TokenVault.Token.Header
import TokenVault.Token.Payload

/-!
# Headers and payloads read back

What is written of a header is read as that header.  What is written of a payload is read as
that payload if no claim nests deeper than there is room for, and is refused as too deep if
one does.
-/

namespace TokenVault

open Json (Schema)

namespace Header

theorem takes_members (header : Header) :
    schema.Takes header.members schema.empty header := by
  obtain ⟨alg, typ, kid, cty⟩ := header
  have halg : schema.Takes [("alg", .string alg)] schema.empty ⟨alg, none, none, none⟩ := by
    refine Schema.takes_singleton fun node hnode => ?_
    show (node.text >>= fun text => pure (Header.mk text none none none)) = _
    rw [Json.Node.text_of_spelledBy hnode]
    rfl
  have htyp : schema.Takes (Json.optionalMember "typ" .string typ) ⟨alg, none, none, none⟩
      ⟨alg, typ, none, none⟩ :=
    Schema.takes_optionalText (fun x (h : Header) => { h with typ := x }) typ
      ⟨alg, none, none, none⟩ rfl fun _ => rfl
  have hkid : schema.Takes (Json.optionalMember "kid" .string kid) ⟨alg, typ, none, none⟩
      ⟨alg, typ, kid, none⟩ :=
    Schema.takes_optionalText (fun x (h : Header) => { h with kid := x }) kid
      ⟨alg, typ, none, none⟩ rfl fun _ => rfl
  have hcty : schema.Takes (Json.optionalMember "cty" .string cty) ⟨alg, typ, kid, none⟩
      ⟨alg, typ, kid, cty⟩ :=
    Schema.takes_optionalText (fun x (h : Header) => { h with cty := x }) cty
      ⟨alg, typ, kid, none⟩ rfl fun _ => rfl
  exact ((halg.append htyp).append hkid).append hcty

theorem nodup_members (header : Header) : (header.members.map (·.1)).Nodup := by
  have hsublist : (header.members.map (·.1)).Sublist ["alg", "typ", "kid", "cty"] := by
    simp only [members, List.map_append]
    exact (((List.Sublist.refl ["alg"]).append (Json.sublist_optionalMember _)).append
      (Json.sublist_optionalMember _)).append (Json.sublist_optionalMember _)
  exact hsublist.nodup (by decide)

/-- A header is read back from what is written of it. -/
theorem ofOctets_octets (header : Header) : ofOctets header.octets = .ok header := by
  rw [octets, Json.Value.compact_eq_write 0, ofOctets]
  refine Schema.ofOctets_write .tight 0 header.takes_members header.nodup_members
    fun field hfield => ?_
  obtain rfl := List.mem_singleton.1 hfield
  simp [members]

end Header

/-! ### Audiences -/

namespace Audience

theorem mapM_name?_map (names : List String) :
    (names.map Json.Value.string).mapM name? = some names := by
  induction names with
  | nil => rfl
  | cons name rest ih => simp [ih, name?]

theorem ofValue?_toValue (audience : Audience) : ofValue? audience.toValue = some audience := by
  cases audience with
  | single name => rfl
  | multiple names => rw [toValue, ofValue?, mapM_name?_map, Option.map_some]

theorem floatFree_toValue (audience : Audience) : audience.toValue.FloatFree := by
  cases audience with
  | single name => exact trivial
  | multiple names =>
    refine (Json.Value.floatFreeItems_iff _).2 fun v hv => ?_
    obtain ⟨name, -, rfl⟩ := List.mem_map.1 hv
    exact trivial

theorem ordered_toValue (audience : Audience) : audience.toValue.Ordered := by
  cases audience with
  | single name => exact trivial
  | multiple names =>
    show Json.Value.OrderedItems (names.map .string)
    induction names with
    | nil => exact trivial
    | cons name rest ih => exact ⟨trivial, ih⟩

theorem depth_toValue_le (audience : Audience) : audience.toValue.depth ≤ 1 := by
  cases audience with
  | single name => exact Nat.zero_le 1
  | multiple names =>
    have hitems : Json.Value.depthItems (names.map .string) = 0 := by
      induction names with
      | nil => rfl
      | cons name rest ih => rw [List.map_cons, Json.Value.depthItems, ih]; rfl
    rw [toValue, Json.Value.depth, hitems]

end Audience

namespace Payload

theorem readAudience_of_spelledBy (input : Bytes) (audience : Audience) {node : Json.Node}
    (h : audience.toValue.SpelledBy node) : readAudience input node = .ok audience := by
  have hroom : audience.toValue.depth ≤ claimDepth :=
    Nat.le_trans audience.depth_toValue_le (by decide)
  rw [readAudience, Json.Node.read_of_spelledBy h audience.floatFree_toValue
    audience.ordered_toValue hroom, Result.ok_bind]
  simp only [Audience.ofValue?_toValue]
  rfl

/-! ### Payloads -/

/-- The payload without its custom claims. -/
def registeredPart (payload : Payload) : Payload := { payload with custom := .empty }

theorem takes_registered (input : Bytes) (payload : Payload) :
    (schema input).Takes (payload.registeredPart.members) (schema input).empty
      payload.registeredPart := by
  obtain ⟨iss, aud, sub, iat, exp, nbf, jti, typ, custom⟩ := payload
  -- each claim is put into the record that the claims before it have left
  have hiss : (schema input).Takes (Json.optionalMember "iss" .string iss) empty
      { empty with iss } :=
    Schema.takes_optionalText (fun x (p : Payload) => { p with iss := x }) iss empty rfl
      fun _ => rfl
  have haud : (schema input).Takes (Json.optionalMember "aud" Audience.toValue aud)
      { empty with iss } { empty with iss, aud } :=
    Schema.takes_optionalMember (fun x (p : Payload) => { p with aud := x }) aud
      { empty with iss } rfl (by intro x; cases x <;> exact fun h => Json.Value.noConfusion h)
      (fun x _ => readAudience_of_spelledBy input x) fun _ => rfl
  have hsub : (schema input).Takes (Json.optionalMember "sub" .string sub)
      { empty with iss, aud } { empty with iss, aud, sub } :=
    Schema.takes_optionalText (fun x (p : Payload) => { p with sub := x }) sub
      { empty with iss, aud } rfl fun _ => rfl
  have hiat : (schema input).Takes (Json.optionalMember "iat" timeValue iat)
      { empty with iss, aud, sub } { empty with iss, aud, sub, iat } :=
    Schema.takes_optionalInt64 (fun x (p : Payload) => { p with iat := x }) iat
      { empty with iss, aud, sub } rfl fun _ => rfl
  have hexp : (schema input).Takes (Json.optionalMember "exp" timeValue exp)
      { empty with iss, aud, sub, iat } { empty with iss, aud, sub, iat, exp } :=
    Schema.takes_optionalInt64 (fun x (p : Payload) => { p with exp := x }) exp
      { empty with iss, aud, sub, iat } rfl fun _ => rfl
  have hnbf : (schema input).Takes (Json.optionalMember "nbf" timeValue nbf)
      { empty with iss, aud, sub, iat, exp } { empty with iss, aud, sub, iat, exp, nbf } :=
    Schema.takes_optionalInt64 (fun x (p : Payload) => { p with nbf := x }) nbf
      { empty with iss, aud, sub, iat, exp } rfl fun _ => rfl
  have hjti : (schema input).Takes (Json.optionalMember "jti" .string jti)
      { empty with iss, aud, sub, iat, exp, nbf }
      { empty with iss, aud, sub, iat, exp, nbf, jti } :=
    Schema.takes_optionalText (fun x (p : Payload) => { p with jti := x }) jti
      { empty with iss, aud, sub, iat, exp, nbf } rfl fun _ => rfl
  have htyp : (schema input).Takes (Json.optionalMember "typ" .string typ)
      { empty with iss, aud, sub, iat, exp, nbf, jti }
      { empty with iss, aud, sub, iat, exp, nbf, jti, typ } :=
    Schema.takes_optionalText (fun x (p : Payload) => { p with typ := x }) typ
      { empty with iss, aud, sub, iat, exp, nbf, jti } rfl fun _ => rfl
  have hall := hiss.append haud |>.append hsub |>.append hiat |>.append hexp |>.append hnbf
    |>.append hjti |>.append htyp
  rw [members, registeredPart, SortedMap.empty, List.append_nil]
  exact hall

theorem members_eq_append (payload : Payload) :
    payload.members = payload.registeredPart.members ++ payload.custom.entries := by
  simp [members, registeredPart, SortedMap.empty]

theorem takeMember_custom (input : Bytes) {name : String} (hname : name ∉ registered)
    (node : Json.Node) (payload : Payload) :
    (schema input).takeMember name node payload =
      (node.read claimDepth >>= fun value =>
        pure { payload with custom := payload.custom.insert name value }) := by
  refine Schema.takeMember_other (List.find?_eq_none.2 fun field hfield => ?_) node payload
  have hmem : field.name ∈ registered := by
    have hnames : (schema input).fields.map (·.name) = registered := rfl
    rw [← hnames]
    exact List.mem_map_of_mem hfield
  simpa using fun h : field.name = name => hname (h ▸ hmem)

/-- What may be a custom claim: its name is not registered, the objects in its value are in
order, and no number in it is a floating-point number. -/
structure Writable (claim : String × Json.Value) : Prop where
  name : claim.1 ∉ registered
  ordered : claim.2.Ordered
  floatFree : claim.2.FloatFree

/-- Custom claims that are not too deep are put into the payload one after the other. -/
theorem takes_custom (input : Bytes) {claims : List (String × Json.Value)}
    (hclaims : ∀ e ∈ claims, Writable e) (hdepth : ∀ e ∈ claims, e.2.depth ≤ claimDepth)
    (payload : Payload) :
    (schema input).Takes claims payload
      { payload with custom := claims.foldl (fun m e => m.insert e.1 e.2) payload.custom } := by
  induction claims generalizing payload with
  | nil => rfl
  | cons claim rest ih =>
    obtain ⟨hclaim, hrest⟩ := List.forall_mem_cons.1 hclaims
    obtain ⟨hfits, hdepth⟩ := List.forall_mem_cons.1 hdepth
    refine ⟨{ payload with custom := payload.custom.insert claim.1 claim.2 }, ?_,
      ih hrest hdepth _⟩
    intro node hnode
    rw [takeMember_custom input hclaim.name,
      Json.Node.read_of_spelledBy hnode hclaim.floatFree hclaim.ordered hfits]
    rfl

/-- The first custom claim that is too deep is refused. -/
theorem refuses_custom (input : Bytes) {claims : List (String × Json.Value)}
    (hclaims : ∀ e ∈ claims, Writable e) (hdepth : ¬∀ e ∈ claims, e.2.depth ≤ claimDepth)
    (payload : Payload) : (schema input).Refuses .tooDeep claims payload := by
  induction claims generalizing payload with
  | nil => exact absurd (by simp) hdepth
  | cons claim rest ih =>
    obtain ⟨hclaim, hrest⟩ := List.forall_mem_cons.1 hclaims
    by_cases hfits : claim.2.depth ≤ claimDepth
    · -- this claim is taken, so a later one is too deep
      refine .inr ⟨{ payload with custom := payload.custom.insert claim.1 claim.2 }, ?_,
        ih hrest (fun h => hdepth (List.forall_mem_cons.2 ⟨hfits, h⟩)) _⟩
      intro node hnode
      rw [takeMember_custom input hclaim.name,
        Json.Node.read_of_spelledBy hnode hclaim.floatFree hclaim.ordered hfits]
      rfl
    · refine .inl fun node hnode => ?_
      obtain ⟨offset, hread⟩ := Json.Node.read_too_deep hnode hclaim.floatFree hclaim.ordered
        (Nat.lt_of_not_le hfits)
      refine ⟨offset, ?_⟩
      rw [takeMember_custom input hclaim.name, hread]
      rfl

theorem nodup_members {payload : Payload}
    (h : ∀ e ∈ payload.custom.entries, e.1 ∉ registered) :
    (payload.members.map (·.1)).Nodup := by
  have hsublist : (payload.registeredPart.members.map (·.1)).Sublist registered := by
    simp only [members, List.map_append, registeredPart, SortedMap.empty,
      List.append_nil]
    exact Json.sublist_optionalMember _ |>.append (Json.sublist_optionalMember _)
      |>.append (Json.sublist_optionalMember _) |>.append (Json.sublist_optionalMember _)
      |>.append (Json.sublist_optionalMember _) |>.append (Json.sublist_optionalMember _)
      |>.append (Json.sublist_optionalMember _) |>.append (Json.sublist_optionalMember _)
  rw [members_eq_append, List.map_append]
  refine List.nodup_append.2 ⟨hsublist.nodup (by decide), payload.custom.nodup_keys, ?_⟩
  -- a custom claim has no registered name
  rintro name hregistered _ hcustom rfl
  obtain ⟨e, he, rfl⟩ := List.mem_map.1 hcustom
  exact h e he (hsublist.subset hregistered)

theorem forall_mem_members {payload : Payload} {P : Json.Value → Prop}
    (htext : ∀ text, P (.string text)) (hnumber : ∀ time, P (timeValue time))
    (haudience : ∀ audience, P (Audience.toValue audience))
    (hcustom : ∀ e ∈ payload.custom.entries, P e.2) : ∀ e ∈ payload.members, P e.2 := by
  intro e he
  simp only [members, List.mem_append, Json.mem_optionalMember] at he
  rcases he with (((((((⟨x, -, rfl⟩ | ⟨x, -, rfl⟩) | ⟨x, -, rfl⟩) | ⟨x, -, rfl⟩) | ⟨x, -, rfl⟩) |
    ⟨x, -, rfl⟩) | ⟨x, -, rfl⟩) | ⟨x, -, rfl⟩) | he
  · exact htext x
  · exact haudience x
  · exact htext x
  · exact hnumber x
  · exact hnumber x
  · exact hnumber x
  · exact htext x
  · exact htext x
  · exact hcustom e he

/-- Only the custom claims decide how deep a payload nests, if it nests deeper than
audiences do. -/
theorem depth_members_le_iff (payload : Payload) :
    (Json.Value.object payload.members).depth ≤ Json.depthLimit ↔
      ∀ e ∈ payload.custom.entries, e.2.depth ≤ claimDepth := by
  rw [Json.Value.depth, Nat.succ_le_iff, Nat.lt_iff_le_pred (by decide)]
  show Json.Value.depthMembers payload.members ≤ claimDepth ↔ _
  rw [Json.Value.depthMembers_le_iff]
  constructor
  · intro h e he
    refine h e ?_
    rw [members_eq_append]
    exact List.mem_append_right _ he
  · intro h
    exact forall_mem_members (P := fun v => v.depth ≤ claimDepth) (fun _ => Nat.zero_le _)
      (fun _ => Nat.zero_le _)
      (fun audience => Nat.le_trans audience.depth_toValue_le (by decide)) h

/-- A payload is read back from what is written of it, if it does not nest too deep. -/
theorem ofOctets_octets {payload : Payload} (h : ∀ e ∈ payload.custom.entries, Writable e)
    (hdepth : (Json.Value.object payload.members).depth ≤ Json.depthLimit) :
    ofOctets payload.octets = .ok payload := by
  have hcustom := takes_custom payload.octets h (payload.depth_members_le_iff.1 hdepth)
    payload.registeredPart
  rw [registeredPart, SortedMap.foldl_insert_empty] at hcustom
  have htakes := (takes_registered payload.octets payload).append hcustom
  rw [← members_eq_append] at htakes
  have hread := Schema.ofOctets_write .tight 0 htakes (nodup_members fun e he => (h e he).name)
    (by simp [schema])
  rw [← Json.Value.compact_eq_write] at hread
  exact hread

/-- A payload that nests too deep can be written but not read. -/
theorem ofOctets_octets_of_too_deep {payload : Payload}
    (h : ∀ e ∈ payload.custom.entries, Writable e)
    (hdepth : Json.depthLimit < (Json.Value.object payload.members).depth) :
    ∃ e, ofOctets payload.octets = .error e ∧ e.cause = .tooDeep := by
  have hdeep : ¬∀ e ∈ payload.custom.entries, e.2.depth ≤ claimDepth := fun hall =>
    Nat.not_le_of_lt hdepth (payload.depth_members_le_iff.2 hall)
  have hrefuses := (takes_registered payload.octets payload).append_refuses
    (refuses_custom payload.octets h hdeep payload.registeredPart)
  rw [← members_eq_append] at hrefuses
  have hread := Schema.ofOctets_write_of_refuses .tight 0 hrefuses
    (nodup_members fun e he => (h e he).name)
  rw [← Json.Value.compact_eq_write] at hread
  exact hread

end Payload

end TokenVault
