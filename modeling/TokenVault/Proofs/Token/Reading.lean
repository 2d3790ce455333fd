import TokenVault.Proofs.Json.Members
import TokenVault.Proofs.Token.Claims

/-!
# Claims and header fields read from any document

Two readers of one document cannot see different claims: the fields of a header and the claims
of a payload are determined by the members of the document, whatever their order and however
their names are escaped.  A recognised name decides a field only if it occurs once; for a custom
claim the last member with its name counts; a header ignores all other members.
-/

namespace TokenVault

open Json (HoldsLast HoldsOptional Holds Named Repeats Schema Tree orNull valuesOf)

/-! ### Values of claims -/

namespace Audience

theorem toValue_ne_null (audience : Audience) : audience.toValue ≠ .null := by
  cases audience <;> exact fun h => Json.Value.noConfusion h

theorem toValue_inj (a b : Audience) (h : a.toValue = b.toValue) : a = b := by
  rw [← Option.some.injEq, ← a.ofValue?_toValue, ← b.ofValue?_toValue, h]

theorem eq_map_of_mapM_name? {items : List Json.Value} {names : List String}
    (h : items.mapM name? = some names) : items = names.map .string := by
  induction items generalizing names with
  | nil =>
    rw [List.mapM_nil, Option.pure_def, Option.some.injEq] at h
    rw [← h]
    rfl
  | cons item rest ih =>
    simp only [List.mapM_cons, Option.bind_eq_bind, Option.bind_eq_some_iff, Option.pure_def,
      Option.some.injEq] at h
    obtain ⟨name, hname, others, hothers, rfl⟩ := h
    cases item with
    | string text =>
      obtain rfl : text = name := Option.some.inj hname
      rw [List.map_cons, ih hothers]
    | null | boolean | number | array | object => exact absurd hname (by simp [name?])

theorem eq_toValue_of_ofValue? {value : Json.Value} {audience : Audience}
    (h : ofValue? value = some audience) : value = audience.toValue := by
  cases value with
  | string name =>
    rw [ofValue?, Option.some.injEq] at h
    rw [← h]
    rfl
  | array items =>
    rw [ofValue?, Option.map_eq_some_iff] at h
    obtain ⟨names, hnames, rfl⟩ := h
    rw [toValue, eq_map_of_mapM_name? hnames]
  | null | boolean | number | object => exact absurd h (by simp [ofValue?])

theorem depthOfItems_of_names {items : List Tree} {names : List String}
    (h : Json.ItemsDenote items (names.map .string)) : Json.depthOfItems items = 0 := by
  induction items generalizing names with
  | nil => rfl
  | cons item rest ih =>
    cases names with
    | nil => exact h.elim
    | cons name others =>
      cases item with
      | string literal => rw [Json.depthOfItems, ih h.2]; rfl
      | null | boolean | number | array | object => exact h.1.elim

theorem depth_le_of_denotes {tree : Tree} {audience : Audience}
    (h : tree.Denotes audience.toValue) : tree.depth ≤ 1 := by
  cases audience with
  | single name =>
    obtain ⟨literal, rfl⟩ : ∃ literal, tree = .string literal := by
      cases tree with
      | string literal => exact ⟨literal, rfl⟩
      | null | boolean | number | array | object => exact h.elim
    exact Nat.zero_le 1
  | multiple names =>
    cases tree with
    | array items =>
      rw [Tree.depth, depthOfItems_of_names h]
    | null | boolean | number | string | object => exact h.elim

end Audience

namespace Payload

theorem timeValue_inj (a b : Int64) (h : timeValue a = timeValue b) : a = b :=
  Json.Number.ofInt64_inj (Json.Value.number.inj h)

theorem readAudience_eq_ok_iff (input : Bytes) {tree : Tree} {node : Json.Node}
    (h : tree.ScannedAs node) (audience : Audience) :
    readAudience input node = .ok audience ↔ tree.Denotes audience.toValue := by
  rw [readAudience, Result.bind_eq_ok_iff]
  constructor
  · rintro ⟨value, hread, hvalue⟩
    cases haudience : Audience.ofValue? value with
    | none => simp [haudience] at hvalue
    | some found =>
      simp only [haudience, Result.pure_eq_ok, Except.ok.injEq] at hvalue
      subst hvalue
      rw [← Audience.eq_toValue_of_ofValue? haudience]
      exact ((Json.Node.read_eq_ok_iff tree h claimDepth value).1 hread).1
  · intro hdenotes
    have hroom : tree.depth ≤ claimDepth :=
      Nat.le_trans (Audience.depth_le_of_denotes hdenotes) (by decide)
    refine ⟨_, (Json.Node.read_eq_ok_iff tree h claimDepth _).2 ⟨hdenotes, hroom⟩, ?_⟩
    simp only [Audience.ofValue?_toValue]
    rfl

end Payload

/-! ### Headers -/

namespace Header

/-- The names of the fields of a header. -/
def recognised : List String := ["alg", "typ", "kid", "cty"]

/-- What a header makes of one member. -/
inductive Takes : String → Tree → Header → Header → Prop
  | alg {tree : Tree} {header : Header} {text : String} : tree.Denotes (.string text) →
      Takes "alg" tree header { header with alg := text }
  | typ {tree : Tree} {header : Header} {text : Option String} :
      tree.Denotes (orNull .string text) → Takes "typ" tree header { header with typ := text }
  | kid {tree : Tree} {header : Header} {text : Option String} :
      tree.Denotes (orNull .string text) → Takes "kid" tree header { header with kid := text }
  | cty {tree : Tree} {header : Header} {text : Option String} :
      tree.Denotes (orNull .string text) → Takes "cty" tree header { header with cty := text }
  | other {tree : Tree} {header : Header} {name : String} : name ∉ recognised →
      Takes name tree header header

theorem makes_takes : schema.Makes Takes := by
  intro name tree node hnode record next
  constructor
  · intro h
    rcases Schema.takeMember_cases h with ⟨field, hfield, rfl, htake⟩ | ⟨hname, hother⟩
    · simp only [schema, List.mem_cons, List.not_mem_nil, or_false] at hfield
      rcases hfield with rfl | rfl | rfl | rfl
      all_goals
        obtain ⟨text, htext, hnext⟩ := Result.bind_eq_ok_iff.1 htake
        cases hnext
      · exact .alg ((Json.Node.text_eq_ok_iff hnode text).1 htext)
      · exact .typ ((Json.Node.optionalText_eq_ok_iff hnode text).1 htext)
      · exact .kid ((Json.Node.optionalText_eq_ok_iff hnode text).1 htext)
      · exact .cty ((Json.Node.optionalText_eq_ok_iff hnode text).1 htext)
    · obtain ⟨_, -, hnext⟩ := Result.bind_eq_ok_iff.1 hother
      cases hnext
      exact .other hname
  · intro h
    cases h with
    | alg htext =>
      exact Schema.takeMember_of_take (fun x (h : Header) => { h with alg := x }) record rfl
        ((Json.Node.text_eq_ok_iff hnode _).2 htext)
    | typ htext =>
      exact Schema.takeMember_of_take (fun x (h : Header) => { h with typ := x }) record rfl
        ((Json.Node.optionalText_eq_ok_iff hnode _).2 htext)
    | kid htext =>
      exact Schema.takeMember_of_take (fun x (h : Header) => { h with kid := x }) record rfl
        ((Json.Node.optionalText_eq_ok_iff hnode _).2 htext)
    | cty htext =>
      exact Schema.takeMember_of_take (fun x (h : Header) => { h with cty := x }) record rfl
        ((Json.Node.optionalText_eq_ok_iff hnode _).2 htext)
    | other hname =>
      refine (Schema.takeMember_other (List.find?_eq_none.2 fun field hfield => ?_) node
        record).trans (Result.bind_eq_ok_iff.2 ⟨(), Json.Node.skip_of_scannedAs hnode, rfl⟩)
      have hmem : field.name ∈ recognised :=
        List.mem_map_of_mem (f := fun field => field.name) hfield
      simpa using fun heq : field.name = name => hname (heq ▸ hmem)

theorem decides_alg :
    Schema.Decides Takes "alg" (·.alg) fun tree x => tree.Denotes (.string x) := by
  intro name tree r s h
  cases h <;> simp_all [recognised]

theorem decides_typ :
    Schema.Decides Takes "typ" (·.typ) fun tree x => tree.Denotes (orNull .string x) := by
  intro name tree r s h
  cases h <;> simp_all [recognised]

theorem decides_kid :
    Schema.Decides Takes "kid" (·.kid) fun tree x => tree.Denotes (orNull .string x) := by
  intro name tree r s h
  cases h <;> simp_all [recognised]

theorem decides_cty :
    Schema.Decides Takes "cty" (·.cty) fun tree x => tree.Denotes (orNull .string x) := by
  intro name tree r s h
  cases h <;> simp_all [recognised]

/-- Whether the fields of a header are what members say: the algorithm is there exactly once, and
each of the other fields at most once. -/
structure ReadFrom (header : Header) (named : List (String × Tree)) : Prop where
  alg : Holds named "alg" .string header.alg
  typ : HoldsOptional named "typ" .string header.typ
  kid : HoldsOptional named "kid" .string header.kid
  cty : HoldsOptional named "cty" .string header.cty

variable {header : Header} {named : List (String × Tree)}

theorem readFrom_of_run (h : Schema.Run Takes named schema.empty header)
    (hfills : schema.Fills named) : header.ReadFrom named where
  alg := h.holds decides_alg (hfills.once "alg" rfl) (hfills.there _ List.mem_cons_self)
  typ := h.holdsOptional decides_typ (hfills.once "typ" rfl) rfl
  kid := h.holdsOptional decides_kid (hfills.once "kid" rfl) rfl
  cty := h.holdsOptional decides_cty (hfills.once "cty" rfl) rfl

theorem ReadFrom.unique {a b : Header} (ha : a.ReadFrom named) (hb : b.ReadFrom named) :
    a = b := by
  have hnull : ∀ text, Json.Value.string text ≠ .null := fun _ h => Json.Value.noConfusion h
  have hinj : ∀ x y, Json.Value.string x = .string y → x = y := fun _ _ => Json.Value.string.inj
  obtain ⟨alg, typ, kid, cty⟩ := a
  obtain ⟨alg', typ', kid', cty'⟩ := b
  obtain rfl : alg = alg' := ha.alg.unique hinj hb.alg
  obtain rfl : typ = typ' := ha.typ.unique hnull hinj hb.typ
  obtain rfl : kid = kid' := ha.kid.unique hnull hinj hb.kid
  obtain rfl : cty = cty' := ha.cty.unique hnull hinj hb.cty
  rfl

theorem ReadFrom.length_le (h : header.ReadFrom named) {name : String} (hname : name ∈ recognised) :
    (valuesOf named name).length ≤ 1 := by
  simp only [recognised, List.mem_cons, List.not_mem_nil, or_false] at hname
  rcases hname with rfl | rfl | rfl | rfl
  · exact Nat.le_of_eq h.alg.length
  · exact h.typ.length_le
  · exact h.kid.length_le
  · exact h.cty.length_le

/-- Every member can be taken if the fields of a header are what the members say. -/
theorem ReadFrom.exists_takes (h : header.ReadFrom named) {e : String × Tree} (he : e ∈ named)
    (record : Header) : ∃ next, Takes e.1 e.2 record next := by
  obtain ⟨name, tree⟩ := e
  by_cases hname : name ∈ recognised
  · simp only [recognised, List.mem_cons, List.not_mem_nil, or_false] at hname
    rcases hname with rfl | rfl | rfl | rfl
    · exact ⟨_, .alg (h.alg.denotes_of_mem he)⟩
    · exact ⟨_, .typ (h.typ.denotes_of_mem he)⟩
    · exact ⟨_, .kid (h.kid.denotes_of_mem he)⟩
    · exact ⟨_, .cty (h.cty.denotes_of_mem he)⟩
  · exact ⟨record, .other hname⟩

theorem ReadFrom.fills (h : header.ReadFrom named) : schema.Fills named where
  once _ hname := h.length_le (Schema.knows_iff.1 hname)
  there field hfield := by
    obtain rfl := List.mem_singleton.1 hfield
    rw [← List.count_pos_iff, ← Json.length_valuesOf, h.alg.length]
    exact Nat.one_pos

/-- Members lead to a header exactly if its fields are what they say. -/
theorem run_iff :
    Schema.Run Takes named schema.empty header ∧ schema.Fills named ↔ header.ReadFrom named := by
  refine ⟨fun h => readFrom_of_run h.1 h.2, fun h => ?_⟩
  obtain ⟨final, hrun⟩ :=
    Schema.Run.exists_of_forall (fun e he => h.exists_takes he) schema.empty
  obtain rfl := h.unique (readFrom_of_run hrun h.fills)
  exact ⟨hrun, h.fills⟩

/-- A document is read as a header exactly if the fields of the header are what its members
say. -/
theorem ofOctets_eq_ok_iff {members : List (Json.StringLiteral × Tree)} {input : Bytes}
    (h : (Tree.object members).Document input) :
    ofOctets input = .ok header ↔ ∃ named, Named members named ∧ header.ReadFrom named := by
  rw [ofOctets, Schema.ofOctets_eq_ok_iff makes_takes h]
  simp only [run_iff]

end Header

/-! ### Payloads -/

namespace Payload

/-- What a payload makes of one member. -/
inductive Takes : String → Tree → Payload → Payload → Prop
  | iss {tree : Tree} {payload : Payload} {x : Option String} :
      tree.Denotes (orNull .string x) → Takes "iss" tree payload { payload with iss := x }
  | aud {tree : Tree} {payload : Payload} {x : Option Audience} :
      tree.Denotes (orNull Audience.toValue x) → Takes "aud" tree payload { payload with aud := x }
  | sub {tree : Tree} {payload : Payload} {x : Option String} :
      tree.Denotes (orNull .string x) → Takes "sub" tree payload { payload with sub := x }
  | iat {tree : Tree} {payload : Payload} {x : Option Int64} :
      tree.Denotes (orNull timeValue x) → Takes "iat" tree payload { payload with iat := x }
  | exp {tree : Tree} {payload : Payload} {x : Option Int64} :
      tree.Denotes (orNull timeValue x) → Takes "exp" tree payload { payload with exp := x }
  | nbf {tree : Tree} {payload : Payload} {x : Option Int64} :
      tree.Denotes (orNull timeValue x) → Takes "nbf" tree payload { payload with nbf := x }
  | jti {tree : Tree} {payload : Payload} {x : Option String} :
      tree.Denotes (orNull .string x) → Takes "jti" tree payload { payload with jti := x }
  | typ {tree : Tree} {payload : Payload} {x : Option String} :
      tree.Denotes (orNull .string x) → Takes "typ" tree payload { payload with typ := x }
  | custom {tree : Tree} {payload : Payload} {name : String} {value : Json.Value} :
      name ∉ registered → tree.Denotes value → tree.depth ≤ claimDepth →
        Takes name tree payload { payload with custom := payload.custom.insert name value }

theorem makes_takes (input : Bytes) : (schema input).Makes Takes := by
  intro name tree node hnode record next
  have haudience := Json.Node.optional_eq_ok_iff hnode Audience.toValue_ne_null
    (readAudience_eq_ok_iff input hnode)
  have htext := Json.Node.optionalText_eq_ok_iff hnode
  have htime := Json.Node.optionalInt64_eq_ok_iff hnode
  constructor
  · intro h
    rcases Schema.takeMember_cases h with ⟨field, hfield, rfl, htake⟩ | ⟨hname, hother⟩
    · simp only [schema, List.mem_cons, List.not_mem_nil, or_false] at hfield
      rcases hfield with rfl | rfl | rfl | rfl | rfl | rfl | rfl | rfl
      all_goals
        obtain ⟨x, hx, hnext⟩ := Result.bind_eq_ok_iff.1 htake
        cases hnext
      · exact .iss ((htext x).1 hx)
      · exact .aud ((haudience x).1 hx)
      · exact .sub ((htext x).1 hx)
      · exact .iat ((htime x).1 hx)
      · exact .exp ((htime x).1 hx)
      · exact .nbf ((htime x).1 hx)
      · exact .jti ((htext x).1 hx)
      · exact .typ ((htext x).1 hx)
    · obtain ⟨value, hread, hnext⟩ := Result.bind_eq_ok_iff.1 hother
      obtain ⟨hdenotes, hdepth⟩ := (Json.Node.read_eq_ok_iff tree hnode claimDepth value).1 hread
      cases hnext
      exact .custom hname hdenotes hdepth
  · intro h
    cases h with
    | iss hx =>
      exact Schema.takeMember_of_take (fun x (p : Payload) => { p with iss := x }) record rfl
        ((htext _).2 hx)
    | aud hx =>
      exact Schema.takeMember_of_take (fun x (p : Payload) => { p with aud := x }) record rfl
        ((haudience _).2 hx)
    | sub hx =>
      exact Schema.takeMember_of_take (fun x (p : Payload) => { p with sub := x }) record rfl
        ((htext _).2 hx)
    | iat hx =>
      exact Schema.takeMember_of_take (fun x (p : Payload) => { p with iat := x }) record rfl
        ((htime _).2 hx)
    | exp hx =>
      exact Schema.takeMember_of_take (fun x (p : Payload) => { p with exp := x }) record rfl
        ((htime _).2 hx)
    | nbf hx =>
      exact Schema.takeMember_of_take (fun x (p : Payload) => { p with nbf := x }) record rfl
        ((htime _).2 hx)
    | jti hx =>
      exact Schema.takeMember_of_take (fun x (p : Payload) => { p with jti := x }) record rfl
        ((htext _).2 hx)
    | typ hx =>
      exact Schema.takeMember_of_take (fun x (p : Payload) => { p with typ := x }) record rfl
        ((htext _).2 hx)
    | custom hname hdenotes hdepth =>
      rw [takeMember_custom input hname,
        (Json.Node.read_eq_ok_iff tree hnode claimDepth _).2 ⟨hdenotes, hdepth⟩]
      rfl

theorem decides_iss :
    Schema.Decides Takes "iss" (·.iss) fun tree x => tree.Denotes (orNull .string x) := by
  intro name tree r s h
  cases h <;> simp_all [registered]

theorem decides_aud :
    Schema.Decides Takes "aud" (·.aud) fun tree x => tree.Denotes (orNull Audience.toValue x) := by
  intro name tree r s h
  cases h <;> simp_all [registered]

theorem decides_sub :
    Schema.Decides Takes "sub" (·.sub) fun tree x => tree.Denotes (orNull .string x) := by
  intro name tree r s h
  cases h <;> simp_all [registered]

theorem decides_iat :
    Schema.Decides Takes "iat" (·.iat) fun tree x => tree.Denotes (orNull timeValue x) := by
  intro name tree r s h
  cases h <;> simp_all [registered]

theorem decides_exp :
    Schema.Decides Takes "exp" (·.exp) fun tree x => tree.Denotes (orNull timeValue x) := by
  intro name tree r s h
  cases h <;> simp_all [registered]

theorem decides_nbf :
    Schema.Decides Takes "nbf" (·.nbf) fun tree x => tree.Denotes (orNull timeValue x) := by
  intro name tree r s h
  cases h <;> simp_all [registered]

theorem decides_jti :
    Schema.Decides Takes "jti" (·.jti) fun tree x => tree.Denotes (orNull .string x) := by
  intro name tree r s h
  cases h <;> simp_all [registered]

theorem decides_typ :
    Schema.Decides Takes "typ" (·.typ) fun tree x => tree.Denotes (orNull .string x) := by
  intro name tree r s h
  cases h <;> simp_all [registered]

theorem decides_custom {name : String} (hname : name ∉ registered) :
    Schema.Decides Takes name (·.custom.get? name) fun tree x =>
      ∃ v, tree.Denotes v ∧ x = some v := by
  intro other tree r s h
  cases h with
  | custom hother hdenotes _ =>
    simp only [SortedMap.get?_insert]
    refine ⟨fun heq => ⟨_, hdenotes, if_pos heq.symm⟩, fun hne => if_neg (Ne.symm hne)⟩
  | iss | aud | sub | iat | exp | nbf | jti | typ =>
    refine ⟨fun heq => absurd ?_ hname, fun _ => rfl⟩
    rw [← heq]
    decide

/-- No member becomes a custom claim with a registered name. -/
theorem Takes.get?_registered {name other : String} {tree : Tree} {r s : Payload}
    (h : Takes other tree r s) (hname : name ∈ registered) :
    s.custom.get? name = r.custom.get? name := by
  cases h with
  | custom hother _ _ =>
    have hne : name ≠ other := fun heq => hother (heq ▸ hname)
    simp [SortedMap.get?_insert, hne]
  | iss | aud | sub | iat | exp | nbf | jti | typ => rfl

/-- Whether the claims of a payload are what members say: each registered claim is there at most
once, and the custom claims are the remaining names, each with the value of its last member. -/
structure ReadFrom (payload : Payload) (named : List (String × Tree)) : Prop where
  iss : HoldsOptional named "iss" .string payload.iss
  aud : HoldsOptional named "aud" Audience.toValue payload.aud
  sub : HoldsOptional named "sub" .string payload.sub
  iat : HoldsOptional named "iat" timeValue payload.iat
  exp : HoldsOptional named "exp" timeValue payload.exp
  nbf : HoldsOptional named "nbf" timeValue payload.nbf
  jti : HoldsOptional named "jti" .string payload.jti
  typ : HoldsOptional named "typ" .string payload.typ
  custom : ∀ name ∉ registered, HoldsLast named name (payload.custom.get? name)
  unregistered : ∀ name ∈ registered, payload.custom.get? name = none
  -- the values that a later member replaces are read all the same
  readable : ∀ e ∈ named, e.1 ∉ registered → ∃ v, e.2.Denotes v ∧ e.2.depth ≤ claimDepth

variable {payload : Payload} {named : List (String × Tree)} {input : Bytes}

theorem readFrom_of_run (h : Schema.Run Takes named (schema input).empty payload)
    (hfills : (schema input).Fills named) : payload.ReadFrom named where
  iss := h.holdsOptional decides_iss (hfills.once "iss" rfl) rfl
  aud := h.holdsOptional decides_aud (hfills.once "aud" rfl) rfl
  sub := h.holdsOptional decides_sub (hfills.once "sub" rfl) rfl
  iat := h.holdsOptional decides_iat (hfills.once "iat" rfl) rfl
  exp := h.holdsOptional decides_exp (hfills.once "exp" rfl) rfl
  nbf := h.holdsOptional decides_nbf (hfills.once "nbf" rfl) rfl
  jti := h.holdsOptional decides_jti (hfills.once "jti" rfl) rfl
  typ := h.holdsOptional decides_typ (hfills.once "typ" rfl) rfl
  custom name hname := by
    have hlast := h.holdsLast (decides_custom hname) rfl
    exact hlast
  unregistered _ hname := h.keeps fun _ _ _ _ hstep => hstep.get?_registered hname
  readable e he hname := by
    obtain ⟨r, s, hstep⟩ := h.taken e he
    obtain ⟨name, tree⟩ := e
    cases hstep with
    | custom _ hdenotes hdepth => exact ⟨_, hdenotes, hdepth⟩
    | iss | aud | sub | iat | exp | nbf | jti | typ => exact absurd (by simp [registered]) hname

theorem ReadFrom.unique {a b : Payload} (ha : a.ReadFrom named) (hb : b.ReadFrom named) :
    a = b := by
  have hnull : ∀ text, Json.Value.string text ≠ .null := fun _ h => Json.Value.noConfusion h
  have hinj : ∀ x y, Json.Value.string x = .string y → x = y := fun _ _ => Json.Value.string.inj
  have htime : ∀ time, timeValue time ≠ .null := fun _ h => Json.Value.noConfusion h
  have hcustom : a.custom = b.custom := by
    refine SortedMap.ext_get? fun name => ?_
    by_cases hname : name ∈ registered
    · rw [ha.unregistered name hname, hb.unregistered name hname]
    · exact (ha.custom name hname).unique (hb.custom name hname)
  obtain ⟨iss, aud, sub, iat, exp, nbf, jti, typ, custom⟩ := a
  obtain ⟨iss', aud', sub', iat', exp', nbf', jti', typ', custom'⟩ := b
  obtain rfl : iss = iss' := ha.iss.unique hnull hinj hb.iss
  obtain rfl : aud = aud' := ha.aud.unique Audience.toValue_ne_null Audience.toValue_inj hb.aud
  obtain rfl : sub = sub' := ha.sub.unique hnull hinj hb.sub
  obtain rfl : iat = iat' := ha.iat.unique htime timeValue_inj hb.iat
  obtain rfl : exp = exp' := ha.exp.unique htime timeValue_inj hb.exp
  obtain rfl : nbf = nbf' := ha.nbf.unique htime timeValue_inj hb.nbf
  obtain rfl : jti = jti' := ha.jti.unique hnull hinj hb.jti
  obtain rfl : typ = typ' := ha.typ.unique hnull hinj hb.typ
  obtain rfl : custom = custom' := hcustom
  rfl

theorem ReadFrom.length_le (h : payload.ReadFrom named) {name : String}
    (hname : name ∈ registered) : (valuesOf named name).length ≤ 1 := by
  simp only [registered, List.mem_cons, List.not_mem_nil, or_false] at hname
  rcases hname with rfl | rfl | rfl | rfl | rfl | rfl | rfl | rfl
  · exact h.iss.length_le
  · exact h.aud.length_le
  · exact h.sub.length_le
  · exact h.iat.length_le
  · exact h.exp.length_le
  · exact h.nbf.length_le
  · exact h.jti.length_le
  · exact h.typ.length_le

/-- Every member can be taken if the claims of a payload are what the members say. -/
theorem ReadFrom.exists_takes (h : payload.ReadFrom named) {e : String × Tree} (he : e ∈ named)
    (record : Payload) : ∃ next, Takes e.1 e.2 record next := by
  obtain ⟨name, tree⟩ := e
  by_cases hname : name ∈ registered
  · simp only [registered, List.mem_cons, List.not_mem_nil, or_false] at hname
    rcases hname with rfl | rfl | rfl | rfl | rfl | rfl | rfl | rfl
    · exact ⟨_, .iss (h.iss.denotes_of_mem he)⟩
    · exact ⟨_, .aud (h.aud.denotes_of_mem he)⟩
    · exact ⟨_, .sub (h.sub.denotes_of_mem he)⟩
    · exact ⟨_, .iat (h.iat.denotes_of_mem he)⟩
    · exact ⟨_, .exp (h.exp.denotes_of_mem he)⟩
    · exact ⟨_, .nbf (h.nbf.denotes_of_mem he)⟩
    · exact ⟨_, .jti (h.jti.denotes_of_mem he)⟩
    · exact ⟨_, .typ (h.typ.denotes_of_mem he)⟩
  · obtain ⟨v, hdenotes, hdepth⟩ := h.readable _ he hname
    exact ⟨_, .custom hname hdenotes hdepth⟩

theorem ReadFrom.fills (h : payload.ReadFrom named) : (schema input).Fills named where
  once _ hname := h.length_le (Schema.knows_iff.1 hname)
  there _ hfield := absurd hfield List.not_mem_nil

/-- Members lead to a payload exactly if its claims are what they say. -/
theorem run_iff :
    Schema.Run Takes named (schema input).empty payload ∧ (schema input).Fills named ↔
      payload.ReadFrom named := by
  refine ⟨fun h => readFrom_of_run h.1 h.2, fun h => ?_⟩
  obtain ⟨final, hrun⟩ :=
    Schema.Run.exists_of_forall (fun e he => h.exists_takes he) (schema input).empty
  obtain rfl := h.unique (readFrom_of_run hrun h.fills)
  exact ⟨hrun, h.fills⟩

/-- A document is read as a payload exactly if the claims of the payload are what its members
say. -/
theorem ofOctets_eq_ok_iff {members : List (Json.StringLiteral × Tree)}
    (h : (Tree.object members).Document input) :
    ofOctets input = .ok payload ↔ ∃ named, Named members named ∧ payload.ReadFrom named := by
  rw [ofOctets, Schema.ofOctets_eq_ok_iff (makes_takes input) h]
  simp only [run_iff]

end Payload

/-! ### One document, one reading -/

/-- A document is read as the header, or the payload, that its members determine, and as nothing
else; it is not read at all if a recognised name occurs twice, however its value and its name are
written. -/
theorem read_unambiguously {members : List (Json.StringLiteral × Tree)} {input : Bytes}
    (h : (Tree.object members).Document input) :
    (∀ header : Header, Header.ofOctets input = .ok header ↔
        ∃ named, Named members named ∧ header.ReadFrom named) ∧
      (∀ payload : Payload, Payload.ofOctets input = .ok payload ↔
        ∃ named, Named members named ∧ payload.ReadFrom named) ∧
      (∀ name ∈ Header.recognised, Repeats members name →
        ∃ e, Header.ofOctets input = .error e) ∧
      (∀ name ∈ Payload.registered, Repeats members name →
        ∃ e, Payload.ofOctets input = .error e) := by
  refine ⟨fun header => Header.ofOctets_eq_ok_iff h, fun payload => Payload.ofOctets_eq_ok_iff h,
    fun name hname hrepeats => ?_, fun name hname hrepeats => ?_⟩
  · exact Schema.ofOctets_of_repeats Header.makes_takes h (Schema.knows_iff.2 hname) hrepeats
  · exact Schema.ofOctets_of_repeats (Payload.makes_takes input) h (Schema.knows_iff.2 hname)
      hrepeats

/-- The name of the algorithm is found although it is escaped, and a second expiration time,
escaped as well, is noticed. -/
theorem read_unambiguously_escaped :
    Header.ofOctets (Bytes.ofText "\x7b\"\\u0061lg\":\"none\",\"kid\":null\x7d") =
        .ok ⟨"none", none, none, none⟩ ∧
      ∃ e, Payload.ofOctets (Bytes.ofText "\x7b\"exp\":null,\"\\u0065xp\":1\x7d") = .error e := by
  let alg : Json.StringLiteral :=
    ⟨Bytes.ofText "\\u0061lg", .unit rfl (.plain (by decide) (.plain (by decide) .nil))⟩
  let exp : Json.StringLiteral :=
    ⟨Bytes.ofText "\\u0065xp", .unit rfl (.plain (by decide) (.plain (by decide) .nil))⟩
  have halg : alg.Denotes "alg" := (alg.read_eq_ok_iff 0 "alg").1 rfl
  have hexp : exp.Denotes "exp" := (exp.read_eq_ok_iff 0 "exp").1 rfl
  have hplain : ∀ text, (Json.StringLiteral.ofText text).Denotes text :=
    Json.Literal.standsFor_escape
  constructor
  · have hdocument :
        (Tree.object [(alg, .string (.ofText "none")), (.ofText "kid", .null)]).Document
        (Bytes.ofText "\x7b\"\\u0061lg\":\"none\",\"kid\":null\x7d") :=
      Json.Layout.tight.document_enclose 0 (.cons ⟨_, rfl, rfl⟩ (.cons ⟨_, rfl, rfl⟩ .nil)) rfl
    refine ((read_unambiguously hdocument).1 _).2
      ⟨[("alg", .string (.ofText "none")), ("kid", .null)],
        .cons ⟨halg, rfl⟩ (.cons ⟨hplain "kid", rfl⟩ .nil), ?_⟩
    exact ⟨⟨_, rfl, hplain "none"⟩, .inl ⟨rfl, rfl⟩, .inr ⟨_, rfl, trivial⟩, .inl ⟨rfl, rfl⟩⟩
  · have hdocument : (Tree.object [(.ofText "exp", .null),
        (exp, (Json.Value.number (.ofInt64 1)).tree)]).Document
          (Bytes.ofText "\x7b\"exp\":null,\"\\u0065xp\":1\x7d") :=
      Json.Layout.tight.document_enclose 0 (.cons ⟨_, rfl, rfl⟩ (.cons ⟨_, rfl, rfl⟩ .nil)) rfl
    exact (read_unambiguously hdocument).2.2.2 "exp" (by decide)
      ⟨_, _, .refl _, hplain "exp", hexp⟩

end TokenVault
