import TokenVault.Proofs.Token.Issued
import TokenVault.Proofs.Token.Reading

/-!
# Registered names and the normal form of payloads

Payloads come from setters, from issuances and from documents.  None of these makes a registered
name a custom claim, so what is written of a payload has every name once, in a fixed order.  And
a document without floating-point numbers is read as the same payload again once it has been
written anew, so writing what was read is a normal form.
-/

namespace TokenVault

open Json (Named Schema Tree)

namespace Payload

/-! ### Where payloads come from -/

/-- What may be set in a payload, one thing at a time. -/
inductive Change
  | issuer (issuer : String)
  | audience (audience : Audience)
  | subject (subject : String)
  | issuedAt (time : Int64)
  | expiration (time : Int64)
  | notBefore (time : Int64)
  | jwtId (id : String)
  | type (type : String)
  | custom (name : String) (value : Json.Value)

/-- The payload after a change. -/
def change (payload : Payload) : Change → Payload
  | .issuer issuer => { payload with iss := some issuer }
  | .audience audience => { payload with aud := some audience }
  | .subject subject => { payload with sub := some subject }
  | .issuedAt time => { payload with iat := some time }
  | .expiration time => { payload with exp := some time }
  | .notBefore time => { payload with nbf := some time }
  | .jwtId id => { payload with jti := some id }
  | .type type => { payload with typ := some type }
  | .custom name value => payload.withCustom name value

/-- The payloads that can be had without putting custom claims in directly. -/
inductive Reached : Payload → Prop
  | empty : Reached empty
  | changed {payload : Payload} (change : Change) : Reached payload →
      Reached (payload.change change)
  | issued (issuer : String) (choices : List Issuance.Choice) (now : Int64) (id : Uuid) :
      Reached ((Issuance.ofChoices issuer choices).issue now id)
  | read {input : Bytes} {payload : Payload} : ofOctets input = .ok payload → Reached payload

/-- Whether no custom claim has a registered name. -/
def Unregistered (payload : Payload) : Prop :=
  ∀ e ∈ payload.custom.entries, e.1 ∉ registered

theorem unregistered_change {payload : Payload} (h : payload.Unregistered) (change : Change) :
    (payload.change change).Unregistered := by
  cases change with
  | custom name value =>
    rw [Payload.change, withCustom]
    split
    · exact h
    · next hname => exact SortedMap.forall_keys_insert (P := (· ∉ registered)) hname h
  | issuer | audience | subject | issuedAt | expiration | notBefore | jwtId | type => exact h

theorem unregistered_takeMember {input : Bytes} {name : String} {node : Json.Node}
    {payload next : Payload} (htake : (schema input).takeMember name node payload = .ok next)
    (h : payload.Unregistered) : next.Unregistered := by
  rcases Schema.takeMember_cases htake with ⟨field, hfield, -, hfieldTake⟩ | ⟨hname, hother⟩
  · simp only [schema, List.mem_cons, List.not_mem_nil, or_false] at hfield
    rcases hfield with rfl | rfl | rfl | rfl | rfl | rfl | rfl | rfl
    all_goals
      obtain ⟨x, -, hnext⟩ := Result.bind_eq_ok_iff.1 hfieldTake
      cases hnext
      exact h
  · obtain ⟨value, -, hnext⟩ := Result.bind_eq_ok_iff.1 hother
    cases hnext
    exact SortedMap.forall_keys_insert (P := (· ∉ registered)) hname h

theorem Reached.unregistered {payload : Payload} (h : payload.Reached) : payload.Unregistered := by
  induction h with
  | empty => exact fun e he => absurd he List.not_mem_nil
  | changed change _ ih => exact unregistered_change ih change
  | issued issuer choices now id => exact (Issuance.ofChoices_spec issuer choices).2
  | read hread =>
    exact Schema.ofOctets_invariant (fun _ _ _ _ => unregistered_takeMember) rfl
      (fun e he => absurd he List.not_mem_nil) hread

/-! ### What is written of a payload -/

/-- The names of the registered claims that are there, in the order of writing. -/
def present (payload : Payload) : List String :=
  [("iss", payload.iss.isSome), ("aud", payload.aud.isSome), ("sub", payload.sub.isSome),
    ("iat", payload.iat.isSome), ("exp", payload.exp.isSome), ("nbf", payload.nbf.isSome),
    ("jti", payload.jti.isSome), ("typ", payload.typ.isSome)].flatMap fun claim =>
      if claim.2 then [claim.1] else []

end Payload

theorem Json.names_optionalMember {α : Type} (name : String) (write : α → Json.Value)
    (value : Option α) : (Json.optionalMember name write value).map (·.1) =
      if value.isSome then [name] else [] := by
  cases value <;> rfl

theorem Json.named_treesOfMembers (members : List (String × Json.Value)) :
    Named (Json.treesOfMembers members) (members.map fun e => (e.1, e.2.tree)) := by
  induction members with
  | nil => exact .nil
  | cons e rest ih => exact .cons ⟨Json.Literal.standsFor_escape e.1, rfl⟩ ih

namespace Payload

theorem names_members (payload : Payload) :
    payload.members.map (·.1) = payload.present ++ payload.custom.keys := by
  simp [members, present, Json.names_optionalMember, SortedMap.keys]

/-- What is written of a payload is an object with the present registered claims, in a fixed
order, and then the custom ones. -/
theorem document_octets (payload : Payload) :
    (Tree.object (Json.treesOfMembers payload.members)).Document payload.octets := by
  rw [octets, Json.Value.compact_eq_write 0]
  exact Json.Layout.document_write .tight 0 (.object payload.members)

/-! ### What is read and written again -/

/-- What is written of the payload that a document holds. -/
def normalise (input : Bytes) : Except Json.Error Bytes := (ofOctets input).map octets

/-- The custom claims that are read from a document without floating-point numbers can be
written, and nest no deeper than there is room for. -/
theorem ReadFrom.writable {payload : Payload} {named : List (String × Tree)}
    (h : payload.ReadFrom named) (hfree : ∀ e ∈ named, e.2.FloatFree) :
    ∀ claim ∈ payload.custom.entries, Writable claim ∧ claim.2.depth ≤ claimDepth := by
  intro claim hclaim
  have hget := (SortedMap.mem_entries_iff payload.custom claim).1 hclaim
  have hname : claim.1 ∉ registered := fun hname => by
    rw [h.unregistered claim.1 hname] at hget
    cases hget
  rcases h.custom claim.1 hname with ⟨-, hnone⟩ | ⟨tree, v, hlast, hv, hsome⟩
  · rw [hnone] at hget
    cases hget
  · rw [hsome, Option.some.injEq] at hget
    subst hget
    have hmem := Json.mem_of_mem_valuesOf (List.mem_of_getLast? hlast)
    obtain ⟨_, -, hdepth⟩ := h.readable _ hmem hname
    have hbounds := Tree.Denotes.bounds tree hv
    exact ⟨⟨hname, hbounds.ordered, hbounds.floatFree (hfree _ hmem)⟩,
      Nat.le_trans hbounds.depth_le hdepth⟩

/-- A payload that was read from a document without floating-point numbers is read again from
what is written of it. -/
theorem ofOctets_octets_of_read {tree : Tree} {input : Bytes} {payload : Payload}
    (htree : tree.Document input) (hfree : tree.FloatFree) (h : ofOctets input = .ok payload) :
    ofOctets payload.octets = .ok payload := by
  obtain ⟨members, rfl⟩ := Schema.object_of_ofOctets rfl htree h
  obtain ⟨named, hnamed, hread⟩ := (ofOctets_eq_ok_iff htree).1 h
  have hwritable := hread.writable (hnamed.floatFree hfree)
  exact ofOctets_octets (fun claim hclaim => (hwritable claim hclaim).1)
    ((payload.depth_members_le_iff).2 fun claim hclaim => (hwritable claim hclaim).2)

/-- However a payload came about, no custom claim has a registered name, and it is written as an
object with every name once: the present registered claims in a fixed order, and then the custom
ones in ascending order of their octets.  And a document without floating-point numbers is
written anew as one that is read as the same payload, so that writing it once more changes
nothing. -/
theorem normal_form :
    (∀ payload : Payload, payload.Reached →
      (∀ name ∈ registered, payload.custom.get? name = none) ∧
        ∃ members named, (Tree.object members).Document payload.octets ∧ Named members named ∧
          named.map (·.1) = payload.present ++ payload.custom.keys ∧
            (named.map (·.1)).Nodup ∧
              payload.custom.keys.Pairwise fun a b => Bytes.ofText a < Bytes.ofText b) ∧
      ∀ (tree : Tree) (input : Bytes), tree.Document input → tree.FloatFree →
        (∀ payload, ofOctets input = .ok payload → ofOctets payload.octets = .ok payload) ∧
          ∀ text, normalise input = .ok text → normalise text = .ok text := by
  refine ⟨fun payload hreached => ⟨fun name hname => ?_, ?_⟩, fun tree input htree hfree =>
    ⟨fun payload hread => ofOctets_octets_of_read htree hfree hread, fun text htext => ?_⟩⟩
  · cases hget : payload.custom.get? name with
    | none => rfl
    | some value =>
      have hmem := (SortedMap.mem_entries_iff payload.custom (name, value)).2 hget
      exact absurd hname (hreached.unregistered _ hmem)
  · have hnames : (payload.members.map fun e => (e.1, e.2.tree)).map (·.1) =
        payload.members.map (·.1) := by simp
    refine ⟨_, _, payload.document_octets, Json.named_treesOfMembers payload.members, ?_, ?_,
      payload.custom.pairwise_keys⟩
    · rw [hnames, names_members]
    · rw [hnames]
      exact nodup_members hreached.unregistered
  · rw [normalise] at htext
    cases hread : ofOctets input with
    | error e => simp [hread, Except.map] at htext
    | ok payload =>
      rw [hread] at htext
      cases htext
      show (ofOctets payload.octets).map octets = _
      rw [ofOctets_octets_of_read htree hfree hread]
      rfl

/-- A registered name is refused as a custom claim; and of a claim that occurs twice the last
value is kept, after the issuer that stood behind it. -/
theorem normal_form_of_repeated :
    ((empty.change (.custom "exp" .null)).change (.custom "role" .null)).custom.get? "exp" = none ∧
      normalise (Bytes.ofText "\x7b\"x\":1,\"iss\":\"a\",\"x\":2\x7d") =
          .ok (Bytes.ofText "\x7b\"iss\":\"a\",\"x\":2\x7d") ∧
        normalise (Bytes.ofText "\x7b\"iss\":\"a\",\"x\":2\x7d") =
          .ok (Bytes.ofText "\x7b\"iss\":\"a\",\"x\":2\x7d") := by
  have hread : normalise (Bytes.ofText "\x7b\"x\":1,\"iss\":\"a\",\"x\":2\x7d") =
      .ok (Bytes.ofText "\x7b\"iss\":\"a\",\"x\":2\x7d") := rfl
  have htree : (Tree.object [(.ofText "x", (Json.Value.number (.ofInt64 1)).tree),
      (.ofText "iss", .string (.ofText "a")),
      (.ofText "x", (Json.Value.number (.ofInt64 2)).tree)]).Document
        (Bytes.ofText "\x7b\"x\":1,\"iss\":\"a\",\"x\":2\x7d") :=
    Json.Layout.tight.document_enclose 0
      (.cons ⟨_, rfl, rfl⟩ (.cons ⟨_, rfl, rfl⟩ (.cons ⟨_, rfl, rfl⟩ .nil))) rfl
  have hinteger : ∀ n : Int64, (Json.Value.number (.ofInt64 n)).tree.FloatFree := by
    intro n x hfloat
    have hinteger := Json.Number.ofOctets_integer n.toInt (by
      have hle := n.le_toInt
      have hlt := n.toInt_lt
      omega)
    exact absurd (hinteger.symm.trans hfloat) (by simp)
  refine ⟨(normal_form.1 _ (.changed _ (.changed _ .empty))).1 "exp" (by decide), hread, ?_⟩
  exact (normal_form.2 _ _ htree ⟨hinteger 1, trivial, hinteger 2, trivial⟩).2 _ hread

end Payload

end TokenVault
