import TokenVault.Credential
import TokenVault.Proofs.Json.Legible
import TokenVault.Proofs.Json.Positional

/-!
# Records of credentials

A record is an object or a short array, and its fields have types of their own; `IsRecord` says so
of what is written, apart from any reader.  A record is read as the credential that its fields
hold (`read_eq_ok_iff`), and if its literals can be read, it holds one: `isRecord_iff`.
-/

namespace TokenVault

open Json (HoldsOptional Holds Named Schema StringLiteral Tree orNull valuesOf)

/-- Whether a tree is an integer of 64 bits as it is written: digits after a minus or none, with
neither a fraction nor an exponent.  A minus does not come before zero. -/
def Json.Tree.IsInt64 (tree : Tree) (n : Int64) : Prop :=
  ∃ literal, tree = .number literal ∧ literal.raw = Json.Number.integerOctets n.toInt

theorem Json.Tree.denotes_int64_iff {tree : Tree} {n : Int64} :
    tree.Denotes (.number (.ofInt64 n)) ↔ tree.IsInt64 n := by
  cases tree with
  | number literal =>
    have hspelled : (Tree.number literal).Denotes (.number (.ofInt64 n)) ↔
        literal.raw = Json.Number.integerOctets n.toInt :=
      Json.Number.ofOctets_eq_integer_iff literal.form _
    rw [hspelled]
    exact ⟨fun h => ⟨literal, rfl, h⟩, fun ⟨_, hsame, h⟩ => Tree.number.inj hsame ▸ h⟩
  | null | boolean | string | array | object =>
    exact iff_of_false not_false fun ⟨_, hsame, _⟩ => Tree.noConfusion hsame

namespace Credential

/-- The names of the fields of a record, in order. -/
def fieldNames : List String := ["accessToken", "refreshToken", "expirationTimeMilliseconds"]

/-- The fields that are written: the members of an object, or one to three items of an array with
the names of the fields in order. -/
inductive Lists : Tree → List (String × Tree) → Prop
  | object {members : List (StringLiteral × Tree)} {named : List (String × Tree)} :
      Named members named → Lists (.object members) named
  | array {items : List Tree} : 1 ≤ items.length → items.length ≤ 3 →
      Lists (.array items) (fieldNames.zip items)

/-- Whether there is at most one value with a name, and it is `null` or as it has to be. -/
def Optionally (named : List (String × Tree)) (name : String) (P : Tree → Prop) : Prop :=
  valuesOf named name = [] ∨ ∃ tree, valuesOf named name = [tree] ∧ (tree = .null ∨ P tree)

/-- Whether the fields have their types.  What has another name does not matter. -/
structure Typed (named : List (String × Tree)) : Prop where
  accessToken : ∃ literal, valuesOf named "accessToken" = [.string literal]
  refreshToken : Optionally named "refreshToken" fun tree => ∃ literal, tree = .string literal
  expiry : Optionally named "expirationTimeMilliseconds" fun tree => ∃ n, tree.IsInt64 n

/-- Whether what is written is a record. -/
def IsRecord (tree : Tree) : Prop := ∃ named, Lists tree named ∧ Typed named

/-- What a credential makes of one member. -/
inductive Takes : String → Tree → Credential → Credential → Prop
  | accessToken {tree : Tree} {credential : Credential} {text : String} :
      tree.Denotes (.string text) →
        Takes "accessToken" tree credential { credential with accessToken := text }
  | refreshToken {tree : Tree} {credential : Credential} {text : Option String} :
      tree.Denotes (orNull .string text) →
        Takes "refreshToken" tree credential { credential with refreshToken := text }
  | expiry {tree : Tree} {credential : Credential} {n : Option Int64} :
      tree.Denotes (orNull (fun n => .number (.ofInt64 n)) n) →
        Takes "expirationTimeMilliseconds" tree credential { credential with expiry := n }
  | other {tree : Tree} {credential : Credential} {name : String} : name ∉ fieldNames →
      Takes name tree credential credential

theorem makes_takes : schema.Makes Takes := by
  intro name tree node hnode record next
  constructor
  · intro h
    rcases Schema.takeMember_cases h with ⟨field, hfield, rfl, htake⟩ | ⟨hname, hother⟩
    · simp only [schema, List.mem_cons, List.not_mem_nil, or_false] at hfield
      rcases hfield with rfl | rfl | rfl
      all_goals
        obtain ⟨x, hx, hnext⟩ := Result.bind_eq_ok_iff.1 htake
        cases hnext
      · exact .accessToken ((Json.Node.text_eq_ok_iff hnode x).1 hx)
      · exact .refreshToken ((Json.Node.optionalText_eq_ok_iff hnode x).1 hx)
      · exact .expiry ((Json.Node.optionalInt64_eq_ok_iff hnode x).1 hx)
    · obtain ⟨_, -, hnext⟩ := Result.bind_eq_ok_iff.1 hother
      cases hnext
      exact .other hname
  · intro h
    cases h with
    | accessToken hx =>
      exact Schema.takeMember_of_take (fun x (c : Credential) => { c with accessToken := x }) record
        rfl ((Json.Node.text_eq_ok_iff hnode _).2 hx)
    | refreshToken hx =>
      exact Schema.takeMember_of_take (fun x (c : Credential) => { c with refreshToken := x })
        record rfl ((Json.Node.optionalText_eq_ok_iff hnode _).2 hx)
    | expiry hx =>
      exact Schema.takeMember_of_take (fun x (c : Credential) => { c with expiry := x }) record
        rfl ((Json.Node.optionalInt64_eq_ok_iff hnode _).2 hx)
    | other hname =>
      refine (Schema.takeMember_other (List.find?_eq_none.2 fun field hfield => ?_) node
        record).trans (Result.bind_eq_ok_iff.2 ⟨(), Json.Node.skip_of_scannedAs hnode, rfl⟩)
      have hmem : field.name ∈ fieldNames :=
        List.mem_map_of_mem (f := fun field => field.name) hfield
      simpa using fun heq : field.name = name => hname (heq ▸ hmem)

theorem decides_accessToken :
    Schema.Decides Takes "accessToken" (·.accessToken) fun tree x => tree.Denotes (.string x) := by
  intro name tree r s h
  cases h <;> simp_all [fieldNames]

theorem decides_refreshToken : Schema.Decides Takes "refreshToken" (·.refreshToken)
    fun tree x => tree.Denotes (orNull .string x) := by
  intro name tree r s h
  cases h <;> simp_all [fieldNames]

theorem decides_expiry : Schema.Decides Takes "expirationTimeMilliseconds" (·.expiry)
    fun tree x => tree.Denotes (orNull (fun n => .number (.ofInt64 n)) x) := by
  intro name tree r s h
  cases h <;> simp_all [fieldNames]

/-- Whether the fields of a credential are what is written: the access token is there exactly once,
and each of the others at most once, where `null` is as good as nothing. -/
structure ReadFrom (credential : Credential) (named : List (String × Tree)) : Prop where
  accessToken : Holds named "accessToken" .string credential.accessToken
  refreshToken : HoldsOptional named "refreshToken" .string credential.refreshToken
  expiry : HoldsOptional named "expirationTimeMilliseconds" (fun n => .number (.ofInt64 n))
    credential.expiry

variable {credential : Credential} {named : List (String × Tree)}

theorem readFrom_of_run (h : Schema.Run Takes named schema.empty credential)
    (hfills : schema.Fills named) : credential.ReadFrom named where
  accessToken := h.holds decides_accessToken (hfills.once "accessToken" rfl)
    (hfills.there _ List.mem_cons_self)
  refreshToken := h.holdsOptional decides_refreshToken (hfills.once "refreshToken" rfl) rfl
  expiry := h.holdsOptional decides_expiry (hfills.once "expirationTimeMilliseconds" rfl) rfl

theorem ReadFrom.unique {a b : Credential} (ha : a.ReadFrom named) (hb : b.ReadFrom named) :
    a = b := by
  have hnull : ∀ text, Json.Value.string text ≠ .null := fun _ h => Json.Value.noConfusion h
  have hinj : ∀ x y, Json.Value.string x = .string y → x = y := fun _ _ => Json.Value.string.inj
  have htime : ∀ n : Int64, Json.Value.number (.ofInt64 n) ≠ .null :=
    fun _ h => Json.Value.noConfusion h
  have htimeInj : ∀ m n : Int64,
      Json.Value.number (.ofInt64 m) = .number (.ofInt64 n) → m = n :=
    fun _ _ h => Json.Number.ofInt64_inj (Json.Value.number.inj h)
  obtain ⟨accessToken, refreshToken, expiry⟩ := a
  obtain ⟨accessToken', refreshToken', expiry'⟩ := b
  obtain rfl : accessToken = accessToken' := ha.accessToken.unique hinj hb.accessToken
  obtain rfl : refreshToken = refreshToken' := ha.refreshToken.unique hnull hinj hb.refreshToken
  obtain rfl : expiry = expiry' := ha.expiry.unique htime htimeInj hb.expiry
  rfl

/-- Every field can be taken if the fields of a credential are what is written. -/
theorem ReadFrom.exists_takes (h : credential.ReadFrom named) {e : String × Tree} (he : e ∈ named)
    (record : Credential) : ∃ next, Takes e.1 e.2 record next := by
  obtain ⟨name, tree⟩ := e
  by_cases hname : name ∈ fieldNames
  · simp only [fieldNames, List.mem_cons, List.not_mem_nil, or_false] at hname
    rcases hname with rfl | rfl | rfl
    · exact ⟨_, .accessToken (h.accessToken.denotes_of_mem he)⟩
    · exact ⟨_, .refreshToken (h.refreshToken.denotes_of_mem he)⟩
    · exact ⟨_, .expiry (h.expiry.denotes_of_mem he)⟩
  · exact ⟨record, .other hname⟩

theorem ReadFrom.fills (h : credential.ReadFrom named) : schema.Fills named where
  once name hknows := by
    have hname : name ∈ fieldNames := Schema.knows_iff.1 hknows
    simp only [fieldNames, List.mem_cons, List.not_mem_nil, or_false] at hname
    rcases hname with rfl | rfl | rfl
    · exact Nat.le_of_eq h.accessToken.length
    · exact h.refreshToken.length_le
    · exact h.expiry.length_le
  there field hfield := by
    obtain rfl := List.mem_singleton.1 hfield
    rw [← List.count_pos_iff, ← Json.length_valuesOf, h.accessToken.length]
    exact Nat.one_pos

/-- Fields lead to a credential exactly if its fields are what is written. -/
theorem run_iff :
    Schema.Run Takes named schema.empty credential ∧ schema.Fills named ↔
      credential.ReadFrom named := by
  refine ⟨fun h => readFrom_of_run h.1 h.2, fun h => ?_⟩
  obtain ⟨final, hrun⟩ :=
    Schema.Run.exists_of_forall (fun e he => h.exists_takes he) schema.empty
  obtain rfl := h.unique (readFrom_of_run hrun h.fills)
  exact ⟨hrun, h.fills⟩

/-! ### Records -/

/-- Whether what is written is the record of a credential. -/
def Records (tree : Tree) (credential : Credential) : Prop :=
  ∃ named, Lists tree named ∧ credential.ReadFrom named

/-- A node is read as the credential of which the record is written. -/
theorem read_eq_ok_iff (input : Bytes) {tree : Tree} {node : Json.Node} (h : tree.ScannedAs node) :
    schema.read input node = .ok credential ↔ Records tree credential := by
  rw [Schema.read_eq_ok_iff makes_takes (by decide) (by decide) input h]
  simp only [run_iff]
  refine exists_congr fun named => and_congr_left fun hread => ⟨fun hlists => ?_, fun hlists => ?_⟩
  · cases hlists with
    | object hnamed => exact .object hnamed
    | @array items _ hfits =>
      refine .array (Nat.pos_of_ne_zero fun hnone => ?_) hfits
      -- without an item there is no access token
      obtain ⟨_, hvalue, -⟩ := hread.accessToken
      rw [List.length_eq_zero_iff.1 hnone, List.zip_nil_right] at hvalue
      cases hvalue
  · cases hlists with
    | object hnamed => exact .object hnamed
    | array _ hfits => exact .array rfl hfits

/-- What can be read in a tree can be read in the fields that it lists. -/
theorem Lists.legible {tree : Tree} (h : Lists tree named)
    (htree : tree.EachLiteral StringLiteral.Legible) :
    ∀ e ∈ named, e.2.EachLiteral StringLiteral.Legible := by
  cases h with
  | object hnamed =>
    intro e he
    obtain ⟨member, hmember, -, hsame⟩ := hnamed.exists_member he
    exact hsame ▸ (Json.eachLiteralOfMembers_iff.1 htree member hmember).2
  | @array items _ _ =>
    intro e he
    exact Json.eachLiteralOfItems_iff.1 htree e.2 (List.of_mem_zip he).2

theorem optionally_iff {α : Type} {name : String} {write : α → Json.Value} {P : Tree → Prop}
    (hP : ∀ tree ∈ valuesOf named name, P tree ↔ ∃ x, tree.Denotes (write x)) :
    Optionally named name P ↔ ∃ x, HoldsOptional named name write x := by
  constructor
  · rintro (hnone | ⟨tree, hvalue, rfl | htree⟩)
    · exact ⟨none, .inl ⟨hnone, rfl⟩⟩
    · exact ⟨none, .inr ⟨.null, hvalue, trivial⟩⟩
    · obtain ⟨x, hx⟩ := (hP tree (hvalue ▸ List.mem_singleton_self tree)).1 htree
      exact ⟨some x, .inr ⟨tree, hvalue, hx⟩⟩
  · rintro ⟨x, ⟨hnone, -⟩ | ⟨tree, hvalue, hx⟩⟩
    · exact .inl hnone
    · refine .inr ⟨tree, hvalue, ?_⟩
      cases x with
      | none =>
        cases tree with
        | null => exact .inl rfl
        | boolean | number | string | array | object => exact hx.elim
      | some x => exact .inr ((hP tree (hvalue ▸ List.mem_singleton_self tree)).2 ⟨x, hx⟩)

theorem isString_iff {tree : Tree} (h : tree.EachLiteral StringLiteral.Legible) :
    (∃ literal, tree = .string literal) ↔ ∃ text, tree.Denotes (.string text) := by
  constructor
  · rintro ⟨literal, rfl⟩
    exact h
  · rintro ⟨text, htext⟩
    cases tree with
    | string literal => exact ⟨literal, rfl⟩
    | null | boolean | number | array | object => exact htext.elim

/-- What is written is a record exactly if it is the record of a credential. -/
theorem isRecord_iff {tree : Tree} (htree : tree.EachLiteral StringLiteral.Legible) :
    IsRecord tree ↔ ∃ credential, Records tree credential := by
  have hfields : ∀ {named}, Lists tree named →
      (Typed named ↔ ∃ credential : Credential, credential.ReadFrom named) := by
    intro named hlists
    have hvalue : ∀ {name other}, other ∈ valuesOf named name →
        other.EachLiteral StringLiteral.Legible := fun hmem =>
      hlists.legible htree _ (Json.mem_of_mem_valuesOf hmem)
    have hrefresh :
        Optionally named "refreshToken" (fun tree => ∃ literal, tree = .string literal) ↔
          ∃ text, HoldsOptional named "refreshToken" .string text :=
      optionally_iff fun other hother => isString_iff (hvalue hother)
    have hexpiry : Optionally named "expirationTimeMilliseconds" (fun tree => ∃ n, tree.IsInt64 n) ↔
        ∃ n, HoldsOptional named "expirationTimeMilliseconds" (fun n => .number (.ofInt64 n)) n :=
      optionally_iff fun other _ => exists_congr fun n => Json.Tree.denotes_int64_iff.symm
    constructor
    · rintro ⟨⟨literal, haccess⟩, hrefreshTyped, hexpiryTyped⟩
      have hliteral : (Tree.string literal).EachLiteral StringLiteral.Legible :=
        hvalue (haccess ▸ List.mem_singleton_self _)
      obtain ⟨text, htext⟩ : literal.Legible := hliteral
      obtain ⟨refresh, hrefresh⟩ := hrefresh.1 hrefreshTyped
      obtain ⟨expiry, hexpiry⟩ := hexpiry.1 hexpiryTyped
      exact ⟨⟨text, refresh, expiry⟩, ⟨_, haccess, htext⟩, hrefresh, hexpiry⟩
    · rintro ⟨credential, ⟨other, haccess, htext⟩, hrefreshHolds, hexpiryHolds⟩
      refine ⟨?_, hrefresh.2 ⟨_, hrefreshHolds⟩, hexpiry.2 ⟨_, hexpiryHolds⟩⟩
      obtain ⟨literal, rfl⟩ :=
        (isString_iff (hvalue (haccess ▸ List.mem_singleton_self other))).2 ⟨_, htext⟩
      exact ⟨literal, haccess⟩
  constructor
  · rintro ⟨named, hlists, htyped⟩
    obtain ⟨credential, hread⟩ := (hfields hlists).1 htyped
    exact ⟨credential, named, hlists, hread⟩
  · rintro ⟨credential, named, hlists, hread⟩
    exact ⟨named, hlists, (hfields hlists).2 ⟨credential, hread⟩⟩

end Credential

end TokenVault
