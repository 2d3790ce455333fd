import TokenVault.Json.Record
import TokenVault.Proofs.Json.Literal
import TokenVault.Proofs.Json.Value
import TokenVault.Proofs.Result
import TokenVault.Proofs.SortedMap

/-!
# Reading what a document means

A node that holds a tree is read as a value exactly if the tree stands for that value and there
is room for it: `Node.read_eq_ok_iff`.  Texts, integers and optional values are read by the same
measure.  What a tree stands for is one value at most, in order, and no deeper than the tree.
-/

namespace TokenVault.Json

/-! ### What a tree stands for -/

namespace Tree

variable {v : Value}

theorem denotes_null_iff : Tree.null.Denotes v ↔ v = .null := by
  cases v <;> simp [Denotes]

theorem denotes_boolean_iff {b : Bool} : (Tree.boolean b).Denotes v ↔ v = .boolean b := by
  cases v <;> simp [Denotes, eq_comm]

theorem denotes_number_iff {literal : NumberLiteral} : (Tree.number literal).Denotes v ↔
    ∃ n, Number.ofOctets literal.raw = .ok n ∧ v = .number n := by
  cases v <;> simp [Denotes]

theorem denotes_string_iff {literal : StringLiteral} : (Tree.string literal).Denotes v ↔
    ∃ text, literal.Denotes text ∧ v = .string text := by
  cases v <;> simp [Denotes]

theorem denotes_array_iff {items : List Tree} : (Tree.array items).Denotes v ↔
    ∃ values, ItemsDenote items values ∧ v = .array values := by
  cases v <;> simp [Denotes]

theorem denotes_object_iff {members : List (StringLiteral × Tree)} :
    (Tree.object members).Denotes v ↔
      ∃ named, MembersDenote members named ∧ v = .ofMembers named := by
  cases v <;> simp [Denotes, Value.ofMembers]

end Tree

mutual

/-- A tree stands for one value at most. -/
theorem Tree.Denotes.unique : ∀ (tree : Tree) {v w : Value}, tree.Denotes v → tree.Denotes w → v = w
  | .null, v, w, hv, hw => by
    rw [Tree.denotes_null_iff.1 hv, Tree.denotes_null_iff.1 hw]
  | .boolean b, v, w, hv, hw => by
    rw [Tree.denotes_boolean_iff.1 hv, Tree.denotes_boolean_iff.1 hw]
  | .number literal, v, w, hv, hw => by
    obtain ⟨n, hn, rfl⟩ := Tree.denotes_number_iff.1 hv
    obtain ⟨m, hm, rfl⟩ := Tree.denotes_number_iff.1 hw
    rw [hn, Except.ok.injEq] at hm
    rw [hm]
  | .string literal, v, w, hv, hw => by
    obtain ⟨text, htext, rfl⟩ := Tree.denotes_string_iff.1 hv
    obtain ⟨other, hother, rfl⟩ := Tree.denotes_string_iff.1 hw
    rw [htext.unique hother]
  | .array items, v, w, hv, hw => by
    obtain ⟨values, hvalues, rfl⟩ := Tree.denotes_array_iff.1 hv
    obtain ⟨others, hothers, rfl⟩ := Tree.denotes_array_iff.1 hw
    rw [ItemsDenote.unique items hvalues hothers]
  | .object members, v, w, hv, hw => by
    obtain ⟨named, hnamed, rfl⟩ := Tree.denotes_object_iff.1 hv
    obtain ⟨others, hothers, rfl⟩ := Tree.denotes_object_iff.1 hw
    rw [MembersDenote.unique members hnamed hothers]

theorem ItemsDenote.unique : ∀ (items : List Tree) {vs ws : List Value},
    ItemsDenote items vs → ItemsDenote items ws → vs = ws
  | [], [], [], _, _ => rfl
  | item :: rest, _ :: _, _ :: _, hv, hw => by
    rw [Tree.Denotes.unique item hv.1 hw.1, ItemsDenote.unique rest hv.2 hw.2]

theorem MembersDenote.unique : ∀ (members : List (StringLiteral × Tree))
    {vs ws : List (String × Value)}, MembersDenote members vs → MembersDenote members ws → vs = ws
  | [], [], [], _, _ => rfl
  | (_, value) :: rest, (_, _) :: _, (_, _) :: _, hv, hw => by
    rw [hv.1.unique hw.1, Tree.Denotes.unique value hv.2.1 hw.2.1,
      MembersDenote.unique rest hv.2.2 hw.2.2]

end

/-- What is known of every value that a tree stands for. -/
structure Tree.Bounds (tree : Tree) (v : Value) : Prop where
  ordered : v.Ordered
  depth_le : v.depth ≤ tree.depth
  floatFree : tree.FloatFree → v.FloatFree

mutual

theorem Tree.Denotes.bounds : ∀ (tree : Tree) {v : Value}, tree.Denotes v → tree.Bounds v
  | .null, v, h => by
    rw [Tree.denotes_null_iff.1 h]
    exact ⟨trivial, Nat.zero_le _, fun _ => trivial⟩
  | .boolean b, v, h => by
    rw [Tree.denotes_boolean_iff.1 h]
    exact ⟨trivial, Nat.zero_le _, fun _ => trivial⟩
  | .number literal, v, h => by
    obtain ⟨n, hn, rfl⟩ := Tree.denotes_number_iff.1 h
    refine ⟨trivial, Nat.zero_le _, fun hfree => ?_⟩
    cases n with
    | integer n hin => exact trivial
    | float x => exact absurd hn (hfree x)
  | .string literal, v, h => by
    obtain ⟨text, -, rfl⟩ := Tree.denotes_string_iff.1 h
    exact ⟨trivial, Nat.zero_le _, fun _ => trivial⟩
  | .array items, v, h => by
    obtain ⟨values, hvalues, rfl⟩ := Tree.denotes_array_iff.1 h
    have hall := ItemsDenote.bounds items hvalues
    refine ⟨(Value.orderedItems_iff values).2 fun v hv => (hall v hv).1,
      Nat.succ_le_succ ((Value.depthItems_le_iff values _).2 fun v hv => (hall v hv).2.1),
      fun hfree => (Value.floatFreeItems_iff values).2 fun v hv => (hall v hv).2.2 hfree⟩
  | .object members, v, h => by
    obtain ⟨named, hnamed, rfl⟩ := Tree.denotes_object_iff.1 h
    have hall := fun e he => MembersDenote.bounds members hnamed e (SortedMap.mem_of_mem_ofList he)
    refine ⟨⟨(SortedMap.ofList named).sorted,
        (Value.orderedMembers_iff _).2 fun e he => (hall e he).1⟩,
      Nat.succ_le_succ ((Value.depthMembers_le_iff _ _).2 fun e he => (hall e he).2.1),
      fun hfree => (Value.floatFreeMembers_iff _).2 fun e he => (hall e he).2.2 hfree⟩

theorem ItemsDenote.bounds : ∀ (items : List Tree) {values : List Value},
    ItemsDenote items values → ∀ v ∈ values, v.Ordered ∧ v.depth ≤ depthOfItems items ∧
      (FloatFreeTrees items → v.FloatFree)
  | [], [], _ => fun _ => List.not_mem_nil.elim
  | item :: rest, first :: _, h => by
    have hitem := Tree.Denotes.bounds item h.1
    have hrest := ItemsDenote.bounds rest h.2
    refine List.forall_mem_cons.2 ⟨⟨hitem.ordered,
      Nat.le_trans hitem.depth_le (Nat.le_max_left _ _), fun hfree => hitem.floatFree hfree.1⟩,
      fun v hv => ?_⟩
    obtain ⟨hordered, hdepth, hfloat⟩ := hrest v hv
    exact ⟨hordered, Nat.le_trans hdepth (Nat.le_max_right _ _), fun hfree => hfloat hfree.2⟩

theorem MembersDenote.bounds : ∀ (members : List (StringLiteral × Tree))
    {named : List (String × Value)}, MembersDenote members named → ∀ e ∈ named,
      e.2.Ordered ∧ e.2.depth ≤ depthOfMembers members ∧
        (FloatFreeNamed members → e.2.FloatFree)
  | [], [], _ => fun _ => List.not_mem_nil.elim
  | (_, value) :: rest, (_, first) :: _, h => by
    have hvalue := Tree.Denotes.bounds value h.2.1
    have hrest := MembersDenote.bounds rest h.2.2
    refine List.forall_mem_cons.2 ⟨⟨hvalue.ordered,
      Nat.le_trans hvalue.depth_le (Nat.le_max_left _ _), fun hfree => hvalue.floatFree hfree.1⟩,
      fun e he => ?_⟩
    obtain ⟨hordered, hdepth, hfloat⟩ := hrest e he
    exact ⟨hordered, Nat.le_trans hdepth (Nat.le_max_right _ _), fun hfree => hfloat hfree.2⟩

end

/-! ### What a node is read as -/

theorem Key.read_eq_ok_iff {key : Key} {literal : StringLiteral} (h : key.raw = literal.raw)
    (name : String) : key.read = .ok name ↔ literal.Denotes name := by
  rw [Key.read, h, literal.read_eq_ok_iff]

theorem readNumber_eq_ok_iff (start : Nat) (raw : Bytes) (n : Number) :
    readNumber start raw = .ok n ↔ Number.ofOctets raw = .ok n := by
  rw [readNumber]
  cases Number.ofOctets raw <;> simp

mutual

/-- A node that holds a tree is read as what the tree stands for, if there is room for the
tree. -/
theorem Node.read_eq_ok_iff : ∀ (tree : Tree) {node : Node}, tree.ScannedAs node →
    ∀ (room : Nat) (v : Value), node.read room = .ok v ↔ tree.Denotes v ∧ tree.depth ≤ room
  | .null, node, h, room, v => by
    obtain ⟨start, rfl⟩ := h.null
    rw [Node.read, Except.ok.injEq, Tree.denotes_null_iff, eq_comm]
    exact (and_iff_left (Nat.zero_le room)).symm
  | .boolean b, node, h, room, v => by
    obtain ⟨start, rfl⟩ := h.boolean
    rw [Node.read, Except.ok.injEq, Tree.denotes_boolean_iff, eq_comm]
    exact (and_iff_left (Nat.zero_le room)).symm
  | .number literal, node, h, room, v => by
    obtain ⟨start, rfl⟩ := h.number
    rw [Node.read, Result.bind_eq_ok_iff, Tree.denotes_number_iff,
      and_iff_left (show (Tree.number literal).depth ≤ room from Nat.zero_le room)]
    simp only [readNumber_eq_ok_iff, Result.pure_eq_ok, Except.ok.injEq, eq_comm (a := v)]
  | .string literal, node, h, room, v => by
    obtain ⟨start, rfl⟩ := h.string
    rw [Node.read, Result.bind_eq_ok_iff, Tree.denotes_string_iff,
      and_iff_left (show (Tree.string literal).depth ≤ room from Nat.zero_le room)]
    simp only [literal.read_eq_ok_iff, Result.pure_eq_ok, Except.ok.injEq, eq_comm (a := v)]
  | .array items, node, h, room, v => by
    obtain ⟨start, nodes, stop, rfl, hnodes⟩ := h.array
    rw [Tree.denotes_array_iff, Tree.depth]
    cases room with
    | zero => simp [Node.read]
    | succ room =>
      rw [Node.read, Result.bind_eq_ok_iff, Nat.succ_le_succ_iff]
      simp only [readItems_eq_ok_iff items hnodes, Ending.stop, Result.ok_bind,
        Result.pure_eq_ok, Except.ok.injEq]
      constructor
      · rintro ⟨values, ⟨hvalues, hdepth⟩, rfl⟩
        exact ⟨⟨values, hvalues, rfl⟩, hdepth⟩
      · rintro ⟨⟨values, hvalues, rfl⟩, hdepth⟩
        exact ⟨values, ⟨hvalues, hdepth⟩, rfl⟩
  | .object members, node, h, room, v => by
    obtain ⟨start, nodes, stop, rfl, hnodes⟩ := h.object
    rw [Tree.denotes_object_iff, Tree.depth]
    cases room with
    | zero => simp [Node.read]
    | succ room =>
      rw [Node.read, Result.bind_eq_ok_iff, Nat.succ_le_succ_iff]
      simp only [readMembers_eq_ok_iff members hnodes, Ending.stop, Result.ok_bind,
        Result.pure_eq_ok, Except.ok.injEq]
      constructor
      · rintro ⟨named, ⟨hnamed, hdepth⟩, rfl⟩
        exact ⟨⟨named, hnamed, rfl⟩, hdepth⟩
      · rintro ⟨⟨named, hnamed, rfl⟩, hdepth⟩
        exact ⟨named, ⟨hnamed, hdepth⟩, rfl⟩

theorem readItems_eq_ok_iff : ∀ (items : List Tree) {nodes : List Node},
    ItemsScannedAs items nodes → ∀ (room : Nat) (values : List Value),
      readItems room nodes = .ok values ↔ ItemsDenote items values ∧ depthOfItems items ≤ room
  | [], [], _, room, values => by
    cases values <;> simp [readItems, ItemsDenote, depthOfItems]
  | item :: rest, node :: nodes, h, room, values => by
    simp only [readItems, Result.bind_eq_ok_iff, Node.read_eq_ok_iff item h.1,
      readItems_eq_ok_iff rest h.2, Result.pure_eq_ok, Except.ok.injEq, depthOfItems, Nat.max_le]
    constructor
    · rintro ⟨v, ⟨hv, hdepth⟩, others, ⟨hothers, hrest⟩, rfl⟩
      exact ⟨⟨hv, hothers⟩, hdepth, hrest⟩
    · rintro ⟨hvalues, hdepth, hrest⟩
      cases values with
      | nil => exact hvalues.elim
      | cons v others => exact ⟨v, ⟨hvalues.1, hdepth⟩, others, ⟨hvalues.2, hrest⟩, rfl⟩

theorem readMembers_eq_ok_iff : ∀ (members : List (StringLiteral × Tree))
    {nodes : List (Key × Node)}, MembersScannedAs members nodes →
      ∀ (room : Nat) (named : List (String × Value)), readMembers room nodes = .ok named ↔
        MembersDenote members named ∧ depthOfMembers members ≤ room
  | [], [], _, room, named => by
    cases named <;> simp [readMembers, MembersDenote, depthOfMembers]
  | (literal, value) :: rest, (key, node) :: nodes, h, room, named => by
    simp only [readMembers, Result.bind_eq_ok_iff, Key.read_eq_ok_iff h.1,
      Node.read_eq_ok_iff value h.2.1, readMembers_eq_ok_iff rest h.2.2, Result.pure_eq_ok,
      Except.ok.injEq, depthOfMembers, Nat.max_le]
    constructor
    · rintro ⟨name, hname, v, ⟨hv, hdepth⟩, others, ⟨hothers, hrest⟩, rfl⟩
      exact ⟨⟨hname, hv, hothers⟩, hdepth, hrest⟩
    · rintro ⟨hnamed, hdepth, hrest⟩
      cases named with
      | nil => exact hnamed.elim
      | cons e others =>
        exact ⟨e.1, hnamed.1, e.2, ⟨hnamed.2.1, hdepth⟩, others, ⟨hnamed.2.2, hrest⟩, rfl⟩

end

/-- A document is taken if its value is and nothing is left over. -/
theorem Document.read_eq_ok_iff {α : Type} (input : Bytes) (take : Node → Except Report α) (x : α) :
    Document.read input take = .ok x ↔
      take (Document.scan input).root = .ok x ∧ (Document.scan input).excess = none := by
  unfold Document.read
  cases htake : take (Document.scan input).root <;> cases hexcess : (Document.scan input).excess <;>
    simp [htake, hexcess]

section

variable {tree : Tree} {node : Node}

/-- What holds a tree is complete, so it can be passed over. -/
theorem Node.skip_of_scannedAs (h : tree.ScannedAs node) : node.skip = .ok () := by
  cases tree with
  | null => obtain ⟨start, rfl⟩ := h.null; rfl
  | boolean b => obtain ⟨start, rfl⟩ := h.boolean; rfl
  | number literal => obtain ⟨start, rfl⟩ := h.number; rfl
  | string literal => obtain ⟨start, rfl⟩ := h.string; rfl
  | array items => obtain ⟨start, nodes, stop, rfl, -⟩ := h.array; rfl
  | object members => obtain ⟨start, nodes, stop, rfl, -⟩ := h.object; rfl

theorem Node.text_eq_ok_iff (h : tree.ScannedAs node) (text : String) :
    node.text = .ok text ↔ tree.Denotes (.string text) := by
  cases tree with
  | string literal =>
    obtain ⟨start, rfl⟩ := h.string
    exact literal.read_eq_ok_iff start text
  | null => obtain ⟨start, rfl⟩ := h.null; simp [Node.text, Tree.Denotes]
  | boolean b => obtain ⟨start, rfl⟩ := h.boolean; simp [Node.text, Tree.Denotes]
  | number literal => obtain ⟨start, rfl⟩ := h.number; simp [Node.text, Tree.Denotes]
  | array items => obtain ⟨start, nodes, stop, rfl, -⟩ := h.array; simp [Node.text, Tree.Denotes]
  | object members =>
    obtain ⟨start, nodes, stop, rfl, -⟩ := h.object
    simp [Node.text, Tree.Denotes]

theorem Node.int64_eq_ok_iff (h : tree.ScannedAs node) (n : Int64) :
    node.int64 = .ok n ↔ tree.Denotes (.number (.ofInt64 n)) := by
  cases tree with
  | number literal =>
    obtain ⟨start, rfl⟩ := h.number
    show _ ↔ Number.ofOctets literal.raw = .ok (.ofInt64 n)
    rw [Node.int64, readNumber]
    have hlt := n.toInt_lt
    cases Number.ofOctets literal.raw with
    | error taken => simp
    | ok m =>
      cases m with
      | float x => simp [Number.ofInt64]
      | integer value hin =>
        simp only [Number.ofInt64, Except.ok.injEq, Number.integer.injEq]
        split
        · next hfits =>
          rw [Except.ok.injEq]
          constructor
          · rintro rfl
            exact (Int64.toInt_ofInt_of_le hin.1 hfits).symm
          · rintro rfl
            exact Int64.ofInt_toInt n
        · next hbig =>
          simp only [false_iff, reduceCtorEq]
          rintro rfl
          exact hbig hlt
  | null => obtain ⟨start, rfl⟩ := h.null; simp [Node.int64, Tree.Denotes]
  | boolean b => obtain ⟨start, rfl⟩ := h.boolean; simp [Node.int64, Tree.Denotes]
  | string literal => obtain ⟨start, rfl⟩ := h.string; simp [Node.int64, Tree.Denotes]
  | array items => obtain ⟨start, nodes, stop, rfl, -⟩ := h.array; simp [Node.int64, Tree.Denotes]
  | object members =>
    obtain ⟨start, nodes, stop, rfl, -⟩ := h.object
    simp [Node.int64, Tree.Denotes]

/-- What an optional value is written as: `null` stands for a missing one. -/
def orNull {α : Type} (write : α → Value) : Option α → Value
  | none => .null
  | some x => write x

theorem Node.optional_eq_ok_iff {α : Type} {take : Node → Except Report α} {write : α → Value}
    (h : tree.ScannedAs node) (hwrite : ∀ x, write x ≠ .null)
    (htake : ∀ x, take node = .ok x ↔ tree.Denotes (write x)) (value : Option α) :
    node.optional take = .ok value ↔ tree.Denotes (orNull write value) := by
  by_cases hnull : tree = .null
  · subst hnull
    obtain ⟨start, rfl⟩ := h.null
    rw [Node.optional, Except.ok.injEq, Tree.denotes_null_iff]
    cases value with
    | none => simp [orNull]
    | some x => simp [orNull, hwrite]
  · have hnode : ∀ start, node ≠ .null start := by
      rintro start rfl
      cases tree with
      | null => exact hnull rfl
      | boolean | number | string | array | object => exact h.elim
    have hoptional : node.optional take = (take node >>= fun x => pure (some x)) := by
      unfold Node.optional
      split
      · exact absurd rfl (hnode _)
      · rfl
    rw [hoptional, Result.bind_eq_ok_iff]
    cases value with
    | none =>
      have hnot : ¬tree.Denotes .null := by
        intro hdenotes
        cases tree with
        | null => exact hnull rfl
        | boolean | number | string | array | object => exact hdenotes.elim
      simp [orNull, hnot]
    | some x => simp [orNull, htake]

theorem Node.optionalText_eq_ok_iff (h : tree.ScannedAs node) (text : Option String) :
    node.optional Node.text = .ok text ↔ tree.Denotes (orNull .string text) :=
  Node.optional_eq_ok_iff h (fun _ hnull => Value.noConfusion hnull) (Node.text_eq_ok_iff h) text

theorem Node.optionalInt64_eq_ok_iff (h : tree.ScannedAs node) (n : Option Int64) :
    node.optional Node.int64 = .ok n ↔ tree.Denotes (orNull (fun n => .number (.ofInt64 n)) n) :=
  Node.optional_eq_ok_iff h (fun _ hnull => Value.noConfusion hnull) (Node.int64_eq_ok_iff h) n

end

end TokenVault.Json
