import TokenVault.Json.Read
import TokenVault.Proofs.Json.Layout
import TokenVault.Proofs.Json.Literal
import TokenVault.Proofs.Json.Value
import TokenVault.Proofs.Result
import TokenVault.Proofs.SortedMap

/-!
# Reading what was written

A node that spells a value is read as that value if the value nests no deeper than there is
room for (`Node.read_of_spelledBy`), and is refused as too deep if it nests deeper
(`Node.read_too_deep`): the limit is exact.
-/

namespace TokenVault.Json

theorem Key.read_of_raw {key : Key} {name : String} (h : key.raw = Literal.escape name) :
    key.read = .ok name := by
  rw [Key.read, h, Literal.read_escape]

theorem readNumber_integer (start : Nat) (n : Int)
    (hn : -0x8000000000000000 ≤ n ∧ n < 0x10000000000000000) :
    readNumber start (ascii (Number.integer n hn).chars) = .ok (.integer n hn) := by
  show readNumber start (Number.integerOctets n) = _
  rw [readNumber, Number.ofOctets_integer n hn]

/-- The members of an ordered object are those of the map that is made of them. -/
theorem Value.ofMembers_of_ordered {members : List (String × Value)}
    (h : (Value.object members).Ordered) : Value.ofMembers members = .object members := by
  rw [Value.ofMembers, SortedMap.entries_ofList h.1]

-- The statements on values, items and members are proved together, by recursion on the value.
mutual

/-- A node that spells a value is read as the value if there is room for it. -/
theorem Node.read_of_spelledBy : ∀ {v : Value} {node : Node}, v.SpelledBy node →
    v.FloatFree → v.Ordered → ∀ {room : Nat}, v.depth ≤ room → node.read room = .ok v
  | .null, _, hspelled, _, _, _, _ => by
    obtain ⟨start, rfl⟩ := hspelled.null
    rw [Node.read]
  | .boolean b, _, hspelled, _, _, _, _ => by
    obtain ⟨start, rfl⟩ := hspelled.boolean
    rw [Node.read]
  | .number (.float x), _, _, hfree, _, _, _ => hfree.elim
  | .number (.integer n hn), _, hspelled, _, _, _, _ => by
    obtain ⟨start, rfl⟩ := hspelled.number
    rw [Node.read, readNumber_integer]
    rfl
  | .string text, _, hspelled, _, _, _, _ => by
    obtain ⟨start, rfl⟩ := hspelled.string
    rw [Node.read, Literal.read_escape]
    rfl
  | .array items, _, hspelled, hfree, hordered, room, hroom => by
    obtain ⟨start, nodes, stop, rfl, hitems⟩ := hspelled.array
    cases room with
    | zero => exact absurd hroom (Nat.not_succ_le_zero _)
    | succ room =>
      rw [Node.read, readItems_of_spelledBy hitems hfree hordered (Nat.le_of_succ_le_succ hroom)]
      rfl
  | .object members, _, hspelled, hfree, hordered, room, hroom => by
    obtain ⟨start, nodes, stop, rfl, hmembers⟩ := hspelled.object
    cases room with
    | zero => exact absurd hroom (Nat.not_succ_le_zero _)
    | succ room =>
      rw [Node.read,
        readMembers_of_spelledBy hmembers hfree hordered.2 (Nat.le_of_succ_le_succ hroom)]
      -- the members go through a map, which changes nothing if they are in order
      show Except.ok (Value.ofMembers members) = _
      rw [Value.ofMembers_of_ordered hordered]

/-- Nodes that spell items are read as the items if there is room for each. -/
theorem readItems_of_spelledBy : ∀ {items : List Value} {nodes : List Node},
    ItemsSpelledBy items nodes → Value.FloatFreeItems items → Value.OrderedItems items →
      ∀ {room : Nat}, Value.depthItems items ≤ room → readItems room nodes = .ok items
  | [], [], _, _, _, _, _ => rfl
  | v :: rest, node :: nodes, hspelled, hfree, hordered, room, hroom => by
    obtain ⟨hfirst, hrest⟩ := Nat.max_le.1 hroom
    rw [readItems, Node.read_of_spelledBy hspelled.1 hfree.1 hordered.1 hfirst,
      readItems_of_spelledBy hspelled.2 hfree.2 hordered.2 hrest]
    rfl

/-- Keys and nodes that spell members are read as the members if there is room for each. -/
theorem readMembers_of_spelledBy : ∀ {members : List (String × Value)}
    {nodes : List (Key × Node)}, MembersSpelledBy members nodes →
      Value.FloatFreeMembers members → Value.OrderedMembers members →
        ∀ {room : Nat}, Value.depthMembers members ≤ room → readMembers room nodes = .ok members
  | [], [], _, _, _, _, _ => rfl
  | (name, v) :: rest, (key, node) :: nodes, hspelled, hfree, hordered, room, hroom => by
    obtain ⟨hfirst, hrest⟩ := Nat.max_le.1 hroom
    rw [readMembers, Key.read_of_raw hspelled.1,
      Node.read_of_spelledBy hspelled.2.1 hfree.1 hordered.1 hfirst,
      readMembers_of_spelledBy hspelled.2.2 hfree.2 hordered.2 hrest]
    rfl

end

mutual

/-- A node that spells a value is refused if there is no room for the value. -/
theorem Node.read_too_deep : ∀ {v : Value} {node : Node}, v.SpelledBy node →
    v.FloatFree → v.Ordered → ∀ {room : Nat}, room < v.depth →
      ∃ offset, node.read room = .error ⟨.tooDeep, offset⟩
  | .null, _, _, _, _, _, hroom => absurd hroom (Nat.not_lt_zero _)
  | .boolean _, _, _, _, _, _, hroom => absurd hroom (Nat.not_lt_zero _)
  | .number _, _, _, _, _, _, hroom => absurd hroom (Nat.not_lt_zero _)
  | .string _, _, _, _, _, _, hroom => absurd hroom (Nat.not_lt_zero _)
  | .array items, _, hspelled, hfree, hordered, room, hroom => by
    obtain ⟨start, nodes, stop, rfl, hitems⟩ := hspelled.array
    cases room with
    | zero => exact ⟨start + 1, rfl⟩
    | succ room =>
      obtain ⟨offset, hread⟩ :=
        readItems_too_deep hitems hfree hordered (Nat.lt_of_succ_lt_succ hroom)
      refine ⟨offset, ?_⟩
      rw [Node.read, hread]
      rfl
  | .object members, _, hspelled, hfree, hordered, room, hroom => by
    obtain ⟨start, nodes, stop, rfl, hmembers⟩ := hspelled.object
    cases room with
    | zero => exact ⟨start + 1, rfl⟩
    | succ room =>
      obtain ⟨offset, hread⟩ :=
        readMembers_too_deep hmembers hfree hordered.2 (Nat.lt_of_succ_lt_succ hroom)
      refine ⟨offset, ?_⟩
      rw [Node.read, hread]
      rfl

/-- Nodes that spell items are refused if there is no room for one of them. -/
theorem readItems_too_deep : ∀ {items : List Value} {nodes : List Node},
    ItemsSpelledBy items nodes → Value.FloatFreeItems items → Value.OrderedItems items →
      ∀ {room : Nat}, room < Value.depthItems items →
        ∃ offset, readItems room nodes = .error ⟨.tooDeep, offset⟩
  | [], _, _, _, _, _, hroom => absurd hroom (Nat.not_lt_zero _)
  | v :: rest, node :: nodes, hspelled, hfree, hordered, room, hroom => by
    by_cases hfirst : v.depth ≤ room
    · -- the first item is read, so a later one is too deep
      have hrest : room < Value.depthItems rest := by
        rw [Value.depthItems] at hroom
        omega
      obtain ⟨offset, hread⟩ := readItems_too_deep hspelled.2 hfree.2 hordered.2 hrest
      refine ⟨offset, ?_⟩
      rw [readItems, Node.read_of_spelledBy hspelled.1 hfree.1 hordered.1 hfirst, hread]
      rfl
    · obtain ⟨offset, hread⟩ :=
        Node.read_too_deep hspelled.1 hfree.1 hordered.1 (Nat.lt_of_not_le hfirst)
      refine ⟨offset, ?_⟩
      rw [readItems, hread]
      rfl

/-- Keys and nodes that spell members are refused if there is no room for one of them. -/
theorem readMembers_too_deep : ∀ {members : List (String × Value)}
    {nodes : List (Key × Node)}, MembersSpelledBy members nodes →
      Value.FloatFreeMembers members → Value.OrderedMembers members →
        ∀ {room : Nat}, room < Value.depthMembers members →
          ∃ offset, readMembers room nodes = .error ⟨.tooDeep, offset⟩
  | [], _, _, _, _, _, hroom => absurd hroom (Nat.not_lt_zero _)
  | (name, v) :: rest, (key, node) :: nodes, hspelled, hfree, hordered, room, hroom => by
    by_cases hfirst : v.depth ≤ room
    · -- the first member is read, so a later one is too deep
      have hrest : room < Value.depthMembers rest := by
        rw [Value.depthMembers] at hroom
        omega
      obtain ⟨offset, hread⟩ := readMembers_too_deep hspelled.2.2 hfree.2 hordered.2 hrest
      refine ⟨offset, ?_⟩
      rw [readMembers, Key.read_of_raw hspelled.1,
        Node.read_of_spelledBy hspelled.2.1 hfree.1 hordered.1 hfirst, hread]
      rfl
    · obtain ⟨offset, hread⟩ :=
        Node.read_too_deep hspelled.2.1 hfree.1 hordered.1 (Nat.lt_of_not_le hfirst)
      refine ⟨offset, ?_⟩
      rw [readMembers, Key.read_of_raw hspelled.1, hread]
      rfl

end

end TokenVault.Json
