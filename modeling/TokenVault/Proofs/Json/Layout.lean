import TokenVault.Json.Print
import TokenVault.Json.Scan
import TokenVault.Proofs.Json.Number

/-!
# Layouts

The compact and the spread-out form differ only in the blanks between the parts of a value.
A `Layout` says which blanks these are, and both forms are layouts of one text:
`compact_eq_write` and `spread_eq_write`.  What a layout writes is found again in a node that
spells the value: `Value.SpelledBy`.
-/

namespace TokenVault.Json

/-- The blanks between the parts of a value. -/
structure Layout where
  /-- What stands before the items and members of a level, and before the bracket that
  closes the level below. -/
  gap : Nat → Bytes
  /-- What stands between a colon and a value. -/
  space : Bytes
  gap_blank : ∀ level, ∀ octet ∈ gap level, isBlank octet = true
  space_blank : ∀ octet ∈ space, isBlank octet = true

namespace Layout

/-- No blanks at all. -/
def tight : Layout where
  gap _ := []
  space := []
  gap_blank := by simp
  space_blank := by simp

/-- Every item and member on a line of its own. -/
def lines : Layout where
  gap := lineStart
  space := [0x20]
  gap_blank := by
    intro level octet h
    rcases List.mem_cons.1 h with rfl | h
    · rfl
    · rw [List.eq_of_mem_replicate h]
      rfl
  space_blank := by
    intro octet h
    rw [List.mem_singleton.1 h]
    rfl

variable (l : Layout)

/-- Parts between brackets, at a level of nesting. -/
def enclose (level : Nat) (opening closing : UInt8) : List Bytes → Bytes
  | [] => [opening, closing]
  | part :: rest =>
    opening :: (l.gap (level + 1) ++ part) ++
      rest.flatMap (fun part => 0x2C :: (l.gap (level + 1) ++ part)) ++
        (l.gap level ++ [closing])

mutual

/-- A value, at a level of nesting. -/
def write (level : Nat) : Value → Bytes
  | .array items => l.enclose level 0x5B 0x5D (writeItems (level + 1) items)
  | .object members => l.enclose level 0x7B 0x7D (writeMembers (level + 1) members)
  | .null => Value.null.compact
  | .boolean b => (Value.boolean b).compact
  | .number n => (Value.number n).compact
  | .string text => (Value.string text).compact

/-- The items of an array. -/
def writeItems (level : Nat) : List Value → List Bytes
  | [] => []
  | value :: rest => write level value :: writeItems level rest

/-- The members of an object. -/
def writeMembers (level : Nat) : List (String × Value) → List Bytes
  | [] => []
  | (key, value) :: rest =>
    (Literal.write key ++ 0x3A :: (l.space ++ write level value)) :: writeMembers level rest

end

end Layout

theorem separated_cons (separator part : Bytes) (rest : List Bytes) :
    separated separator (part :: rest) = part ++ rest.flatMap (separator ++ ·) := by
  induction rest generalizing part with
  | nil => simp [separated]
  | cons next rest ih =>
    rw [separated, ih, List.flatMap_cons]
    · simp
    · simp

mutual

theorem Value.compact_eq_write (level : Nat) : ∀ v : Value, v.compact = Layout.tight.write level v
  | .null | .boolean _ | .number _ | .string _ => rfl
  | .array items => by
    rw [Value.compact, Layout.write, compactItems_eq_write (level + 1) items]
    cases Layout.tight.writeItems (level + 1) items with
    | nil => rfl
    | cons part rest =>
      rw [separated_cons, Layout.enclose]
      simp [Layout.tight, ascii]
  | .object members => by
    rw [Value.compact, Layout.write, compactMembers_eq_write (level + 1) members]
    cases Layout.tight.writeMembers (level + 1) members with
    | nil => rfl
    | cons part rest =>
      rw [separated_cons, Layout.enclose]
      simp [Layout.tight, ascii]

theorem compactItems_eq_write (level : Nat) :
    ∀ items : List Value, compactItems items = Layout.tight.writeItems level items
  | [] => rfl
  | value :: rest => by
    rw [compactItems, Layout.writeItems, Value.compact_eq_write level value,
      compactItems_eq_write level rest]

theorem compactMembers_eq_write (level : Nat) :
    ∀ members : List (String × Value),
      compactMembers members = Layout.tight.writeMembers level members
  | [] => rfl
  | (key, value) :: rest => by
    rw [compactMembers, Layout.writeMembers, Value.compact_eq_write level value,
      compactMembers_eq_write level rest]
    simp [Layout.tight, ascii]

end

theorem spreadParts_eq_enclose (level : Nat) (opening closing : Char) (parts : List Bytes) :
    spreadParts level opening closing parts =
      Layout.lines.enclose level (UInt8.ofNat opening.toNat) (UInt8.ofNat closing.toNat) parts := by
  cases parts with
  | nil => simp [spreadParts, Layout.enclose, ascii]
  | cons part rest =>
    rw [spreadParts, if_neg (List.cons_ne_nil part rest), separated_cons, Layout.enclose]
    simp [Layout.lines, ascii]

mutual

theorem Value.spread_eq_write (level : Nat) :
    ∀ v : Value, v.spread level = Layout.lines.write level v
  | .null | .boolean _ | .number _ | .string _ => rfl
  | .array items => by
    rw [Value.spread, Layout.write, spreadItems_eq_write (level + 1) items,
      spreadParts_eq_enclose]
    rfl
  | .object members => by
    rw [Value.spread, Layout.write, spreadMembers_eq_write (level + 1) members,
      spreadParts_eq_enclose]
    rfl

theorem spreadItems_eq_write (level : Nat) :
    ∀ items : List Value, spreadItems level items = Layout.lines.writeItems level items
  | [] => rfl
  | value :: rest => by
    rw [spreadItems, Layout.writeItems, Value.spread_eq_write level value,
      spreadItems_eq_write level rest]

theorem spreadMembers_eq_write (level : Nat) :
    ∀ members : List (String × Value),
      spreadMembers level members = Layout.lines.writeMembers level members
  | [] => rfl
  | (key, value) :: rest => by
    rw [spreadMembers, Layout.writeMembers, Value.spread_eq_write level value,
      spreadMembers_eq_write level rest]
    simp [Layout.lines, ascii]

end

/-! ### Nodes that spell a value -/

mutual

/-- Whether a node is a complete spelling of a value: its literals are those that a writer
uses, and its items and members stand in the same order. -/
def Value.SpelledBy : Value → Node → Prop
  | .null, .null _ => True
  | .boolean b, .boolean _ c => c = b
  | .number n, .number _ raw => raw = ascii n.chars
  | .string text, .string _ raw => raw = Literal.escape text
  | .array items, .array _ nodes (.closed _) => ItemsSpelledBy items nodes
  | .object members, .object _ nodes (.closed _) => MembersSpelledBy members nodes
  | _, _ => False

/-- Whether nodes spell values one by one. -/
def ItemsSpelledBy : List Value → List Node → Prop
  | [], [] => True
  | value :: values, node :: nodes => value.SpelledBy node ∧ ItemsSpelledBy values nodes
  | _, _ => False

/-- Whether keys and nodes spell members one by one. -/
def MembersSpelledBy : List (String × Value) → List (Key × Node) → Prop
  | [], [] => True
  | (name, value) :: members, (key, node) :: nodes =>
    key.raw = Literal.escape name ∧ value.SpelledBy node ∧ MembersSpelledBy members nodes
  | _, _ => False

end

namespace Value.SpelledBy

variable {node : Node}

theorem null (h : Value.null.SpelledBy node) : ∃ start, node = .null start := by
  cases node with
  | null start => exact ⟨start, rfl⟩
  | boolean | number | string | array | object | broken => exact h.elim

theorem boolean {b : Bool} (h : (Value.boolean b).SpelledBy node) :
    ∃ start, node = .boolean start b := by
  cases node with
  | boolean start c => exact ⟨start, congrArg _ h⟩
  | null | number | string | array | object | broken => exact h.elim

theorem number {n : Number} (h : (Value.number n).SpelledBy node) :
    ∃ start, node = .number start (ascii n.chars) := by
  cases node with
  | number start raw => exact ⟨start, congrArg _ h⟩
  | null | boolean | string | array | object | broken => exact h.elim

theorem string {text : String} (h : (Value.string text).SpelledBy node) :
    ∃ start, node = .string start (Literal.escape text) := by
  cases node with
  | string start raw => exact ⟨start, congrArg _ h⟩
  | null | boolean | number | array | object | broken => exact h.elim

theorem array {items : List Value} (h : (Value.array items).SpelledBy node) :
    ∃ start nodes stop, node = .array start nodes (.closed stop) ∧
      ItemsSpelledBy items nodes := by
  cases node with
  | array start nodes ending =>
    cases ending with
    | closed stop => exact ⟨start, nodes, stop, rfl, h⟩
    | broken fault => exact h.elim
  | null | boolean | number | string | object | broken => exact h.elim

theorem object {members : List (String × Value)} (h : (Value.object members).SpelledBy node) :
    ∃ start nodes stop, node = .object start nodes (.closed stop) ∧
      MembersSpelledBy members nodes := by
  cases node with
  | object start nodes ending =>
    cases ending with
    | closed stop => exact ⟨start, nodes, stop, rfl, h⟩
    | broken fault => exact h.elim
  | null | boolean | number | string | array | broken => exact h.elim

end Value.SpelledBy

end TokenVault.Json
