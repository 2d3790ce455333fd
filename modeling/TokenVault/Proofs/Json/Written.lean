import Mathlib.Data.List.Forall2
import TokenVault.Proofs.Json.Layout
import TokenVault.Proofs.Json.Literal
import TokenVault.Proofs.Json.Scan

/-!
# What is written is a document

Whatever the layout, what is written of a value is a document that holds the tree of the value
(`Layout.document_write`), floating-point numbers included.  So it is scanned as a node that
spells the value: `Document.scan_write`.
-/

namespace TokenVault.Json

mutual

/-- A value as a writer spells it. -/
def Value.tree : Value → Tree
  | .null => .null
  | .boolean b => .boolean b
  | .number n => .number ⟨ascii n.chars, Number.form_chars n⟩
  | .string text => .string (.ofText text)
  | .array items => .array (treesOfItems items)
  | .object members => .object (treesOfMembers members)

/-- Items as a writer spells them. -/
def treesOfItems : List Value → List Tree
  | [] => []
  | value :: rest => value.tree :: treesOfItems rest

/-- Members as a writer spells them. -/
def treesOfMembers : List (String × Value) → List (StringLiteral × Tree)
  | [] => []
  | (name, value) :: rest => (.ofText name, value.tree) :: treesOfMembers rest

end

namespace Layout

variable (l : Layout)

/-- What stands between the brackets around parts. -/
def inside (level : Nat) : List Bytes → Bytes
  | [] => []
  | part :: rest =>
    l.gap (level + 1) ++
      (part ++ if rest = [] then l.gap level else 0x2C :: inside level rest)

theorem flatMap_eq_inside (level : Nat) {rest : List Bytes} (h : rest ≠ []) :
    rest.flatMap (fun part => 0x2C :: (l.gap (level + 1) ++ part)) ++ l.gap level =
      0x2C :: l.inside level rest := by
  induction rest with
  | nil => exact absurd rfl h
  | cons part rest ih =>
    rw [inside, List.flatMap_cons]
    split
    · next hrest =>
      rw [hrest, List.flatMap_nil, List.append_nil]
      simp
    · next hrest =>
      rw [List.append_assoc, ih hrest]
      simp

theorem enclose_eq_inside (level : Nat) (opening closing : UInt8) (parts : List Bytes) :
    l.enclose level opening closing parts = opening :: (l.inside level parts ++ [closing]) := by
  cases parts with
  | nil => rfl
  | cons part rest =>
    rw [enclose, inside]
    split
    · next hrest =>
      rw [hrest, List.flatMap_nil]
      simp
    · next hrest =>
      rw [← l.flatMap_eq_inside level hrest]
      simp

/-- Parts that spell items stand between the brackets as items do. -/
theorem itemsWritten_inside (level : Nat) {items : List Tree} {parts : List Bytes}
    (h : List.Forall₂ Tree.Written items parts) : ItemsWritten items (l.inside level parts) := by
  induction h with
  | nil => exact fun _ => List.not_mem_nil.elim
  | @cons item part items parts hitem hitems ih =>
    rw [inside]
    split
    · next hparts =>
      subst hparts
      obtain rfl := List.forall₂_nil_right_iff.1 hitems
      exact ⟨l.gap (level + 1), part, l.gap level, [], by simp, l.gap_blank _, hitem,
        l.gap_blank level, .inl ⟨rfl, rfl⟩⟩
    · next hparts =>
      have hne : items ≠ [] := by
        rintro rfl
        exact hparts (List.forall₂_nil_left_iff.1 hitems)
      exact ⟨l.gap (level + 1), part, [], 0x2C :: l.inside level parts, by simp, l.gap_blank _,
        hitem, fun _ => List.not_mem_nil.elim, .inr ⟨hne, _, rfl, ih⟩⟩

/-- Whether octets are a key, a colon and a value that spell a member. -/
def MemberWritten (member : StringLiteral × Tree) (part : Bytes) : Prop :=
  ∃ text, part = quoted member.1.raw ++ 0x3A :: (l.space ++ text) ∧ member.2.Written text

/-- Parts that spell members stand between the brackets as members do. -/
theorem membersWritten_inside (level : Nat) {members : List (StringLiteral × Tree)}
    {parts : List Bytes} (h : List.Forall₂ l.MemberWritten members parts) :
    MembersWritten members (l.inside level parts) := by
  induction h with
  | nil => exact fun _ => List.not_mem_nil.elim
  | @cons member part members parts hmember hmembers ih =>
    obtain ⟨key, value⟩ := member
    obtain ⟨text, rfl, htext⟩ := hmember
    rw [inside]
    split
    · next hparts =>
      subst hparts
      obtain rfl := List.forall₂_nil_right_iff.1 hmembers
      exact ⟨l.gap (level + 1), [], l.space, text, l.gap level, [], by simp, l.gap_blank _,
        fun _ => List.not_mem_nil.elim, l.space_blank, htext, l.gap_blank level, .inl ⟨rfl, rfl⟩⟩
    · next hparts =>
      have hne : members ≠ [] := by
        rintro rfl
        exact hparts (List.forall₂_nil_left_iff.1 hmembers)
      exact ⟨l.gap (level + 1), [], l.space, text, [], 0x2C :: l.inside level parts, by simp,
        l.gap_blank _, fun _ => List.not_mem_nil.elim, l.space_blank, htext,
        fun _ => List.not_mem_nil.elim, .inr ⟨hne, _, rfl, ih⟩⟩

/-- Parts that spell members make a document when they are enclosed in braces. -/
theorem document_enclose (level : Nat) {members : List (StringLiteral × Tree)}
    {parts : List Bytes} {input : Bytes} (h : List.Forall₂ l.MemberWritten members parts)
    (hinput : input = l.enclose level 0x7B 0x7D parts) : (Tree.object members).Document input := by
  have hwritten : (Tree.object members).Written input :=
    ⟨_, hinput.trans (l.enclose_eq_inside level _ _ _), l.membersWritten_inside level h⟩
  exact ⟨[], input, [], by simp, fun _ => List.not_mem_nil.elim, hwritten,
    fun _ => List.not_mem_nil.elim⟩

-- The statements on values, items and members are proved together, by recursion on the value.
mutual

/-- What is written of a value spells the tree of the value. -/
theorem written_write (level : Nat) : ∀ v : Value, v.tree.Written (l.write level v)
  | .null | .boolean _ | .number _ => rfl
  | .string _ => rfl
  | .array items =>
    ⟨_, l.enclose_eq_inside level _ _ _,
      l.itemsWritten_inside level (forall₂_writeItems (level + 1) items)⟩
  | .object members =>
    ⟨_, l.enclose_eq_inside level _ _ _,
      l.membersWritten_inside level (forall₂_writeMembers (level + 1) members)⟩

theorem forall₂_writeItems (level : Nat) : ∀ items : List Value,
    List.Forall₂ Tree.Written (treesOfItems items) (l.writeItems level items)
  | [] => .nil
  | value :: rest => .cons (written_write level value) (forall₂_writeItems level rest)

theorem forall₂_writeMembers (level : Nat) : ∀ members : List (String × Value),
    List.Forall₂ l.MemberWritten (treesOfMembers members) (l.writeMembers level members)
  | [] => .nil
  | (_, value) :: rest =>
    .cons ⟨_, rfl, written_write level value⟩ (forall₂_writeMembers level rest)

end

/-- What is written of a value is a document that holds the tree of the value. -/
theorem document_write (level : Nat) (v : Value) : v.tree.Document (l.write level v) :=
  ⟨[], l.write level v, [], by simp, fun _ => List.not_mem_nil.elim, l.written_write level v,
    fun _ => List.not_mem_nil.elim⟩

end Layout

/-! ### What is scanned -/

mutual

/-- A node that holds the tree of a value spells the value. -/
theorem Value.spelledBy_of_scannedAs : ∀ (v : Value) (node : Node), v.tree.ScannedAs node →
    v.SpelledBy node
  | .null, node, h | .boolean _, node, h | .number _, node, h | .string _, node, h => by
    cases node <;> exact h
  | .array items, node, h => by
    obtain ⟨start, nodes, stop, rfl, hnodes⟩ := h.array
    exact itemsSpelledBy_of_scannedAs items nodes hnodes
  | .object members, node, h => by
    obtain ⟨start, nodes, stop, rfl, hnodes⟩ := h.object
    exact membersSpelledBy_of_scannedAs members nodes hnodes

theorem itemsSpelledBy_of_scannedAs : ∀ (items : List Value) (nodes : List Node),
    ItemsScannedAs (treesOfItems items) nodes → ItemsSpelledBy items nodes
  | [], [], _ => trivial
  | v :: rest, node :: nodes, h =>
    ⟨Value.spelledBy_of_scannedAs v node h.1, itemsSpelledBy_of_scannedAs rest nodes h.2⟩

theorem membersSpelledBy_of_scannedAs : ∀ (members : List (String × Value))
    (nodes : List (Key × Node)),
    MembersScannedAs (treesOfMembers members) nodes → MembersSpelledBy members nodes
  | [], [], _ => trivial
  | (_, v) :: rest, (_, node) :: nodes, h =>
    ⟨h.1, Value.spelledBy_of_scannedAs v node h.2.1, membersSpelledBy_of_scannedAs rest nodes h.2.2⟩

end

/-- What is written of a value is scanned as a node that spells the value, and nothing is left
over. -/
theorem Document.scan_write (l : Layout) (level : Nat) (v : Value) :
    ∃ node, v.SpelledBy node ∧ Document.scan (l.write level v) = ⟨node, none⟩ := by
  obtain ⟨node, hnode, hscan⟩ := Document.scan_of_document (l.document_write level v)
  exact ⟨node, Value.spelledBy_of_scannedAs v node hnode, hscan⟩

end TokenVault.Json
