import TokenVault.Json.Value

/-!
# Shapes of values

How deep arrays and objects nest in a value, and whether it holds no floating-point number.
What is asked of items and members is asked of each of them.
-/

namespace TokenVault.Json.Value

mutual

/-- How many arrays and objects lie within each other, the outermost counted. -/
def depth : Value → Nat
  | array items => depthItems items + 1
  | object members => depthMembers members + 1
  | null | boolean _ | number _ | string _ => 0

/-- The depth of the deepest item. -/
def depthItems : List Value → Nat
  | [] => 0
  | v :: rest => max (depth v) (depthItems rest)

/-- The depth of the deepest value of a member. -/
def depthMembers : List (String × Value) → Nat
  | [] => 0
  | (_, v) :: rest => max (depth v) (depthMembers rest)

end

mutual

/-- No number in a value is a floating-point number. -/
def FloatFree : Value → Prop
  | number (.float _) => False
  | array items => FloatFreeItems items
  | object members => FloatFreeMembers members
  | null | boolean _ | number (.integer _ _) | string _ => True

/-- No item holds a floating-point number. -/
def FloatFreeItems : List Value → Prop
  | [] => True
  | v :: rest => FloatFree v ∧ FloatFreeItems rest

/-- No value of a member holds a floating-point number. -/
def FloatFreeMembers : List (String × Value) → Prop
  | [] => True
  | (_, v) :: rest => FloatFree v ∧ FloatFreeMembers rest

end

theorem floatFreeItems_iff (items : List Value) :
    FloatFreeItems items ↔ ∀ v ∈ items, v.FloatFree := by
  induction items with
  | nil => simp [FloatFreeItems]
  | cons v rest ih => rw [FloatFreeItems, ih, List.forall_mem_cons]

theorem floatFreeMembers_iff (members : List (String × Value)) :
    FloatFreeMembers members ↔ ∀ e ∈ members, e.2.FloatFree := by
  induction members with
  | nil => simp [FloatFreeMembers]
  | cons e rest ih => rw [FloatFreeMembers, ih, List.forall_mem_cons]

theorem orderedItems_iff (items : List Value) : OrderedItems items ↔ ∀ v ∈ items, v.Ordered := by
  induction items with
  | nil => simp [OrderedItems]
  | cons v rest ih => rw [OrderedItems, ih, List.forall_mem_cons]

theorem orderedMembers_iff (members : List (String × Value)) :
    OrderedMembers members ↔ ∀ e ∈ members, e.2.Ordered := by
  induction members with
  | nil => simp [OrderedMembers]
  | cons e rest ih => rw [OrderedMembers, ih, List.forall_mem_cons]

theorem depthItems_le_iff (items : List Value) (n : Nat) :
    depthItems items ≤ n ↔ ∀ v ∈ items, v.depth ≤ n := by
  induction items with
  | nil => simp [depthItems]
  | cons v rest ih => rw [depthItems, Nat.max_le, ih, List.forall_mem_cons]

theorem depthMembers_le_iff (members : List (String × Value)) (n : Nat) :
    depthMembers members ≤ n ↔ ∀ e ∈ members, e.2.depth ≤ n := by
  induction members with
  | nil => simp [depthMembers]
  | cons e rest ih => rw [depthMembers, Nat.max_le, ih, List.forall_mem_cons]

end TokenVault.Json.Value
