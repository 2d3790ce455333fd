import TokenVault.Json.Number
import TokenVault.SortedMap

/-!
# Values

A value as a reader knows it: the members of an object are in ascending order of their
keys, each key once.  `Value.Ordered` states that order, at every depth.
-/

namespace TokenVault.Json

/-- A value.  The members of an object stand in the order in which they are written. -/
inductive Value
  | null
  | boolean (value : Bool)
  | number (value : Number)
  | string (value : String)
  | array (items : List Value)
  | object (members : List (String × Value))

namespace Value

/-- An object with the last member for each key, in ascending order of the keys. -/
def ofMembers (members : List (String × Value)) : Value :=
  .object (SortedMap.ofList members).entries

mutual

/-- Whether two values are equal as values: numbers as numbers, and all else exactly. -/
def alike : Value → Value → Bool
  | null, null => true
  | boolean a, boolean b => a == b
  | number a, number b => a.alike b
  | string a, string b => a == b
  | array a, array b => alikeItems a b
  | object a, object b => alikeMembers a b
  | _, _ => false

/-- Whether two lists of values are alike item by item. -/
def alikeItems : List Value → List Value → Bool
  | [], [] => true
  | a :: as, b :: bs => alike a b && alikeItems as bs
  | _, _ => false

/-- Whether two lists of members have the same keys and alike values. -/
def alikeMembers : List (String × Value) → List (String × Value) → Bool
  | [], [] => true
  | (j, a) :: as, (k, b) :: bs => j == k && alike a b && alikeMembers as bs
  | _, _ => false

end

mutual

/-- The keys of every object in a value stand in ascending order. -/
def Ordered : Value → Prop
  | array items => OrderedItems items
  | object members =>
    (members.Pairwise fun a b => a.1 < b.1) ∧ OrderedMembers members
  | _ => True

/-- Every item of a list is ordered. -/
def OrderedItems : List Value → Prop
  | [] => True
  | v :: rest => Ordered v ∧ OrderedItems rest

/-- The value of every member of a list is ordered. -/
def OrderedMembers : List (String × Value) → Prop
  | [] => True
  | (_, v) :: rest => Ordered v ∧ OrderedMembers rest

end

end Value

end TokenVault.Json
