import TokenVault.Json.Literal
import TokenVault.Json.Value

/-!
# Writing values

The compact form has no blanks.  The spread-out form puts every member on a line of its
own, indented by two spaces for each level; an empty array or object stays on its line.
-/

namespace TokenVault.Json

/-- The octets of an ASCII text. -/
def ascii (chars : List Char) : Bytes := chars.map fun c => UInt8.ofNat c.toNat

/-- Puts a separator between parts. -/
def separated (separator : Bytes) : List Bytes → Bytes
  | [] => []
  | [part] => part
  | part :: rest => part ++ separator ++ separated separator rest

mutual

/-- A value in compact form. -/
def Value.compact : Value → Bytes
  | .null => ascii ['n', 'u', 'l', 'l']
  | .boolean true => ascii ['t', 'r', 'u', 'e']
  | .boolean false => ascii ['f', 'a', 'l', 's', 'e']
  | .number n => ascii n.chars
  | .string text => Literal.write text
  | .array items => ascii ['['] ++ separated (ascii [',']) (compactItems items) ++ ascii [']']
  | .object members =>
    ascii ['\x7b'] ++ separated (ascii [',']) (compactMembers members) ++ ascii ['\x7d']

/-- The items of an array, each in compact form. -/
def compactItems : List Value → List Bytes
  | [] => []
  | value :: rest => value.compact :: compactItems rest

/-- The members of an object, each in compact form. -/
def compactMembers : List (String × Value) → List Bytes
  | [] => []
  | (key, value) :: rest =>
    (Literal.write key ++ ascii [':'] ++ value.compact) :: compactMembers rest

end

/-- A value in compact form, as text. -/
def Value.text (value : Value) : String := Bytes.display value.compact

/-- A line end, and the blanks for a level of nesting. -/
def lineStart (level : Nat) : Bytes := 0x0A :: List.replicate (2 * level) 0x20

/-- Parts between brackets, each on a line of its own one level deeper. -/
def spreadParts (level : Nat) (opening closing : Char) (parts : List Bytes) : Bytes :=
  if parts = [] then ascii [opening, closing]
  else
    ascii [opening] ++ lineStart (level + 1) ++
      separated (ascii [','] ++ lineStart (level + 1)) parts ++
      lineStart level ++ ascii [closing]

mutual

/-- A value in spread-out form, at a level of nesting. -/
def Value.spread (level : Nat) : Value → Bytes
  | .array items => spreadParts level '[' ']' (spreadItems (level + 1) items)
  | .object members => spreadParts level '\x7b' '\x7d' (spreadMembers (level + 1) members)
  | .null => Value.null.compact
  | .boolean b => (Value.boolean b).compact
  | .number n => (Value.number n).compact
  | .string text => (Value.string text).compact

/-- The items of an array, each in spread-out form. -/
def spreadItems (level : Nat) : List Value → List Bytes
  | [] => []
  | value :: rest => value.spread level :: spreadItems level rest

/-- The members of an object, each in spread-out form. -/
def spreadMembers (level : Nat) : List (String × Value) → List Bytes
  | [] => []
  | (key, value) :: rest =>
    (Literal.write key ++ ascii [':', ' '] ++ value.spread level) :: spreadMembers level rest

end

/-- An optional member: none if its value is missing. -/
def optionalMember {α : Type} (name : String) (write : α → Value) :
    Option α → List (String × Value)
  | none => []
  | some value => [(name, write value)]

end TokenVault.Json
