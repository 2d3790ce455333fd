import TokenVault.Json.Scan
import TokenVault.Json.Value

/-!
# Reading values

A node is read in the order of writing, and the first thing that is wrong with it is
reported.  Arrays and objects nest to a limited depth when they are read; what is skipped
has no such limit.
-/

namespace TokenVault.Json

/-- How many arrays and objects may lie within each other, the outermost counted. -/
def depthLimit : Nat := 127

/-- The number that a literal spells. -/
def readNumber (start : Nat) (raw : Bytes) : Except Report Number :=
  match Number.ofOctets raw with
  | .ok n => .ok n
  | .error taken => .error ⟨.numberOutOfRange, start + taken⟩

/-- Takes the end of a list of items or members: how many octets have been taken then. -/
def Ending.stop : Ending → Except Report Nat
  | closed stop => .ok stop
  | broken fault => .error fault.reading

mutual

/-- The value of a node, in which up to `room` arrays and objects may nest. -/
def Node.read (room : Nat) : Node → Except Report Value
  | .null _ => .ok .null
  | .boolean _ value => .ok (.boolean value)
  | .number start raw => do return .number (← readNumber start raw)
  | .string start raw => do return .string (← Literal.read start raw)
  | .array start items ending =>
    match room with
    | 0 => .error ⟨.tooDeep, start + 1⟩
    | room + 1 => do
      let values ← readItems room items
      let _ ← ending.stop
      return .array values
  | .object start members ending =>
    match room with
    | 0 => .error ⟨.tooDeep, start + 1⟩
    | room + 1 => do
      let values ← readMembers room members
      let _ ← ending.stop
      return .ofMembers values
  | .broken _ fault => .error fault.reading

/-- The values of items. -/
def readItems (room : Nat) : List Node → Except Report (List Value)
  | [] => .ok []
  | node :: rest => do
    let value ← node.read room
    return value :: (← readItems room rest)

/-- The keys and values of members. -/
def readMembers (room : Nat) : List (Key × Node) → Except Report (List (String × Value))
  | [] => .ok []
  | (key, node) :: rest => do
    let name ← key.read
    let value ← node.read room
    return (name, value) :: (← readMembers room rest)

end

/-- How many octets have been taken after a complete value. -/
def Node.stop : Node → Nat
  | null start => start + 4
  | boolean start value => start + (if value then 4 else 5)
  | number start raw => start + raw.length
  | string start raw => start + raw.length + 2
  | array _ _ (.closed stop) | object _ _ (.closed stop) => stop
  | array start _ _ | object start _ _ | broken start _ => start

/-- Takes a whole document, of which nothing may be left over after its value. -/
def Document.read {α : Type} (input : Bytes) (take : Node → Except Report α) :
    Except Error α :=
  let document := Document.scan input
  match take document.root, document.excess with
  | .ok value, none => .ok value
  | .ok _, some offset => .error (Report.on ⟨.trailingCharacters, offset + 1⟩ input)
  | .error report, _ => .error (report.on input)

/-- The value that a document holds. -/
def Value.ofOctets (input : Bytes) : Except Error Value :=
  Document.read input (Node.read depthLimit)

end TokenVault.Json
