import TokenVault.Json.Read

/-!
# Records

A record is read member by member: a known member is taken by its field, any other is
handled by one rule for all.  No known member may occur twice.  Some records may also be
written as an array of their fields in order, where the last ones may be left out.

A value of the wrong kind is reported where it was noticed: a word, number or text after
it, an array or object at its bracket.  What is wrong with a record as a whole is reported
after its closing bracket if nothing but blanks stands before it.
-/

namespace TokenVault.Json

/-- What a node turns out to be, and where that is noticed. -/
def Node.found : Node → Except Report (Found × Nat)
  | null start => .ok (.null, start + 4)
  | boolean start value => .ok (.boolean value, (Node.boolean start value).stop)
  | number start raw => do return (.number (← readNumber start raw), start + raw.length)
  | string start raw => do return (.string (← Literal.read start raw), start + raw.length + 2)
  | array start _ _ => .ok (.sequence, start)
  | object start _ _ => .ok (.map, start)
  | broken _ fault => .error fault.reading

/-- The report on a node that is not what is expected.  A fault in it comes first. -/
def Node.mismatch (node : Node) (expected : String) : Report :=
  match node.found with
  | .ok (found, offset) => ⟨.mismatch found expected, offset⟩
  | .error report => report

/-- Reads a text. -/
def Node.text : Node → Except Report String
  | string start raw => Literal.read start raw
  | node => .error (node.mismatch "a string")

/-- Reads a signed integer of 64 bits. -/
def Node.int64 (node : Node) : Except Report Int64 :=
  match node with
  | number start raw =>
    match readNumber start raw with
    | .ok (.integer value _) =>
      if value < 0x8000000000000000 then .ok (Int64.ofInt value)
      else .error ⟨.outOfRange value "i64", node.stop⟩
    | .ok (.float _) => .error (node.mismatch "i64")
    | .error report => .error report
  | _ => .error (node.mismatch "i64")

/-- Reads a value that may be missing: `null` stands for a missing one. -/
def Node.optional {α : Type} (take : Node → Except Report α) : Node → Except Report (Option α)
  | null _ => .ok none
  | node => do return some (← take node)

/-- Where an error of a value as a whole is placed: after blanks and the closing bracket,
if it follows. -/
def settle (input : Bytes) (closing : UInt8) (offset : Nat) : Nat :=
  let rest := input.drop offset
  let blanks := (rest.takeWhile isBlank).length
  if (rest.drop blanks).head? = some closing then offset + blanks + 1 else offset + blanks

/-- The octet `}`. -/
def closingBrace : UInt8 := 0x7D

/-- A member that a record knows: its name, and how its value goes into the record. -/
structure Field (ρ : Type) where
  name : String
  take : Node → ρ → Except Report ρ

/-- How a record is read into a `ρ`. -/
structure Schema (ρ : Type) where
  /-- What is expected, as a message puts it. -/
  expected : String
  /-- The record before any member is taken. -/
  empty : ρ
  fields : List (Field ρ)
  /-- How many of the fields, from the first on, must be there. -/
  required : Nat
  /-- Whether the record may be written as an array of its fields. -/
  positional : Bool
  /-- Takes a member that no field knows. -/
  other : String → Node → ρ → Except Report ρ

/-- Takes members in order, given the names of known members seen before: the names of
all known members seen, and the record. -/
def Schema.takeMembers {ρ : Type} (schema : Schema ρ) (input : Bytes) :
    (seen : List String) → ρ → List (Key × Node) → Except Report (List String × ρ)
  | seen, record, [] => .ok (seen, record)
  | seen, record, (key, node) :: rest => do
    let name ← key.read
    match schema.fields.find? (·.name = name) with
    | some field =>
      if name ∈ seen then
        throw ⟨.duplicateField name, settle input closingBrace key.stop⟩
      else
        let record ← field.take node record
        schema.takeMembers input (name :: seen) record rest
    | none =>
      let record ← schema.other name node record
      schema.takeMembers input seen record rest

/-- Takes items by the fields in order: the record, how many items were taken, and those
that are left when there are no more fields. -/
def takeItems {ρ : Type} :
    (taken : Nat) → ρ → List (Field ρ) → List Node → Except Report (ρ × Nat × List Node)
  | taken, record, field :: fields, node :: rest => do
    let record ← field.take node record
    takeItems (taken + 1) record fields rest
  | taken, record, _, rest => .ok (record, taken, rest)

/-- The end of an array all of whose fields have been taken: only its bracket may follow. -/
def endOfItems (rest : List Node) : Ending → Except Report Unit
  | ending =>
    match rest, ending with
    | node :: _, _ => .error ⟨.trailingCharacters, node.start + 1⟩
    | [], .closed _ => .ok ()
    | [], .broken fault =>
      if fault.reading.cause = .endInList ∨ fault.reading.cause = .trailingComma then
        .error fault.reading
      else .error ⟨.trailingCharacters, fault.reading.offset⟩

/-- Reads a record from the members of an object. -/
def Schema.readObject {ρ : Type} (schema : Schema ρ) (input : Bytes)
    (members : List (Key × Node)) (ending : Ending) : Except Report ρ := do
  let (seen, record) ← schema.takeMembers input [] schema.empty members
  let stop ← ending.stop
  match (schema.fields.take schema.required).find? (·.name ∉ seen) with
  | some field => throw ⟨.missingField field.name, stop⟩
  | none => return record

/-- Reads a record from an array of its fields. -/
def Schema.readArray {ρ : Type} (schema : Schema ρ) (items : List Node) (ending : Ending) :
    Except Report ρ := do
  let (record, taken, rest) ← takeItems 0 schema.empty schema.fields items
  if taken = schema.fields.length then
    endOfItems rest ending
    return record
  else
    let stop ← ending.stop
    if taken < schema.required then
      throw ⟨.tooFew taken
        (schema.expected ++ " with " ++ toString schema.fields.length ++ " elements"), stop⟩
    else return record

/-- Reads a record. -/
def Schema.read {ρ : Type} (schema : Schema ρ) (input : Bytes) (node : Node) :
    Except Report ρ :=
  match node with
  | .object _ members ending => schema.readObject input members ending
  | .array _ items ending =>
    if schema.positional then schema.readArray items ending
    else .error (node.mismatch schema.expected)
  | _ => .error (node.mismatch schema.expected)

/-- The record that a document holds. -/
def Schema.ofOctets {ρ : Type} (schema : Schema ρ) (input : Bytes) : Except Error ρ :=
  Document.read input (schema.read input)

end TokenVault.Json
