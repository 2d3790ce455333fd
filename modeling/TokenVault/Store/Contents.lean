import TokenVault.Credential
import TokenVault.SortedMap
import TokenVault.Text.Bytes

/-!
# What a store holds

A store holds one credential for each key.  Its file is an object with the keys as names
in ascending order; a file of nothing but blanks holds no credentials.
-/

namespace TokenVault

/-- The credentials of a store by key. -/
abbrev Contents := SortedMap Credential

namespace Contents

/-- The contents as a value. -/
def toValue (contents : Contents) : Json.Value :=
  .object (contents.entries.map fun e => (e.1, e.2.toValue))

/-- The contents as they stand in the file. -/
def octets (contents : Contents) : Bytes := contents.toValue.spread 0

/-- Reads the members of an object in order. -/
def readMembers (input : Bytes) : List (Json.Key × Json.Node) →
    Except Json.Report (List (String × Credential))
  | [] => .ok []
  | (key, node) :: rest => do
    let name ← key.read
    let credential ← Credential.schema.read input node
    return (name, credential) :: (← readMembers input rest)

/-- Reads contents.  Of several members with one key the last counts. -/
def read (input : Bytes) : Json.Node → Except Json.Report Contents
  | .object _ members ending => do
    let entries ← readMembers input members
    let _ ← ending.stop
    return SortedMap.ofList entries
  | node => .error (node.mismatch "a map")

/-- The contents that a file holds. -/
def ofOctets (input : Bytes) : Except Json.Error Contents :=
  if input.all Text.isBlankOctet then .ok .empty
  else Json.Document.read input (read input)

end Contents

end TokenVault
