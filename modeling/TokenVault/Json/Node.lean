import TokenVault.Json.Literal

/-!
# Documents as they are written

A `Node` is a value as it stands in a document: with its places, its literals
uninterpreted, its members in the order of writing, and broken off where the syntax is at
fault.  What a reader finds out of order before the fault is reported first, so a fault is
part of the tree and not an alternative to it.
-/

namespace TokenVault.Json

/-- How the list of items or members of a node ends. -/
inductive Ending
  /-- By its closing bracket; `stop` octets have been taken then. -/
  | closed (stop : Nat)
  /-- By a fault. -/
  | broken (fault : Fault)
  deriving DecidableEq

/-- The literal of a key: where its opening quote stands, and what is between the quotes. -/
structure Key where
  start : Nat
  raw : Bytes
  deriving DecidableEq

/-- How many octets have been taken after the key. -/
def Key.stop (key : Key) : Nat := key.start + key.raw.length + 2

/-- The text of a key. -/
def Key.read (key : Key) : Except Report String := Literal.read key.start key.raw

/-- A value as it is written, from the octet at `start` on. -/
inductive Node
  | null (start : Nat)
  | boolean (start : Nat) (value : Bool)
  | number (start : Nat) (raw : Bytes)
  | string (start : Nat) (raw : Bytes)
  | array (start : Nat) (items : List Node) (ending : Ending)
  | object (start : Nat) (members : List (Key × Node)) (ending : Ending)
  /-- A value that does not begin or breaks off before it is complete. -/
  | broken (start : Nat) (fault : Fault)

/-- Where a value stands. -/
def Node.start : Node → Nat
  | null start | boolean start _ | number start _ | string start _
  | array start _ _ | object start _ _ | broken start _ => start

/-- Passes over a value: only its syntax matters, whatever it holds. -/
def Node.skip : Node → Except Report Unit
  | array _ _ (.broken fault) | object _ _ (.broken fault) | broken _ fault =>
    .error fault.skipping
  | _ => .ok ()

/-- A document: its value, and the place of the first octet that is too many. -/
structure Document where
  root : Node
  excess : Option Nat

end TokenVault.Json
