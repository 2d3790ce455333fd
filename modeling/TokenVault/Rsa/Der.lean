import TokenVault.Text.Bytes

/-!
# Elements of key documents

Keys travel as nested elements: a tag, the length of the content, the content.  There is
one way to write each element.  The length takes the shortest of three forms, up to two
octets beyond the first, and a number takes no more octets than its sign needs.
-/

namespace TokenVault.Rsa

/-- The kinds of element that a key document is made of. -/
inductive Tag
  | integer
  | octetString
  | sequence
  /-- Attributes that may follow a private key. -/
  | attributes
  deriving DecidableEq, Repr

/-- The octet that announces an element. -/
def Tag.octet : Tag → UInt8
  | integer => 0x02
  | octetString => 0x04
  | sequence => 0x30
  | attributes => 0xA0

/-- Reads a length, in the shortest of its forms. -/
def length? : Bytes → Option (Nat × Bytes)
  | [] => none
  | first :: rest =>
    if first < 0x80 then some (first.toNat, rest)
    else match first, rest with
      | 0x81, a :: more => if 0x80 ≤ a then some (a.toNat, more) else none
      | 0x82, a :: b :: more => if a ≠ 0 then some (a.toNat * 256 + b.toNat, more) else none
      | _, _ => none

/-- Reads the element `tag`: its content and what follows it. -/
def element? (tag : Tag) : Bytes → Option (Bytes × Bytes)
  | [] => none
  | octet :: rest =>
    if octet = tag.octet then
      match length? rest with
      | some (length, more) =>
        if length ≤ more.length then some (more.take length, more.drop length) else none
      | none => none
    else none

/-- The octets of a number that an integer element holds, without the zero octet that
keeps a high first bit from reading as a sign.  Negative numbers and longer spellings are
refused; zero is a single zero octet. -/
def magnitude? : Bytes → Option Bytes
  | [] => none
  | [0] => some [0]
  | 0 :: second :: rest => if 0x80 ≤ second then some (second :: rest) else none
  | first :: rest => if first < 0x80 then some (first :: rest) else none

/-- Reads an integer element that is not negative: its octets and what follows. -/
def integer? (input : Bytes) : Option (Bytes × Bytes) := do
  let (content, rest) ← element? .integer input
  let octets ← magnitude? content
  return (octets, rest)

/-- Reads an integer element that is positive. -/
def positive? (input : Bytes) : Option (Bytes × Bytes) := do
  let (octets, rest) ← integer? input
  if octets.head? = some 0 then none else return (octets, rest)

/-- Reads a number below 256. -/
def small? (input : Bytes) : Option (UInt8 × Bytes) :=
  match integer? input with
  | some ([value], rest) => some (value, rest)
  | _ => none

/-- Writes a length in the shortest of its forms. -/
def writeLength (length : Nat) : Bytes :=
  if length < 0x80 then [UInt8.ofNat length]
  else if length < 0x100 then [0x81, UInt8.ofNat length]
  else [0x82, UInt8.ofNat (length / 256), UInt8.ofNat length]

/-- Writes an element. -/
def writeElement (tag : Tag) (content : Bytes) : Bytes :=
  tag.octet :: writeLength content.length ++ content

/-- Writes the number with these octets, which has no leading zero. -/
def writeInteger (octets : Bytes) : Bytes :=
  writeElement .integer
    (if 0x80 ≤ octets.headD 0 then 0 :: octets else octets)

example : element? .sequence [0x30, 0x81, 0x05, 1, 2, 3, 4, 5] = none := by decide

example : integer? (writeInteger [0x80, 0x01] ++ [7]) = some ([0x80, 0x01], [7]) := by decide

end TokenVault.Rsa
