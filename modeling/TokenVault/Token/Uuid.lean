import TokenVault.Text.Bytes

/-!
# Random identifiers

An identifier is made from sixteen random octets, of which a few bits are overwritten to
mark it as random.  It is written in lower-case hexadecimal digits in five groups.
-/

namespace TokenVault

/-- A random identifier, of sixteen octets. -/
structure Uuid where
  octets : Bytes
  length_octets : octets.length = 16

namespace Uuid

/-- The identifier made from random octets; missing ones count as zero. -/
def ofRandom (random : Bytes) : Uuid where
  octets := (List.range 16).map fun i =>
    let octet := random.getD i 0
    if i = 6 then octet &&& 0x0F ||| 0x40
    else if i = 8 then octet &&& 0x3F ||| 0x80
    else octet
  length_octets := by simp

/-- The two hexadecimal digits of an octet. -/
def digits (octet : UInt8) : List Char :=
  [Nat.digitChar (octet.toNat / 16), Nat.digitChar (octet.toNat % 16)]

/-- Some octets in hexadecimal digits. -/
def group (octets : Bytes) (start length : Nat) : List Char :=
  ((octets.drop start).take length).flatMap digits

/-- The identifier as it is written. -/
def text (id : Uuid) : String :=
  String.ofList (group id.octets 0 4 ++ ['-'] ++ group id.octets 4 2 ++ ['-'] ++
    group id.octets 6 2 ++ ['-'] ++ group id.octets 8 2 ++ ['-'] ++ group id.octets 10 6)

/-- Whether a character is a lower-case hexadecimal digit. -/
def isDigit (c : Char) : Bool := c.isDigit || ('a' ≤ c && c ≤ 'f')

/-- Whether a text is a random identifier as it is written. -/
def isRandom (text : String) : Bool :=
  let chars := text.toList
  chars.length = 36 &&
    (chars.zipIdx.all fun (c, i) =>
      if i ∈ [8, 13, 18, 23] then c = '-'
      else if i = 14 then c = '4'
      else if i = 19 then c ∈ ['8', '9', 'a', 'b']
      else isDigit c)

example : isRandom (ofRandom [0xFF, 0x01]).text = true := by decide +kernel

end Uuid

end TokenVault
