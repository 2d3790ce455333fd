import TokenVault.Json.Error

/-!
# String literals

Between its quotes a text stands as its UTF-8 octets, apart from quotes, backslashes and
control characters, which are escaped.  A reader also takes escapes that a writer does
not use, and pairs of escapes for the code points beyond U+FFFF; half of a pair alone has
no meaning.
-/

namespace TokenVault.Json.Literal

/-- The octet `"`. -/
def quote : UInt8 := 0x22

/-- The octet that starts an escape. -/
def backslash : UInt8 := 0x5C

/-- The octet after a backslash that announces four hexadecimal digits. -/
def numbered : UInt8 := 0x75

/-! ### Writing -/

/-- The hexadecimal digit for a value below 16. -/
def hexSymbol (value : UInt8) : UInt8 := if value < 10 then 0x30 + value else 0x57 + value

/-- How one octet of a text is written. -/
def escapeOctet (octet : UInt8) : Bytes :=
  if octet = quote then [backslash, quote]
  else if octet = backslash then [backslash, backslash]
  else if octet = 0x08 then [backslash, 0x62]
  else if octet = 0x0C then [backslash, 0x66]
  else if octet = 0x0A then [backslash, 0x6E]
  else if octet = 0x0D then [backslash, 0x72]
  else if octet = 0x09 then [backslash, 0x74]
  else if octet < 0x20 then
    [backslash, numbered, 0x30, 0x30, hexSymbol (octet / 16), hexSymbol (octet % 16)]
  else [octet]

/-- What stands between the quotes of a text. -/
def escape (text : String) : Bytes := (Bytes.ofText text).flatMap escapeOctet

/-- A text as a literal. -/
def write (text : String) : Bytes := quote :: escape text ++ [quote]

/-! ### Reading -/

/-- The octet that a backslash and this octet stand for. -/
def simpleEscape? (kind : UInt8) : Option UInt8 :=
  if kind = quote then some quote
  else if kind = backslash then some backslash
  else if kind = 0x2F then some 0x2F
  else if kind = 0x62 then some 0x08
  else if kind = 0x66 then some 0x0C
  else if kind = 0x6E then some 0x0A
  else if kind = 0x72 then some 0x0D
  else if kind = 0x74 then some 0x09
  else none

/-- The value of a hexadecimal digit, in either case. -/
def hexValue? (octet : UInt8) : Option Nat :=
  if 0x30 ≤ octet ∧ octet ≤ 0x39 then some (octet.toNat - 0x30)
  else if 0x61 ≤ octet ∧ octet ≤ 0x66 then some (octet.toNat - 0x57)
  else if 0x41 ≤ octet ∧ octet ≤ 0x46 then some (octet.toNat - 0x37)
  else none

/-- The number that four hexadecimal digits spell. -/
def unit? (a b c d : UInt8) : Option Nat := do
  return ((← hexValue? a) * 16 + (← hexValue? b)) * 256 + (← hexValue? c) * 16 + (← hexValue? d)

/-- Whether a unit is the first half of a pair. -/
def isLeading (unit : Nat) : Bool := 0xD800 ≤ unit && unit ≤ 0xDBFF

/-- Whether a unit is the second half of a pair. -/
def isTrailing (unit : Nat) : Bool := 0xDC00 ≤ unit && unit ≤ 0xDFFF

/-- The code point of a pair. -/
def paired (leading trailing : Nat) : Nat :=
  0x10000 + (leading - 0xD800) * 0x400 + (trailing - 0xDC00)

/-- The UTF-8 octets of a code point. -/
def codePoint (n : Nat) : Bytes := Bytes.ofText (Char.ofNat n).toString

/-- What the octets between two quotes stand for, up to the first octet of an escape that
is not complete.  `offset` is the place of the first octet, and `taken` holds the result so
far, last octet first.  `closed` tells whether a quote follows; after half of a pair it is
taken for the octet that breaks the pair off. -/
def unescape (closed : Bool) (offset : Nat) (taken : Bytes) : Bytes → Except Report Bytes
  | [] => .ok taken.reverse
  | octet :: rest =>
    if octet ≠ backslash then unescape closed (offset + 1) (octet :: taken) rest
    else match rest with
    | [] => .ok taken.reverse
    | kind :: rest =>
      match simpleEscape? kind with
      | some plain => unescape closed (offset + 2) (plain :: taken) rest
      | none =>
        match rest with
        | a :: b :: c :: d :: rest =>
          match unit? a b c d with
          | none => .ok taken.reverse
          | some unit =>
            if isTrailing unit then .error ⟨.loneSurrogate, offset + 6⟩
            else if !isLeading unit then
              unescape closed (offset + 6) ((codePoint unit).reverse ++ taken) rest
            else match rest with
            | [] => if closed then .error ⟨.surrogateEnd, offset + 7⟩ else .ok taken.reverse
            | next :: rest =>
              if next ≠ backslash then .error ⟨.surrogateEnd, offset + 7⟩
              else match rest with
              | [] => .ok taken.reverse
              | kind :: rest =>
                if kind ≠ numbered then .error ⟨.surrogateEnd, offset + 8⟩
                else match rest with
                | a :: b :: c :: d :: rest =>
                  match unit? a b c d with
                  | none => .ok taken.reverse
                  | some second =>
                    if !isTrailing second then .error ⟨.loneSurrogate, offset + 12⟩
                    else
                      unescape closed (offset + 12)
                        ((codePoint (paired unit second)).reverse ++ taken) rest
                | _ => .ok taken.reverse
        | _ => .ok taken.reverse

/-- The text of a complete literal whose opening quote stands at `start` and between whose
quotes stands `raw`.  If the octets that it stands for are no UTF-8, the place is counted
back from the end of the literal: as far as the first of them is from the end of the text. -/
def read (start : Nat) (raw : Bytes) : Except Report String := do
  let octets ← unescape true (start + 1) [] raw
  match Bytes.text? octets with
  | some text => return text
  | none =>
    let back := octets.length - Bytes.validLength octets
    throw ⟨.invalidCodePoint, start + raw.length + 2 - back⟩

/-- How a literal that broke off after `raw` is reported: half of a pair before that comes
first when the literal is read. -/
def broken (start : Nat) (raw : Bytes) (fault : Fault) : Fault :=
  match unescape false (start + 1) [] raw with
  | .ok _ => fault
  | .error report => { fault with reading := report }

example : write "a\"\n\x01é" =
    [0x22, 0x61, 0x5C, 0x22, 0x5C, 0x6E, 0x5C, 0x75, 0x30, 0x30, 0x30, 0x31, 0xC3, 0xA9, 0x22] := by
  decide +kernel

end TokenVault.Json.Literal
