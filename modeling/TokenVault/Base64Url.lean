import TokenVault.Text.Bytes

/-!
# Unpadded base64url

Three octets are written as four symbols of six bits each; a tail of one or two octets
takes two or three symbols whose unused low bits are zero.  Signatures cover the written
form, so every octet string has exactly one: the reader accepts nothing else and says
where a text departs from it.
-/

namespace TokenVault.Base64Url

/-- The octet `=`, which other dialects use as padding. -/
def padding : UInt8 := 0x3D

/-- The symbol for six bits: `A`–`Z`, `a`–`z`, `0`–`9`, `-` and `_` in this order. -/
def symbol (bits : UInt8) : UInt8 :=
  if bits < 26 then bits + 0x41
  else if bits < 52 then bits - 26 + 0x61
  else if bits < 62 then bits - 52 + 0x30
  else if bits = 62 then 0x2D
  else 0x5F

/-- The six bits that a symbol stands for; other octets stand for nothing. -/
def value? (octet : UInt8) : Option UInt8 :=
  if 0x41 ≤ octet ∧ octet ≤ 0x5A then some (octet - 0x41)
  else if 0x61 ≤ octet ∧ octet ≤ 0x7A then some (octet - 0x61 + 26)
  else if 0x30 ≤ octet ∧ octet ≤ 0x39 then some (octet - 0x30 + 52)
  else if octet = 0x2D then some 62
  else if octet = 0x5F then some 63
  else none

theorem value?_symbol (bits : UInt8) (h : bits < 64) : value? (symbol bits) = some bits := by
  have hall : ∀ n : Fin 256,
      UInt8.ofFin n < 64 → value? (symbol (UInt8.ofFin n)) = some (UInt8.ofFin n) := by
    decide +kernel
  exact hall bits.toFin h

theorem symbol_of_value? (octet bits : UInt8) (h : value? octet = some bits) :
    symbol bits = octet := by
  have hall : ∀ n : Fin 256, (value? (UInt8.ofFin n)).all fun v => symbol v = UInt8.ofFin n := by
    decide +kernel
  exact of_decide_eq_true ((Option.all_eq_true _ _).1 (hall octet.toFin) bits h)

/-- The symbols that spell an octet string. -/
def symbols : Bytes → Bytes
  | a :: b :: c :: rest =>
    symbol (a >>> 2) :: symbol ((a &&& 0x03) <<< 4 ||| b >>> 4) ::
      symbol ((b &&& 0x0F) <<< 2 ||| c >>> 6) :: symbol (c &&& 0x3F) :: symbols rest
  | [a, b] =>
    [symbol (a >>> 2), symbol ((a &&& 0x03) <<< 4 ||| b >>> 4), symbol ((b &&& 0x0F) <<< 2)]
  | [a] => [symbol (a >>> 2), symbol ((a &&& 0x03) <<< 4)]
  | [] => []

/-- The written form of an octet string. -/
def encode (bytes : Bytes) : String :=
  String.ofList ((symbols bytes).map fun octet => Char.ofNat octet.toNat)

/-- Why a text is not the written form of any octet string. -/
inductive Error
  /-- The octet at this place is no symbol of the alphabet. -/
  | foreignSymbol (offset : Nat) (octet : UInt8)
  /-- The last symbol sets bits that belong to no octet. -/
  | strayBits (offset : Nat) (octet : UInt8)
  /-- So many symbols cannot spell whole octets. -/
  | length (count : Nat)
  /-- The symbols are followed by padding, which this form does without. -/
  | padded
  deriving DecidableEq, Repr

/-- The wording of an error: octets and offsets in decimal. -/
def Error.message : Error → String
  | .foreignSymbol offset octet => s!"Invalid symbol {octet.toNat}, offset {offset}."
  | .strayBits offset octet => s!"Invalid last symbol {octet.toNat}, offset {offset}."
  | .length count => s!"Invalid input length: {count}"
  | .padded => "Invalid padding"

/-- The value of the symbol at `offset`. -/
def valueAt (offset : Nat) (octet : UInt8) : Except Error UInt8 :=
  match value? octet with
  | some bits => .ok bits
  | none => .error (.foreignSymbol offset octet)

/-- The three octets that four symbols spell. -/
def quadOctets (v w x y : UInt8) : Bytes :=
  [v <<< 2 ||| w >>> 4, w <<< 4 ||| x >>> 2, x <<< 6 ||| y]

/-- Reads the last group in order: its values and whether padding follows them.  Padding
at one of the first two places is a foreign symbol, and so is padding that a symbol
follows. -/
def tailValues (start : Nat) : (index : Nat) → (pad : Option Nat) → Bytes →
    Except Error (List UInt8 × Bool)
  | _, pad, [] => .ok ([], pad.isSome)
  | index, pad, octet :: rest =>
    if octet = padding then
      if index < 2 then .error (.foreignSymbol (start + index) octet)
      else tailValues start (index + 1) (pad.or (some index)) rest
    else match pad with
      | some first => .error (.foreignSymbol (start + first) padding)
      | none =>
        match valueAt (start + index) octet with
        | .error e => .error e
        | .ok bits =>
          match tailValues start (index + 1) none rest with
          | .error e => .error e
          | .ok (values, padded) => .ok (bits :: values, padded)

/-- The octets of a last group that begins at `start`, from its values. -/
def tailOctets (start : Nat) (padded : Bool) : List UInt8 → Except Error Bytes
  | [] => .error (.length start)
  | [_] => .error (.length (start + 1))
  | v :: w :: more =>
    if padded then .error .padded
    else match more with
      | [] =>
        if w &&& 0x0F = 0 then .ok [v <<< 2 ||| w >>> 4]
        else .error (.strayBits (start + 1) (symbol w))
      | [x] =>
        if x &&& 0x03 = 0 then .ok [v <<< 2 ||| w >>> 4, w <<< 4 ||| x >>> 2]
        else .error (.strayBits (start + 2) (symbol x))
      | x :: y :: _ => .ok (quadOctets v w x y)

/-- Reads the last group, of one to four symbols. -/
def decodeTail (start : Nat) (tail : Bytes) : Except Error Bytes :=
  match tailValues start 0 none tail with
  | .error e => .error e
  | .ok (values, padded) => tailOctets start padded values

/-- Reads the groups of four from `start` on.  A group that nothing follows is the last
one and is read by its own rules. -/
def decodeGroups (start : Nat) : Bytes → Except Error Bytes
  | a :: b :: c :: d :: e :: rest => do
    let v ← valueAt start a
    let w ← valueAt (start + 1) b
    let x ← valueAt (start + 2) c
    let y ← valueAt (start + 3) d
    let more ← decodeGroups (start + 4) (e :: rest)
    return quadOctets v w x y ++ more
  | [] => .ok []
  | tail => decodeTail start tail

/-- A lone symbol after the full groups is looked at first: an octet outside the alphabet
there, such as a line end, is reported as such before anything else. -/
def strayEnd? (octets : Bytes) : Option Error :=
  match octets.getLast? with
  | some last =>
    if octets.length % 4 = 1 ∧ last ≠ padding ∧ value? last = none then
      some (.foreignSymbol (octets.length - 1) last)
    else none
  | none => none

/-- The octets that a sequence of symbols spells. -/
def decodeOctets (octets : Bytes) : Except Error Bytes :=
  match strayEnd? octets with
  | some e => .error e
  | none => decodeGroups 0 octets

/-- The octet string of which `text` is the written form. -/
def decode (text : String) : Except Error Bytes :=
  decodeOctets (Bytes.ofText text)

example : encode [0xFB, 0xFF] = "-_8" := by decide +kernel

example : (decode "Zm9vYg").toOption = some [0x66, 0x6F, 0x6F, 0x62] := by decide +kernel

end TokenVault.Base64Url
