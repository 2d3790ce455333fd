import TokenVault.Json.Print
import TokenVault.Json.Scan

/-!
# The grammar of documents

What a document is, apart from any reader.  A `Tree` is a value as it is written, without the
blanks; `Tree.Written` says which octets spell it, `Tree.Document` which documents hold it, and
`Tree.Denotes` which value it stands for.  Literals are part of a tree only if they are well
formed, so a tree can always be written.
-/

namespace TokenVault.Json

/-! ### String literals -/

namespace Literal

/-- Whether an octet stands for itself between quotes. -/
def Plain (octet : UInt8) : Prop := octet ≠ quote ∧ octet ≠ backslash ∧ 0x20 ≤ octet

instance (octet : UInt8) : Decidable (Plain octet) :=
  inferInstanceAs (Decidable (octet ≠ quote ∧ octet ≠ backslash ∧ 0x20 ≤ octet))

/-- Whether octets may stand between two quotes. -/
inductive Form : Bytes → Prop
  | nil : Form []
  | plain {octet : UInt8} {rest : Bytes} : Plain octet → Form rest → Form (octet :: rest)
  | escape {kind octet : UInt8} {rest : Bytes} : simpleEscape? kind = some octet → Form rest →
      Form (backslash :: kind :: rest)
  | unit {a b c d : UInt8} {n : Nat} {rest : Bytes} : unit? a b c d = some n → Form rest →
      Form (backslash :: numbered :: a :: b :: c :: d :: rest)

/-- Whether what stands between two quotes stands for these octets.  Half of a pair alone stands
for nothing. -/
inductive StandsFor : Bytes → Bytes → Prop
  | nil : StandsFor [] []
  | plain {octet : UInt8} {raw octets : Bytes} : Plain octet → StandsFor raw octets →
      StandsFor (octet :: raw) (octet :: octets)
  | escape {kind octet : UInt8} {raw octets : Bytes} : simpleEscape? kind = some octet →
      StandsFor raw octets → StandsFor (backslash :: kind :: raw) (octet :: octets)
  | unit {a b c d : UInt8} {n : Nat} {raw octets : Bytes} : unit? a b c d = some n →
      isLeading n = false → isTrailing n = false → StandsFor raw octets →
        StandsFor (backslash :: numbered :: a :: b :: c :: d :: raw) (codePoint n ++ octets)
  | pair {a b c d a' b' c' d' : UInt8} {high low : Nat} {raw octets : Bytes} :
      unit? a b c d = some high → isLeading high = true → unit? a' b' c' d' = some low →
        isTrailing low = true → StandsFor raw octets →
          StandsFor (backslash :: numbered :: a :: b :: c :: d ::
              backslash :: numbered :: a' :: b' :: c' :: d' :: raw)
            (codePoint (paired high low) ++ octets)

end Literal

/-- A string literal without its quotes. -/
structure StringLiteral where
  raw : Bytes
  form : Literal.Form raw

/-- Whether a string literal stands for a text. -/
def StringLiteral.Denotes (literal : StringLiteral) (text : String) : Prop :=
  Literal.StandsFor literal.raw (Bytes.ofText text)

/-! ### Numbers -/

namespace Number

/-- Digits, of which there is one at least. -/
def Digits (octets : Bytes) : Prop := octets ≠ [] ∧ ∀ octet ∈ octets, isDigit octet = true

/-- The digits before the point: a zero does not come before others. -/
def Whole (octets : Bytes) : Prop := Digits octets ∧ (octets.head? = some 0x30 → octets = [0x30])

/-- The point and the digits after it, if they are there. -/
def Fraction (octets : Bytes) : Prop :=
  octets = [] ∨ ∃ digits, octets = 0x2E :: digits ∧ Digits digits

/-- The mark of an exponent, its sign and its digits, if they are there. -/
def Exponent (octets : Bytes) : Prop :=
  octets = [] ∨ ∃ mark sign digits, octets = mark :: (sign ++ digits) ∧
    (mark = 0x65 ∨ mark = 0x45) ∧ (sign = [] ∨ sign = [0x2B] ∨ sign = [0x2D]) ∧ Digits digits

/-- Whether octets are a number. -/
def Form (raw : Bytes) : Prop :=
  ∃ sign whole fraction exponent, raw = sign ++ (whole ++ (fraction ++ exponent)) ∧
    (sign = [] ∨ sign = [0x2D]) ∧ Whole whole ∧ Fraction fraction ∧ Exponent exponent

end Number

/-- A number as it is written. -/
structure NumberLiteral where
  raw : Bytes
  form : Number.Form raw

/-! ### Trees -/

/-- A value as it is written, without the blanks. -/
inductive Tree
  | null
  | boolean (value : Bool)
  | number (literal : NumberLiteral)
  | string (literal : StringLiteral)
  | array (items : List Tree)
  | object (members : List (StringLiteral × Tree))

/-- Whether there are only blanks. -/
def Blanks (octets : Bytes) : Prop := ∀ octet ∈ octets, isBlank octet = true

/-- Octets between two quotes. -/
def quoted (raw : Bytes) : Bytes := Literal.quote :: (raw ++ [Literal.quote])

mutual

/-- Whether octets spell a tree, with whatever blanks between its parts. -/
def Tree.Written : Tree → Bytes → Prop
  | .null, octets => octets = Value.null.compact
  | .boolean b, octets => octets = (Value.boolean b).compact
  | .number literal, octets => octets = literal.raw
  | .string literal, octets => octets = quoted literal.raw
  | .array items, octets => ∃ inner, octets = 0x5B :: (inner ++ [0x5D]) ∧ ItemsWritten items inner
  | .object members, octets =>
    ∃ inner, octets = 0x7B :: (inner ++ [0x7D]) ∧ MembersWritten members inner

/-- Whether octets spell items, with commas between them. -/
def ItemsWritten : List Tree → Bytes → Prop
  | [], octets => Blanks octets
  | item :: rest, octets =>
    ∃ before text after tail, octets = before ++ (text ++ (after ++ tail)) ∧
      Blanks before ∧ item.Written text ∧ Blanks after ∧
        (rest = [] ∧ tail = [] ∨
          rest ≠ [] ∧ ∃ others, tail = 0x2C :: others ∧ ItemsWritten rest others)

/-- Whether octets spell members, with commas between them. -/
def MembersWritten : List (StringLiteral × Tree) → Bytes → Prop
  | [], octets => Blanks octets
  | (key, value) :: rest, octets =>
    ∃ before gap space text after tail,
      octets = before ++ (quoted key.raw ++ (gap ++ 0x3A :: (space ++ (text ++ (after ++ tail))))) ∧
        Blanks before ∧ Blanks gap ∧ Blanks space ∧ value.Written text ∧ Blanks after ∧
          (rest = [] ∧ tail = [] ∨
            rest ≠ [] ∧ ∃ others, tail = 0x2C :: others ∧ MembersWritten rest others)

end

/-- Whether a document holds a tree: blanks may stand around it. -/
def Tree.Document (tree : Tree) (input : Bytes) : Prop :=
  ∃ before text after, input = before ++ (text ++ after) ∧ Blanks before ∧ tree.Written text ∧
    Blanks after

/-! ### What a tree stands for -/

mutual

/-- Whether a tree stands for a value.  Of several members with one name the last counts. -/
def Tree.Denotes : Tree → Value → Prop
  | .null, .null => True
  | .boolean b, .boolean c => b = c
  | .number literal, .number n => Number.ofOctets literal.raw = .ok n
  | .string literal, .string text => literal.Denotes text
  | .array items, .array values => ItemsDenote items values
  | .object members, .object entries =>
    ∃ named, MembersDenote members named ∧ entries = (SortedMap.ofList named).entries
  | _, _ => False

/-- Whether items stand for values one by one. -/
def ItemsDenote : List Tree → List Value → Prop
  | [], [] => True
  | item :: items, value :: values => item.Denotes value ∧ ItemsDenote items values
  | _, _ => False

/-- Whether members stand for names and values one by one. -/
def MembersDenote : List (StringLiteral × Tree) → List (String × Value) → Prop
  | [], [] => True
  | (key, item) :: members, (name, value) :: named =>
    key.Denotes name ∧ item.Denotes value ∧ MembersDenote members named
  | _, _ => False

end

mutual

/-- How many arrays and objects lie within each other, the outermost counted. -/
def Tree.depth : Tree → Nat
  | .array items => depthOfItems items + 1
  | .object members => depthOfMembers members + 1
  | .null | .boolean _ | .number _ | .string _ => 0

/-- The depth of the deepest item. -/
def depthOfItems : List Tree → Nat
  | [] => 0
  | item :: rest => max item.depth (depthOfItems rest)

/-- The depth of the deepest value of a member. -/
def depthOfMembers : List (StringLiteral × Tree) → Nat
  | [] => 0
  | (_, value) :: rest => max value.depth (depthOfMembers rest)

end

mutual

/-- Whether no number in a tree is read as a floating-point number. -/
def Tree.FloatFree : Tree → Prop
  | .number literal => ∀ x, Number.ofOctets literal.raw ≠ .ok (.float x)
  | .array items => FloatFreeTrees items
  | .object members => FloatFreeNamed members
  | .null | .boolean _ | .string _ => True

/-- Whether no number in an item is read as a floating-point number. -/
def FloatFreeTrees : List Tree → Prop
  | [] => True
  | item :: rest => item.FloatFree ∧ FloatFreeTrees rest

/-- Whether no number in the value of a member is read as a floating-point number. -/
def FloatFreeNamed : List (StringLiteral × Tree) → Prop
  | [] => True
  | (_, value) :: rest => value.FloatFree ∧ FloatFreeNamed rest

end

/-! ### Nodes -/

mutual

/-- Whether a node is complete and holds a tree. -/
def Tree.ScannedAs : Tree → Node → Prop
  | .null, .null _ => True
  | .boolean b, .boolean _ c => c = b
  | .number literal, .number _ raw => raw = literal.raw
  | .string literal, .string _ raw => raw = literal.raw
  | .array items, .array _ nodes (.closed _) => ItemsScannedAs items nodes
  | .object members, .object _ nodes (.closed _) => MembersScannedAs members nodes
  | _, _ => False

/-- Whether nodes hold items one by one. -/
def ItemsScannedAs : List Tree → List Node → Prop
  | [], [] => True
  | item :: items, node :: nodes => item.ScannedAs node ∧ ItemsScannedAs items nodes
  | _, _ => False

/-- Whether keys and nodes hold members one by one. -/
def MembersScannedAs : List (StringLiteral × Tree) → List (Key × Node) → Prop
  | [], [] => True
  | (literal, value) :: members, (key, node) :: nodes =>
    key.raw = literal.raw ∧ value.ScannedAs node ∧ MembersScannedAs members nodes
  | _, _ => False

end

namespace Tree.ScannedAs

variable {node : Node}

theorem null (h : Tree.null.ScannedAs node) : ∃ start, node = .null start := by
  cases node with
  | null start => exact ⟨start, rfl⟩
  | boolean | number | string | array | object | broken => exact h.elim

theorem boolean {b : Bool} (h : (Tree.boolean b).ScannedAs node) :
    ∃ start, node = .boolean start b := by
  cases node with
  | boolean start c => exact ⟨start, congrArg _ h⟩
  | null | number | string | array | object | broken => exact h.elim

theorem number {literal : NumberLiteral} (h : (Tree.number literal).ScannedAs node) :
    ∃ start, node = .number start literal.raw := by
  cases node with
  | number start raw => exact ⟨start, congrArg _ h⟩
  | null | boolean | string | array | object | broken => exact h.elim

theorem string {literal : StringLiteral} (h : (Tree.string literal).ScannedAs node) :
    ∃ start, node = .string start literal.raw := by
  cases node with
  | string start raw => exact ⟨start, congrArg _ h⟩
  | null | boolean | number | array | object | broken => exact h.elim

theorem array {items : List Tree} (h : (Tree.array items).ScannedAs node) :
    ∃ start nodes stop, node = .array start nodes (.closed stop) ∧ ItemsScannedAs items nodes := by
  cases node with
  | array start nodes ending =>
    cases ending with
    | closed stop => exact ⟨start, nodes, stop, rfl, h⟩
    | broken fault => exact h.elim
  | null | boolean | number | string | object | broken => exact h.elim

theorem object {members : List (StringLiteral × Tree)} (h : (Tree.object members).ScannedAs node) :
    ∃ start nodes stop, node = .object start nodes (.closed stop) ∧
      MembersScannedAs members nodes := by
  cases node with
  | object start nodes ending =>
    cases ending with
    | closed stop => exact ⟨start, nodes, stop, rfl, h⟩
    | broken fault => exact h.elim
  | null | boolean | number | string | array | broken => exact h.elim

end Tree.ScannedAs

end TokenVault.Json
