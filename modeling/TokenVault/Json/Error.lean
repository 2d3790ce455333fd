import TokenVault.Json.Number
import TokenVault.Text.Printable

/-!
# What is wrong with a document

A cause and the place where it was noticed.  Some faults are put differently when the
value they lie in is skipped rather than read, so a `Fault` of the syntax keeps both
reports.
-/

namespace TokenVault.Json

/-- What a value turned out to be. -/
inductive Found
  | null
  | boolean (value : Bool)
  | number (value : Number)
  | string (value : String)
  | sequence
  | map
  deriving DecidableEq

/-- How a value that was found is described. -/
def Found.text : Found → String
  | null => "null"
  | boolean true => "boolean `true`"
  | boolean false => "boolean `false`"
  | number (.integer value h) => "integer `" ++ (Number.integer value h).text ++ "`"
  | number (.float value) => "floating point `" ++ (Number.float value).text ++ "`"
  | string value => "string " ++ Text.quoted value
  | sequence => "sequence"
  | map => "map"

/-- What is wrong. -/
inductive Cause
  | endInList
  | endInObject
  | endInString
  | endInValue
  | expectedColon
  | expectedListEnd
  | expectedObjectEnd
  | expectedWord
  | expectedValue
  | invalidEscape
  | invalidNumber
  | numberOutOfRange
  | invalidCodePoint
  | controlCharacter
  | keyNotString
  | loneSurrogate
  | surrogateEnd
  | trailingComma
  | trailingCharacters
  | tooDeep
  | missingField (name : String)
  | duplicateField (name : String)
  | mismatch (found : Found) (expected : String)
  | outOfRange (value : Int) (expected : String)
  | tooFew (count : Nat) (expected : String)
  | noVariant (type : String)
  deriving DecidableEq

/-- The wording of a cause. -/
def Cause.text : Cause → String
  | endInList => "EOF while parsing a list"
  | endInObject => "EOF while parsing an object"
  | endInString => "EOF while parsing a string"
  | endInValue => "EOF while parsing a value"
  | expectedColon => "expected `:`"
  | expectedListEnd => "expected `,` or `]`"
  | expectedObjectEnd => "expected `,` or `\x7d`"
  | expectedWord => "expected ident"
  | expectedValue => "expected value"
  | invalidEscape => "invalid escape"
  | invalidNumber => "invalid number"
  | numberOutOfRange => "number out of range"
  | invalidCodePoint => "invalid unicode code point"
  | controlCharacter => "control character (\\u0000-\\u001F) found while parsing a string"
  | keyNotString => "key must be a string"
  | loneSurrogate => "lone leading surrogate in hex escape"
  | surrogateEnd => "unexpected end of hex escape"
  | trailingComma => "trailing comma"
  | trailingCharacters => "trailing characters"
  | tooDeep => "recursion limit exceeded"
  | missingField name => "missing field `" ++ name ++ "`"
  | duplicateField name => "duplicate field `" ++ name ++ "`"
  | mismatch found expected => "invalid type: " ++ found.text ++ ", expected " ++ expected
  | outOfRange value expected =>
    "invalid value: integer `" ++ toString value ++ "`, expected " ++ expected
  | tooFew count expected =>
    "invalid length " ++ toString count ++ ", expected " ++ expected
  | noVariant type => "data did not match any variant of untagged enum " ++ type

/-- A cause, and how many octets had been taken when it was noticed. -/
structure Report where
  cause : Cause
  offset : Nat
  deriving DecidableEq

/-- A fault of the syntax: how it is reported when the value is read, and how when it is
skipped. -/
structure Fault where
  reading : Report
  skipping : Report
  deriving DecidableEq

/-- A fault that is reported in one way. -/
def Fault.plain (cause : Cause) (offset : Nat) : Fault := ⟨⟨cause, offset⟩, ⟨cause, offset⟩⟩

/-- A place in a document: lines count from one, columns from zero octets. -/
structure Position where
  line : Nat
  column : Nat
  deriving DecidableEq, Repr

/-- The place after so many octets. -/
def Position.after (input : Bytes) (offset : Nat) : Position :=
  let before := input.take offset
  ⟨before.count 0x0A + 1, (before.reverse.takeWhile (· ≠ 0x0A)).length⟩

/-- Why a document was refused, and where. -/
structure Error where
  cause : Cause
  position : Position
  deriving DecidableEq

/-- A report on a given document. -/
def Report.on (r : Report) (input : Bytes) : Error := ⟨r.cause, .after input r.offset⟩

/-- The wording of an error. -/
def Error.message (e : Error) : String :=
  e.cause.text ++ " at line " ++ toString e.position.line ++ " column " ++
    toString e.position.column

example : Position.after [0x61, 0x0A, 0x62, 0x63] 3 = ⟨2, 1⟩ := by decide

end TokenVault.Json
