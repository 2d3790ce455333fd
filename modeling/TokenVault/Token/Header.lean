import TokenVault.Algorithm
import TokenVault.Json.Print
import TokenVault.Json.Record

/-!
# Token headers

A header names the algorithm of the signature and says a little about the token.  The
name is kept as it was written: whether it stands for an algorithm is asked only when the
header is used.
-/

namespace TokenVault

/-- A token header. -/
structure Header where
  /-- The name of the algorithm. -/
  alg : String
  /-- The type of the token. -/
  typ : Option String
  /-- The key that the signature was made with. -/
  kid : Option String
  /-- The type of the content. -/
  cty : Option String
  deriving DecidableEq, Repr

namespace Header

/-- The header of a token under an algorithm with this name, known or not. -/
def named (alg : String) : Header := ⟨alg, some "JWT", none, none⟩

/-- The header of a token under an algorithm. -/
def ofAlgorithm (algorithm : Algorithm) : Header := named algorithm.name

/-- The header with a key id. -/
def withKeyId (header : Header) (kid : String) : Header := { header with kid := some kid }

/-- The header with a type. -/
def withType (header : Header) (typ : String) : Header := { header with typ := some typ }

/-- The header without a type. -/
def withoutType (header : Header) : Header := { header with typ := none }

/-- The header with a content type. -/
def withContentType (header : Header) (cty : String) : Header :=
  { header with cty := some cty }

/-- The algorithm that the header names. -/
def algorithm? (header : Header) : Option Algorithm := Algorithm.ofName? header.alg

/-- The members of the header in the order of writing. -/
def members (header : Header) : List (String × Json.Value) :=
  [("alg", .string header.alg)] ++ Json.optionalMember "typ" .string header.typ ++
    Json.optionalMember "kid" .string header.kid ++
    Json.optionalMember "cty" .string header.cty

/-- The header as it is written. -/
def octets (header : Header) : Bytes := (Json.Value.object header.members).compact

/-- The header as text. -/
def text (header : Header) : String := header.octets.display

/-- How a header is read. -/
def schema : Json.Schema Header where
  expected := "struct Header"
  empty := ⟨"", none, none, none⟩
  fields := [
    ⟨"alg", fun node header => do return { header with alg := ← node.text }⟩,
    ⟨"typ", fun node header => do
      return { header with typ := ← node.optional Json.Node.text }⟩,
    ⟨"kid", fun node header => do
      return { header with kid := ← node.optional Json.Node.text }⟩,
    ⟨"cty", fun node header => do
      return { header with cty := ← node.optional Json.Node.text }⟩]
  required := 1
  positional := true
  other _ node header := do
    node.skip
    return header

/-- The header that a document holds. -/
def ofOctets (input : Bytes) : Except Json.Error Header := schema.ofOctets input

end Header

end TokenVault
