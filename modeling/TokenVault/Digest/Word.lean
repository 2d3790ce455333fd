import TokenVault.Text.Bytes

/-!
# Padding and words

The hash functions of this family read a message in blocks of sixteen big-endian words.
Before that the message is closed by a single one bit, by zeros up to the end of a block,
and by its own length in bits.
-/

namespace TokenVault.Digest

/-- Closes a message for blocks of `block` octets whose last `width` octets hold the
message length in bits. -/
def pad (block width : Nat) (message : Bytes) : Bytes :=
  let used := (message.length + 1 + width) % block
  let zeros := (block - used) % block
  message ++ 0x80 :: List.replicate zeros 0 ++ Bytes.ofNat width (8 * message.length)

/-- Big-endian words of four octets; an incomplete last group is dropped. -/
def words32 : Bytes → List UInt32
  | a :: b :: c :: d :: rest =>
    (a.toUInt32 <<< 24 ||| b.toUInt32 <<< 16 ||| c.toUInt32 <<< 8 ||| d.toUInt32) ::
      words32 rest
  | _ => []

/-- Big-endian words of eight octets; an incomplete last group is dropped. -/
def words64 : Bytes → List UInt64
  | a :: b :: c :: d :: e :: f :: g :: h :: rest =>
    (a.toUInt64 <<< 56 ||| b.toUInt64 <<< 48 ||| c.toUInt64 <<< 40 ||| d.toUInt64 <<< 32 |||
      e.toUInt64 <<< 24 ||| f.toUInt64 <<< 16 ||| g.toUInt64 <<< 8 ||| h.toUInt64) ::
      words64 rest
  | _ => []

/-- The four octets of a word. -/
def octets32 (w : UInt32) : Bytes :=
  [(w >>> 24).toUInt8, (w >>> 16).toUInt8, (w >>> 8).toUInt8, w.toUInt8]

/-- The eight octets of a word. -/
def octets64 (w : UInt64) : Bytes :=
  [(w >>> 56).toUInt8, (w >>> 48).toUInt8, (w >>> 40).toUInt8, (w >>> 32).toUInt8,
    (w >>> 24).toUInt8, (w >>> 16).toUInt8, (w >>> 8).toUInt8, w.toUInt8]

@[simp] theorem length_octets32 (w : UInt32) : (octets32 w).length = 4 := rfl

@[simp] theorem length_octets64 (w : UInt64) : (octets64 w).length = 8 := rfl

/-- Runs `absorb` over the complete blocks of sixteen words, in order. -/
def foldBlocks {σ w : Type} (absorb : σ → List w → σ) : σ → List w → σ
  | s, w₀ :: w₁ :: w₂ :: w₃ :: w₄ :: w₅ :: w₆ :: w₇ ::
      w₈ :: w₉ :: w₁₀ :: w₁₁ :: w₁₂ :: w₁₃ :: w₁₄ :: w₁₅ :: rest =>
    foldBlocks absorb
      (absorb s [w₀, w₁, w₂, w₃, w₄, w₅, w₆, w₇, w₈, w₉, w₁₀, w₁₁, w₁₂, w₁₃, w₁₄, w₁₅]) rest
  | s, _ => s

end TokenVault.Digest
