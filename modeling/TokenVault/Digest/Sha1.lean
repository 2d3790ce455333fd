import TokenVault.Digest.Word

/-!
# SHA-1

Kept for protocols that mandate it.  Eighty rounds over five words; every digest has
twenty octets.
-/

namespace TokenVault.Digest.Sha1

/-- The five chaining words. -/
structure State where
  a : UInt32
  b : UInt32
  c : UInt32
  d : UInt32
  e : UInt32

/-- The chaining words before the first block. -/
def initial : State := ⟨0x67452301, 0xEFCDAB89, 0x98BADCFE, 0x10325476, 0xC3D2E1F0⟩

def rotateLeft (w : UInt32) (n : UInt32) : UInt32 := w <<< n ||| w >>> (32 - n)

/-- The mixing function and the constant of a round: choice, parity, majority, parity, for
twenty rounds each. -/
def mix (round : Nat) (b c d : UInt32) : UInt32 :=
  if round < 20 then (b &&& c ||| ~~~b &&& d) + 0x5A827999
  else if round < 40 then (b ^^^ c ^^^ d) + 0x6ED9EBA1
  else if round < 60 then (b &&& c ||| b &&& d ||| c &&& d) + 0x8F1BBCDC
  else (b ^^^ c ^^^ d) + 0xCA62C1D6

/-- One round.  The window holds the next sixteen schedule words, the current one first. -/
def step (s : State × List UInt32) (round : Nat) : State × List UInt32 :=
  let (⟨a, b, c, d, e⟩, window) := s
  let w := window.headD 0
  let next := rotateLeft
    (window.getD 13 0 ^^^ window.getD 8 0 ^^^ window.getD 2 0 ^^^ w) 1
  let t := rotateLeft a 5 + mix round b c d + e + w
  (⟨t, a, rotateLeft b 30, c, d⟩, window.tail ++ [next])

/-- Absorbs one block of sixteen words. -/
def absorb (s : State) (block : List UInt32) : State :=
  let (t, _) := (List.range 80).foldl step (s, block)
  ⟨s.a + t.a, s.b + t.b, s.c + t.c, s.d + t.d, s.e + t.e⟩

/-- The chaining words written out. -/
def State.octets (s : State) : Bytes := [s.a, s.b, s.c, s.d, s.e].flatMap octets32

/-- The SHA-1 digest of a message. -/
def hash (message : Bytes) : Bytes :=
  (foldBlocks absorb initial (words32 (pad 64 8 message))).octets

@[simp] theorem length_hash (message : Bytes) : (hash message).length = 20 := rfl

end TokenVault.Digest.Sha1
