import TokenVault.Text.Bytes

/-!
# Symbols of patterns

A pattern is a regular expression over characters.  Its symbols are the characters that
stand for themselves and the escapes.  The modes that are on where a symbol stands say
what it means.  A reader returns what is left of its input, which is an end of it.
-/

namespace TokenVault.Logging.Pattern

/-- How a part of a pattern is read. -/
structure Modes where
  /-- Letters stand for both of their cases. -/
  caseless : Bool
  /-- The pattern speaks of characters and not of octets. -/
  unicode : Bool
  /-- Blanks and comments between symbols do not count. -/
  spaced : Bool
  deriving DecidableEq, Repr

/-- The modes that a pattern starts with. -/
def Modes.initial : Modes := ⟨false, true, false⟩

/-! ### Blanks -/

/-- Drops blanks and comments, which run from `#` to the end of a line.  `comment` tells
whether the input begins within a comment. -/
def skipBlanks (comment : Bool) : List Char → List Char
  | [] => []
  | c :: rest =>
    if comment then skipBlanks (c ≠ '\n') rest
    else if Text.isBlank c then skipBlanks false rest
    else if c = '#' then skipBlanks true rest
    else c :: rest

/-- Drops what does not count before the next symbol. -/
def Modes.skip (modes : Modes) (input : List Char) : List Char :=
  if modes.spaced then skipBlanks false input else input

theorem skipBlanks_suffix (comment : Bool) (input : List Char) :
    skipBlanks comment input <:+ input := by
  induction input generalizing comment with
  | nil => exact List.suffix_refl _
  | cons c rest ih =>
    unfold skipBlanks
    repeat' split
    all_goals first
      | exact List.suffix_refl _
      | exact (ih _).trans (List.suffix_cons c rest)

theorem Modes.skip_suffix (modes : Modes) (input : List Char) :
    modes.skip input <:+ input := by
  unfold Modes.skip
  split
  · exact skipBlanks_suffix _ _
  · exact List.suffix_refl _

/-! ### Escapes -/

/-- What a symbol stands for. -/
inductive Symbol
  | character (c : Char)
  /-- A place in the text, such as its end. -/
  | place
  /-- A place where a word begins or ends, or does not. -/
  | wordBoundary
  /-- The digits, blanks or word characters, or all others. -/
  | kind (others : Bool)
  deriving DecidableEq, Repr

/-- The value of a hexadecimal digit. -/
def hexDigit? (c : Char) : Option Nat :=
  if '0' ≤ c ∧ c ≤ '9' then some (c.toNat - '0'.toNat)
  else if 'a' ≤ c ∧ c ≤ 'f' then some (c.toNat - 'a'.toNat + 10)
  else if 'A' ≤ c ∧ c ≤ 'F' then some (c.toNat - 'A'.toNat + 10)
  else none

/-- Reads so many hexadecimal digits after a value. -/
def readHex (modes : Modes) : Nat → Nat → List Char → Option (Nat × List Char)
  | 0, value, input => some (value, input)
  | count + 1, value, input =>
    match modes.skip input with
    | [] => none
    | c :: rest => (hexDigit? c).bind fun digit => readHex modes count (value * 16 + digit) rest

/-- How many digits follow a letter that announces a code point. -/
def hexCount? : Char → Option Nat
  | 'x' => some 2
  | 'u' => some 4
  | 'U' => some 8
  | _ => none

/-- Whether a number is a code point that an escape may name.  A pattern over octets
has no names for octets that are not ASCII. -/
def Modes.admits (modes : Modes) (count value : Nat) : Bool :=
  Nat.isValidChar value && (modes.unicode || count ≠ 2 || value < 0x80)

/-- The symbol for an escaped letter: none for one that has no meaning, or one that takes
tables of characters. -/
def letter? : Char → Option Symbol
  | 'a' => some (.character '\x07')
  | 'f' => some (.character '\x0c')
  | 't' => some (.character '\t')
  | 'n' => some (.character '\n')
  | 'r' => some (.character '\r')
  | 'v' => some (.character '\x0b')
  | 'A' => some .place
  | 'z' => some .place
  | 'b' => some .wordBoundary
  | 'B' => some .wordBoundary
  | '<' => some .wordBoundary
  | '>' => some .wordBoundary
  | 'd' => some (.kind false)
  | 's' => some (.kind false)
  | 'w' => some (.kind false)
  | 'D' => some (.kind true)
  | 'S' => some (.kind true)
  | 'W' => some (.kind true)
  | _ => none

/-- Reads an escape after its backslash.  Other ASCII characters than letters and digits
stand for themselves. -/
def readEscape (modes : Modes) : List Char → Option (Symbol × List Char)
  | [] => none
  | c :: rest =>
    match hexCount? c with
    | some count =>
      match readHex modes count 0 rest with
      | some (value, rest) =>
        if modes.admits count value then some (.character (Char.ofNat value), rest) else none
      | none => none
    | none =>
      match letter? c with
      | some symbol => some (symbol, rest)
      | none =>
        if c.isAlphanum || 0x80 ≤ c.toNat then none else some (.character c, rest)

/-- Reads a symbol. -/
def readSymbol (modes : Modes) : List Char → Option (Symbol × List Char)
  | [] => none
  | c :: rest => if c = '\\' then readEscape modes rest else some (.character c, rest)

theorem readHex_suffix {modes : Modes} {count value n : Nat} {input rest : List Char}
    (h : readHex modes count value input = some (n, rest)) : rest <:+ input := by
  induction count generalizing value input with
  | zero =>
    simp only [readHex, Option.some.injEq, Prod.mk.injEq] at h
    exact h.2 ▸ List.suffix_refl _
  | succ count ih =>
    have hskip := modes.skip_suffix input
    unfold readHex at h
    split at h
    · simp at h
    · rename_i c tail heq
      obtain ⟨digit, _, hread⟩ := Option.bind_eq_some_iff.1 h
      rw [heq] at hskip
      exact ((ih hread).trans (List.suffix_cons c tail)).trans hskip

theorem readEscape_suffix {modes : Modes} {symbol : Symbol} {input rest : List Char}
    (h : readEscape modes input = some (symbol, rest)) : rest <:+ input := by
  cases input with
  | nil => simp [readEscape] at h
  | cons c tail =>
    refine List.IsSuffix.trans ?_ (List.suffix_cons c tail)
    simp only [readEscape] at h
    split at h
    · split at h
      · have hread := readHex_suffix ‹_›
        grind
      · simp at h
    · grind

/-- A symbol takes at least one character. -/
theorem readSymbol_suffix {modes : Modes} {symbol : Symbol} {c : Char}
    {input rest : List Char} (h : readSymbol modes (c :: input) = some (symbol, rest)) :
    rest <:+ input := by
  simp only [readSymbol] at h
  split at h
  · exact readEscape_suffix h
  · simp only [Option.some.injEq, Prod.mk.injEq] at h
    exact h.2 ▸ List.suffix_refl _

theorem readSymbol_rest_suffix {modes : Modes} {symbol : Symbol} {input rest : List Char}
    (h : readSymbol modes input = some (symbol, rest)) : rest <:+ input := by
  cases input with
  | nil => simp [readSymbol] at h
  | cons c tail => exact (readSymbol_suffix h).trans (List.suffix_cons c tail)

example : (readSymbol .initial ['\\', 'u', '0', '0', 'e', '9', '*']) =
    some (.character 'é', ['*']) := by decide +kernel

end TokenVault.Logging.Pattern
