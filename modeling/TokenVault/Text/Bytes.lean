/-!
# Bytes and text

Wire formats and files are lists of octets; names, claims and messages are Unicode
text.  `Bytes.ofText` gives the UTF-8 octets of a text and `Bytes.text?` reads them back.
The two are inverse to each other: `text?_ofText` and `ofText_of_text?`.
-/

namespace TokenVault

/-- A finite sequence of octets. -/
abbrev Bytes := List UInt8

namespace Bytes

/-- The UTF-8 octets of a text. -/
def ofText (text : String) : Bytes := text.toByteArray.data.toList

/-- The text whose UTF-8 octets these are, if they are well formed. -/
def text? (bytes : Bytes) : Option String := String.fromUTF8? ⟨bytes.toArray⟩

@[simp] theorem text?_ofText (text : String) : text? (ofText text) = some text := by
  simp [text?, ofText, String.fromUTF8?, text.isValidUTF8, String.fromUTF8]

theorem ofText_of_text? {bytes : Bytes} {text : String} (h : text? bytes = some text) :
    ofText text = bytes := by
  unfold text? String.fromUTF8? at h
  split at h
  · simp only [Option.some.injEq] at h
    subst h
    simp [ofText, String.fromUTF8]
  · simp at h

theorem text?_eq_some_iff {bytes : Bytes} {text : String} :
    text? bytes = some text ↔ bytes = ofText text := by
  constructor
  · intro h
    exact (ofText_of_text? h).symm
  · rintro rfl
    exact text?_ofText text

theorem ofText_injective {a b : String} (h : ofText a = ofText b) : a = b := by
  have hdecode := congrArg text? h
  simpa using hdecode

/-- The number that the octets denote when the first one is the most significant. -/
def toNat (bytes : Bytes) : Nat := bytes.foldl (fun acc b => acc * 256 + b.toNat) 0

/-- The last `width` base-256 digits of `n`, most significant first. -/
def ofNat : (width : Nat) → (n : Nat) → Bytes
  | 0, _ => []
  | width + 1, n => ofNat width (n / 256) ++ [UInt8.ofNat n]

@[simp] theorem length_ofNat (width n : Nat) : (ofNat width n).length = width := by
  induction width generalizing n with
  | zero => rfl
  | succ width ih => simp [ofNat, ih]

/-! ### Malformed UTF-8 -/

/-- How many octets a sequence that starts with `lead` has, and the range its second
octet must lie in.  Overlong forms, surrogates and values above U+10FFFF have no entry. -/
def leadRange (lead : UInt8) : Option (Nat × UInt8 × UInt8) :=
  if 0xC2 ≤ lead ∧ lead ≤ 0xDF then some (2, 0x80, 0xBF)
  else if lead = 0xE0 then some (3, 0xA0, 0xBF)
  else if lead = 0xED then some (3, 0x80, 0x9F)
  else if 0xE1 ≤ lead ∧ lead ≤ 0xEF then some (3, 0x80, 0xBF)
  else if lead = 0xF0 then some (4, 0x90, 0xBF)
  else if lead = 0xF4 then some (4, 0x80, 0x8F)
  else if 0xF1 ≤ lead ∧ lead ≤ 0xF3 then some (4, 0x80, 0xBF)
  else none

/-- How many of the following octets continue a sequence that still needs `needed`. -/
def continuations : (needed : Nat) → Bytes → Nat
  | needed + 1, b :: rest =>
    if 0x80 ≤ b ∧ b ≤ 0xBF then continuations needed rest + 1 else 0
  | _, _ => 0

/-- The extent of the sequence at the front of `lead :: rest`: whether it is complete, and
how many octets of `rest` belong to it.  A sequence that breaks off ends before the octet
that cannot continue it. -/
def sequence (lead : UInt8) (rest : Bytes) : Bool × Nat :=
  if lead < 0x80 then (true, 0)
  else match leadRange lead, rest with
    | some (width, low, high), second :: more =>
      if low ≤ second ∧ second ≤ high then
        let extra := continuations (width - 2) more
        (extra = width - 2, extra + 1)
      else (false, 0)
    | _, _ => (false, 0)

/-- The position of the first octet that starts no well-formed sequence, or the length of
the input when every octet belongs to one. -/
def validLength (bytes : Bytes) : Nat :=
  match bytes with
  | [] => 0
  | lead :: rest =>
    match sequence lead rest with
    | (true, extra) => validLength (rest.drop extra) + (extra + 1)
    | (false, _) => 0
termination_by bytes.length
decreasing_by simp only [List.length_drop, List.length_cons]; omega

/-- Replaces every maximal part of a malformed sequence by U+FFFD. -/
def repaired (bytes : Bytes) : Bytes :=
  match bytes with
  | [] => []
  | lead :: rest =>
    match sequence lead rest with
    | (true, extra) => lead :: rest.take extra ++ repaired (rest.drop extra)
    | (false, extra) => [0xEF, 0xBF, 0xBD] ++ repaired (rest.drop extra)
termination_by bytes.length
decreasing_by all_goals simp only [List.length_drop, List.length_cons]; omega

/-- The octets as text for a message: malformed parts show as U+FFFD. -/
def display (bytes : Bytes) : String :=
  (text? bytes).getD ((text? (repaired bytes)).getD "")

@[simp] theorem display_ofText (text : String) : display (ofText text) = text := by
  simp [display]

end Bytes

/-! ### Slices -/

/-- The text up to so many octets, if it has as many and they end with a character. -/
def textUpTo? (text : String) (octets : Nat) : Option String :=
  if h : String.Pos.Raw.IsValid text ⟨octets⟩ then some (text.sliceTo (text.pos ⟨octets⟩ h)).copy
  else none

theorem textUpTo?_append (a b : String) : textUpTo? (a ++ b) a.utf8ByteSize = some a := by
  have hvalid : String.Pos.Raw.IsValid (a ++ b) ⟨a.utf8ByteSize⟩ :=
    String.Pos.Raw.isValid_iff_exists_append.2 ⟨a, b, rfl, rfl⟩
  have hsplits : ((a ++ b).pos ⟨a.utf8ByteSize⟩ hvalid).Splits a b := ⟨rfl, rfl⟩
  rw [textUpTo?, dif_pos hvalid, (String.Pos.splits _).eq_left hsplits]

/-- What is cut off is the beginning of the text that has so many octets. -/
theorem textUpTo?_eq_some_iff {text front : String} {octets : Nat} :
    textUpTo? text octets = some front ↔
      front.utf8ByteSize = octets ∧ ∃ rest, text = front ++ rest := by
  constructor
  · intro h
    by_cases hvalid : String.Pos.Raw.IsValid text ⟨octets⟩
    · obtain ⟨a, b, rfl, hsize⟩ := String.Pos.Raw.isValid_iff_exists_append.1 hvalid
      obtain rfl : octets = a.utf8ByteSize := congrArg String.Pos.Raw.byteIdx hsize
      rw [textUpTo?_append] at h
      obtain rfl := Option.some.inj h
      exact ⟨rfl, b, rfl⟩
    · rw [textUpTo?, dif_neg hvalid] at h
      cases h
  · rintro ⟨rfl, rest, rfl⟩
    exact textUpTo?_append front rest

/-! ### Blanks

Two sets of blanks are in use: the white space of all scripts, and the five ASCII octets that
leave a file as good as empty. -/

namespace Text

/-- Whether a character is white space of any script. -/
def isBlank (c : Char) : Bool :=
  let n := c.toNat
  (0x09 ≤ n && n ≤ 0x0D) || n == 0x20 || n == 0x85 || n == 0xA0 || n == 0x1680 ||
    (0x2000 ≤ n && n ≤ 0x200A) || n == 0x2028 || n == 0x2029 || n == 0x202F ||
    n == 0x205F || n == 0x3000

theorem isBlank_of_isWhitespace {c : Char} (h : c.isWhitespace = true) :
    isBlank c = true := by
  simp only [Char.isWhitespace, Bool.or_eq_true, decide_eq_true_eq] at h
  rcases h with ((rfl | rfl) | rfl) | rfl <;> decide

/-- Whether an octet is an ASCII blank: space, tab, line feed, form feed or carriage
return. -/
def isBlankOctet (octet : UInt8) : Bool :=
  octet = 0x20 || octet = 0x09 || octet = 0x0A || octet = 0x0C || octet = 0x0D

end Text

end TokenVault
