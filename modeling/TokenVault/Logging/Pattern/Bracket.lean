import TokenVault.Logging.Pattern.Symbol

/-!
# Brackets of patterns

A bracket lists the characters that may stand at a place: single ones, ranges, named
classes and other brackets, combined by operators.  A bracket is read character by
character; what is kept of it is how deep its parts are nested.
-/

namespace TokenVault.Logging.Pattern

/-- The depth of parts that belong together.  A part alone is no deeper for it. -/
def nesting : List Nat → Nat
  | [] => 0
  | [depth] => depth
  | depths => depths.foldl max 0 + 1

theorem nesting_singleton (depth : Nat) : nesting [depth] = depth := rfl

/-- What may stand next in a bracket. -/
inductive Phase
  /-- A circumflex, or what may follow it. -/
  | opening
  /-- Dashes that stand for themselves, or a closing bracket that does. -/
  | dashes
  | body
  deriving DecidableEq, Repr

/-- A bracket that is not closed yet. -/
structure Bracket where
  phase : Phase
  /-- The depth of all that stands before the last operator. -/
  left : Option Nat
  /-- The depths of the members after it, last one first. -/
  members : List Nat
  deriving DecidableEq, Repr

namespace Bracket

/-- A bracket that has just been opened. -/
def start : Bracket := ⟨.opening, none, []⟩

/-- The bracket with one more member. -/
def add (bracket : Bracket) (depth : Nat) : Bracket :=
  { bracket with phase := .body, members := depth :: bracket.members }

/-- The depth of what a bracket holds. -/
def depth (bracket : Bracket) : Nat :=
  match bracket.left with
  | none => nesting bracket.members
  | some left => nesting [left, nesting bracket.members]

/-- The bracket after an operator. -/
def operate (bracket : Bracket) : Bracket := ⟨.body, some bracket.depth, []⟩

end Bracket

/-! ### Members -/

/-- Whether a symbol may be a member.  To find both cases of a character beyond octets, or
the characters of a kind, takes tables that are not at hand. -/
def Modes.admitsMember (modes : Modes) : Symbol → Bool
  | .character c => if modes.unicode then !modes.caseless else c.toNat < 0x80
  | .kind others => !modes.unicode && !others
  | .place => false
  | .wordBoundary => false

/-- Whether a named class, or all but its characters, may be a member. -/
def Modes.admitsClass (modes : Modes) (others : Bool) : Bool :=
  if modes.unicode then !modes.caseless else !others

/-- The character that decides whether a dash makes a range: the one after it.  Where
blanks do not count, it is the first one that is neither blank nor the first `#`. -/
def afterDash (modes : Modes) (rest : List Char) : Option Char :=
  if modes.spaced then
    let next := match rest.dropWhile Text.isBlank with
      | '#' :: rest => (rest.dropWhile Text.isBlank).head?
      | rest => rest.head?
    next.or rest.head?
  else rest.head?

/-- Reads a member that is a symbol or a range.  A range must not run backwards. -/
def readMember (modes : Modes) (input : List Char) : Option (List Char) :=
  match readSymbol modes input with
  | none => none
  | some (first, rest) =>
    if modes.admitsMember first then
      match modes.skip rest with
      | [] => none
      | c :: rest =>
        if c ≠ '-' ∨ afterDash modes rest ∈ [some ']', some '-'] then some (c :: rest)
        else
          match first, readSymbol modes (modes.skip rest) with
          | .character low, some (.character high, rest) =>
            if low ≤ high ∧ modes.admitsMember (.character high) then some rest else none
          | _, _ => none
    else none

/-- The names of classes. -/
def classNames : List String :=
  ["alnum", "alpha", "ascii", "blank", "cntrl", "digit", "graph", "lower", "print", "punct",
    "space", "upper", "word", "xdigit"]

/-- Reads the rest of a named class after its bracket.  A circumflex before the name means
all other characters. -/
def readClass (input : List Char) : Option (Bool × List Char) :=
  match input with
  | ':' :: rest =>
    let others : Bool := rest.head? = some '^'
    let named := rest.drop others.toNat
    match named.dropWhile (· ≠ ':') with
    | ':' :: ']' :: rest =>
      if String.ofList (named.takeWhile (· ≠ ':')) ∈ classNames then some (others, rest)
      else none
    | _ => none
  | _ => none

/-! ### Steps -/

/-- What comes of reading on in a bracket. -/
inductive Advance
  /-- The brackets that are open, innermost first. -/
  | inside (brackets : List Bracket)
  /-- The depth of the bracket that has been closed. -/
  | closed (depth : Nat)
  deriving DecidableEq, Repr

/-- Reads on in the body of a bracket that lies in others. -/
def Bracket.stepBody (modes : Modes) (inner : Bracket) (outer : List Bracket) (c : Char)
    (rest : List Char) : Option (Advance × List Char) :=
  if c = '[' then
    match readClass rest with
    | some (others, rest) =>
      if modes.admitsClass others then some (.inside (inner.add 0 :: outer), rest) else none
    | none => some (.inside (.start :: { inner with phase := .body } :: outer), rest)
  else if c = ']' then
    match outer with
    | [] => some (.closed (inner.depth + 1), rest)
    | next :: outer => some (.inside (next.add (inner.depth + 1) :: outer), rest)
  else if c ∈ ['&', '-', '~'] ∧ rest.head? = some c then
    some (.inside (inner.operate :: outer), rest.drop 1)
  else
    match readMember modes (c :: rest) with
    | some rest => some (.inside (inner.add 0 :: outer), rest)
    | none => none

/-- Reads on in a bracket that lies in others.  A pattern over octets cannot have all
characters but those of a bracket, since they would not be text. -/
def Bracket.step (modes : Modes) (inner : Bracket) (outer : List Bracket) (c : Char)
    (rest : List Char) : Option (Advance × List Char) :=
  if inner.phase = .opening ∧ c = '^' then
    if modes.unicode then some (.inside ({ inner with phase := .dashes } :: outer), rest)
    else none
  else if inner.phase ≠ .body ∧ (c = '-' ∨ c = ']' ∧ inner.members = []) then
    if modes.admitsMember (.character c) then
      let phase : Phase := if c = '-' then .dashes else .body
      some (.inside ({ inner.add 0 with phase } :: outer), rest)
    else none
  else inner.stepBody modes outer c rest

theorem readMember_suffix {modes : Modes} {c : Char} {input rest : List Char}
    (h : readMember modes (c :: input) = some rest) : rest <:+ input := by
  unfold readMember at h
  split at h
  · simp at h
  · rename_i first after hfirst
    have hafter := readSymbol_suffix hfirst
    have hskip := modes.skip_suffix after
    split at h
    · split at h
      · simp at h
      · rename_i d tail heq
        rw [heq] at hskip
        split at h
        · exact Option.some.inj h ▸ hskip.trans hafter
        · have htail := modes.skip_suffix tail
          split at h
          · rename_i hlast _
            split at h
            · obtain rfl := Option.some.inj h
              exact (((readSymbol_rest_suffix hlast).trans htail).trans
                (List.suffix_cons d tail)).trans (hskip.trans hafter)
            · simp at h
          · simp at h
    · simp at h

theorem readClass_suffix {others : Bool} {input rest : List Char}
    (h : readClass input = some (others, rest)) : rest <:+ input := by
  unfold readClass at h
  split at h
  · rename_i tail
    dsimp only at h
    split at h
    · rename_i after heq
      split at h
      · simp only [Option.some.injEq, Prod.mk.injEq] at h
        obtain ⟨-, rfl⟩ := h
        have hnamed := List.drop_suffix (decide (tail.head? = some '^')).toNat tail
        have hdrop := List.dropWhile_suffix (p := fun c => decide (c ≠ ':'))
          (l := tail.drop (decide (tail.head? = some '^')).toNat)
        rw [heq] at hdrop
        exact (List.IsSuffix.trans ⟨[':', ']'], rfl⟩ (hdrop.trans hnamed)).trans
          (List.suffix_cons ':' tail)
      · simp at h
    · simp at h
  · simp at h

theorem Bracket.stepBody_suffix {modes : Modes} {inner : Bracket} {outer : List Bracket}
    {c : Char} {input rest : List Char} {advance : Advance}
    (h : inner.stepBody modes outer c input = some (advance, rest)) : rest <:+ input := by
  unfold Bracket.stepBody at h
  have hmember := @readMember_suffix modes c input
  have hclass := @readClass_suffix
  have hdrop := List.drop_suffix 1 input
  have hrefl := List.suffix_refl input
  grind

theorem Bracket.step_suffix {modes : Modes} {inner : Bracket} {outer : List Bracket}
    {c : Char} {input rest : List Char} {advance : Advance}
    (h : inner.step modes outer c input = some (advance, rest)) : rest <:+ input := by
  unfold Bracket.step at h
  have hbody := @Bracket.stepBody_suffix modes inner outer c input rest advance
  have hrefl := List.suffix_refl input
  grind

end TokenVault.Logging.Pattern
