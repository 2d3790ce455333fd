import TokenVault.Logging.Pattern.Symbol
import TokenVault.Text.Alphanumeric

/-!
# Openings of groups

A group begins with a parenthesis, after which may stand its name or a list of modes.  A
list of modes that is closed at once opens no group: it holds for the rest of the group
that it stands in.
-/

namespace TokenVault.Logging.Pattern

/-- What can be switched on and off in a pattern. -/
inductive Flag
  | caseless
  | lines
  | dotAll
  | swapGreed
  | unicode
  | carriageReturn
  | spaced
  deriving DecidableEq, Repr

/-- The flag that a letter names. -/
def Flag.ofLetter? : Char → Option Flag
  | 'i' => some caseless
  | 'm' => some lines
  | 's' => some dotAll
  | 'U' => some swapGreed
  | 'u' => some unicode
  | 'R' => some carriageReturn
  | 'x' => some spaced
  | _ => none

/-- The modes after a flag has been switched.  Only some flags are of matter for whether a
pattern makes sense. -/
def Modes.switch (modes : Modes) : Flag × Bool → Modes
  | (.caseless, on) => { modes with caseless := on }
  | (.unicode, on) => { modes with unicode := on }
  | (.spaced, on) => { modes with spaced := on }
  | _ => modes

/-- What stands after an opening parenthesis. -/
inductive Opening
  | group (modes : Modes)
  | named (name : List Char)
  /-- No group: modes for what follows. -/
  | modes (modes : Modes)
  deriving DecidableEq, Repr

/-- Where the reading of flags stands. -/
structure FlagList where
  /-- The flags so far, last one first. -/
  flags : List (Flag × Bool)
  /-- Whether flags are switched on, as they are before a dash. -/
  on : Bool
  /-- Whether a dash waits for a flag. -/
  dangling : Bool

/-- No flags yet. -/
def FlagList.start : FlagList := ⟨[], true, false⟩

/-- The list with one more letter, if it can stand there. -/
def FlagList.push (list : FlagList) (c : Char) : Option FlagList :=
  if c = '-' then if list.on then some ⟨list.flags, false, true⟩ else none
  else
    match Flag.ofLetter? c with
    | some flag =>
      if flag ∈ list.flags.map (·.1) then none
      else some ⟨(flag, list.on) :: list.flags, list.on, false⟩
    | none => none

/-- Reads flags up to a colon or a parenthesis. -/
def readFlags (modes : Modes) (list : FlagList) : List Char → Option (Opening × List Char)
  | [] => none
  | c :: rest =>
    if c = ':' ∨ c = ')' then
      if list.dangling then none
      else
        let modes := list.flags.foldr (fun flag modes => modes.switch flag) modes
        if c = ':' then some (.group modes, rest)
        else if list.flags = [] then none
        else some (.modes modes, rest)
    else
      match list.push c with
      | some list => readFlags modes list rest
      | none => none

/-- Whether a group may have a name. -/
def isGroupName : List Char → Bool
  | [] => false
  | c :: rest =>
    (c = '_' || Text.isAlphabetic c) &&
      rest.all fun c => c ∈ ['_', '.', '[', ']'] || Text.isAlphanumeric c

/-- Reads a name up to the angle bracket that closes it. -/
def readName (input : List Char) : Option (Opening × List Char) :=
  let name := input.takeWhile (· ≠ '>')
  if isGroupName name then
    match input.dropWhile (· ≠ '>') with
    | [] => none
    | _ :: rest => some (.named name, rest)
  else none

/-- Reads what stands after an opening parenthesis. -/
def readOpening (modes : Modes) (input : List Char) : Option (Opening × List Char) :=
  match modes.skip input with
  | '?' :: 'P' :: '<' :: rest => readName rest
  | '?' :: '<' :: rest => readName rest
  | '?' :: rest => readFlags modes .start rest
  | rest => some (.group modes, rest)

theorem readFlags_suffix {modes : Modes} {list : FlagList} {opening : Opening}
    {input rest : List Char} (h : readFlags modes list input = some (opening, rest)) :
    rest <:+ input := by
  induction input generalizing list with
  | nil => simp [readFlags] at h
  | cons c tail ih =>
    refine List.IsSuffix.trans ?_ (List.suffix_cons c tail)
    unfold readFlags at h
    grind

theorem readName_suffix {opening : Opening} {input rest : List Char}
    (h : readName input = some (opening, rest)) : rest <:+ input := by
  have hdrop := List.dropWhile_suffix (p := (· ≠ '>')) (l := input)
  unfold readName at h
  dsimp only at h
  split at h
  · split at h
    · simp at h
    · rename_i c tail heq
      simp only [Option.some.injEq, Prod.mk.injEq] at h
      rw [heq] at hdrop
      exact h.2 ▸ (List.suffix_cons c tail).trans hdrop
  · simp at h

theorem readOpening_suffix {modes : Modes} {opening : Opening} {input rest : List Char}
    (h : readOpening modes input = some (opening, rest)) : rest <:+ input := by
  refine List.IsSuffix.trans ?_ (modes.skip_suffix input)
  unfold readOpening at h
  split at h
  · rename_i heq
    rw [heq]
    exact (readName_suffix h).trans ⟨['?', 'P', '<'], rfl⟩
  · rename_i heq
    rw [heq]
    exact (readName_suffix h).trans ⟨['?', '<'], rfl⟩
  · rename_i heq
    rw [heq]
    exact (readFlags_suffix h).trans ⟨['?'], rfl⟩
  · simp only [Option.some.injEq, Prod.mk.injEq] at h
    exact h.2 ▸ List.suffix_refl _

example : readOpening .initial "?i-u:a)".toList = some (.group ⟨true, false, false⟩, ['a', ')']) ∧
    readOpening .initial "?)".toList = none := by decide +kernel

end TokenVault.Logging.Pattern
