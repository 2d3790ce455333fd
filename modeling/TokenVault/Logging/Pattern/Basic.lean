import TokenVault.Logging.Pattern.Bracket
import TokenVault.Logging.Pattern.Group

/-!
# Patterns

The values that a filter asks for are patterns.  Here a pattern is not matched, it is only
found out whether it makes sense: it is read symbol by symbol, and what is kept of its
parts is how deep they are nested and whether they may be repeated.
-/

namespace TokenVault.Logging.Pattern

/-- Why a pattern is refused. -/
inductive Fault
  | malformed
  /-- The words of all scripts have no boundaries that can be found. -/
  | wordBoundary
  deriving DecidableEq, Repr

/-- The wording of a refusal. -/
def Fault.message : Fault → String
  | malformed => "error building NFA"
  | wordBoundary => "unsupported regex feature for DFAs: cannot build DFAs for regexes with " ++
      "Unicode word boundaries; switch to ASCII word boundaries, or heuristically enable " ++
      "Unicode word boundaries or use a different regex engine"

/-- A part of a pattern. -/
structure Part where
  depth : Nat
  repeatable : Bool
  deriving DecidableEq, Repr

/-- A group that is not closed yet, or the whole pattern. -/
structure Group where
  modes : Modes
  /-- The depths of the alternatives before the present one. -/
  earlier : List Nat
  /-- The parts of the present alternative, last one first. -/
  parts : List Part
  deriving DecidableEq, Repr

namespace Group

/-- A group without parts. -/
def start (modes : Modes) : Group := ⟨modes, [], []⟩

/-- The group with one more part. -/
def add (group : Group) (part : Part) : Group := { group with parts := part :: group.parts }

/-- The depths of all alternatives. -/
def alternatives (group : Group) : List Nat :=
  nesting (group.parts.map (·.depth)) :: group.earlier

/-- The depth of what a group holds. -/
def depth (group : Group) : Nat := nesting group.alternatives

/-- The group with a new alternative. -/
def alternate (group : Group) : Group := ⟨group.modes, group.alternatives, []⟩

/-- The group with its last part repeated. -/
def repeatLast (group : Group) : Option Group :=
  match group.parts with
  | ⟨depth, true⟩ :: parts => some { group with parts := ⟨depth + 1, true⟩ :: parts }
  | _ => none

end Group

/-- Where the reading of a pattern stands. -/
structure State where
  group : Group
  /-- The groups around it, innermost first. -/
  enclosing : List Group
  /-- The brackets that are open, innermost first. -/
  brackets : List Bracket
  /-- The names of groups so far. -/
  names : List (List Char)
  /-- Whether a boundary of words of all scripts has been asked for. -/
  boundary : Bool
  deriving DecidableEq, Repr

namespace State

/-- Nothing is read. -/
def start : State := ⟨.start .initial, [], [], [], false⟩

/-- The modes that are on. -/
def modes (state : State) : Modes := state.group.modes

/-- The state after one more part. -/
def add (state : State) (part : Part) : State := { state with group := state.group.add part }

/-- The state in a new group. -/
def openGroup (state : State) (modes : Modes) : State :=
  { state with group := .start modes, enclosing := state.group :: state.enclosing }

end State

/-- Whether a symbol may be a part of its own. -/
def Modes.admitsPart (modes : Modes) : Symbol → Bool
  | .character _ => !(modes.unicode && modes.caseless)
  | .kind others => !modes.unicode && !others
  | .place => true
  | .wordBoundary => true

/-- Reads on where no bracket is open, from a character on. -/
def State.stepOutside (state : State) (c : Char) (rest : List Char) :
    Option (State × List Char) :=
  if c = '(' then
    match readOpening state.modes rest with
    | some (.group modes, rest) => some (state.openGroup modes, rest)
    | some (.named name, rest) =>
      if name ∈ state.names then none
      else some ({ state.openGroup state.modes with names := name :: state.names }, rest)
    | some (.modes modes, rest) =>
      some ({ state with group := { state.group with modes } }.add ⟨0, false⟩, rest)
    | none => none
  else if c = ')' then
    match state.enclosing with
    | [] => none
    | group :: enclosing =>
      some ({ state with group, enclosing }.add ⟨state.group.depth + 1, true⟩, rest)
  else if c = '|' then some ({ state with group := state.group.alternate }, rest)
  else if c = '[' then some ({ state with brackets := [.start] }, rest)
  else if c ∈ ['?', '*', '+'] then
    match state.group.repeatLast with
    | some group =>
      some ({ state with group }, if rest.head? = some '?' then rest.drop 1 else rest)
    | none => none
  else if c = '{' then none
  else if c = '.' then if state.modes.unicode then some (state.add ⟨0, true⟩, rest) else none
  else if c ∈ ['^', '$'] then some (state.add ⟨0, true⟩, rest)
  else
    match readSymbol state.modes (c :: rest) with
    | some (symbol, rest) =>
      if state.modes.admitsPart symbol then
        let boundary := state.boundary || symbol = .wordBoundary && state.modes.unicode
        some ({ state.add ⟨0, true⟩ with boundary }, rest)
      else none
    | none => none

/-- Reads on from a character on. -/
def State.step (state : State) (c : Char) (rest : List Char) : Option (State × List Char) :=
  match state.brackets with
  | [] => state.stepOutside c rest
  | inner :: outer =>
    match inner.step state.modes outer c rest with
    | some (.inside brackets, rest) => some ({ state with brackets }, rest)
    | some (.closed depth, rest) =>
      some ({ state with brackets := [] }.add ⟨depth, true⟩, rest)
    | none => none

theorem State.stepOutside_suffix {state next : State} {c : Char} {input rest : List Char}
    (h : state.stepOutside c input = some (next, rest)) : rest <:+ input := by
  unfold State.stepOutside at h
  have hopening := @readOpening_suffix state.modes
  have hsymbol := @readSymbol_suffix state.modes
  have hdrop := List.drop_suffix 1 input
  have hrefl := List.suffix_refl input
  grind

theorem State.step_suffix {state next : State} {c : Char} {input rest : List Char}
    (h : state.step c input = some (next, rest)) : rest <:+ input := by
  unfold State.step at h
  split at h
  · exact State.stepOutside_suffix h
  · split at h
    · simp only [Option.some.injEq, Prod.mk.injEq] at h
      exact h.2 ▸ Bracket.step_suffix ‹_›
    · simp only [Option.some.injEq, Prod.mk.injEq] at h
      exact h.2 ▸ Bracket.step_suffix ‹_›
    · simp at h

/-- Reads to the end. -/
def State.run (state : State) (input : List Char) : Option State :=
  match _hskip : state.modes.skip input with
  | [] => some state
  | c :: rest =>
    match _hstep : state.step c rest with
    | some (next, rest) => next.run rest
    | none => none
termination_by input.length
decreasing_by
  have hle := (state.modes.skip_suffix input).length_le
  have hlt := (State.step_suffix _hstep).length_le
  rw [_hskip, List.length_cons] at hle
  omega

/-- The greatest depth of a pattern. -/
def depthLimit : Nat := 250

/-- Why a pattern makes no sense, unless it does. -/
def fault? (pattern : List Char) : Option Fault :=
  match State.start.run pattern with
  | none => some .malformed
  | some state =>
    if state.enclosing ≠ [] ∨ state.brackets ≠ [] ∨ depthLimit < state.group.depth then
      some .malformed
    else if state.boundary then some .wordBoundary
    else none

example : fault? "^a(b|[^c-e&&x])*?$".toList = none ∧ fault? "a)".toList = some .malformed ∧
    fault? "[z-a]".toList = some .malformed ∧ fault? "\\bx".toList = some .wordBoundary := by
  decide +kernel

end TokenVault.Logging.Pattern
