import TokenVault.Text.Alphanumeric

/-!
# Values in a definition file

A value may be bare or in quotes, in parts of either kind.  Between single quotes all
characters stand for themselves.  Elsewhere a backslash escapes, and a dollar sign before a
name of letters and digits, or before any name in braces, stands for the value of that name.
After blanks that follow a bare value only a comment may stand.
-/

namespace TokenVault.DefinitionFile

/-- Where in a value its reader is.  `weak` tells whether a double quote is open.  Of a name
the last character comes first. -/
inductive ValueState
  | bare (weak : Bool)
  | strong
  | escaped (weak : Bool)
  | name (weak : Bool) (reversed : List Char)
  | braced (weak : Bool) (reversed : List Char)
  | ended
  | comment
  deriving DecidableEq, Repr

namespace ValueState

/-- The state after a character that is neither quoted nor escaped nor part of a name, and
what it stands for. -/
def afterBare (weak : Bool) (c : Char) : List Char × ValueState :=
  if c = '$' then ([], name weak [])
  else if c = '\\' then ([], escaped weak)
  else if c = '"' then ([], .bare (!weak))
  else if weak then ([c], .bare true)
  else if c = '\'' then ([], strong)
  else if c = ' ' ∨ c = '\t' then ([], ended)
  else ([c], .bare false)

/-- The state after a character, and what has become of the value by it; none if the
character must not stand there.  `value` gives the values of names. -/
def next (value : List Char → List Char) (c : Char) :
    ValueState → Option (List Char × ValueState)
  | .bare weak => some (afterBare weak c)
  | strong => if c = '\'' then some ([], .bare false) else some ([c], strong)
  | escaped weak =>
    if c ∈ ['\\', '\'', '"', '$', ' '] then some ([c], .bare weak)
    else if c = 'n' then some (['\n'], .bare weak)
    else none
  | name weak reversed =>
    if Text.isAlphanumeric c then some ([], name weak (c :: reversed))
    else if c = '\x7b' ∧ reversed = [] then some ([], braced weak [])
    else if c = '$' then some (value reversed.reverse, name weak [])
    else some (value reversed.reverse ++ [c], .bare weak)
  | braced weak reversed =>
    if c = '\x7d' then some (value reversed.reverse, .bare weak)
    else some ([], braced weak (c :: reversed))
  | ended =>
    if c = ' ' ∨ c = '\t' then some ([], ended)
    else if c = '#' then some ([], comment)
    else none
  | comment => some ([], comment)

/-- What comes of the value at its end; none if it is not complete. -/
def finish (value : List Char → List Char) : ValueState → Option (List Char)
  | .bare false | escaped false | ended | comment => some []
  | name false reversed => some (value reversed.reverse)
  | .bare true | escaped true | name true _ | strong | braced _ _ => none

end ValueState

/-- Reads the rest of a value. -/
def readValue (value : List Char → List Char) (state : ValueState) :
    List Char → Option (List Char)
  | [] => state.finish value
  | c :: rest => do
    let (chars, state) ← state.next value c
    return chars ++ (← readValue value state rest)

example : readValue (fun _ => []) (.bare false) "'$a \\'\"b\\n\"".toList =
    some "$a \\b\n".toList := by decide +kernel

end TokenVault.DefinitionFile
