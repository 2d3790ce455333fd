import TokenVault.Text.Bytes

/-!
# Paths

A path is a string of octets whose components stand between slashes.  Slashes and single
dots at its end do not count when its parent is taken.
-/

namespace TokenVault.Path

/-- The octet `/`. -/
def slash : UInt8 := 0x2F

/-- The octet `.`. -/
def dot : UInt8 := 0x2E

/-- The component that stays where it is. -/
def here : Bytes := [dot]

/-- The component that goes one level up. -/
def up : Bytes := [dot, dot]

/-- The parts between slashes. -/
def parts (path : Bytes) : List Bytes :=
  path.foldr (fun octet parts =>
    match parts with
    | part :: rest => if octet = slash then [] :: part :: rest else (octet :: part) :: rest
    | [] => [[octet]]) [[]]

/-- The components that a path is followed by.  A slash at the end asks for a directory,
just as a dot after it does. -/
def components (path : Bytes) : List Bytes :=
  (parts path).filter (· ≠ []) ++ if path.getLast? = some slash then [here] else []

/-- Whether a path starts at the root. -/
def isAbsolute (path : Bytes) : Bool := path.head? = some slash

/-- The path without slashes at its end, which a directory may have. -/
def withoutSlashes (path : Bytes) : Bytes :=
  let trimmed := (path.reverse.dropWhile (· = slash)).reverse
  if trimmed = [] then path else trimmed

/-- The component that a path ends in, slashes aside. -/
def last? (path : Bytes) : Option Bytes := (components (withoutSlashes path)).getLast?

/-- Whether a path ends in dots and not in a name, slashes aside. -/
def endsInDots (path : Bytes) : Bool := (last? path).any fun last => last = here || last = up

/-- The name that a path ends in, slashes aside, if it does not end in dots. -/
def lastName? (path : Bytes) : Option Bytes :=
  (last? path).filter fun last => last != here && last != up

/-- Drops slashes and single dots that follow the last component, in a path that is
written backwards.  The root stays. -/
def trimBackwards : Bytes → Bytes
  | [] => []
  | [octet] => [octet]
  | first :: second :: rest =>
    if first = slash then trimBackwards (second :: rest)
    else if first = dot ∧ second = slash then trimBackwards (second :: rest)
    else first :: second :: rest

/-- The path without its last component; none if it has no component to lose. -/
def parent? (path : Bytes) : Option Bytes :=
  let backwards := trimBackwards path.reverse
  if backwards = [] ∨ backwards = [slash] then none
  else some (trimBackwards (backwards.dropWhile (· ≠ slash))).reverse

/-- The directory that a file with this path lies in. -/
def directory (path : Bytes) : Bytes :=
  match parent? path with
  | some (octet :: rest) => octet :: rest
  | _ => here

/-- A path and the directories that it leads through, the innermost first. -/
def ancestors (path : Bytes) : List Bytes :=
  if path = [] then []
  else
    match parent? path with
    | some parent =>
      if parent.length < path.length then path :: ancestors parent else [path]
    | none => [path]
termination_by path.length

example : directory (Bytes.ofText "a/./b/") = Bytes.ofText "a" := by decide +kernel

example : components (Bytes.ofText "./a//b/") =
    [here, Bytes.ofText "a", Bytes.ofText "b", here] := by decide +kernel

end TokenVault.Path
