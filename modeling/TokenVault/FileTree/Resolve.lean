import TokenVault.FileTree.Basic

/-!
# Following paths

A path is followed component by component, from the root if it starts with a slash and from
the working directory if not.  Links on the way are followed, up to a limit; a link at the
end only on request.
-/

namespace TokenVault.FileTree

/-- The longest name of one component. -/
def longestName : Nat := 255

/-- The longest path, in octets. -/
def longestPath : Nat := 4095

/-- How many links may be followed on one path. -/
def linkLimit : Nat := 40

/-- Where a path leads: to an entry, or to a vacant place in a directory. -/
inductive Place
  | found (location : Location) (entry : Entry)
  | vacant (location : Location)
  deriving DecidableEq, Repr

/-- Follows components from a directory, up to the first link on the way; `goOn` follows what it
is replaced by.  `follow` tells whether a link at the end is followed. -/
def walkToLink (tree : FileTree) (follow : Bool)
    (goOn : Location → List Bytes → Except SystemError Place) (here : Location) :
    List Bytes → Except SystemError Place
  | [] => .ok (.found here ((tree.at? here).getD rootEntry))
  | name :: rest =>
    if name = Path.here then walkToLink tree follow goOn here rest
    else if name = Path.up then walkToLink tree follow goOn here.dropLast rest
    else if longestName < name.length then .error .nameTooLong
    else
      let location := here ++ [name]
      match tree.at? location with
      | none => if rest = [] then .ok (.vacant location) else .error .notFound
      | some (.directory _) => walkToLink tree follow goOn location rest
      | some (.file mode content) =>
        if rest = [] then .ok (.found location (.file mode content))
        else .error .notDirectory
      | some (.link target) =>
        if rest = [] ∧ ¬follow then .ok (.found location (.link target))
        else goOn (if Path.isAbsolute target then [] else here) (Path.components target ++ rest)

/-- Follows components from a directory, with so many links to go. -/
def walk (tree : FileTree) (follow : Bool) :
    Nat → Location → List Bytes → Except SystemError Place
  | 0 => tree.walkToLink follow fun _ _ => .error .tooManyLinks
  | links + 1 => tree.walkToLink follow (tree.walk follow links)

section

variable (tree : FileTree) (follow : Bool) (links : Nat) (here : Location)

theorem walk_nil :
    tree.walk follow links here [] = .ok (.found here ((tree.at? here).getD rootEntry)) := by
  cases links <;> rfl

theorem walk_cons (name : Bytes) (rest : List Bytes) :
    tree.walk follow links here (name :: rest) =
      if name = Path.here then tree.walk follow links here rest
      else if name = Path.up then tree.walk follow links here.dropLast rest
      else if longestName < name.length then .error .nameTooLong
      else
        match tree.at? (here ++ [name]) with
        | none => if rest = [] then .ok (.vacant (here ++ [name])) else .error .notFound
        | some (.directory _) => tree.walk follow links (here ++ [name]) rest
        | some (.file mode content) =>
          if rest = [] then .ok (.found (here ++ [name]) (.file mode content))
          else .error .notDirectory
        | some (.link target) =>
          if rest = [] ∧ ¬follow then .ok (.found (here ++ [name]) (.link target))
          else
            match links with
            | 0 => .error .tooManyLinks
            | links + 1 =>
              tree.walk follow links (if Path.isAbsolute target then [] else here)
                (Path.components target ++ rest) := by
  cases links <;> rfl

end

/-- A walk goes on with fewer components, or with fewer links to go. -/
@[elab_as_elim]
theorem walk_induct {motive : Nat → Location → List Bytes → Prop}
    (nil : ∀ links here, motive links here [])
    (cons : ∀ links here name rest, (∀ there, motive links there rest) →
      (∀ fewer, links = fewer + 1 → ∀ there components, motive fewer there components) →
        motive links here (name :: rest))
    (links : Nat) (here : Location) (components : List Bytes) : motive links here components := by
  induction links generalizing here components with
  | zero =>
    induction components generalizing here with
    | nil => exact nil 0 here
    | cons name rest ih => exact cons 0 here name rest ih nofun
  | succ links ihlinks =>
    induction components generalizing here with
    | nil => exact nil (links + 1) here
    | cons name rest ih =>
      refine cons (links + 1) here name rest ih fun fewer hfewer => ?_
      cases hfewer
      exact ihlinks

/-- Where a path leads. -/
def resolve (tree : FileTree) (follow : Bool) (path : Bytes) : Except SystemError Place :=
  if 0 ∈ path then .error .zeroOctet
  else if path = [] then .error .notFound
  else if longestPath < path.length then .error .nameTooLong
  else
    tree.walk follow linkLimit (if Path.isAbsolute path then [] else tree.workingDirectory)
      (Path.components path)

/-- What a path leads to; a link at its end is not followed. -/
def inspect (tree : FileTree) (path : Bytes) : Except SystemError Entry :=
  match tree.resolve false path with
  | .ok (.found _ entry) => .ok entry
  | .ok (.vacant _) => .error .notFound
  | .error e => .error e

/-- What a path leads to, all links followed. -/
def follow (tree : FileTree) (path : Bytes) : Except SystemError (Location × Entry) :=
  match tree.resolve true path with
  | .ok (.found location entry) => .ok (location, entry)
  | .ok (.vacant _) => .error .notFound
  | .error e => .error e

/-- Whether a path leads to anything. -/
def reaches (tree : FileTree) (path : Bytes) : Bool := (tree.follow path).toOption.isSome

/-- Whether a path leads to a directory. -/
def reachesDirectory (tree : FileTree) (path : Bytes) : Bool :=
  match tree.follow path with
  | .ok (_, .directory _) => true
  | _ => false

end TokenVault.FileTree
