import TokenVault.FileTree.Resolve

/-!
# Changing file trees

Each operation either changes the tree or says why it does not.  New files and directories
lose the permissions that nobody but their owner shall have.
-/

namespace TokenVault.FileTree

/-- The permissions that new files and directories lose. -/
def mask : Nat := 0o022

/-- A mode without the masked permissions. -/
def masked (mode : Nat) : Nat := mode - (mode &&& mask)

/-- The content of a file. -/
def content (tree : FileTree) (path : Bytes) : Except SystemError Bytes :=
  match tree.follow path with
  | .ok (_, .file _ content) => .ok content
  | .ok _ => .error .isDirectory
  | .error e => .error e

/-- Makes sure that there is a file, with this mode if it is a new one. -/
def openFile (tree : FileTree) (path : Bytes) (mode : Nat) : Except SystemError FileTree :=
  match tree.resolve true path with
  | .ok (.found _ (.file _ _)) => .ok tree
  | .ok (.found _ _) => .error .isDirectory
  | .ok (.vacant location) => .ok (tree.put location (.file (masked mode) []))
  | .error e => .error e

/-- Gives a file a content, with this mode if it is a new one. -/
def write (tree : FileTree) (path : Bytes) (mode : Nat) (content : Bytes) :
    Except SystemError FileTree :=
  match tree.resolve true path with
  | .ok (.found location (.file mode _)) => .ok (tree.put location (.file mode content))
  | .ok (.found _ _) => .error .isDirectory
  | .ok (.vacant location) => .ok (tree.put location (.file (masked mode) content))
  | .error e => .error e

/-- Where a path leads if there is nothing yet. -/
def vacancy (tree : FileTree) (path : Bytes) : Except SystemError Location :=
  match tree.resolve false (Path.withoutSlashes path) with
  | .ok (.found _ _) => .error .alreadyExists
  | .ok (.vacant location) => .ok location
  | .error e => .error e

/-- Where a path leads whose directory is empty and at this location.  There is no such place
if the path ends in dots or in a name that is too long. -/
def vacancyIn (location : Location) (path : Bytes) : Option Location :=
  match Path.lastName? path with
  | some name => if longestName < name.length then none else some (location ++ [name])
  | none => none

/-- Puts a directory at a vacant location, and tells where it is, unless that is refused. -/
def putDirectory (tree : FileTree) (refusal : Option String) (mode : Nat) (location : Location) :
    FileTree × Except SystemError (Option Location) :=
  match refusal with
  | some wording => (tree, .error (.other wording))
  | none => (tree.put location (.directory (masked mode)), .ok (some location))

/-- Makes a directory and what is missing on the way to it, and tells its location if it is
new: `dirs` are the directory and those that it lies in, the innermost first.  Some of them
may be refused although there is a place for them.  What has been made stays if the rest
fails.  As a new directory is empty, a place in it is known without following the path once
more. -/
def makeNewDirectories (tree : FileTree) (refusal : Bytes → Option String) (mode : Nat) :
    List Bytes → FileTree × Except SystemError (Option Location)
  | [] => (tree, .ok none)
  | dir :: outer =>
    let settled (tree : FileTree) (e : SystemError) :
        FileTree × Except SystemError (Option Location) :=
      (tree, if tree.reachesDirectory dir then .ok none else .error e)
    match tree.vacancy dir with
    | .ok location => tree.putDirectory (refusal dir) mode location
    | .error .notFound =>
      match tree.makeNewDirectories refusal mode outer with
      | (tree, .error e) => (tree, .error e)
      | (tree, .ok newOuter) =>
        match newOuter.bind (vacancyIn · dir) with
        | some location => tree.putDirectory (refusal dir) mode location
        | none =>
          match tree.vacancy dir with
          | .ok location => tree.putDirectory (refusal dir) mode location
          | .error e => settled tree e
    | .error e => settled tree e

/-- Makes a directory and what is missing on the way to it, given as for
`makeNewDirectories`, if none of them is refused. -/
def makeDirectories (tree : FileTree) (mode : Nat) (dirs : List Bytes) :
    FileTree × Except SystemError Unit :=
  let (tree, outcome) := tree.makeNewDirectories (fun _ => none) mode dirs
  (tree, outcome.map fun _ => ())

/-- Makes a symbolic link. -/
def makeLink (tree : FileTree) (target path : Bytes) : Except SystemError FileTree :=
  if 0 ∈ target then .error .zeroOctet
  else if target = [] then .error .notFound
  else if longestPath < target.length then .error .nameTooLong
  else
    match tree.resolve false path with
    | .ok (.found _ _) => .error .alreadyExists
    | .ok (.vacant location) => .ok (tree.put location (.link target))
    | .error e => .error e

/-- Whether one entry may take the place of another. -/
def checkReplace (tree : FileTree) (source : Entry) (location : Location) :
    Entry → Except SystemError Unit
  | .directory _ =>
    match source with
    | .directory _ => if tree.names location = [] then .ok () else .error .notEmpty
    | _ => .error .isDirectory
  | _ =>
    match source with
    | .directory _ => .error .notDirectory
    | _ => .ok ()

/-- Moves what is at a location to where a path leads, in place of what is there.  Only a
directory may be given a path with slashes at its end. -/
def moveTo (tree : FileTree) (source : Location) (path : Bytes) :
    Except SystemError FileTree :=
  match tree.at? source with
  | none => .error .notFound
  | some entry =>
    let path := match entry with
      | .directory _ => Path.withoutSlashes path
      | _ => path
    match tree.resolve false path with
    | .ok (.vacant location) =>
      if within source location then .error .intoItself else .ok (tree.move source location)
    | .ok (.found location existing) =>
      if location = source then .ok tree
      else if within source location then .error .intoItself
      else
        match tree.checkReplace entry location existing with
        | .ok _ => .ok (tree.move source location)
        | .error e => .error e
    | .error e => .error e

/-- Gives what one path leads to another path, in place of what is there.  Both must end in
names. -/
def rename (tree : FileTree) (source target : Bytes) : Except SystemError FileTree :=
  if Path.endsInDots source || Path.endsInDots target then .error .busy
  else
    match tree.resolve false (Path.withoutSlashes source) with
    | .ok (.found location (.directory _)) => tree.moveTo location target
    | .ok (.found location _) =>
      if Path.withoutSlashes source = source then tree.moveTo location target
      else .error .notDirectory
    | .ok (.vacant _) => .error .notFound
    | .error e => .error e

/-- Whether a path is a symbolic link when the slashes at its end are taken away. -/
def namesLink (tree : FileTree) (path : Bytes) : Bool :=
  match tree.inspect (Path.withoutSlashes path) with
  | .ok entry => entry.isLink
  | .error _ => false

/-- Removes what a path leads to, with all that lies below it.  A directory stays, without
what lay below it, if it is reached by dots or through a link. -/
def remove (tree : FileTree) (path : Bytes) : Except SystemError FileTree :=
  match tree.resolve false path with
  | .ok (.found location (.directory mode)) =>
    let rest := tree.dropBelow location
    if Path.endsInDots path || tree.namesLink path then
      .ok (rest.put location (.directory mode))
    else .ok rest
  | .ok (.found location _) => .ok (tree.drop location)
  | .ok (.vacant _) => .error .notFound
  | .error e => .error e

/-- The part of a mode that says who may read, write and search. -/
def permissions (mode : Nat) : Nat := mode % 0o1000

/-- Changes the permissions of what a path leads to. -/
def changeMode (tree : FileTree) (path : Bytes) (mode : Nat) : Except SystemError FileTree :=
  match tree.follow path with
  | .ok (location, .file _ content) =>
    .ok (tree.put location (.file (permissions mode) content))
  | .ok (location, .directory _) => .ok (tree.put location (.directory (permissions mode)))
  | .ok (_, .link _) => .error .notFound
  | .error e => .error e

/-- The names in a directory as they are displayed, in ascending order. -/
def list (tree : FileTree) (path : Bytes) : Except SystemError (List String) :=
  match tree.follow path with
  | .ok (location, .directory _) =>
    .ok (((tree.names location).map Bytes.display).mergeSort fun a b => !decide (b < a))
  | .ok _ => .error .notDirectory
  | .error e => .error e

example : masked 0o666 = 0o644 ∧ masked 0o600 = 0o600 ∧ permissions 0o4755 = 0o755 := by
  decide

end TokenVault.FileTree
