import TokenVault.FileTree.Path

/-!
# File trees

A file tree maps locations to files, directories and symbolic links.  A location is the
list of names that lead to it from the root, and the root is a directory.  One location is
the working directory.  `at?` is the view: each change is stated by what it does to it.
-/

namespace TokenVault

/-- Why the file system refuses a request. -/
inductive SystemError
  | notFound
  | alreadyExists
  | notDirectory
  | isDirectory
  | nameTooLong
  | notEmpty
  /-- A directory cannot be moved into itself. -/
  | intoItself
  | tooManyLinks
  /-- A path to be renamed must end in a name. -/
  | busy
  /-- A path must not contain the octet zero. -/
  | zeroOctet
  /-- A reason that the files do not show, in the words of the system. -/
  | other (wording : String)
  deriving DecidableEq, Repr

/-- The wording of a refusal. -/
def SystemError.message : SystemError → String
  | notFound => "No such file or directory (os error 2)"
  | alreadyExists => "File exists (os error 17)"
  | notDirectory => "Not a directory (os error 20)"
  | isDirectory => "Is a directory (os error 21)"
  | nameTooLong => "File name too long (os error 36)"
  | notEmpty => "Directory not empty (os error 39)"
  | intoItself => "Invalid argument (os error 22)"
  | tooManyLinks => "Too many levels of symbolic links (os error 40)"
  | busy => "Device or resource busy (os error 16)"
  | zeroOctet => "file name contained an unexpected NUL byte"
  | other wording => wording

/-- The names that lead to a place from the root. -/
abbrev Location := List Bytes

/-- A location together with its depth, by which most locations differ already. -/
structure Key where
  depth : Nat
  location : Location
  deriving DecidableEq

/-- The key of a location. -/
def Location.key (location : Location) : Key := ⟨location.length, location⟩

theorem Location.key_inj {a b : Location} : a.key = b.key ↔ a = b :=
  ⟨fun h => congrArg Key.location h, fun h => h ▸ rfl⟩

/-- What is at a location.  The mode holds the permission bits. -/
inductive Entry
  | file (mode : Nat) (content : Bytes)
  | directory (mode : Nat)
  | link (target : Bytes)
  deriving DecidableEq, Repr

/-- Whether an entry is a symbolic link. -/
def Entry.isLink : Entry → Bool
  | link _ => true
  | _ => false

/-- Files, directories and links by location. -/
structure FileTree where
  entries : List (Key × Entry)
  /-- Where the paths start that do not start at the root. -/
  workingDirectory : Location
  deriving DecidableEq

namespace FileTree

/-- The tree with nothing but its root. -/
def empty : FileTree := ⟨[], []⟩

/-- The entry of the root. -/
def rootEntry : Entry := .directory 0o755

/-- The tree with nothing but a working directory and the directories that it lies in. -/
def startingIn (location : Location) : FileTree :=
  ⟨(List.range (location.length + 1)).map fun n => (Location.key (location.take n), rootEntry),
    location⟩

/-- What is at a location. -/
def at? (tree : FileTree) (location : Location) : Option Entry :=
  match tree.entries.lookup location.key with
  | some entry => some entry
  | none => if location = [] then some rootEntry else none

/-- The tree with an entry at a location, in place of what was there. -/
def put (tree : FileTree) (location : Location) (entry : Entry) : FileTree :=
  { tree with
    entries := (location.key, entry) :: tree.entries.filter (·.1 != location.key) }

/-- The tree without an entry at a location. -/
def drop (tree : FileTree) (location : Location) : FileTree :=
  { tree with entries := tree.entries.filter (·.1 != location.key) }

/-- Whether one location lies below another or is the same. -/
def within (outer inner : Location) : Bool := outer.isPrefixOf inner

/-- The tree without a location and all that lies below it. -/
def dropBelow (tree : FileTree) (location : Location) : FileTree :=
  { tree with entries := tree.entries.filter fun e => !within location e.1.location }

/-- The tree in which what was at and below one location is at and below another. -/
def move (tree : FileTree) (source target : Location) : FileTree :=
  let moved := tree.entries.filter fun e => within source e.1.location
  let rest := ((tree.dropBelow source).dropBelow target).entries
  let place (location : Location) : Location := target ++ location.drop source.length
  { tree with entries := moved.map (fun e => ((place e.1.location).key, e.2)) ++ rest }

/-- The names in a directory. -/
def names (tree : FileTree) (location : Location) : List Bytes :=
  tree.entries.filterMap fun e =>
    if e.1.depth = location.length + 1 ∧ e.1.location.dropLast = location then
      e.1.location.getLast?
    else none

theorem lookup_filter_ne (entries : List (Key × Entry)) (a b : Key) :
    (entries.filter (·.1 != a)).lookup b = if b = a then none else entries.lookup b := by
  induction entries with
  | nil => simp
  | cons e rest ih =>
    obtain ⟨c, entry⟩ := e
    by_cases hca : c = a <;> by_cases hbc : b = c <;>
      grind

/-- A change at one location shows there and nowhere else. -/
theorem at?_put (tree : FileTree) (a b : Location) (entry : Entry) :
    (tree.put a entry).at? b = if b = a then some entry else tree.at? b := by
  simp only [put, at?, List.lookup_cons, lookup_filter_ne, ← Location.key_inj (a := b)]
  grind

/-- What is dropped is gone, and nothing else. -/
theorem at?_drop (tree : FileTree) (a b : Location) (ha : a ≠ []) :
    (tree.drop a).at? b = if b = a then none else tree.at? b := by
  simp only [drop, at?, lookup_filter_ne, Location.key_inj]
  grind

end FileTree

end TokenVault
