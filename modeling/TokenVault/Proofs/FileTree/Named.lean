import TokenVault.Proofs.FileTree.Growth

/-!
# Names in a directory

A path that ends in a name leads to that name in the directory of the path.  Where the directory
is known, what the path leads to follows from what stands there at the name (`LiesIn.resolve_eq`).
It does not matter which way the path takes and what else there is.
-/

namespace TokenVault.FileTree

variable {tree t u : FileTree} {path name : Bytes} {directory here : Location}
variable {follow : Bool} {links : Nat}

/-- A path that ends in a name and whose directory is the one at a location. -/
structure LiesIn (tree : FileTree) (path : Bytes) (directory : Location) (name : Bytes) :
    Prop where
  endsIn : Path.EndsIn path name
  follow_eq : ∃ mode, tree.follow (Path.directory path) = .ok (directory, .directory mode)

/-- What comes of following a path that ends in a name, given the place of that name. -/
def nameReached (path name : Bytes) (place : Place) : Except SystemError Place :=
  if 0 ∈ path then .error .zeroOctet
  else if longestPath < path.length then .error .nameTooLong
  else if longestName < name.length then .error .nameTooLong
  else .ok place

/-- A single name leads to what is there, unless that is a link to be followed. -/
theorem walk_singleton (hname : IsName name)
    (hlink : follow = false ∨ ∀ target, tree.at? (here ++ [name]) ≠ some (.link target)) :
    tree.walk follow links here [name] = .ok (tree.placeAt (here ++ [name])) := by
  rw [walk_name hname]
  cases hat : tree.at? (here ++ [name]) with
  | none => exact congrArg Except.ok (placeAt_of_none hat).symm
  | some entry =>
    rw [placeAt_of_some hat]
    cases entry with
    | file mode content => rfl
    | directory mode =>
      simp only [walk_nil]
      rw [hat]
      rfl
    | link target =>
      rcases hlink with rfl | hlink
      · rfl
      · exact absurd hat (hlink target)

namespace LiesIn

/-- The directory of a path that lies in it has been entered when the name comes. -/
theorem resolve_eq_walk (h : tree.LiesIn path directory name) (ht : tree.Sound) :
    ∃ links, ∀ follow, tree.resolve follow path =
      if 0 ∈ path then .error .zeroOctet
      else if longestPath < path.length then .error .nameTooLong
      else tree.walk follow links directory [name] := by
  obtain ⟨habsolute, outer, hcomponents, houter⟩ := h.endsIn.directory_spec
  obtain ⟨-, links, hpasses⟩ := ht.enters_iff.2 h.follow_eq
  rw [start_eq habsolute] at hpasses
  have houterPasses := hpasses.congr (houter.trans (moves_moves _).symm)
  refine ⟨links, fun follow => ?_⟩
  have hwalk : tree.walk follow linkLimit (tree.start path) (outer ++ [name]) =
      tree.walk follow links directory [name] :=
    houterPasses.walk_append (List.cons_ne_nil name [])
  rw [resolve, if_neg h.endsIn.path_ne_nil, hcomponents, ← hwalk, start]

/-- A path that lies in a directory leads to what is there under its name. -/
theorem resolve_eq (h : tree.LiesIn path directory name) (ht : tree.Sound)
    (hlink : follow = false ∨ ∀ target, tree.inspect path ≠ .ok (.link target)) :
    tree.resolve follow path = nameReached path name (tree.placeAt (directory ++ [name])) := by
  obtain ⟨links, hresolve⟩ := h.resolve_eq_walk ht
  rw [hresolve, nameReached]
  by_cases hzero : 0 ∈ path
  · rw [if_pos hzero, if_pos hzero]
  rw [if_neg hzero, if_neg hzero]
  by_cases hlength : longestPath < path.length
  · rw [if_pos hlength, if_pos hlength]
  rw [if_neg hlength, if_neg hlength]
  by_cases hlong : longestName < name.length
  · rw [walk_cons, if_neg h.endsIn.ne_here, if_neg h.endsIn.ne_up, if_pos hlong, if_pos hlong]
  rw [if_neg hlong]
  have hname : IsName name := ⟨h.endsIn.ne_here, h.endsIn.ne_up, Nat.le_of_not_lt hlong⟩
  refine walk_singleton hname (hlink.imp_right fun hlink target hat => hlink target ?_)
  -- the link is what the path leads to if the last name is not followed
  refine inspect_eq_ok_iff.2 ⟨directory ++ [name], ?_⟩
  rw [hresolve, if_neg hzero, if_neg hlength, walk_singleton hname (.inl rfl),
    placeAt_of_some hat]

/-- Trees with the same entry under a name are not told apart by inspecting it. -/
theorem inspect_congr (h : t.LiesIn path directory name) (ht : t.Sound)
    (h' : u.LiesIn path directory name) (hu : u.Sound)
    (hat : t.at? (directory ++ [name]) = u.at? (directory ++ [name])) :
    t.inspect path = u.inspect path := by
  rw [inspect, inspect, h.resolve_eq ht (.inl rfl), h'.resolve_eq hu (.inl rfl), placeAt, placeAt,
    hat]

/-- Trees with the same entry under a name are not told apart by following it, unless it is a
link. -/
theorem followed_congr (h : t.LiesIn path directory name) (ht : t.Sound)
    (h' : u.LiesIn path directory name) (hu : u.Sound)
    (hat : t.at? (directory ++ [name]) = u.at? (directory ++ [name]))
    (hlink : ∀ target, t.inspect path ≠ .ok (.link target)) :
    t.resolve true path = u.resolve true path := by
  have hlink' : ∀ target, u.inspect path ≠ .ok (.link target) :=
    h.inspect_congr ht h' hu hat ▸ hlink
  rw [h.resolve_eq ht (.inr hlink), h'.resolve_eq hu (.inr hlink'), placeAt, placeAt, hat]

/-- What a path that lies in a directory leads to is there under its name. -/
theorem location_eq {place : Place} (h : tree.LiesIn path directory name) (ht : tree.Sound)
    (hresolve : tree.resolve false path = .ok place) : place.location = directory ++ [name] := by
  rw [h.resolve_eq ht (.inl rfl), nameReached] at hresolve
  split at hresolve
  · cases hresolve
  · split at hresolve
    · cases hresolve
    · split at hresolve
      · cases hresolve
      · rw [← Except.ok.inj hresolve, location_placeAt]

theorem filePath_eq {location : Location} (h : tree.LiesIn path directory name) (ht : tree.Sound)
    (hpath : tree.FilePath path location) : location = directory ++ [name] :=
  (location_placeAt tree location).symm.trans (h.location_eq ht hpath.resolve_eq)

/-- What is written after a path that lies in a directory is written after its name. -/
theorem append {suffix : Bytes} (h : tree.LiesIn path directory name)
    (hsuffix : suffix ≠ []) (hslash : Path.slash ∉ suffix) :
    tree.LiesIn (path ++ suffix) directory (name ++ suffix) where
  endsIn := h.endsIn.append hsuffix hslash
  follow_eq := by
    rw [h.endsIn.directory_append hsuffix hslash]
    exact h.follow_eq

theorem frame (h : t.LiesIn path directory name) (ht : t.Sound) (hframe : Frame t u) :
    u.LiesIn path directory name where
  endsIn := h.endsIn
  follow_eq := by
    obtain ⟨mode, hfollow⟩ := h.follow_eq
    exact ⟨mode, follow_directory_frame hframe ht hfollow⟩

end LiesIn

end TokenVault.FileTree
