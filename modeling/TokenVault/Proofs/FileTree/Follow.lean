import TokenVault.Proofs.FileTree.Sound

/-!
# Where paths lead

`Leads` gives the successful runs of `walk` as derivations, one rule for each way to go on.  On
a sound tree a path that leads to a place for a file leads there in every tree that differs from
it in files alone (`FilePath.frame`), and so do the links and directories on the way.
-/

namespace TokenVault.FileTree

/-- A component that is the name of something, and not too long for it. -/
structure IsName (name : Bytes) : Prop where
  ne_here : name ≠ Path.here
  ne_up : name ≠ Path.up
  length_le : name.length ≤ longestName

/-- Components lead from a directory to a place, with so many links to go.  A link at the end
is followed only if `follow` says so. -/
inductive Leads (tree : FileTree) (follow : Bool) : Nat → Location → List Bytes → Place → Prop
  | arrived {links here} :
    Leads tree follow links here [] (.found here ((tree.at? here).getD rootEntry))
  | here {links here rest place} (h : Leads tree follow links here rest place) :
    Leads tree follow links here (Path.here :: rest) place
  | up {links here rest place} (h : Leads tree follow links here.dropLast rest place) :
    Leads tree follow links here (Path.up :: rest) place
  | vacant {links here name} (hname : IsName name) (hat : tree.at? (here ++ [name]) = none) :
    Leads tree follow links here [name] (.vacant (here ++ [name]))
  | file {links here name mode content} (hname : IsName name)
      (hat : tree.at? (here ++ [name]) = some (.file mode content)) :
    Leads tree follow links here [name] (.found (here ++ [name]) (.file mode content))
  | directory {links here name mode rest place} (hname : IsName name)
      (hat : tree.at? (here ++ [name]) = some (.directory mode))
      (h : Leads tree follow links (here ++ [name]) rest place) :
    Leads tree follow links here (name :: rest) place
  | link {links here name target} (hname : IsName name)
      (hat : tree.at? (here ++ [name]) = some (.link target)) (hfollow : follow = false) :
    Leads tree follow links here [name] (.found (here ++ [name]) (.link target))
  | followed {links here name target rest place} (hname : IsName name)
      (hat : tree.at? (here ++ [name]) = some (.link target))
      (hgo : ¬(rest = [] ∧ follow = false))
      (h : Leads tree follow links (if Path.isAbsolute target then [] else here)
        (Path.components target ++ rest) place) :
    Leads tree follow (links + 1) here (name :: rest) place

variable {tree : FileTree} {follow : Bool} {links : Nat} {here : Location}

/-- What is done at a name, once it is known to be one. -/
theorem walk_name {name : Bytes} (hname : IsName name) (rest : List Bytes) :
    tree.walk follow links here (name :: rest) =
      match tree.at? (here ++ [name]) with
      | none => if rest = [] then .ok (.vacant (here ++ [name])) else .error .notFound
      | some (.directory _) => tree.walk follow links (here ++ [name]) rest
      | some (.file mode content) =>
        if rest = [] then .ok (.found (here ++ [name]) (.file mode content))
        else .error .notDirectory
      | some (.link target) =>
        if rest = [] ∧ ¬follow then .ok (.found (here ++ [name]) (.link target))
        else
          match links with
          | 0 => .error .tooManyLinks
          | links + 1 =>
            walk tree follow links (if Path.isAbsolute target then [] else here)
              (Path.components target ++ rest) := by
  rw [walk_cons, if_neg hname.ne_here, if_neg hname.ne_up]
  exact if_neg (Nat.not_lt.2 hname.length_le)

theorem leads_of_walk {components : List Bytes} {place : Place}
    (h : tree.walk follow links here components = .ok place) :
    tree.Leads follow links here components place := by
  -- the ways to go on are taken in turn; those that fail contradict `h`
  induction links, here, components using walk_induct with
  | nil links here =>
    rw [walk_nil] at h
    cases h
    exact .arrived
  | cons links here name rest ih ihlink =>
    by_cases hhere : name = Path.here
    · rw [hhere, walk_cons, if_pos rfl] at h
      exact hhere ▸ .here (ih _ h)
    by_cases hup : name = Path.up
    · rw [hup, walk_cons, if_neg (by decide), if_pos rfl] at h
      exact hup ▸ .up (ih _ h)
    by_cases hlong : longestName < name.length
    · rw [walk_cons, if_neg hhere, if_neg hup, if_pos hlong] at h
      cases h
    have hname : IsName name := ⟨hhere, hup, Nat.le_of_not_lt hlong⟩
    rw [walk_name hname] at h
    split at h
    · next hat =>
      split at h
      · next hrest =>
        subst hrest
        cases h
        exact .vacant hname hat
      · cases h
    · next mode hat => exact .directory hname hat (ih _ h)
    · next mode content hat =>
      split at h
      · next hrest =>
        subst hrest
        cases h
        exact .file hname hat
      · cases h
    · next target hat =>
      split at h
      · next hstop =>
        obtain ⟨rfl, hstop⟩ := hstop
        cases h
        exact .link hname hat (Bool.not_eq_true _ ▸ hstop)
      · next hgo =>
        rw [Bool.not_eq_true] at hgo
        cases links with
        | zero => cases h
        | succ links => exact .followed hname hat hgo (ihlink links rfl _ _ h)

theorem Leads.walk_eq {components : List Bytes} {place : Place}
    (h : tree.Leads follow links here components place) :
    tree.walk follow links here components = .ok place := by
  induction h with
  | arrived => rw [walk_nil]
  | here _ ih => rw [walk_cons, if_pos rfl, ih]
  | up _ ih => rw [walk_cons, if_neg (by decide), if_pos rfl, ih]
  | vacant hname hat => simp [walk_name hname, hat]
  | file hname hat => simp [walk_name hname, hat]
  | directory hname hat _ ih => simp [walk_name hname, hat, ih]
  | link hname hat hfollow => simp [walk_name hname, hat, hfollow]
  | followed hname hat hgo _ ih =>
    rw [walk_name hname, hat]
    simp only [Bool.not_eq_true, if_neg hgo]
    exact ih

/-- Where a place is. -/
def Place.location : Place → Location
  | found location _ => location
  | vacant location => location

/-- What there is at a place. -/
def Place.occupant : Place → Option Entry
  | found _ entry => some entry
  | vacant _ => none

/-- The place at a location. -/
def placeAt (tree : FileTree) (location : Location) : Place :=
  match tree.at? location with
  | some entry => .found location entry
  | none => .vacant location

theorem placeAt_of_some {location : Location} {entry : Entry}
    (h : tree.at? location = some entry) : tree.placeAt location = .found location entry := by
  rw [placeAt, h]

theorem placeAt_of_none {location : Location} (h : tree.at? location = none) :
    tree.placeAt location = .vacant location := by
  rw [placeAt, h]

theorem location_placeAt (tree : FileTree) (location : Location) :
    (tree.placeAt location).location = location := by
  unfold placeAt
  split
  · rfl
  · rfl

theorem occupant_placeAt (tree : FileTree) (location : Location) :
    (tree.placeAt location).occupant = tree.at? location := by
  unfold placeAt
  split
  · next hat => exact hat.symm
  · next hat => exact hat.symm

namespace Leads

variable {t u : FileTree} {components : List Bytes} {place : Place}

/-- No component at all leads to the directory itself. -/
theorem nil (hhere : tree.IsDirectory here) :
    tree.Leads follow links here [] (tree.placeAt here) := by
  obtain ⟨mode, hmode⟩ := hhere
  have harrived : tree.Leads follow links here [] (.found here ((tree.at? here).getD rootEntry)) :=
    .arrived
  rw [hmode] at harrived
  rwa [placeAt_of_some hmode]

/-- A name where a file may come leads to what is there. -/
theorem takesFile {name : Bytes} (hname : IsName name) (htakes : tree.TakesFile (here ++ [name])) :
    tree.Leads follow links here [name] (tree.placeAt (here ++ [name])) := by
  rcases htakes with hnone | ⟨mode, content, hfile⟩
  · rw [placeAt_of_none hnone]
    exact .vacant hname hnone
  · rw [placeAt_of_some hfile]
    exact .file hname hfile

/-- A change of files does not change where a path leads. -/
theorem frame (hframe : Frame t u) (ht : t.Sound) (hhere : t.IsDirectory here)
    (h : t.Leads follow links here components place) :
    u.Leads follow links here components (u.placeAt place.location) := by
  -- on the way there are only directories and links, which stay, and a file may be at the end
  induction h with
  | arrived => exact nil (hframe.isDirectory hhere)
  | here _ ih => exact .here (ih hhere)
  | up _ ih => exact .up (ih (ht.dropLast hhere))
  | vacant hname hat => exact takesFile hname (hframe.takesFile _ (.inl hat))
  | file hname hat => exact takesFile hname (hframe.takesFile _ (.inr ⟨_, _, hat⟩))
  | directory hname hat _ ih =>
    have hdir : t.IsDirectory _ := ⟨_, hat⟩
    rw [← hframe.at?_eq _ hdir.not_takesFile] at hat
    exact .directory hname hat (ih hdir)
  | @link links here name target hname hat hfollow =>
    rw [← hframe.at?_eq _ (not_takesFile_of_link hat)] at hat
    show u.Leads follow links here [name] (u.placeAt (here ++ [name]))
    rw [placeAt_of_some hat]
    exact .link hname hat hfollow
  | followed hname hat hgo _ ih =>
    rw [← hframe.at?_eq _ (not_takesFile_of_link hat)] at hat
    refine .followed hname hat hgo (ih ?_)
    split
    · exact ht.root
    · exact hhere

/-- A path leads to what is at its place. -/
theorem eq_placeAt (ht : t.Sound) (hhere : t.IsDirectory here)
    (h : t.Leads follow links here components place) : place = t.placeAt place.location := by
  have hagain := h.frame (Frame.refl t) ht hhere
  rw [← Except.ok.injEq (ε := SystemError), ← h.walk_eq, hagain.walk_eq]

/-- A path that leads to a file or to nothing leads to a place for a file. -/
theorem filePlace (ht : t.Sound) (hhere : t.IsDirectory here)
    (h : t.Leads follow links here components place) (htakes : t.TakesFile place.location) :
    t.FilePlace place.location := by
  induction h with
  | arrived => exact absurd htakes hhere.not_takesFile
  | here _ ih => exact ih hhere htakes
  | up _ ih => exact ih (ht.dropLast hhere) htakes
  | vacant _ _ => exact ⟨htakes, _, _, rfl, hhere⟩
  | file _ _ => exact ⟨htakes, _, _, rfl, hhere⟩
  | directory _ hat _ ih => exact ih ⟨_, hat⟩ htakes
  | link _ hat _ => exact absurd htakes (not_takesFile_of_link hat)
  | followed _ _ _ _ ih =>
    refine ih ?_ htakes
    split
    · exact ht.root
    · exact hhere

/-- Unless there is a link at the end, it does not matter whether it would be followed. -/
theorem followedToo (h : t.Leads false links here components place)
    (hlink : ∀ location target, place ≠ .found location (.link target)) :
    t.Leads true links here components place := by
  induction h with
  | arrived => exact .arrived
  | here _ ih => exact .here (ih hlink)
  | up _ ih => exact .up (ih hlink)
  | vacant hname hat => exact .vacant hname hat
  | file hname hat => exact .file hname hat
  | directory hname hat _ ih => exact .directory hname hat (ih hlink)
  | link _ _ _ => exact absurd rfl (hlink _ _)
  | followed hname hat _ _ ih => exact .followed hname hat (by simp) (ih hlink)

end Leads

/-! ### Paths of files -/

/-- Where the components of a path start. -/
def start (tree : FileTree) (path : Bytes) : Location :=
  if Path.isAbsolute path then [] else tree.workingDirectory

theorem Sound.isDirectory_start (h : tree.Sound) (path : Bytes) :
    tree.IsDirectory (tree.start path) := by
  unfold start
  split
  · exact h.root
  · exact h.workingDirectory

/-- A path that may lead anywhere at all. -/
structure IsPath (path : Bytes) : Prop where
  no_zero : 0 ∉ path
  ne_nil : path ≠ []
  length_le : path.length ≤ longestPath

theorem resolve_eq_ok_iff {path : Bytes} {place : Place} :
    tree.resolve follow path = .ok place ↔
      IsPath path ∧
        tree.Leads follow linkLimit (tree.start path) (Path.components path) place := by
  constructor
  · intro h
    unfold resolve at h
    split at h
    · cases h
    · next hzero =>
      split at h
      · cases h
      · next hnil =>
        split at h
        · cases h
        · next hlong => exact ⟨⟨hzero, hnil, Nat.le_of_not_lt hlong⟩, leads_of_walk h⟩
  · rintro ⟨hpath, h⟩
    rw [resolve, if_neg hpath.no_zero, if_neg hpath.ne_nil,
      if_neg (Nat.not_lt.2 hpath.length_le)]
    exact h.walk_eq

/-- A change of files does not change where a path leads. -/
theorem resolve_frame {t u : FileTree} (hframe : Frame t u) (ht : t.Sound) {path : Bytes}
    {place : Place} (h : t.resolve follow path = .ok place) :
    u.resolve follow path = .ok (u.placeAt place.location) := by
  obtain ⟨hpath, hleads⟩ := resolve_eq_ok_iff.1 h
  have hstart : u.start path = t.start path := by rw [start, start, hframe.workingDirectory]
  refine resolve_eq_ok_iff.2 ⟨hpath, ?_⟩
  rw [hstart]
  exact hleads.frame hframe ht (ht.isDirectory_start path)

theorem Sound.placeAt_of_resolve (h : tree.Sound) {path : Bytes} {place : Place}
    (hresolve : tree.resolve follow path = .ok place) : place = tree.placeAt place.location := by
  obtain ⟨-, hleads⟩ := resolve_eq_ok_iff.1 hresolve
  exact hleads.eq_placeAt h (h.isDirectory_start path)

theorem Sound.occupant_of_resolve (h : tree.Sound) {path : Bytes} {place : Place}
    (hresolve : tree.resolve follow path = .ok place) :
    place.occupant = tree.at? place.location := by
  have hplace := h.placeAt_of_resolve hresolve
  rw [hplace, occupant_placeAt, location_placeAt]

theorem follow_eq_ok_iff {path : Bytes} {location : Location} {entry : Entry} :
    tree.follow path = .ok (location, entry) ↔
      tree.resolve true path = .ok (.found location entry) := by
  unfold FileTree.follow
  constructor
  · intro h
    split at h
    · next hresolve =>
      cases h
      exact hresolve
    · cases h
    · cases h
  · intro h
    rw [h]

theorem Sound.at?_of_follow (h : tree.Sound) {path : Bytes} {location : Location} {entry : Entry}
    (hfollow : tree.follow path = .ok (location, entry)) : tree.at? location = some entry := by
  have hplace : Place.found location entry = tree.placeAt location :=
    h.placeAt_of_resolve (follow_eq_ok_iff.1 hfollow)
  unfold placeAt at hplace
  split at hplace
  · next hat =>
    cases hplace
    exact hat
  · cases hplace

/-- A path that leads to a directory leads there after a change of files, too. -/
theorem follow_directory_frame {t u : FileTree} (hframe : Frame t u) (ht : t.Sound) {path : Bytes}
    {location : Location} {mode : Nat}
    (h : t.follow path = .ok (location, .directory mode)) :
    u.follow path = .ok (location, .directory mode) := by
  have hat := ht.at?_of_follow h
  have hu := resolve_frame hframe ht (follow_eq_ok_iff.1 h)
  rw [← hframe.at?_eq location (IsDirectory.not_takesFile ⟨mode, hat⟩)] at hat
  rw [follow_eq_ok_iff, hu]
  show Except.ok (u.placeAt location) = _
  rw [placeAt_of_some hat]

/-- A path that is no link leads to a place for a file. -/
structure FilePath (tree : FileTree) (path : Bytes) (location : Location) : Prop where
  resolve_eq : tree.resolve false path = .ok (tree.placeAt location)
  place : tree.FilePlace location

theorem Sound.filePath (h : tree.Sound) {path : Bytes} {place : Place}
    (hresolve : tree.resolve false path = .ok place) (htakes : tree.TakesFile place.location) :
    tree.FilePath path place.location := by
  obtain ⟨-, hleads⟩ := resolve_eq_ok_iff.1 hresolve
  refine ⟨?_, hleads.filePlace h (h.isDirectory_start path) htakes⟩
  rw [← h.placeAt_of_resolve hresolve]
  exact hresolve

namespace FilePath

variable {t u : FileTree} {path : Bytes} {location : Location}

theorem frame (h : t.FilePath path location) (hframe : Frame t u) (ht : t.Sound) :
    u.FilePath path location := by
  have hresolve := resolve_frame hframe ht h.resolve_eq
  rw [t.location_placeAt] at hresolve
  exact ⟨hresolve, hframe.filePlace h.place⟩

theorem ne_link (h : t.FilePath path location) (other : Location) (target : Bytes) :
    t.placeAt location ≠ .found other (.link target) := by
  rcases h.place.takesFile with hnone | ⟨mode, content, hfile⟩
  · rw [placeAt_of_none hnone]
    exact Place.noConfusion
  · rw [placeAt_of_some hfile]
    intro heq
    cases heq

theorem location_unique {other : Location} (h : t.FilePath path location)
    (hother : t.FilePath path other) : location = other := by
  have hplaces : t.placeAt location = t.placeAt other :=
    Except.ok.inj (h.resolve_eq.symm.trans hother.resolve_eq)
  rw [← t.location_placeAt location, hplaces, t.location_placeAt]

theorem resolve_true (h : t.FilePath path location) :
    t.resolve true path = .ok (t.placeAt location) := by
  obtain ⟨hpath, hleads⟩ := resolve_eq_ok_iff.1 h.resolve_eq
  exact resolve_eq_ok_iff.2 ⟨hpath, hleads.followedToo h.ne_link⟩

end FilePath

end TokenVault.FileTree
