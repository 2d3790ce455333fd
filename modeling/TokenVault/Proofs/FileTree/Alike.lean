import Mathlib.Data.List.Forall2
import TokenVault.Proofs.FileTree.Follow
import TokenVault.Proofs.Result

/-!
# Trees that differ in what their files contain

Whatever is done to two trees with the same locations, modes, links and directories is done alike
to both: paths lead to the same places, and a change is refused in both or in neither, for the same
reason.  What the files contain may be related in any way that relates every content to itself.
-/

namespace TokenVault

open Result (Both)

/-- Whether two entries are the same, but for what is in them if they are files. -/
inductive Entry.Alike (R : Bytes → Bytes → Prop) : Entry → Entry → Prop
  | file (mode : Nat) {c d : Bytes} : R c d → Alike R (.file mode c) (.file mode d)
  | directory (mode : Nat) : Alike R (.directory mode) (.directory mode)
  | link (target : Bytes) : Alike R (.link target) (.link target)

namespace FileTree

/-- Whether two trees have the same locations, with entries that are alike. -/
structure Alike (R : Bytes → Bytes → Prop) (a b : FileTree) : Prop where
  entries : List.Forall₂ (fun x y => x.1 = y.1 ∧ Entry.Alike R x.2 y.2) a.entries b.entries
  workingDirectory : a.workingDirectory = b.workingDirectory

/-- Whether two paths lead to one place, with entries that are alike. -/
inductive Place.Alike (R : Bytes → Bytes → Prop) : Place → Place → Prop
  | found (location : Location) {x y : Entry} : Entry.Alike R x y →
      Alike R (.found location x) (.found location y)
  | vacant (location : Location) : Alike R (.vacant location) (.vacant location)

variable {R : Bytes → Bytes → Prop} {a b : FileTree}

theorem lookup_alike {x y : List (TokenVault.Key × Entry)}
    (h : List.Forall₂ (fun x y => x.1 = y.1 ∧ Entry.Alike R x.2 y.2) x y) (key : TokenVault.Key) :
    Option.Rel (Entry.Alike R) (x.lookup key) (y.lookup key) := by
  induction h with
  | nil => exact .none
  | @cons e e' _ _ he _ ih =>
    rw [List.lookup_cons, List.lookup_cons, ← he.1]
    cases key == e.1 with
    | true => exact .some he.2
    | false => exact ih

namespace Alike

theorem refl (hR : ∀ octets, R octets octets) (tree : FileTree) : Alike R tree tree := by
  refine ⟨List.forall₂_same.2 fun e _ => ⟨rfl, ?_⟩, rfl⟩
  cases e.2 with
  | file mode octets => exact .file mode (hR octets)
  | directory mode => exact .directory mode
  | link target => exact .link target

theorem at? (h : Alike R a b) (location : Location) :
    Option.Rel (Entry.Alike R) (a.at? location) (b.at? location) := by
  have hlookup := lookup_alike h.entries location.key
  unfold FileTree.at?
  generalize a.entries.lookup location.key = x at hlookup ⊢
  generalize b.entries.lookup location.key = y at hlookup ⊢
  cases hlookup with
  | none =>
    dsimp only
    split_ifs
    · exact .some (.directory _)
    · exact .none
  | some hentry => exact .some hentry

theorem at?_of_none (h : Alike R a b) {location : Location} (hnone : a.at? location = none) :
    b.at? location = none := by
  have hat := h.at? location
  rw [hnone] at hat
  generalize b.at? location = y at hat ⊢
  cases hat with
  | none => rfl

theorem at?_of_some (h : Alike R a b) {location : Location} {entry : Entry}
    (hsome : a.at? location = some entry) :
    ∃ entry', b.at? location = some entry' ∧ Entry.Alike R entry entry' := by
  have hat := h.at? location
  rw [hsome] at hat
  generalize b.at? location = y at hat ⊢
  cases hat with
  | some hentry => exact ⟨_, rfl, hentry⟩

/-! ### Following paths -/

/-- Components lead to the same places. -/
theorem walk (h : Alike R a b) (follow : Bool) (links : Nat) (here : Location)
    (components : List Bytes) :
    Both (· = ·) (Place.Alike R) (a.walk follow links here components)
      (b.walk follow links here components) := by
  -- the entries on the way are alike
  induction links, here, components using FileTree.walk_induct with
  | nil links here =>
    rw [walk_nil, walk_nil]
    refine .ok (.found here ?_)
    have hat := h.at? here
    generalize a.at? here = x at hat ⊢
    generalize b.at? here = y at hat ⊢
    cases hat with
    | none => exact .directory _
    | some hentry => exact hentry
  | cons links here name rest ih ihlink =>
    by_cases hhere : name = Path.here
    · rw [walk_cons, walk_cons, if_pos hhere, if_pos hhere]
      exact ih _
    by_cases hup : name = Path.up
    · rw [walk_cons, walk_cons, if_neg hhere, if_pos hup, if_neg hhere, if_pos hup]
      exact ih _
    by_cases hlong : longestName < name.length
    · rw [walk_cons, walk_cons, if_neg hhere, if_neg hup, if_pos hlong, if_neg hhere, if_neg hup,
        if_pos hlong]
      exact .error rfl
    have hname : IsName name := ⟨hhere, hup, Nat.le_of_not_lt hlong⟩
    rw [walk_name hname, walk_name hname]
    have hat := h.at? (here ++ [name])
    generalize a.at? (here ++ [name]) = x at hat ⊢
    generalize b.at? (here ++ [name]) = y at hat ⊢
    cases hat with
    | none =>
      dsimp only
      split
      · exact .ok (.vacant _)
      · exact .error rfl
    | some hentry =>
      cases hentry with
      | directory mode => exact ih _
      | file mode hR =>
        dsimp only
        split
        · exact .ok (.found _ (.file mode hR))
        · exact .error rfl
      | link target =>
        dsimp only
        split
        · exact .ok (.found _ (.link target))
        · cases links with
          | zero => exact .error rfl
          | succ links => exact ihlink links rfl _ _

/-- A path leads to the same place. -/
theorem resolve (h : Alike R a b) (follow : Bool) (path : Bytes) :
    Both (· = ·) (Place.Alike R) (a.resolve follow path) (b.resolve follow path) := by
  unfold FileTree.resolve
  rw [← h.workingDirectory]
  split_ifs
  · exact .error rfl
  · exact .error rfl
  · exact .error rfl
  · exact h.walk follow _ _ _
  · exact h.walk follow _ _ _

theorem inspect (h : Alike R a b) (path : Bytes) :
    Both (· = ·) (Entry.Alike R) (a.inspect path) (b.inspect path) := by
  have hplace := h.resolve false path
  unfold FileTree.inspect
  generalize a.resolve false path = x at hplace ⊢
  generalize b.resolve false path = y at hplace ⊢
  cases hplace with
  | error hsame => exact .error hsame
  | ok hplace =>
    cases hplace with
    | found location hentry => exact .ok hentry
    | vacant location => exact .error rfl

theorem follow (h : Alike R a b) (path : Bytes) :
    Both (· = ·) (fun x y => x.1 = y.1 ∧ Entry.Alike R x.2 y.2) (a.follow path)
      (b.follow path) := by
  have hplace := h.resolve true path
  unfold FileTree.follow
  generalize a.resolve true path = x at hplace ⊢
  generalize b.resolve true path = y at hplace ⊢
  cases hplace with
  | error hsame => exact .error hsame
  | ok hplace =>
    cases hplace with
    | found location hentry => exact .ok ⟨rfl, hentry⟩
    | vacant location => exact .error rfl

theorem reaches (h : Alike R a b) (path : Bytes) : a.reaches path = b.reaches path := by
  have hfollow := h.follow path
  unfold FileTree.reaches
  generalize a.follow path = x at hfollow ⊢
  generalize b.follow path = y at hfollow ⊢
  cases hfollow <;> rfl

theorem reachesDirectory (h : Alike R a b) (path : Bytes) :
    a.reachesDirectory path = b.reachesDirectory path := by
  have hfollow := h.follow path
  unfold FileTree.reachesDirectory
  generalize a.follow path = x at hfollow ⊢
  generalize b.follow path = y at hfollow ⊢
  cases hfollow with
  | error => rfl
  | @ok x y hxy =>
    obtain ⟨location, entry⟩ := x
    obtain ⟨location', entry'⟩ := y
    obtain ⟨_, hentry⟩ := hxy
    cases hentry <;> rfl

/-- What is in a file is related as the contents of the files are. -/
theorem content (h : Alike R a b) (path : Bytes) :
    Both (· = ·) R (a.content path) (b.content path) := by
  have hfollow := h.follow path
  unfold FileTree.content
  generalize a.follow path = x at hfollow ⊢
  generalize b.follow path = y at hfollow ⊢
  cases hfollow with
  | error hsame => exact .error hsame
  | @ok x y hxy =>
    obtain ⟨location, entry⟩ := x
    obtain ⟨location', entry'⟩ := y
    obtain ⟨_, hentry⟩ := hxy
    cases hentry with
    | file mode hR => exact .ok hR
    | directory | link => exact .error rfl

/-! ### Changing trees -/

theorem filter (h : Alike R a b) (p : TokenVault.Key → Bool) :
    List.Forall₂ (fun x y => x.1 = y.1 ∧ Entry.Alike R x.2 y.2)
      (a.entries.filter fun e => p e.1) (b.entries.filter fun e => p e.1) := by
  have hentries := h.entries
  generalize a.entries = x at hentries ⊢
  generalize b.entries = y at hentries ⊢
  induction hentries with
  | nil => exact .nil
  | @cons e e' _ _ he _ ih =>
    rw [List.filter_cons, List.filter_cons, ← he.1]
    split_ifs
    · exact .cons he ih
    · exact ih

theorem put (h : Alike R a b) (location : Location) {x y : Entry} (hentry : Entry.Alike R x y) :
    Alike R (a.put location x) (b.put location y) :=
  ⟨.cons ⟨rfl, hentry⟩ (h.filter (· != location.key)), h.workingDirectory⟩

theorem drop (h : Alike R a b) (location : Location) :
    Alike R (a.drop location) (b.drop location) :=
  ⟨h.filter (· != location.key), h.workingDirectory⟩

theorem dropBelow (h : Alike R a b) (location : Location) :
    Alike R (a.dropBelow location) (b.dropBelow location) :=
  ⟨h.filter fun key => !within location key.location, h.workingDirectory⟩

theorem move (h : Alike R a b) (source target : Location) :
    Alike R (a.move source target) (b.move source target) := by
  have hmoved := h.filter fun key => within source key.location
  refine ⟨List.rel_append ?_ ((h.dropBelow source).dropBelow target).entries, h.workingDirectory⟩
  rw [List.forall₂_map_left_iff, List.forall₂_map_right_iff]
  exact hmoved.imp fun x y hxy => ⟨by rw [hxy.1], hxy.2⟩

theorem keys (h : Alike R a b) : a.entries.map (·.1) = b.entries.map (·.1) := by
  rw [← List.forall₂_eq_eq_eq, List.forall₂_map_left_iff, List.forall₂_map_right_iff]
  exact h.entries.imp fun _ _ hxy => hxy.1

theorem names (h : Alike R a b) (location : Location) : a.names location = b.names location := by
  have hnames : ∀ tree : FileTree, tree.names location =
      (tree.entries.map (·.1)).filterMap fun key =>
        if key.depth = location.length + 1 ∧ key.location.dropLast = location then
          key.location.getLast?
        else none := fun tree => by
    rw [FileTree.names, List.filterMap_map]
    rfl
  rw [hnames, hnames, h.keys]

theorem openFile (h : Alike R a b) (hempty : R [] []) (path : Bytes) (mode : Nat) :
    Both (· = ·) (Alike R) (a.openFile path mode) (b.openFile path mode) := by
  have hplace := h.resolve true path
  unfold FileTree.openFile
  generalize a.resolve true path = x at hplace ⊢
  generalize b.resolve true path = y at hplace ⊢
  cases hplace with
  | error hsame => exact .error hsame
  | ok hplace =>
    cases hplace with
    | found location hentry =>
      cases hentry with
      | file mode hR => exact .ok h
      | directory | link => exact .error rfl
    | vacant location => exact .ok (h.put location (.file _ hempty))

theorem vacancy (h : Alike R a b) (path : Bytes) : a.vacancy path = b.vacancy path := by
  have hplace := h.resolve false (Path.withoutSlashes path)
  unfold FileTree.vacancy
  generalize a.resolve false (Path.withoutSlashes path) = x at hplace ⊢
  generalize b.resolve false (Path.withoutSlashes path) = y at hplace ⊢
  cases hplace with
  | error hsame => rw [hsame]
  | ok hplace =>
    cases hplace with
    | found location hentry => rfl
    | vacant location => rfl

theorem putDirectory (h : Alike R a b) (refusal : Option String) (mode : Nat)
    (location : Location) :
    Alike R (a.putDirectory refusal mode location).1 (b.putDirectory refusal mode location).1 ∧
      (a.putDirectory refusal mode location).2 = (b.putDirectory refusal mode location).2 := by
  cases refusal with
  | some wording => exact ⟨h, rfl⟩
  | none => exact ⟨h.put location (.directory _), rfl⟩

/-- The same directories are made. -/
theorem makeNewDirectories (h : Alike R a b) (refusal : Bytes → Option String) (mode : Nat)
    (dirs : List Bytes) :
    Alike R (a.makeNewDirectories refusal mode dirs).1 (b.makeNewDirectories refusal mode dirs).1 ∧
      (a.makeNewDirectories refusal mode dirs).2 =
        (b.makeNewDirectories refusal mode dirs).2 := by
  induction dirs with
  | nil => exact ⟨h, rfl⟩
  | cons dir outer ih =>
    rw [FileTree.makeNewDirectories, FileTree.makeNewDirectories, ← h.vacancy dir]
    dsimp only
    cases a.vacancy dir with
    | ok location => exact h.putDirectory (refusal dir) mode location
    | error e =>
      cases e with
      | notFound =>
        dsimp only
        generalize a.makeNewDirectories refusal mode outer = x at ih ⊢
        generalize b.makeNewDirectories refusal mode outer = y at ih ⊢
        obtain ⟨x, result⟩ := x
        obtain ⟨y, result'⟩ := y
        obtain ⟨htree, hresult⟩ := ih
        obtain rfl : result = result' := hresult
        cases result with
        | error e => exact ⟨htree, rfl⟩
        | ok newOuter =>
          dsimp only
          cases newOuter.bind (vacancyIn · dir) with
          | some location => exact htree.putDirectory (refusal dir) mode location
          | none =>
            dsimp only
            rw [← htree.vacancy dir]
            cases x.vacancy dir with
            | ok location => exact htree.putDirectory (refusal dir) mode location
            | error e => exact ⟨htree, by rw [htree.reachesDirectory]⟩
      | _ => exact ⟨h, by rw [h.reachesDirectory]⟩

theorem checkReplace (h : Alike R a b) (location : Location) {source source' target target' : Entry}
    (hsource : Entry.Alike R source source') (htarget : Entry.Alike R target target') :
    a.checkReplace source location target = b.checkReplace source' location target' := by
  cases htarget with
  | directory mode =>
    cases hsource with
    | directory mode => rw [FileTree.checkReplace, FileTree.checkReplace, h.names location]
    | file | link => rfl
  | file | link => cases hsource <;> rfl

theorem moveTo (h : Alike R a b) (source : Location) (path : Bytes) :
    Both (· = ·) (Alike R) (a.moveTo source path) (b.moveTo source path) := by
  have hat := h.at? source
  unfold FileTree.moveTo
  generalize a.at? source = x at hat ⊢
  generalize b.at? source = y at hat ⊢
  cases hat with
  | none => exact .error rfl
  | @some entry entry' hentry =>
    have hreplace : ∀ location {x y}, Entry.Alike R x y →
        a.checkReplace entry location x = b.checkReplace entry' location y :=
      fun location _ _ hxy => h.checkReplace location hentry hxy
    -- a directory and a file are moved to different paths, but in the same way
    cases hentry
    all_goals
      dsimp only
      generalize hx : a.resolve false _ = x
      generalize hy : b.resolve false _ = y
      have hplace : Both (· = ·) (Place.Alike R) x y := by
        rw [← hx, ← hy]
        exact h.resolve false _
      cases hplace with
      | error hsame => exact .error hsame
      | ok hplace =>
        cases hplace with
        | vacant location =>
          dsimp only
          split_ifs
          · exact .error rfl
          · exact .ok (h.move source location)
        | @found location x y hxy =>
          dsimp only
          rw [← hreplace location hxy]
          split_ifs
          · exact .ok h
          · exact .error rfl
          · split
            · exact .ok (h.move source location)
            · exact .error rfl

end Alike

end FileTree

end TokenVault
