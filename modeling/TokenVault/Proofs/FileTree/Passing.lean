import TokenVault.Proofs.FileTree.Follow
import TokenVault.Proofs.FileTree.Path

/-!
# The way to a place

`Passes` follows components through directories only.  Whatever stands between other components
is passed on the way to a place (`Leads.passes`), and single dots do not matter
(`Passes.congr`).  So a path to a directory is a matter of its moves (`Enters`), and a file lies
in the directory of its path (`Sound.enters_directory`).
-/

namespace TokenVault.FileTree

/-- Components lead from a directory to a directory, with so many links to go before and after.
A link is always followed. -/
inductive Passes (tree : FileTree) : Nat → Location → List Bytes → Nat → Location → Prop
  | arrived {links here} : Passes tree links here [] links here
  | here {links here rest links' there} (h : Passes tree links here rest links' there) :
    Passes tree links here (Path.here :: rest) links' there
  | up {links here rest links' there} (h : Passes tree links here.dropLast rest links' there) :
    Passes tree links here (Path.up :: rest) links' there
  | directory {links here name mode rest links' there} (hname : IsName name)
      (hat : tree.at? (here ++ [name]) = some (.directory mode))
      (h : Passes tree links (here ++ [name]) rest links' there) :
    Passes tree links here (name :: rest) links' there
  | followed {links here name target rest links' there} (hname : IsName name)
      (hat : tree.at? (here ++ [name]) = some (.link target))
      (h : Passes tree links (if Path.isAbsolute target then [] else here)
        (Path.components target ++ rest) links' there) :
    Passes tree (links + 1) here (name :: rest) links' there

variable {tree : FileTree} {follow : Bool} {links links' : Nat} {here there : Location}
variable {components : List Bytes} {place : Place}

namespace Passes

theorem isDirectory (h : tree.Passes links here components links' there) (ht : tree.Sound)
    (hhere : tree.IsDirectory here) : tree.IsDirectory there := by
  induction h with
  | arrived => exact hhere
  | here _ ih => exact ih hhere
  | up _ ih => exact ih (ht.dropLast hhere)
  | directory _ hat _ ih => exact ih ⟨_, hat⟩
  | followed _ _ _ ih =>
    refine ih ?_
    split
    · exact ht.root
    · exact hhere

/-- Components lead on from where others have led to.  A link at the end has been followed, so
there must be more components, or the link must be one to be followed. -/
theorem leads {before after : List Bytes} (h : tree.Passes links here before links' there)
    (hafter : tree.Leads follow links' there after place) (hgo : after ≠ [] ∨ follow = true) :
    tree.Leads follow links here (before ++ after) place := by
  induction h with
  | arrived => exact hafter
  | here _ ih => exact .here (ih hafter)
  | up _ ih => exact .up (ih hafter)
  | directory hname hat _ ih => exact .directory hname hat (ih hafter)
  | followed hname hat _ ih =>
    refine .followed hname hat ?_ ?_
    · rintro ⟨hnil, hfollow⟩
      rcases hgo with hgo | hgo
      · exact hgo (List.append_eq_nil_iff.1 hnil).2
      · rw [hgo] at hfollow
        cases hfollow
    · have hrest := ih hafter
      rwa [List.append_assoc] at hrest

/-- Following components is following those that are left where the first ones have led to. -/
theorem walk_append {before after : List Bytes} (h : tree.Passes links here before links' there)
    (hafter : after ≠ []) :
    tree.walk follow links here (before ++ after) = tree.walk follow links' there after := by
  induction h with
  | arrived => rfl
  | here _ ih =>
    rw [List.cons_append, walk_cons, if_pos rfl]
    exact ih
  | up _ ih =>
    rw [List.cons_append, walk_cons, if_neg (by decide), if_pos rfl]
    exact ih
  | directory hname hat _ ih =>
    rw [List.cons_append, walk_name hname, hat]
    exact ih
  | followed hname hat _ ih =>
    rw [List.cons_append, walk_name hname, hat]
    simp only
    rw [if_neg fun hnil => hafter (List.append_eq_nil_iff.1 hnil.1).2, ← List.append_assoc]
    exact ih

theorem append {before after : List Bytes} {links'' : Nat} {beyond : Location}
    (h : tree.Passes links here before links' there)
    (hafter : tree.Passes links' there after links'' beyond) :
    tree.Passes links here (before ++ after) links'' beyond := by
  induction h with
  | arrived => exact hafter
  | here _ ih => exact .here (ih hafter)
  | up _ ih => exact .up (ih hafter)
  | directory hname hat _ ih => exact .directory hname hat (ih hafter)
  | followed hname hat _ ih =>
    refine .followed hname hat ?_
    have hrest := ih hafter
    rwa [List.append_assoc] at hrest

theorem split {before after : List Bytes} {links'' : Nat} {beyond : Location}
    (h : tree.Passes links here (before ++ after) links'' beyond) :
    ∃ links' there, tree.Passes links here before links' there ∧
      tree.Passes links' there after links'' beyond := by
  generalize heq : before ++ after = components at h
  -- in each case there is nothing before, or the first component stands before
  induction h generalizing before with
  | arrived =>
    obtain ⟨rfl, rfl⟩ := List.append_eq_nil_iff.1 heq
    exact ⟨_, _, .arrived, .arrived⟩
  | here h ih =>
    rcases List.append_eq_cons_iff.1 heq with ⟨rfl, rfl⟩ | ⟨before, rfl, rfl⟩
    · exact ⟨_, _, .arrived, .here h⟩
    · obtain ⟨_, _, hbefore, hafter⟩ := ih rfl
      exact ⟨_, _, .here hbefore, hafter⟩
  | up h ih =>
    rcases List.append_eq_cons_iff.1 heq with ⟨rfl, rfl⟩ | ⟨before, rfl, rfl⟩
    · exact ⟨_, _, .arrived, .up h⟩
    · obtain ⟨_, _, hbefore, hafter⟩ := ih rfl
      exact ⟨_, _, .up hbefore, hafter⟩
  | directory hname hat h ih =>
    rcases List.append_eq_cons_iff.1 heq with ⟨rfl, rfl⟩ | ⟨before, rfl, rfl⟩
    · exact ⟨_, _, .arrived, .directory hname hat h⟩
    · obtain ⟨_, _, hbefore, hafter⟩ := ih rfl
      exact ⟨_, _, .directory hname hat hbefore, hafter⟩
  | followed hname hat h ih =>
    rcases List.append_eq_cons_iff.1 heq with ⟨rfl, rfl⟩ | ⟨before, rfl, rfl⟩
    · exact ⟨_, _, .arrived, .followed hname hat h⟩
    · obtain ⟨_, _, hbefore, hafter⟩ := ih (List.append_assoc _ before after)
      exact ⟨_, _, .followed hname hat hbefore, hafter⟩

theorem dots {before : List Bytes} (hbefore : ∀ name ∈ before, name = Path.here)
    (h : tree.Passes links here components links' there) :
    tree.Passes links here (before ++ components) links' there := by
  induction before with
  | nil => exact h
  | cons name rest ih =>
    obtain ⟨rfl, hrest⟩ := List.forall_mem_cons.1 hbefore
    exact .here (ih hrest)

/-- Single dots do not matter. -/
theorem congr {others : List Bytes} (h : tree.Passes links here components links' there)
    (heq : others.filter (· ≠ Path.here) = components.filter (· ≠ Path.here)) :
    tree.Passes links here others links' there := by
  -- up to its first name the other list has dots only
  have hsplit : ∀ {name : Bytes} {rest others : List Bytes}, name ≠ Path.here →
      others.filter (· ≠ Path.here) = (name :: rest).filter (· ≠ Path.here) →
      ∃ before after, others = before ++ name :: after ∧ (∀ x ∈ before, x = Path.here) ∧
        after.filter (· ≠ Path.here) = rest.filter (· ≠ Path.here) := by
    intro name rest others hname heq
    rw [List.filter_cons_of_pos (by simpa using hname)] at heq
    obtain ⟨before, after, hothers, hbefore, -, hafter⟩ := List.filter_eq_cons_iff.1 heq
    exact ⟨before, after, hothers, fun x hx => by simpa using hbefore x hx, hafter⟩
  induction h generalizing others with
  | arrived =>
    have hothers : ∀ name ∈ others, name = Path.here := by
      simpa [List.filter_eq_nil_iff] using heq
    rw [← List.append_nil others]
    exact dots hothers .arrived
  | here _ ih => exact ih (heq.trans (List.filter_cons_of_neg (by simp)))
  | up _ ih =>
    obtain ⟨before, after, rfl, hbefore, hafter⟩ := hsplit (by decide) heq
    exact dots hbefore (.up (ih hafter))
  | directory hname hat _ ih =>
    obtain ⟨before, after, rfl, hbefore, hafter⟩ := hsplit hname.ne_here heq
    exact dots hbefore (.directory hname hat (ih hafter))
  | followed hname hat _ ih =>
    obtain ⟨before, after, rfl, hbefore, hafter⟩ := hsplit hname.ne_here heq
    refine dots hbefore (.followed hname hat (ih ?_))
    rw [List.filter_append, List.filter_append, hafter]

end Passes

namespace Leads

/-- Whatever stands before other components leads to a directory. -/
theorem passes {before after : List Bytes}
    (h : tree.Leads follow links here (before ++ after) place) (hafter : after ≠ []) :
    ∃ links' there, tree.Passes links here before links' there ∧
      tree.Leads follow links' there after place := by
  generalize heq : before ++ after = components at h
  induction h generalizing before with
  | arrived => exact absurd (List.append_eq_nil_iff.1 heq).2 hafter
  | here h ih =>
    rcases List.append_eq_cons_iff.1 heq with ⟨rfl, rfl⟩ | ⟨before, rfl, rfl⟩
    · exact ⟨_, _, .arrived, .here h⟩
    · obtain ⟨_, _, hbefore, hrest⟩ := ih rfl
      exact ⟨_, _, .here hbefore, hrest⟩
  | up h ih =>
    rcases List.append_eq_cons_iff.1 heq with ⟨rfl, rfl⟩ | ⟨before, rfl, rfl⟩
    · exact ⟨_, _, .arrived, .up h⟩
    · obtain ⟨_, _, hbefore, hrest⟩ := ih rfl
      exact ⟨_, _, .up hbefore, hrest⟩
  | vacant hname hat =>
    rcases List.append_eq_cons_iff.1 heq with ⟨rfl, rfl⟩ | ⟨before, rfl, hrest⟩
    · exact ⟨_, _, .arrived, .vacant hname hat⟩
    · exact absurd (List.append_eq_nil_iff.1 hrest.symm).2 hafter
  | file hname hat =>
    rcases List.append_eq_cons_iff.1 heq with ⟨rfl, rfl⟩ | ⟨before, rfl, hrest⟩
    · exact ⟨_, _, .arrived, .file hname hat⟩
    · exact absurd (List.append_eq_nil_iff.1 hrest.symm).2 hafter
  | directory hname hat h ih =>
    rcases List.append_eq_cons_iff.1 heq with ⟨rfl, rfl⟩ | ⟨before, rfl, rfl⟩
    · exact ⟨_, _, .arrived, .directory hname hat h⟩
    · obtain ⟨_, _, hbefore, hrest⟩ := ih rfl
      exact ⟨_, _, .directory hname hat hbefore, hrest⟩
  | link hname hat hfollow =>
    rcases List.append_eq_cons_iff.1 heq with ⟨rfl, rfl⟩ | ⟨before, rfl, hrest⟩
    · exact ⟨_, _, .arrived, .link hname hat hfollow⟩
    · exact absurd (List.append_eq_nil_iff.1 hrest.symm).2 hafter
  | followed hname hat hgo h ih =>
    rcases List.append_eq_cons_iff.1 heq with ⟨rfl, rfl⟩ | ⟨before, rfl, rfl⟩
    · exact ⟨_, _, .arrived, .followed hname hat hgo h⟩
    · obtain ⟨_, _, hbefore, hrest⟩ := ih (List.append_assoc _ before after)
      exact ⟨_, _, .followed hname hat hbefore, hrest⟩

/-- Components that lead to a directory pass through directories. -/
theorem passes_of_directory (h : tree.Leads true links here components place)
    (hplace : tree.IsDirectory place.location) :
    ∃ links', tree.Passes links here components links' place.location := by
  induction h with
  | arrived => exact ⟨_, .arrived⟩
  | here _ ih =>
    obtain ⟨_, hrest⟩ := ih hplace
    exact ⟨_, .here hrest⟩
  | up _ ih =>
    obtain ⟨_, hrest⟩ := ih hplace
    exact ⟨_, .up hrest⟩
  | vacant _ hat => exact absurd (.inl hat) hplace.not_takesFile
  | file _ hat => exact absurd (.inr ⟨_, _, hat⟩) hplace.not_takesFile
  | directory hname hat _ ih =>
    obtain ⟨_, hrest⟩ := ih hplace
    exact ⟨_, .directory hname hat hrest⟩
  | link _ _ hfollow => cases hfollow
  | followed hname hat _ _ ih =>
    obtain ⟨_, hrest⟩ := ih hplace
    exact ⟨_, .followed hname hat hrest⟩

/-- Where components lead if all links are followed, they lead somewhere if the last is not. -/
theorem notFollowed (h : tree.Leads true links here components place) :
    ∃ place', tree.Leads false links here components place' ∧
      (place.occupant ≠ none → place'.occupant ≠ none) := by
  induction h with
  | arrived => exact ⟨_, .arrived, fun h => h⟩
  | here _ ih =>
    obtain ⟨_, hrest, hoccupant⟩ := ih
    exact ⟨_, .here hrest, hoccupant⟩
  | up _ ih =>
    obtain ⟨_, hrest, hoccupant⟩ := ih
    exact ⟨_, .up hrest, hoccupant⟩
  | vacant hname hat => exact ⟨_, .vacant hname hat, fun h => h⟩
  | file hname hat => exact ⟨_, .file hname hat, fun h => h⟩
  | directory hname hat _ ih =>
    obtain ⟨_, hrest, hoccupant⟩ := ih
    exact ⟨_, .directory hname hat hrest, hoccupant⟩
  | link _ _ hfollow => cases hfollow
  | @followed _ _ _ target rest _ hname hat _ _ ih =>
    obtain ⟨_, hrest, hoccupant⟩ := ih
    by_cases hnil : rest = []
    · subst hnil
      exact ⟨_, .link hname hat rfl, fun _ => Option.some_ne_none _⟩
    · exact ⟨_, .followed hname hat (fun h => hnil h.1) hrest, hoccupant⟩

/-- If components lead to something, what the last one that is no dot stands for is there, or it
goes up. -/
theorem last_move {moves : List Bytes} {name : Bytes}
    (h : tree.Leads follow links here components place) (hplace : place.occupant ≠ none)
    (hmoves : components.filter (· ≠ Path.here) = moves ++ [name]) :
    ∃ links' there, tree.Passes links here moves links' there ∧
      (name = Path.up ∨ tree.at? (there ++ [name]) ≠ none) := by
  obtain ⟨before, last, rfl, hbefore, hlast⟩ := List.filter_eq_append_iff.1 hmoves
  obtain ⟨dots, after, rfl, hdots, hname, -⟩ := List.filter_eq_cons_iff.1 hlast
  have hdots : dots.filter (· ≠ Path.here) = [] := List.filter_eq_nil_iff.2 hdots
  rw [← List.append_assoc] at h
  obtain ⟨links', there, hpasses, hrest⟩ := h.passes (List.cons_ne_nil _ _)
  refine ⟨links', there, hpasses.congr ?_, ?_⟩
  · rw [List.filter_append, hdots, List.append_nil, ← hbefore, List.filter_filter]
    simp
  · cases hrest with
    | here _ => simp at hname
    | up _ => exact .inl rfl
    | vacant _ _ => exact absurd rfl hplace
    | file _ hat => exact .inr (hat ▸ Option.some_ne_none _)
    | directory _ hat _ => exact .inr (hat ▸ Option.some_ne_none _)
    | link _ hat _ => exact .inr (hat ▸ Option.some_ne_none _)
    | followed _ hat _ _ => exact .inr (hat ▸ Option.some_ne_none _)

/-- A single component that leads to where a file may come is the name there. -/
theorem location_eq {name : Bytes} (h : tree.Leads false links here [name] place)
    (hhere : tree.IsDirectory here) (ht : tree.Sound) (htakes : tree.TakesFile place.location) :
    IsName name ∧ place.location = here ++ [name] := by
  -- dots and directories would lead to a directory
  cases h with
  | here h =>
    cases h
    exact absurd htakes hhere.not_takesFile
  | up h =>
    cases h
    exact absurd htakes (ht.dropLast hhere).not_takesFile
  | vacant hname _ => exact ⟨hname, rfl⟩
  | file hname _ => exact ⟨hname, rfl⟩
  | directory _ hat h =>
    cases h
    exact absurd htakes (IsDirectory.not_takesFile ⟨_, hat⟩)
  | link _ hat _ => exact absurd htakes (not_takesFile_of_link hat)
  | followed _ _ hgo _ => exact absurd ⟨rfl, rfl⟩ hgo

theorem length_le {name : Bytes} {rest : List Bytes}
    (h : tree.Leads follow links here (name :: rest) place) : name.length ≤ longestName := by
  cases h with
  | here _ => decide
  | up _ => decide
  | vacant hname _ => exact hname.length_le
  | file hname _ => exact hname.length_le
  | directory hname _ _ => exact hname.length_le
  | link hname _ _ => exact hname.length_le
  | followed hname _ _ _ => exact hname.length_le

/-- A single component leads somewhere unless it is too long. -/
theorem single (tree : FileTree) (links : Nat) (here : Location) {name : Bytes}
    (h : name.length ≤ longestName) : ∃ place, tree.Leads false links here [name] place := by
  by_cases hhere : name = Path.here
  · subst hhere
    exact ⟨_, .here .arrived⟩
  · by_cases hup : name = Path.up
    · subst hup
      exact ⟨_, .up .arrived⟩
    · have hname : IsName name := ⟨hhere, hup, h⟩
      rcases hat : tree.at? (here ++ [name]) with _ | ⟨mode, content⟩ | mode | target
      · exact ⟨_, .vacant hname hat⟩
      · exact ⟨_, .file hname hat⟩
      · exact ⟨_, .directory hname hat .arrived⟩
      · exact ⟨_, .link hname hat rfl⟩

end Leads

theorem Passes.unique {links'' : Nat} {there' : Location}
    (h : tree.Passes links here components links' there)
    (h' : tree.Passes links here components links'' there') : there = there' := by
  have hwalk : ∀ {links' there}, tree.Passes links here components links' there →
      tree.walk true links here (components ++ []) =
        .ok (.found there ((tree.at? there).getD rootEntry)) :=
    fun h => (h.leads .arrived (.inr rfl)).walk_eq
  have hplaces := (hwalk h).symm.trans (hwalk h')
  rw [Except.ok.injEq, Place.found.injEq] at hplaces
  exact hplaces.1

/-! ### Directories of paths -/

/-- Whether a path leads to the directory at a location. -/
structure Enters (tree : FileTree) (path : Bytes) (location : Location) : Prop where
  isPath : IsPath path
  passes : ∃ links, tree.Passes linkLimit (tree.start path) (Path.moves path) links location

variable {path : Bytes} {location : Location}

theorem moves_moves (path : Bytes) :
    (Path.moves path).filter (· ≠ Path.here) = Path.moves path := by
  rw [Path.moves, List.filter_filter]
  simp

theorem Sound.enters_iff (ht : tree.Sound) :
    tree.Enters path location ↔ ∃ mode, tree.follow path = .ok (location, .directory mode) := by
  constructor
  · rintro ⟨hpath, links, hpasses⟩
    obtain ⟨mode, hmode⟩ := hpasses.isDirectory ht (ht.isDirectory_start path)
    have hcomponents : tree.Passes linkLimit (tree.start path) (Path.components path) links
        location := hpasses.congr (moves_moves path).symm
    have hleads : tree.Leads true linkLimit (tree.start path) (Path.components path ++ [])
        (.found location ((tree.at? location).getD rootEntry)) :=
      hcomponents.leads .arrived (.inr rfl)
    rw [List.append_nil, hmode] at hleads
    exact ⟨mode, follow_eq_ok_iff.2 (resolve_eq_ok_iff.2 ⟨hpath, hleads⟩)⟩
  · rintro ⟨mode, hfollow⟩
    have hat := ht.at?_of_follow hfollow
    obtain ⟨hpath, hleads⟩ := resolve_eq_ok_iff.1 (follow_eq_ok_iff.1 hfollow)
    obtain ⟨links, hpasses⟩ := hleads.passes_of_directory ⟨mode, hat⟩
    exact ⟨hpath, links, hpasses.congr (moves_moves path)⟩

theorem Sound.reachesDirectory_iff (ht : tree.Sound) :
    tree.reachesDirectory path = true ↔ ∃ location, tree.Enters path location := by
  unfold reachesDirectory
  constructor
  · intro h
    split at h
    · next location mode hfollow => exact ⟨location, ht.enters_iff.2 ⟨mode, hfollow⟩⟩
    · cases h
  · rintro ⟨location, h⟩
    obtain ⟨mode, hfollow⟩ := ht.enters_iff.1 h
    rw [hfollow]

/-- Two paths that start alike start in the same directory. -/
theorem start_eq {other : Bytes} (h : Path.isAbsolute other = Path.isAbsolute path) :
    tree.start other = tree.start path := by
  rw [start, start, h]

theorem enters_here : tree.Enters Path.here tree.workingDirectory :=
  ⟨⟨by decide, by decide, by decide⟩, linkLimit, .arrived⟩

/-- The directory of a file is there if the components before the last part of its path lead
anywhere. -/
theorem enters_directory {outer : List Bytes} {last : Bytes} (hsplit : Path.Split path outer last)
    (hzero : 0 ∉ path) (hlength : path.length ≤ longestPath)
    (h : tree.Passes linkLimit (tree.start path) outer links there) :
    ∃ location, tree.Enters (Path.directory path) location := by
  rcases Path.directory_spec path with hhere | ⟨hne, hfirst, -⟩
  · exact ⟨_, hhere ▸ enters_here⟩
  · rcases hsplit.directory with hhere | ⟨rest, hrest⟩
    · exact ⟨_, hhere ▸ enters_here⟩
    · have hmoves : tree.Passes linkLimit (tree.start path)
          (Path.moves (Path.directory path) ++ rest) links there := by
        refine h.congr ?_
        rw [hrest, List.filter_filter]
        simp
      obtain ⟨links', location, hdirectory, -⟩ := hmoves.split
      refine ⟨location, ⟨fun hmem => hzero (hfirst.subset hmem), hne,
        hfirst.length_le.trans hlength⟩, links', ?_⟩
      rwa [start_eq (Path.isAbsolute_eq hfirst hne)]

/-- A path that leads anywhere leads through the directory of its file. -/
theorem enters_directory_of_resolve (h : tree.resolve follow path = .ok place) :
    ∃ location, tree.Enters (Path.directory path) location := by
  obtain ⟨hpath, hleads⟩ := resolve_eq_ok_iff.1 h
  obtain ⟨outer, last, hsplit⟩ := Path.exists_split path
  rw [hsplit.components_eq hpath.ne_nil] at hleads
  obtain ⟨links', there, hpasses, -⟩ := hleads.passes (List.cons_ne_nil _ _)
  exact enters_directory hsplit hpath.no_zero hpath.length_le hpasses

/-! ### A file beside another -/

section Beside

variable {suffix : Bytes} (hsuffix : suffix ≠ []) (hslash : Path.slash ∉ suffix)

include hsuffix hslash

/-- A path with a suffix leads through the same directories as the path. -/
theorem passes_beside (h : tree.resolve follow (path ++ suffix) = .ok place) :
    ∃ outer last links there, Path.Split path outer last ∧
      tree.Passes linkLimit (tree.start path) outer links there ∧
      tree.Leads follow links there [last ++ suffix] place := by
  obtain ⟨-, hleads⟩ := resolve_eq_ok_iff.1 h
  obtain ⟨outer, last, hsplit⟩ := Path.exists_split path
  rw [start_eq (Path.isAbsolute_append hslash path),
    hsplit.components_append suffix hsuffix hslash] at hleads
  obtain ⟨links', there, hpasses, hlast⟩ := hleads.passes (List.cons_ne_nil _ _)
  exact ⟨outer, last, links', there, hsplit, hpasses, hlast⟩

/-- If a path with a suffix leads anywhere, the directory of the path is there. -/
theorem enters_directory_beside (h : tree.resolve follow (path ++ suffix) = .ok place) :
    ∃ location, tree.Enters (Path.directory path) location := by
  obtain ⟨hpath, -⟩ := resolve_eq_ok_iff.1 h
  obtain ⟨outer, last, links', there, hsplit, hpasses, -⟩ := passes_beside hsuffix hslash h
  have hfirst : path <+: path ++ suffix := List.prefix_append _ _
  exact enters_directory hsplit (fun hmem => hpath.no_zero (hfirst.subset hmem))
    (hfirst.length_le.trans hpath.length_le) hpasses

/-- If a path with a suffix leads anywhere, so does the path, unless it is empty. -/
theorem resolve_beside (hne : path ≠ [])
    (h : tree.resolve follow (path ++ suffix) = .ok place) :
    ∃ place', tree.resolve false path = .ok place' := by
  obtain ⟨hpath, -⟩ := resolve_eq_ok_iff.1 h
  obtain ⟨outer, last, links', there, hsplit, hpasses, hlast⟩ := passes_beside hsuffix hslash h
  have hlength : (if last = [] then Path.here else last).length ≤ longestName := by
    have hle := hlast.length_le
    rw [List.length_append] at hle
    split
    · decide
    · omega
  obtain ⟨place', hsingle⟩ := Leads.single tree links' there hlength
  have hleads := hpasses.leads hsingle (.inl (List.cons_ne_nil _ _))
  rw [← hsplit.components_eq hne] at hleads
  have hfirst : path <+: path ++ suffix := List.prefix_append _ _
  exact ⟨place', resolve_eq_ok_iff.2 ⟨⟨fun hmem => hpath.no_zero (hfirst.subset hmem), hne,
    hfirst.length_le.trans hpath.length_le⟩, hleads⟩⟩

/-- A file and one whose path is the same with a suffix are in one directory, where their names
differ by the suffix. -/
theorem location_beside (ht : tree.Sound) {other : Location} (h : tree.FilePath path location)
    (hother : tree.FilePath (path ++ suffix) other) :
    ∃ outer name, location = outer ++ [name] ∧ other = outer ++ [name ++ suffix] := by
  obtain ⟨outer, last, links', there, hsplit, hpasses, hlast⟩ :=
    passes_beside hsuffix hslash hother.resolve_eq
  obtain ⟨hpath, hleads⟩ := resolve_eq_ok_iff.1 h.resolve_eq
  rw [hsplit.components_eq hpath.ne_nil] at hleads
  obtain ⟨_, there', hpasses', hdata⟩ := hleads.passes (List.cons_ne_nil _ _)
  obtain rfl := hpasses.unique hpasses'
  have hthere := hpasses.isDirectory ht (ht.isDirectory_start path)
  obtain ⟨hname, hlocation⟩ := hdata.location_eq hthere ht <| by
    rw [location_placeAt]
    exact h.place.takesFile
  obtain ⟨-, hlocation'⟩ := hlast.location_eq hthere ht <| by
    rw [location_placeAt]
    exact hother.place.takesFile
  rw [location_placeAt] at hlocation hlocation'
  -- the last component is a name, so the path does not end in a slash
  have hnil : last ≠ [] := by
    rintro rfl
    exact hname.ne_here rfl
  rw [if_neg hnil] at hlocation
  exact ⟨there, last, hlocation, hlocation'⟩

theorem ne_beside (ht : tree.Sound) {other : Location} (h : tree.FilePath path location)
    (hother : tree.FilePath (path ++ suffix) other) : location ≠ other := by
  obtain ⟨outer, name, rfl, rfl⟩ := location_beside hsuffix hslash ht h hother
  intro heq
  have hsame := List.append_cancel_left heq
  rw [List.cons.injEq] at hsame
  exact hsuffix (List.self_eq_append_right.1 hsame.1)

end Beside

end TokenVault.FileTree
