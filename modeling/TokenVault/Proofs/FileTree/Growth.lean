import TokenVault.Proofs.FileTree.Files
import TokenVault.Proofs.FileTree.Passing

/-!
# Growing file trees

A tree grows if whatever is in it stays where it is (`Grows`), so a path that leads to something
leads there still.  Making a directory and what is missing on the way to it makes a tree grow
(`Paved`): either the directory is a new one with nothing in it, or it was there and nothing has
been changed, or it is not there and the request fails.
-/

namespace TokenVault.FileTree

/-- Whether a tree has all that another has, at the same places. -/
structure Grows (tree tree' : FileTree) : Prop where
  workingDirectory : tree'.workingDirectory = tree.workingDirectory
  at?_eq : ∀ location entry, tree.at? location = some entry → tree'.at? location = some entry

variable {tree t u : FileTree} {path : Bytes} {location here there : Location}
variable {follow : Bool} {links links' : Nat} {components : List Bytes} {place : Place}

namespace Grows

theorem refl (t : FileTree) : Grows t t := ⟨rfl, fun _ _ h => h⟩

theorem trans {v : FileTree} (htu : Grows t u) (huv : Grows u v) : Grows t v where
  workingDirectory := huv.workingDirectory.trans htu.workingDirectory
  at?_eq location entry h := huv.at?_eq location entry (htu.at?_eq location entry h)

theorem put (h : tree.at? location = none) (entry : Entry) :
    Grows tree (tree.put location entry) where
  workingDirectory := rfl
  at?_eq other existing hother := by
    have hne : other ≠ location := by
      rintro rfl
      rw [h] at hother
      cases hother
    rw [at?_put, if_neg hne, hother]

theorem start_eq (h : Grows t u) (path : Bytes) : u.start path = t.start path := by
  rw [start, start, h.workingDirectory]

/-- What has been passed can be passed still. -/
theorem passes (h : Grows t u) (hpasses : t.Passes links here components links' there) :
    u.Passes links here components links' there := by
  induction hpasses with
  | arrived => exact .arrived
  | here _ ih => exact .here ih
  | up _ ih => exact .up ih
  | directory hname hat _ ih => exact .directory hname (h.at?_eq _ _ hat) ih
  | followed hname hat _ ih => exact .followed hname (h.at?_eq _ _ hat) ih

/-- What components have led to they lead to still. -/
theorem leads (h : Grows t u) (ht : t.Sound) (hhere : t.IsDirectory here)
    (hleads : t.Leads follow links here components place) (hplace : place.occupant ≠ none) :
    u.Leads follow links here components place := by
  induction hleads with
  | @arrived links here =>
    obtain ⟨mode, hmode⟩ := hhere
    have harrived : u.Leads follow links here [] (.found here ((u.at? here).getD rootEntry)) :=
      .arrived
    rw [h.at?_eq _ _ hmode] at harrived
    rwa [hmode]
  | here _ ih => exact .here (ih hhere hplace)
  | up _ ih => exact .up (ih (ht.dropLast hhere) hplace)
  | vacant _ _ => exact absurd rfl hplace
  | file hname hat => exact .file hname (h.at?_eq _ _ hat)
  | directory hname hat _ ih => exact .directory hname (h.at?_eq _ _ hat) (ih ⟨_, hat⟩ hplace)
  | link hname hat hfollow => exact .link hname (h.at?_eq _ _ hat) hfollow
  | followed hname hat hgo _ ih =>
    refine .followed hname (h.at?_eq _ _ hat) hgo (ih ?_ hplace)
    split
    · exact ht.root
    · exact hhere

theorem resolve (h : Grows t u) (ht : t.Sound) {entry : Entry}
    (hresolve : t.resolve follow path = .ok (.found location entry)) :
    u.resolve follow path = .ok (.found location entry) := by
  obtain ⟨hpath, hleads⟩ := resolve_eq_ok_iff.1 hresolve
  refine resolve_eq_ok_iff.2 ⟨hpath, ?_⟩
  rw [h.start_eq]
  exact h.leads ht (ht.isDirectory_start path) hleads (Option.some_ne_none _)

end Grows

theorem inspect_eq_ok_iff {entry : Entry} :
    tree.inspect path = .ok entry ↔
      ∃ location, tree.resolve false path = .ok (.found location entry) := by
  unfold inspect
  constructor
  · intro h
    split at h
    · next location _ hresolve =>
      cases h
      exact ⟨location, hresolve⟩
    · cases h
    · cases h
  · rintro ⟨location, h⟩
    rw [h]

/-- What a path has led to it leads to still. -/
theorem Grows.inspect (h : Grows t u) (ht : t.Sound) {entry : Entry}
    (hinspect : t.inspect path = .ok entry) : u.inspect path = .ok entry := by
  obtain ⟨location, hresolve⟩ := inspect_eq_ok_iff.1 hinspect
  exact inspect_eq_ok_iff.2 ⟨location, h.resolve ht hresolve⟩

/-- A path that is no link leads where it leads with all links followed. -/
theorem resolve_of_followed (hlink : ∀ target, tree.inspect path ≠ .ok (.link target))
    (h : tree.resolve true path = .ok place) : tree.resolve false path = .ok place := by
  obtain ⟨hpath, hleads⟩ := resolve_eq_ok_iff.1 h
  obtain ⟨place', hleads', -⟩ := hleads.notFollowed
  have hresolve : tree.resolve false path = .ok place' := resolve_eq_ok_iff.2 ⟨hpath, hleads'⟩
  have hfollowed := hleads'.followedToo fun location target hplace =>
    hlink target (inspect_eq_ok_iff.2 ⟨location, hplace ▸ hresolve⟩)
  have hplaces : place' = place := Except.ok.inj (hfollowed.walk_eq.symm.trans hleads.walk_eq)
  rwa [hplaces] at hresolve

theorem followed_of_resolve (hlink : ∀ target, tree.inspect path ≠ .ok (.link target))
    (h : tree.resolve false path = .ok place) : tree.resolve true path = .ok place := by
  obtain ⟨hpath, hleads⟩ := resolve_eq_ok_iff.1 h
  refine resolve_eq_ok_iff.2 ⟨hpath, hleads.followedToo fun location target hplace => ?_⟩
  exact hlink target (inspect_eq_ok_iff.2 ⟨location, hplace ▸ h⟩)

/-- A path that leads to a file leads there with all links followed. -/
theorem Sound.content_of_inspect (ht : tree.Sound) {mode : Nat} {content : Bytes}
    (h : tree.inspect path = .ok (.file mode content)) : tree.content path = .ok content := by
  obtain ⟨location, hresolve⟩ := inspect_eq_ok_iff.1 h
  have hat : tree.at? location = some (.file mode content) :=
    (ht.occupant_of_resolve hresolve).symm
  exact (ht.filePath hresolve (.inr ⟨mode, content, hat⟩)).content_of_some hat

/-! ### New directories -/

theorem Sound.at?_of_found (ht : tree.Sound) {entry : Entry}
    (h : tree.resolve follow path = .ok (.found location entry)) : tree.at? location = some entry :=
  (ht.occupant_of_resolve h).symm

theorem Sound.filePath_of_found (ht : tree.Sound) {mode : Nat} {content : Bytes}
    (h : tree.resolve false path = .ok (.found location (.file mode content))) :
    tree.FilePath path location :=
  ht.filePath h (.inr ⟨mode, content, ht.at?_of_found h⟩)

/-- A vacant place is where nothing is. -/
theorem Sound.at?_of_vacant (ht : tree.Sound)
    (h : tree.resolve follow path = .ok (.vacant location)) : tree.at? location = none :=
  (ht.occupant_of_resolve h).symm

/-- Components that have led to a vacant place pass through the directory that is put there. -/
theorem Leads.passes_put (mode : Nat) (h : tree.Leads false links here components place)
    (hplace : place = .vacant location) (hnone : tree.at? location = none) :
    ∃ links', (tree.put location (.directory mode)).Passes links here components links'
      location := by
  have hgrows := Grows.put hnone (.directory mode)
  induction h with
  | arrived => cases hplace
  | here _ ih =>
    obtain ⟨_, hrest⟩ := ih hplace
    exact ⟨_, .here hrest⟩
  | up _ ih =>
    obtain ⟨_, hrest⟩ := ih hplace
    exact ⟨_, .up hrest⟩
  | @vacant links here name hname _ =>
    cases hplace
    have hnew : (tree.put (here ++ [name]) (.directory mode)).at? (here ++ [name]) =
        some (.directory mode) := by
      rw [at?_put, if_pos rfl]
    exact ⟨links, .directory hname hnew .arrived⟩
  | file _ _ => cases hplace
  | directory hname hat _ ih =>
    obtain ⟨_, hrest⟩ := ih hplace
    exact ⟨_, .directory hname (hgrows.at?_eq _ _ hat) hrest⟩
  | link _ _ _ => cases hplace
  | followed hname hat _ _ ih =>
    obtain ⟨_, hrest⟩ := ih hplace
    exact ⟨_, .followed hname (hgrows.at?_eq _ _ hat) hrest⟩

/-- A trimmed path that leads to a directory is not vacant. -/
theorem Sound.vacancy_of_enters (ht : tree.Sound) (htrimmed : Path.Trimmed path)
    (h : tree.Enters path location) : tree.vacancy path = .error .alreadyExists := by
  obtain ⟨mode, hfollow⟩ := ht.enters_iff.1 h
  obtain ⟨hpath, hleads⟩ := resolve_eq_ok_iff.1 (follow_eq_ok_iff.1 hfollow)
  obtain ⟨place, hplace, hoccupant⟩ := hleads.notFollowed
  have hresolve : tree.resolve false path = .ok place := resolve_eq_ok_iff.2 ⟨hpath, hplace⟩
  rw [vacancy, htrimmed.withoutSlashes, hresolve]
  cases place with
  | found location entry => rfl
  | vacant location => exact absurd rfl (hoccupant (Option.some_ne_none _))

/-- A directory that is there is not made. -/
theorem Sound.makeNewDirectories_of_enters (ht : tree.Sound) (htrimmed : Path.Trimmed path)
    (h : tree.Enters path location) (refusal : Bytes → Option String) (mode : Nat) :
    tree.makeNewDirectories refusal mode (Path.ancestors path) = (tree, .ok none) := by
  have hreaches := ht.reachesDirectory_iff.2 ⟨location, h⟩
  have hfirst : ∀ outer, tree.makeNewDirectories refusal mode (path :: outer) = (tree, .ok none) :=
    fun outer => by
      rw [FileTree.makeNewDirectories, ht.vacancy_of_enters htrimmed h]
      simp only [hreaches, if_true]
  rw [Path.ancestors]
  split
  · rfl
  · split
    · split
      · exact hfirst _
      · exact hfirst []
    · exact hfirst []

/-- Whether a path goes up only from directories that are there. -/
def GoesUpInside (tree : FileTree) (path : Bytes) : Prop :=
  ∀ before after, Path.moves path = before ++ Path.up :: after →
    ∃ links there, tree.Passes linkLimit (tree.start path) before links there

/-- What comes of making a directory and those on the way to it. -/
structure Paved (tree : FileTree) (dir : Bytes)
    (outcome : FileTree × Except SystemError (Option Location)) : Prop where
  sound : outcome.1.Sound
  grows : Grows tree outcome.1
  refused : ∀ e, outcome.2 = .error e → ∀ location, ¬outcome.1.Enters dir location
  fresh : ∀ location, outcome.2 = .ok (some location) → outcome.1.Enters dir location ∧
    ∀ name, outcome.1.at? (location ++ [name]) = none
  kept : outcome.2 = .ok none → tree.GoesUpInside dir → outcome.1 = tree

/-- What comes of making the directories that a directory lies in: if the innermost of them is a
new one, only the last name leads on to the directory. -/
structure PavedOuter (tree : FileTree) (dir : Bytes)
    (outcome : FileTree × Except SystemError (Option Location)) : Prop where
  sound : outcome.1.Sound
  grows : Grows tree outcome.1
  refused : ∀ e, outcome.2 = .error e → ∀ location, ¬outcome.1.Enters dir location
  fresh : ∀ location, outcome.2 = .ok (some location) →
    (∃ outer name links, Path.moves dir = outer ++ [name] ∧
      outcome.1.Passes linkLimit (outcome.1.start dir) outer links location) ∧
    ∀ name, outcome.1.at? (location ++ [name]) = none
  kept : outcome.2 = .ok none → tree.GoesUpInside dir → outcome.1 = tree

variable {dir : Bytes}

/-- There may be no directory on the way. -/
theorem Sound.pavedOuter_nil (ht : tree.Sound) (refusal : Bytes → Option String) (mode : Nat)
    (dir : Bytes) : PavedOuter tree dir (tree.makeNewDirectories refusal mode []) := by
  rw [FileTree.makeNewDirectories]
  refine ⟨ht, .refl tree, fun _ h => ?_, fun _ h => ?_, fun _ _ => rfl⟩
  · cases h
  · cases h

theorem Paved.outer {parent : Bytes} {outcome : FileTree × Except SystemError (Option Location)}
    (h : Paved tree parent outcome) (hparent : Path.parent? dir = some parent)
    (hne : parent ≠ []) : PavedOuter tree dir outcome := by
  obtain ⟨hfirst, -, name, -, hmoves⟩ := Path.parent?_spec hparent hne
  have hstart : ∀ tree : FileTree, tree.start parent = tree.start dir := fun tree =>
    start_eq (Path.isAbsolute_eq hfirst hne)
  refine ⟨h.sound, h.grows, fun e he location henters => ?_, fun location hlocation => ?_,
    fun hnone hup => h.kept hnone fun before after hbefore => ?_⟩
  · -- who enters the directory enters the one that it lies in
    obtain ⟨hpath, links, hpasses⟩ := henters
    rw [hmoves] at hpasses
    obtain ⟨links', there, houter, -⟩ := hpasses.split
    refine h.refused e he there ⟨⟨fun hmem => hpath.no_zero (hfirst.subset hmem), hne,
      hfirst.length_le.trans hpath.length_le⟩, links', ?_⟩
    rwa [hstart]
  · obtain ⟨⟨-, links, hpasses⟩, hempty⟩ := h.fresh location hlocation
    rw [hstart] at hpasses
    exact ⟨⟨_, name, links, hmoves, hpasses⟩, hempty⟩
  · rw [hstart]
    refine hup before (after ++ [name]) ?_
    rw [hmoves, hbefore, List.append_assoc]
    rfl

/-- A directory that is put where nothing is yet, or refused. -/
theorem paved_put (ht : t.Sound) (hgrows : Grows tree t) (refusal : Option String) (mode : Nat)
    {outer : Location} {name : Bytes} (hdir : t.IsDirectory outer)
    (hnone : t.at? (outer ++ [name]) = none) (hmissing : ∀ location, ¬t.Enters dir location)
    (henters : (t.put (outer ++ [name]) (.directory (masked mode))).Enters dir
      (outer ++ [name])) :
    Paved tree dir (t.putDirectory refusal mode (outer ++ [name])) := by
  cases refusal with
  | some wording =>
    refine ⟨ht, hgrows, fun _ _ => hmissing, fun _ h => ?_, fun h => ?_⟩
    · cases h
    · cases h
  | none =>
    refine ⟨ht.put_directory hdir name (masked mode), hgrows.trans (.put hnone _), fun _ h => ?_,
      fun location h => ?_, fun h => ?_⟩
    · cases h
    · cases h
      refine ⟨henters, fun last => ?_⟩
      rw [putDirectory, at?_put, if_neg (by simp)]
      exact ht.nothing_below (.inl hnone) (List.cons_ne_nil _ _)
    · cases h

/-- A directory that is put at its vacancy. -/
theorem paved_vacancy (ht : t.Sound) (hgrows : Grows tree t) (htrimmed : Path.Trimmed dir)
    (refusal : Option String) (mode : Nat) (h : t.vacancy dir = .ok location) :
    Paved tree dir (t.putDirectory refusal mode location) := by
  have hmissing : ∀ location, ¬t.Enters dir location := fun location henters => by
    rw [ht.vacancy_of_enters htrimmed henters] at h
    cases h
  obtain ⟨outer, name, rfl, hdir⟩ := ht.vacancy_parent h
  unfold vacancy at h
  rw [htrimmed.withoutSlashes] at h
  split at h
  · cases h
  · next hresolve =>
    cases h
    have hnone := ht.at?_of_vacant hresolve
    obtain ⟨hpath, hleads⟩ := resolve_eq_ok_iff.1 hresolve
    obtain ⟨links, hpasses⟩ := hleads.passes_put (masked mode) rfl hnone
    exact paved_put ht hgrows refusal mode hdir hnone hmissing
      ⟨hpath, links, hpasses.congr (moves_moves dir)⟩
  · cases h

/-- What is made of a refusal: it does not matter if the directory is there. -/
theorem paved_settled (ht : t.Sound) (hgrows : Grows tree t) (e : SystemError)
    (hkept : t.reachesDirectory dir = true → tree.GoesUpInside dir → t = tree) :
    Paved tree dir (t, if t.reachesDirectory dir then .ok none else .error e) where
  sound := ht
  grows := hgrows
  refused _ h location henters := by
    rw [ht.reachesDirectory_iff.2 ⟨location, henters⟩] at h
    cases h
  fresh _ h := by
    split at h
    · cases h
    · cases h
  kept h hup := by
    split at h
    · next hreaches => exact hkept hreaches hup
    · cases h

/-- A path that leads nowhere for want of something may be followed. -/
theorem isPath_of_notFound (hne : path ≠ [])
    (h : tree.resolve follow path = .error .notFound) : IsPath path := by
  by_cases hzero : 0 ∈ path
  · rw [resolve, if_pos hzero] at h
    cases h
  · rw [resolve, if_neg hzero, if_neg hne] at h
    by_cases hlong : longestPath < path.length
    · rw [if_pos hlong] at h
      cases h
    · exact ⟨hzero, hne, Nat.le_of_not_lt hlong⟩

theorem isPath_of_vacancy (htrimmed : Path.Trimmed dir) (hne : dir ≠ [])
    (h : tree.vacancy dir = .error .notFound) : IsPath dir := by
  unfold vacancy at h
  rw [htrimmed.withoutSlashes] at h
  split at h
  · cases h
  · cases h
  · next hresolve =>
    cases h
    exact isPath_of_notFound hne hresolve

/-- From an empty directory a path can only go up. -/
theorem up_of_enters {inner : Location} {outer : List Bytes} {name : Bytes}
    (hmoves : Path.moves dir = outer ++ [name])
    (hpasses : t.Passes linkLimit (t.start dir) outer links inner)
    (hempty : ∀ name, t.at? (inner ++ [name]) = none) (henters : t.Enters dir location) :
    name = Path.up := by
  obtain ⟨-, _, hdir⟩ := henters
  rw [hmoves] at hdir
  obtain ⟨_, there, houter, hlast⟩ := hdir.split
  obtain rfl := hpasses.unique houter
  cases hlast with
  | here _ =>
    have hmem : Path.here ∈ Path.moves dir := by simp [hmoves]
    simp [Path.moves] at hmem
  | up _ => rfl
  | directory _ hat _ =>
    rw [hempty] at hat
    cases hat
  | followed _ hat _ =>
    rw [hempty] at hat
    cases hat

/-- In a new directory there is room for the last name of a path that leads into it. -/
theorem paved_below (ht : t.Sound) (hgrows : Grows tree t) (hpath : IsPath dir)
    (refusal : Option String) (mode : Nat) {inner : Location} {outer : List Bytes} {name : Bytes}
    (hmoves : Path.moves dir = outer ++ [name])
    (hpasses : t.Passes linkLimit (t.start dir) outer links inner)
    (hempty : ∀ name, t.at? (inner ++ [name]) = none)
    (h : vacancyIn inner dir = some location) :
    Paved tree dir (t.putDirectory refusal mode location) := by
  unfold vacancyIn at h
  split at h
  · next last hlast =>
    split at h
    · cases h
    · next hlong =>
      cases h
      obtain ⟨hhere, hup, outer', hmoves'⟩ := Path.moves_of_lastName? hlast
      obtain ⟨-, hlastName⟩ := List.append_inj' (hmoves.symm.trans hmoves') rfl
      obtain rfl : name = last := List.singleton_inj.1 hlastName
      have hnew : (t.put (inner ++ [name]) (.directory (masked mode))).at? (inner ++ [name]) =
          some (.directory (masked mode)) := by
        rw [at?_put, if_pos rfl]
      refine paved_put ht hgrows refusal mode
        (hpasses.isDirectory ht (ht.isDirectory_start dir)) (hempty name)
        (fun _ henters => hup (up_of_enters hmoves hpasses hempty henters)) ⟨hpath, links, ?_⟩
      rw [hmoves]
      exact ((Grows.put (hempty name) _).passes hpasses).append
        (.directory ⟨hhere, hup, Nat.le_of_not_lt hlong⟩ hnew .arrived)
  · cases h

/-- A directory that is missing is made once those that it lies in are made. -/
theorem PavedOuter.paved (ht : tree.Sound) (htrimmed : Path.Trimmed dir) (hne : dir ≠ [])
    (refusal : Bytes → Option String) (mode : Nat) {outers : List Bytes}
    (h : PavedOuter tree dir (tree.makeNewDirectories refusal mode outers)) :
    Paved tree dir (tree.makeNewDirectories refusal mode (dir :: outers)) := by
  rw [FileTree.makeNewDirectories]
  cases hvacancy : tree.vacancy dir with
  | ok location => exact paved_vacancy ht (.refl tree) htrimmed _ _ hvacancy
  | error e =>
    by_cases hmissing : e = .notFound
    · subst hmissing
      have hpath := isPath_of_vacancy htrimmed hne hvacancy
      obtain ⟨hsound, hgrows, hrefused, hfresh, hkept⟩ := h
      cases houter : tree.makeNewDirectories refusal mode outers with
      | mk t outcome =>
      rw [houter] at hsound hgrows hrefused hfresh hkept
      cases outcome with
      | error e =>
        refine ⟨hsound, hgrows, fun _ _ => hrefused e rfl, fun _ h => ?_, fun h => ?_⟩
        · cases h
        · cases h
      | ok newOuter =>
        simp only
        split
        · next location hlocation =>
          obtain ⟨inner, rfl, hinner⟩ := Option.bind_eq_some_iff.1 hlocation
          obtain ⟨⟨outer, name, links, hmoves, hpasses⟩, hempty⟩ := hfresh inner rfl
          exact paved_below hsound hgrows hpath _ _ hmoves hpasses hempty hinner
        · split
          · next hlater => exact paved_vacancy hsound hgrows htrimmed _ _ hlater
          · refine paved_settled hsound hgrows _ fun hreaches hup => ?_
            cases newOuter with
            | none => exact hkept rfl hup
            | some inner =>
              -- nothing is in the new directory, so from there the path goes up; but then the
              -- directory was there before
              obtain ⟨⟨outer, name, links, hmoves, hpasses⟩, hempty⟩ := hfresh inner rfl
              obtain ⟨location, henters⟩ := hsound.reachesDirectory_iff.1 hreaches
              obtain rfl := up_of_enters hmoves hpasses hempty henters
              obtain ⟨links', there, hbefore⟩ := hup outer [] hmoves
              have hdirectory : tree.Enters dir there.dropLast :=
                ⟨hpath, links', by rw [hmoves]; exact hbefore.append (.up .arrived)⟩
              rw [ht.vacancy_of_enters htrimmed hdirectory] at hvacancy
              cases hvacancy
    · have hsettled : Paved tree dir
          (tree, if tree.reachesDirectory dir then .ok none else .error e) :=
        paved_settled ht (.refl tree) e fun _ _ => rfl
      cases e <;> first | exact absurd rfl hmissing | exact hsettled

/-- Making a directory and what is missing on the way to it. -/
theorem Sound.paved (ht : tree.Sound) (refusal : Bytes → Option String) (mode : Nat)
    (htrimmed : Path.Trimmed dir) :
    Paved tree dir (tree.makeNewDirectories refusal mode (Path.ancestors dir)) := by
  refine Path.Trimmed.ancestors_induction
    (P := fun path dirs => Paved tree path (tree.makeNewDirectories refusal mode dirs)) ?nil
    ?alone ?below htrimmed
  case nil =>
    rw [FileTree.makeNewDirectories]
    refine ⟨ht, .refl tree, fun _ h => ?_, fun _ h => ?_, fun _ _ => rfl⟩
    · cases h
    · cases h
  case alone =>
    intro path htrimmed hne
    exact (ht.pavedOuter_nil refusal mode path).paved ht htrimmed hne refusal mode
  case below =>
    intro path parent htrimmed hne hparent hparentNe _ ih
    exact (ih.outer hparent hparentNe).paved ht htrimmed hne refusal mode

/-! ### Nothing but directories -/

/-- Whether whatever is new in a tree is a directory that one of these paths leads to. -/
def AddsDirectories (tree : FileTree) (mode : Nat) (dirs : List Bytes) (tree' : FileTree) : Prop :=
  ∀ location, tree'.at? location = tree.at? location ∨
    tree.at? location = none ∧
      ∃ dir ∈ dirs, tree'.follow dir = .ok (location, .directory (masked mode))

theorem AddsDirectories.refl (tree : FileTree) (mode : Nat) (dirs : List Bytes) :
    AddsDirectories tree mode dirs tree := fun _ => .inl rfl

theorem AddsDirectories.cons {mode : Nat} {dirs : List Bytes} (dir : Bytes)
    (h : AddsDirectories tree mode dirs t) : AddsDirectories tree mode (dir :: dirs) t := by
  intro location
  rcases h location with hsame | ⟨hnone, outer, houter, hfollow⟩
  · exact .inl hsame
  · exact .inr ⟨hnone, outer, List.mem_cons_of_mem _ houter, hfollow⟩

/-- One more directory, where nothing was. -/
theorem AddsDirectories.put {refusal : Option String} {mode : Nat} {dirs : List Bytes}
    (h : AddsDirectories tree mode dirs t) (ht : t.Sound) (hgrows : Grows tree t)
    (hnone : t.at? location = none)
    (hpaved : Paved tree dir (t.putDirectory refusal mode location)) :
    AddsDirectories tree mode (dir :: dirs) (t.putDirectory refusal mode location).1 := by
  cases refusal with
  | some wording => exact h.cons dir
  | none =>
  obtain ⟨hsound, -, -, hfresh, -⟩ := hpaved
  obtain ⟨henters, -⟩ := hfresh location rfl
  rw [putDirectory] at hsound henters ⊢
  have hnew : (t.put location (.directory (masked mode))).at? location =
      some (.directory (masked mode)) := by
    rw [at?_put, if_pos rfl]
  intro other
  by_cases hother : other = location
  · subst hother
    obtain ⟨mode', hfollow⟩ := hsound.enters_iff.1 henters
    have hmode := (hsound.at?_of_follow hfollow).symm.trans hnew
    rw [Option.some.inj hmode] at hfollow
    refine .inr ⟨?_, dir, List.mem_cons_self, hfollow⟩
    cases hat : tree.at? other with
    | none => rfl
    | some entry =>
      rw [hgrows.at?_eq _ _ hat] at hnone
      cases hnone
  · rw [at?_put, if_neg hother]
    rcases h other with hsame | ⟨hbefore, outer, houter, hfollow⟩
    · exact .inl hsame
    · refine .inr ⟨hbefore, outer, List.mem_cons_of_mem _ houter, ?_⟩
      have hresolve := (Grows.put hnone (.directory (masked mode))).resolve ht
        (follow_eq_ok_iff.1 hfollow)
      exact follow_eq_ok_iff.2 hresolve

theorem Sound.at?_of_vacancy (ht : tree.Sound) (h : tree.vacancy dir = .ok location) :
    tree.at? location = none := by
  unfold vacancy at h
  split at h
  · cases h
  · next hresolve =>
    cases h
    exact ht.at?_of_vacant hresolve
  · cases h

/-- Making a directory adds that one to those that it lies in. -/
theorem AddsDirectories.step {refusal : Bytes → Option String} {mode : Nat} {outers : List Bytes}
    (h : AddsDirectories tree mode outers (tree.makeNewDirectories refusal mode outers).1)
    (ht : tree.Sound) (houter : PavedOuter tree dir (tree.makeNewDirectories refusal mode outers))
    (hpaved : Paved tree dir (tree.makeNewDirectories refusal mode (dir :: outers))) :
    AddsDirectories tree mode (dir :: outers)
      (tree.makeNewDirectories refusal mode (dir :: outers)).1 := by
  have hnothing : AddsDirectories tree mode outers tree := .refl tree mode outers
  rw [FileTree.makeNewDirectories] at hpaved ⊢
  cases hvacancy : tree.vacancy dir with
  | ok location =>
    rw [hvacancy] at hpaved
    exact hnothing.put ht (.refl tree) (ht.at?_of_vacancy hvacancy) hpaved
  | error e =>
    rw [hvacancy] at hpaved
    by_cases hmissing : e = .notFound
    · subst hmissing
      obtain ⟨hsound, hgrows, -, hfresh, -⟩ := houter
      cases hmade : tree.makeNewDirectories refusal mode outers with
      | mk t outcome =>
      rw [hmade] at h hsound hgrows hfresh hpaved
      cases outcome with
      | error e => exact h.cons dir
      | ok newOuter =>
        simp only at hpaved ⊢
        split at hpaved
        · next location hlocation =>
          obtain ⟨inner, rfl, hinner⟩ := Option.bind_eq_some_iff.1 hlocation
          obtain ⟨-, hempty⟩ := hfresh inner rfl
          obtain ⟨name, rfl⟩ := vacancyIn_parent hinner
          exact h.put hsound hgrows (hempty name) hpaved
        · cases hlater : t.vacancy dir with
          | ok location =>
            rw [hlater] at hpaved
            exact h.put hsound hgrows (hsound.at?_of_vacancy hlater) hpaved
          | error e => exact h.cons dir
    · cases e <;> first | exact absurd rfl hmissing | exact hnothing.cons dir

/-- All that is new once a directory has been made with what was missing on the way to it are
directories on that way. -/
theorem Sound.addsDirectories (ht : tree.Sound) (refusal : Bytes → Option String) (mode : Nat)
    (htrimmed : Path.Trimmed dir) :
    AddsDirectories tree mode (Path.ancestors dir)
      (tree.makeNewDirectories refusal mode (Path.ancestors dir)).1 := by
  have hnothing : AddsDirectories tree mode [] (tree.makeNewDirectories refusal mode []).1 := by
    rw [FileTree.makeNewDirectories]
    exact .refl tree mode []
  refine Path.Trimmed.ancestors_induction
    (P := fun _ dirs =>
      AddsDirectories tree mode dirs (tree.makeNewDirectories refusal mode dirs).1)
    hnothing ?alone ?below htrimmed
  case alone =>
    intro path htrimmed hne
    have houter := ht.pavedOuter_nil refusal mode path
    exact hnothing.step ht houter (houter.paved ht htrimmed hne refusal mode)
  case below =>
    intro path parent htrimmed hne hparent hparentNe hparentTrimmed ih
    have houter := (ht.paved refusal mode hparentTrimmed).outer hparent hparentNe
    exact ih.step ht houter (houter.paved ht htrimmed hne refusal mode)

end TokenVault.FileTree
