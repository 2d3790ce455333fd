import TokenVault.Proofs.FileTree.Follow

/-!
# Operations on files

What each operation does to a path of a file (`FilePath`): it succeeds, changes files only, and
keeps the tree sound.  Making directories keeps the tree sound as well, whether it succeeds or
fails on the way.
-/

namespace TokenVault.FileTree

variable {tree : FileTree} {path : Bytes} {location : Location}

namespace FilePath

theorem content_of_none (h : tree.FilePath path location) (hnone : tree.at? location = none) :
    tree.content path = .error .notFound := by
  rw [content, follow, h.resolve_true, placeAt_of_none hnone]

theorem content_of_some (h : tree.FilePath path location) {mode : Nat} {content : Bytes}
    (hfile : tree.at? location = some (.file mode content)) : tree.content path = .ok content := by
  rw [FileTree.content, follow, h.resolve_true, placeAt_of_some hfile]

theorem content_eq_ok_iff (h : tree.FilePath path location) {content : Bytes} :
    tree.content path = .ok content ↔ ∃ mode, tree.at? location = some (.file mode content) := by
  constructor
  · intro hcontent
    rcases h.place.takesFile with hnone | ⟨mode, other, hfile⟩
    · rw [h.content_of_none hnone] at hcontent
      cases hcontent
    · rw [h.content_of_some hfile] at hcontent
      cases hcontent
      exact ⟨mode, hfile⟩
  · rintro ⟨mode, hfile⟩
    exact h.content_of_some hfile

/-- Opening a file makes an empty one if there is none, and changes nothing otherwise. -/
theorem openFile_eq (h : tree.FilePath path location) (mode : Nat) :
    tree.openFile path mode =
      .ok (if tree.at? location = none then tree.put location (.file (masked mode) [])
        else tree) := by
  rw [openFile, h.resolve_true]
  rcases h.place.takesFile with hnone | ⟨_, _, hfile⟩
  · rw [placeAt_of_none hnone, if_pos hnone]
  · rw [placeAt_of_some hfile, hfile, if_neg (Option.some_ne_none _)]

end FilePath

/-- A place for a file lies below no other place for a file. -/
theorem FilePlace.not_within (h : tree.FilePlace location) (ht : tree.Sound) {source : Location}
    (hsource : tree.TakesFile source) (hne : location ≠ source) :
    within source location = false := by
  apply Bool.eq_false_iff.2
  intro hwithin
  obtain ⟨names, rfl⟩ := within_iff.1 hwithin
  obtain ⟨outer, name, heq, hdir⟩ := h.parent
  rcases List.eq_nil_or_concat names with rfl | ⟨others, last, rfl⟩
  · exact hne (List.append_nil source)
  · rw [List.concat_eq_append, ← List.append_assoc] at heq
    obtain ⟨rfl, -⟩ := List.append_inj' heq rfl
    by_cases hothers : others = []
    · rw [hothers, List.append_nil] at hdir
      exact hdir.not_takesFile hsource
    · exact hdir.not_takesFile (.inl (ht.nothing_below hsource hothers))

/-- Moving a file onto a path of a file is moving it to where the path leads. -/
theorem Sound.moveTo_file_eq (ht : tree.Sound) {source : Location} {mode : Nat} {content : Bytes}
    (hsource : tree.at? source = some (.file mode content)) (h : tree.FilePath path location) :
    tree.moveTo source path =
      .ok (if location = source then tree else tree.move source location) := by
  rw [moveTo, hsource]
  simp only [h.resolve_eq]
  by_cases hsame : location = source
  · -- the path leads to the source already
    rw [hsame, placeAt_of_some hsource]
    simp
  · have hwithin := h.place.not_within ht (.inr ⟨mode, content, hsource⟩) hsame
    rcases h.place.takesFile with hnone | ⟨mode', content', hfile⟩
    · rw [placeAt_of_none hnone]
      simp [hwithin, hsame]
    · rw [placeAt_of_some hfile]
      simp [hwithin, hsame, checkReplace]

/-- A file that is moved onto a path of a file is what the path leads to. -/
theorem Sound.moveTo_file (ht : tree.Sound) {source : Location} {mode : Nat} {content : Bytes}
    (hsource : tree.at? source = some (.file mode content)) (h : tree.FilePath path location) :
    ∃ tree', tree.moveTo source path = .ok tree' ∧ tree'.Sound ∧ Frame tree tree' ∧
      tree'.at? location = some (.file mode content) := by
  refine ⟨_, ht.moveTo_file_eq hsource h, ?_⟩
  split
  · next hsame =>
    rw [hsame]
    exact ⟨ht, Frame.refl tree, hsource⟩
  · have htakes := h.place.takesFile
    refine ⟨ht.move_file hsource h.place, ht.frame_move_file hsource htakes, ?_⟩
    rw [ht.at?_move_file hsource htakes, if_pos rfl]

/-! ### New directories -/

theorem isDirectory_put_directory {mode : Nat} (location : Location) {other : Location}
    (h : tree.IsDirectory other) : (tree.put location (.directory mode)).IsDirectory other := by
  unfold IsDirectory
  rw [at?_put]
  split
  · exact ⟨mode, rfl⟩
  · exact h

/-- A tree stays sound when a directory is put into a directory. -/
theorem Sound.put_directory (h : tree.Sound) {outer : Location} (hdir : tree.IsDirectory outer)
    (name : Bytes) (mode : Nat) : (tree.put (outer ++ [name]) (.directory mode)).Sound where
  keys := keys_put h.keys _ _
  root := isDirectory_put_directory _ h.root
  parents other last hsome := by
    rw [at?_put] at hsome
    split at hsome
    · next heq =>
      obtain ⟨rfl, -⟩ := List.append_inj' heq rfl
      exact isDirectory_put_directory _ hdir
    · exact isDirectory_put_directory _ (h.parents other last hsome)
  workingDirectory := isDirectory_put_directory _ h.workingDirectory

/-- What has been made of directories: the tree is sound, and a new directory is one. -/
structure Made (outcome : FileTree × Except SystemError (Option Location)) : Prop where
  sound : outcome.1.Sound
  isDirectory : ∀ location, outcome.2 = .ok (some location) → outcome.1.IsDirectory location

theorem made_of_not_some (ht : tree.Sound) {outcome : Except SystemError (Option Location)}
    (h : ∀ location, outcome ≠ .ok (some location)) : Made (tree, outcome) where
  sound := ht
  isDirectory location heq := absurd heq (h location)

theorem made_put {outer : Location} (ht : tree.Sound) (hdir : tree.IsDirectory outer)
    (name : Bytes) (refusal : Option String) (mode : Nat) :
    Made (tree.putDirectory refusal mode (outer ++ [name])) := by
  cases refusal with
  | some wording => exact made_of_not_some ht fun location heq => by cases heq
  | none =>
    refine ⟨ht.put_directory hdir name (masked mode), fun location heq => ?_⟩
    cases heq
    exact ⟨masked mode, by rw [putDirectory, at?_put, if_pos rfl]⟩

/-- A vacancy lies in a directory. -/
theorem Sound.vacancy_parent (ht : tree.Sound) (h : tree.vacancy path = .ok location) :
    ∃ outer name, location = outer ++ [name] ∧ tree.IsDirectory outer := by
  unfold vacancy at h
  split at h
  · cases h
  · next vacant hresolve =>
    cases h
    have hplace := ht.placeAt_of_resolve hresolve
    have hnone : tree.at? location = none := by
      cases hat : tree.at? location with
      | none => rfl
      | some entry =>
        have hfound : Place.vacant location = .found location entry :=
          hplace.trans (placeAt_of_some hat)
        cases hfound
    exact (ht.filePath hresolve (.inl hnone)).place.parent
  · cases h

/-- A place in a new directory lies in a directory. -/
theorem vacancyIn_parent {inner : Location} (h : vacancyIn inner path = some location) :
    ∃ name, location = inner ++ [name] := by
  unfold vacancyIn at h
  split at h
  · next name _ =>
    split at h
    · cases h
    · cases h
      exact ⟨name, rfl⟩
  · cases h

/-- Whatever comes of making directories, the tree stays sound. -/
theorem Sound.makeNewDirectories (ht : tree.Sound) (refusal : Bytes → Option String) (mode : Nat)
    (dirs : List Bytes) : Made (tree.makeNewDirectories refusal mode dirs) := by
  have hsettled : ∀ {t : FileTree} (_ : t.Sound) (dir : Bytes) (e : SystemError),
      Made (t, if t.reachesDirectory dir then .ok none else .error e) := by
    intro t ht dir e
    refine made_of_not_some ht fun location heq => ?_
    split at heq
    · cases heq
    · cases heq
  have hmade : ∀ {t : FileTree} {dir : Bytes} {location : Location}, t.Sound →
      t.vacancy dir = .ok location → Made (t.putDirectory (refusal dir) mode location) := by
    intro t dir location ht hvacancy
    obtain ⟨outer, name, rfl, hdir⟩ := ht.vacancy_parent hvacancy
    exact made_put ht hdir name _ _
  induction dirs with
  | nil => exact made_of_not_some ht fun location heq => by cases heq
  | cons dir outer ih =>
    rw [FileTree.makeNewDirectories]
    cases hvacancy : tree.vacancy dir with
    | ok location => exact hmade ht hvacancy
    | error e =>
      by_cases hmissing : e = .notFound
      · subst hmissing
        -- the directories that this one lies in are made first
        obtain ⟨hsound, hdirectory⟩ := ih
        cases houter : tree.makeNewDirectories refusal mode outer with
        | mk tree' outcome =>
        rw [houter] at hsound hdirectory
        cases outcome with
        | error e => exact made_of_not_some hsound fun location heq => by cases heq
        | ok newOuter =>
          simp only
          split
          · next location hlocation =>
            obtain ⟨inner, rfl, hinner⟩ := Option.bind_eq_some_iff.1 hlocation
            obtain ⟨name, rfl⟩ := vacancyIn_parent hinner
            exact made_put hsound (hdirectory inner rfl) name _ _
          · split
            · next hlater => exact hmade hsound hlater
            · exact hsettled hsound dir _
      · cases e <;> first | exact absurd rfl hmissing | exact hsettled ht dir _

end TokenVault.FileTree
