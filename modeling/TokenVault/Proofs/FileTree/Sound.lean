import Mathlib.Data.List.Induction
import TokenVault.FileTree.Operations

/-!
# Sound file trees

In a sound file tree whatever is somewhere lies in a directory, so nothing is below a file or
below a vacant place (`Sound.nothing_below`).  Putting files where they fit and moving them
keeps a tree sound.
-/

namespace TokenVault.FileTree

/-- Whether there is a directory at a location. -/
def IsDirectory (tree : FileTree) (location : Location) : Prop :=
  ∃ mode, tree.at? location = some (.directory mode)

/-- Whether there is nothing or a file at a location, so that a file may come there. -/
def TakesFile (tree : FileTree) (location : Location) : Prop :=
  tree.at? location = none ∨ ∃ mode content, tree.at? location = some (.file mode content)

/-- What holds of every file tree. -/
structure Sound (tree : FileTree) : Prop where
  keys : ∀ e ∈ tree.entries, e.1 = e.1.location.key
  root : tree.IsDirectory []
  parents : ∀ location name, tree.at? (location ++ [name]) ≠ none → tree.IsDirectory location
  workingDirectory : tree.IsDirectory tree.workingDirectory

theorem IsDirectory.not_takesFile {tree : FileTree} {location : Location}
    (h : tree.IsDirectory location) : ¬tree.TakesFile location := by
  obtain ⟨mode, hmode⟩ := h
  rintro (hnone | ⟨_, _, hfile⟩)
  · rw [hmode] at hnone
    cases hnone
  · rw [hmode] at hfile
    cases hfile

theorem not_takesFile_of_link {tree : FileTree} {location : Location} {target : Bytes}
    (h : tree.at? location = some (.link target)) : ¬tree.TakesFile location := by
  rintro (hnone | ⟨_, _, hfile⟩)
  · rw [h] at hnone
    cases hnone
  · rw [h] at hfile
    cases hfile

theorem Sound.takesFile_ne_nil {tree : FileTree} (h : tree.Sound) {location : Location}
    (htakes : tree.TakesFile location) : location ≠ [] := by
  rintro rfl
  exact h.root.not_takesFile htakes

/-- Nothing is below a file or a vacant place. -/
theorem Sound.nothing_below {tree : FileTree} (h : tree.Sound) {location : Location}
    (htakes : tree.TakesFile location) {names : List Bytes} (hnames : names ≠ []) :
    tree.at? (location ++ names) = none := by
  -- from the top down: what the names but the last lead to would have to be a directory
  induction names using List.reverseRecOn with
  | nil => exact absurd rfl hnames
  | append_singleton outer name ih =>
    apply Decidable.byContradiction
    intro hsome
    rw [← List.append_assoc] at hsome
    have hparent := h.parents (location ++ outer) name hsome
    by_cases houter : outer = []
    · rw [houter, List.append_nil] at hparent
      exact hparent.not_takesFile htakes
    · exact hparent.not_takesFile (.inl (ih houter))

/-- The directory that a directory lies in, where the root lies in itself. -/
theorem Sound.dropLast {tree : FileTree} (h : tree.Sound) {location : Location}
    (hlocation : tree.IsDirectory location) : tree.IsDirectory location.dropLast := by
  rcases List.eq_nil_or_concat location with rfl | ⟨outer, name, rfl⟩
  · exact h.root
  · rw [List.concat_eq_append] at hlocation ⊢
    rw [List.dropLast_concat]
    refine h.parents outer name ?_
    obtain ⟨mode, hmode⟩ := hlocation
    rw [hmode]
    exact Option.some_ne_none _

/-! ### Where a file fits -/

/-- A place for a file: a file may come there, and the place lies in a directory. -/
structure FilePlace (tree : FileTree) (location : Location) : Prop where
  takesFile : tree.TakesFile location
  parent : ∃ outer name, location = outer ++ [name] ∧ tree.IsDirectory outer

/-- Whether a tree differs from another at most in its files: the directories and the links
are the same, and the files have taken places of files. -/
structure Frame (tree tree' : FileTree) : Prop where
  workingDirectory : tree'.workingDirectory = tree.workingDirectory
  at?_eq : ∀ location, ¬tree.TakesFile location → tree'.at? location = tree.at? location
  takesFile : ∀ location, tree.TakesFile location → tree'.TakesFile location

namespace Frame

variable {t u v : FileTree}

theorem refl (t : FileTree) : Frame t t := ⟨rfl, fun _ _ => rfl, fun _ h => h⟩

theorem isDirectory (h : Frame t u) {location : Location} (hdir : t.IsDirectory location) :
    u.IsDirectory location := by
  obtain ⟨mode, hmode⟩ := hdir
  exact ⟨mode, (h.at?_eq location (IsDirectory.not_takesFile ⟨mode, hmode⟩)).trans hmode⟩

theorem not_takesFile (h : Frame t u) {location : Location} (hnot : ¬t.TakesFile location) :
    ¬u.TakesFile location := by
  unfold TakesFile
  rw [h.at?_eq location hnot]
  exact hnot

theorem trans (htu : Frame t u) (huv : Frame u v) : Frame t v where
  workingDirectory := huv.workingDirectory.trans htu.workingDirectory
  at?_eq location hnot :=
    (huv.at?_eq location (htu.not_takesFile hnot)).trans (htu.at?_eq location hnot)
  takesFile location htakes := huv.takesFile location (htu.takesFile location htakes)

/-- What has been changed can be changed back. -/
theorem symm (h : Frame t u) : Frame u t where
  workingDirectory := h.workingDirectory.symm
  at?_eq location hnot := (h.at?_eq location fun htakes => hnot (h.takesFile location htakes)).symm
  takesFile location htakes := by
    by_contra hnot
    exact h.not_takesFile hnot htakes

theorem filePlace (h : Frame t u) {location : Location} (hplace : t.FilePlace location) :
    u.FilePlace location := by
  obtain ⟨htakes, outer, name, hlocation, hdir⟩ := hplace
  exact ⟨h.takesFile location htakes, outer, name, hlocation, h.isDirectory hdir⟩

/-- A change of files keeps a tree sound if each file lies in a directory. -/
theorem sound (h : Frame t u) (ht : t.Sound) (hkeys : ∀ e ∈ u.entries, e.1 = e.1.location.key)
    (hparents : ∀ location name, u.at? (location ++ [name]) ≠ none → t.IsDirectory location) :
    u.Sound where
  keys := hkeys
  root := h.isDirectory ht.root
  parents location name hsome := h.isDirectory (hparents location name hsome)
  workingDirectory := by
    rw [h.workingDirectory]
    exact h.isDirectory ht.workingDirectory

end Frame

variable {tree : FileTree} {location : Location}

theorem keys_put (hkeys : ∀ e ∈ tree.entries, e.1 = e.1.location.key) (location : Location)
    (entry : Entry) : ∀ e ∈ (tree.put location entry).entries, e.1 = e.1.location.key := by
  intro e he
  rcases List.mem_cons.1 he with rfl | he
  · rfl
  · exact hkeys e (List.mem_filter.1 he).1

theorem frame_put_file (htakes : tree.TakesFile location) (mode : Nat) (content : Bytes) :
    Frame tree (tree.put location (.file mode content)) where
  workingDirectory := rfl
  at?_eq other hnot := by
    have hne : other ≠ location := by
      rintro rfl
      exact hnot htakes
    rw [at?_put, if_neg hne]
  takesFile other hother := by
    unfold TakesFile
    rw [at?_put]
    split
    · exact .inr ⟨mode, content, rfl⟩
    · exact hother

/-- A tree stays sound when a file is put where one fits. -/
theorem Sound.put_file (h : tree.Sound) (hplace : tree.FilePlace location) (mode : Nat)
    (content : Bytes) : (tree.put location (.file mode content)).Sound := by
  refine (frame_put_file hplace.takesFile mode content).sound h (keys_put h.keys _ _) ?_
  intro outer name hsome
  rw [at?_put] at hsome
  split at hsome
  · next heq =>
    obtain ⟨outer', name', hlocation, hdir⟩ := hplace.parent
    rw [hlocation] at heq
    obtain ⟨rfl, -⟩ := List.append_inj' heq rfl
    exact hdir
  · exact h.parents outer name hsome

/-! ### Moving a file -/

theorem within_iff {outer inner : Location} :
    within outer inner = true ↔ ∃ names, inner = outer ++ names := by
  rw [within, List.isPrefixOf_iff_prefix]
  exact ⟨fun ⟨names, h⟩ => ⟨names, h.symm⟩, fun ⟨names, h⟩ => ⟨names, h.symm⟩⟩

theorem lookup_filter (entries : List (Key × Entry)) (p : Key → Bool) (key : Key) :
    (entries.filter fun e => p e.1).lookup key = if p key then entries.lookup key else none := by
  induction entries with
  | nil => simp
  | cons e rest ih =>
    obtain ⟨other, entry⟩ := e
    by_cases hkey : key = other
    · subst hkey
      by_cases hp : p key = true
      · simp [hp]
      · simp [hp, ih]
    · have hbeq : (key == other) = false := beq_eq_false_iff_ne.2 hkey
      by_cases hp : p other = true
      · simp [List.lookup_cons, hp, hbeq, ih]
      · simp [List.lookup_cons, hp, hbeq, ih]

theorem lookup_key_cons (old location : Location) (entry : Entry) (rest : List (Key × Entry)) :
    List.lookup location.key ((old.key, entry) :: rest) =
      if location = old then some entry else rest.lookup location.key := by
  rw [List.lookup_cons]
  by_cases h : location = old
  · simp [h]
  · have hbeq : (location.key == old.key) = false :=
      beq_eq_false_iff_ne.2 fun heq => h (Location.key_inj.1 heq)
    simp [h, hbeq]

/-- What has been moved is found at the new location under the names that it had below the old
one. -/
theorem lookup_moved (source target : Location) {entries : List (Key × Entry)}
    (hkeys : ∀ e ∈ entries, e.1 = e.1.location.key) (location : Location) :
    ((entries.filter fun e => within source e.1.location).map fun e =>
        ((target ++ e.1.location.drop source.length : Location).key, e.2)).lookup location.key =
      if within target location then
        entries.lookup (source ++ location.drop target.length : Location).key
      else none := by
  induction entries with
  | nil => simp
  | cons e rest ih =>
    obtain ⟨hkey, hrest⟩ := List.forall_mem_cons.1 hkeys
    obtain ⟨key, entry⟩ := e
    generalize hold : key.location = old at hkey
    simp only at hkey
    subst hkey
    have ih := ih hrest
    by_cases hin : within source old = true
    · obtain ⟨names, rfl⟩ := within_iff.1 hin
      rw [List.filter_cons_of_pos (p := fun e : Key × Entry => within source e.1.location) hin,
        List.map_cons]
      show List.lookup location.key ((Location.key (target ++
        (source ++ names).drop source.length), entry) :: _) = _
      rw [List.drop_left, lookup_key_cons, lookup_key_cons, ih]
      by_cases hlocation : location = target ++ names
      · have htarget : within target location = true := within_iff.2 ⟨names, hlocation⟩
        rw [if_pos hlocation, if_pos htarget, hlocation, List.drop_left, if_pos rfl]
      · rw [if_neg hlocation]
        by_cases htarget : within target location = true
        · obtain ⟨others, rfl⟩ := within_iff.1 htarget
          have hother : ¬source ++ others = source ++ names := fun heq =>
            hlocation (by rw [List.append_cancel_left heq])
          rw [if_pos htarget, if_pos htarget, List.drop_left, if_neg hother]
        · rw [if_neg htarget, if_neg htarget]
    · rw [List.filter_cons_of_neg (p := fun e : Key × Entry => within source e.1.location) hin,
        ih, lookup_key_cons]
      have hother : ¬source ++ location.drop target.length = old := fun heq =>
        hin (within_iff.2 ⟨_, heq.symm⟩)
      rw [if_neg hother]

theorem lookup_dropBelow (tree : FileTree) (outer location : Location) :
    (tree.dropBelow outer).entries.lookup location.key =
      if within outer location then none else tree.entries.lookup location.key := by
  rw [dropBelow, lookup_filter tree.entries (fun key => !within outer key.location) location.key]
  show (if (!within outer location) = true then _ else _) = _
  by_cases hin : within outer location = true
  · simp [hin]
  · simp [hin]

/-- After a move there is at and below the target what was at and below the source, and nothing
is at or below the source. -/
theorem lookup_move (hkeys : ∀ e ∈ tree.entries, e.1 = e.1.location.key)
    (source target location : Location) :
    (tree.move source target).entries.lookup location.key =
      if within target location then
        tree.entries.lookup (source ++ location.drop target.length : Location).key
      else if within source location then none
      else tree.entries.lookup location.key := by
  rw [move]
  simp only [List.lookup_append, lookup_moved source target hkeys, lookup_dropBelow]
  by_cases htarget : within target location = true
  · simp [htarget]
  · simp [htarget]

variable {source target : Location}

theorem lookup_of_ne_nil {location : Location} (h : location ≠ []) :
    tree.entries.lookup location.key = tree.at? location := by
  rw [at?, if_neg h]
  cases tree.entries.lookup location.key <;> rfl

theorem not_within {outer location : Location} (h : ¬within outer location = true) :
    location ≠ outer := by
  rintro rfl
  exact h (within_iff.2 ⟨[], (List.append_nil _).symm⟩)

/-- A file that is moved to a place for a file is there and not where it was, and nothing else
has changed. -/
theorem Sound.at?_move_file (h : tree.Sound) {mode : Nat} {content : Bytes}
    (hsource : tree.at? source = some (.file mode content)) (htarget : tree.TakesFile target)
    (location : Location) :
    (tree.move source target).at? location =
      if location = target then some (.file mode content)
      else if location = source then none
      else tree.at? location := by
  have hsourceTakes : tree.TakesFile source := .inr ⟨mode, content, hsource⟩
  have hsourceNil := h.takesFile_ne_nil hsourceTakes
  have htargetNil := h.takesFile_ne_nil htarget
  rw [at?, lookup_move h.keys]
  by_cases htargetIn : within target location = true
  · -- below the target there is what was below the source: nothing, as a file was there
    obtain ⟨names, rfl⟩ := within_iff.1 htargetIn
    have hmoved : tree.entries.lookup (source ++ names : Location).key =
        tree.at? (source ++ names) := lookup_of_ne_nil (by simp [hsourceNil])
    simp only [htargetIn, if_true, List.drop_left, hmoved]
    by_cases hnames : names = []
    · simp [hnames, hsource]
    · have hbelow := h.nothing_below hsourceTakes hnames
      have hold := h.nothing_below htarget hnames
      simp [hbelow, hold, htargetNil, hnames]
  · have hne := not_within htargetIn
    by_cases hsourceIn : within source location = true
    · obtain ⟨names, rfl⟩ := within_iff.1 hsourceIn
      by_cases hnames : names = []
      · subst hnames
        rw [List.append_nil] at htargetIn hsourceIn hne ⊢
        simp [htargetIn, hsourceIn, hne, hsourceNil]
      · have hbelow := h.nothing_below hsourceTakes hnames
        simp [htargetIn, hsourceIn, hne, hnames, hsourceNil, hbelow]
    · have hnot := not_within hsourceIn
      simp only [htargetIn, hsourceIn, hne, hnot, if_false]
      rfl

theorem Sound.frame_move_file (h : tree.Sound) {mode : Nat} {content : Bytes}
    (hsource : tree.at? source = some (.file mode content)) (htarget : tree.TakesFile target) :
    Frame tree (tree.move source target) where
  workingDirectory := rfl
  at?_eq location hnot := by
    have htargetNe : location ≠ target := by
      rintro rfl
      exact hnot htarget
    have hsourceNe : location ≠ source := by
      rintro rfl
      exact hnot (.inr ⟨mode, content, hsource⟩)
    rw [h.at?_move_file hsource htarget, if_neg htargetNe, if_neg hsourceNe]
  takesFile location htakes := by
    unfold TakesFile
    rw [h.at?_move_file hsource htarget]
    split
    · exact .inr ⟨mode, content, rfl⟩
    · split
      · exact .inl rfl
      · exact htakes

theorem keys_move (hkeys : ∀ e ∈ tree.entries, e.1 = e.1.location.key) (source target : Location) :
    ∀ e ∈ (tree.move source target).entries, e.1 = e.1.location.key := by
  intro e he
  rcases List.mem_append.1 he with he | he
  · obtain ⟨old, -, rfl⟩ := List.mem_map.1 he
    rfl
  · exact hkeys e (List.mem_filter.1 (List.mem_filter.1 he).1).1

/-- A tree stays sound when a file is moved to a place for a file. -/
theorem Sound.move_file (h : tree.Sound) {mode : Nat} {content : Bytes}
    (hsource : tree.at? source = some (.file mode content)) (htarget : tree.FilePlace target) :
    (tree.move source target).Sound := by
  refine (h.frame_move_file hsource htarget.takesFile).sound h (keys_move h.keys _ _) ?_
  intro outer name hsome
  rw [h.at?_move_file hsource htarget.takesFile] at hsome
  split at hsome
  · next heq =>
    obtain ⟨outer', name', hlocation, hdir⟩ := htarget.parent
    rw [hlocation] at heq
    obtain ⟨rfl, -⟩ := List.append_inj' heq rfl
    exact hdir
  · split at hsome
    · exact absurd rfl hsome
    · exact h.parents outer name hsome

end TokenVault.FileTree
