import TokenVault.Proofs.Store.Failure
import TokenVault.Proofs.Store.Interleaving

/-!
# What a step leaves of a store

A store is valid (`Valid`) if its file is no link, and absent or one that holds contents.  No step
on the way to the lock changes what it holds (`Valid.prepare`), and once the lock is there those
steps change no files at all.  A temporary file is apart from the file and from the lock
(`Apart`), so writing to it does not change what the store holds; and then it takes the place of
the file (`Temporary.replace`).
-/

namespace TokenVault.Store

open FileTree

/-- A store whose file is no link, and is absent or holds contents. -/
structure Valid (store : Store) (tree : FileTree) (contents : Contents) : Prop where
  sound : tree.Sound
  data : ∃ location, tree.FilePath store.path location ∧ Holds contents (tree.at? location)

/-- Whether the file of the lock is there. -/
def LockThere (store : Store) (tree : FileTree) : Prop :=
  ∃ location, tree.FilePath store.lockPath location ∧ tree.at? location ≠ none

/-- Whether there is no link in place of the lock. -/
def LockUnlinked (store : Store) (tree : FileTree) : Prop :=
  ∀ target, tree.inspect store.lockPath ≠ .ok (.link target)

variable {store : Store} {tree u : FileTree} {contents contents' : Contents}

theorem Valid.frame (h : Valid store tree contents) (hframe : Frame tree u) (hsound : u.Sound)
    (hdata : ∀ location, tree.FilePath store.path location →
      Holds contents (tree.at? location) → Holds contents' (u.at? location)) :
    Valid store u contents' where
  sound := hsound
  data := by
    obtain ⟨location, hpath, hholds⟩ := h.data
    exact ⟨location, hpath.frame hframe h.sound, hdata location hpath hholds⟩

/-- The directory of a valid store is there. -/
theorem Valid.directory (h : Valid store tree contents) :
    ∃ location mode, tree.follow store.directory = .ok (location, .directory mode) := by
  obtain ⟨location, hpath, -⟩ := h.data
  obtain ⟨directory, henters⟩ := enters_directory_of_resolve hpath.resolve_eq
  exact ⟨directory, h.sound.enters_iff.1 henters⟩

theorem Valid.gives_readContents (h : Valid store tree contents) :
    (store.readContents .none).Gives tree contents tree := by
  obtain ⟨location, hpath, hholds⟩ := h.data
  exact Store.gives_readContents hpath hholds

/-- A change of files makes no links. -/
theorem LockUnlinked.frame (h : LockUnlinked store tree) (hframe : Frame tree u) (hu : u.Sound) :
    LockUnlinked store u := by
  intro target hlink
  obtain ⟨location, hresolve⟩ := inspect_eq_ok_iff.1 hlink
  have hat := hu.at?_of_found hresolve
  have hbefore : tree.resolve false store.lockPath = .ok (tree.placeAt location) :=
    resolve_frame hframe.symm hu hresolve
  rw [← hframe.symm.at?_eq location (not_takesFile_of_link hat)] at hat
  rw [placeAt_of_some hat] at hbefore
  exact h target (inspect_eq_ok_iff.2 ⟨location, hbefore⟩)

theorem LockThere.frame (h : LockThere store tree) (hframe : Frame tree u) (ht : tree.Sound)
    (hat : ∀ location, tree.FilePath store.lockPath location → tree.at? location ≠ none →
      u.at? location ≠ none) : LockThere store u := by
  obtain ⟨location, hpath, hthere⟩ := h
  exact ⟨location, hpath.frame hframe ht, hat location hpath hthere⟩

/-! ### Before the lock -/

/-- What comes of a step before the lock. -/
structure Prepared (store : Store) (tree : FileTree) (contents : Contents) (step : Preparation)
    (outcome : Outcome Unit) : Prop where
  valid : Valid store outcome.tree contents
  frame : Frame tree outcome.tree
  unchanged : LockThere store tree → outcome.tree = tree
  unlinked : step = .refuseLockLink → outcome.result = .ok () → LockUnlinked store outcome.tree
  opened : step = .openLock → outcome.result = .ok () → LockThere store outcome.tree

theorem Prepared.of_same {step : Preparation} {outcome : Outcome Unit}
    (h : Valid store tree contents) (htree : outcome.tree = tree)
    (hunlinked : step = .refuseLockLink → outcome.result = .ok () → LockUnlinked store tree)
    (hopened : step = .openLock → outcome.result = .ok () → LockThere store tree) :
    Prepared store tree contents step outcome where
  valid := by rwa [htree]
  frame := by
    rw [htree]
    exact .refl tree
  unchanged _ := htree
  unlinked := by rwa [htree]
  opened := by rwa [htree]

/-- Once a lock that is no link has been opened, it is there. -/
theorem lockThere_of_openFile (ht : tree.Sound) (hunlinked : LockUnlinked store tree)
    (h : tree.openFile store.lockPath fileMode = .ok u) : LockThere store u := by
  unfold openFile at h
  split at h
  · next location mode octets hresolve =>
    cases h
    have hlock := resolve_of_followed hunlinked hresolve
    exact ⟨location, ht.filePath_of_found hlock, ht.at?_of_found hlock ▸ Option.some_ne_none _⟩
  · cases h
  · next location hresolve =>
    cases h
    have hpath := LockOpened.filePath ht (resolve_of_followed hunlinked hresolve)
    have hframe := frame_put_file hpath.place.takesFile (masked fileMode) []
    refine ⟨location, hpath.frame hframe ht, ?_⟩
    rw [at?_put, if_pos rfl]
    exact Option.some_ne_none _
  · cases h

/-- Once the lock has been taken, its file is there. -/
theorem lockThere_of_acquire {faults : Faults} (ht : tree.Sound)
    (h : (store.acquire faults).Gives tree () u) : LockThere store u := by
  obtain ⟨hunlinked, hopen⟩ := opens_of_acquire h
  exact lockThere_of_openFile (sound_makeRoom ht store faults) hunlinked hopen

/-- Opening the lock makes a file for it, unless there is one. -/
theorem Valid.openLock (h : Valid store tree contents) (hunlinked : LockUnlinked store tree) :
    Prepared store tree contents .openLock (store.prepare .openLock tree) := by
  rw [Store.prepare, Store.openLock, Step.change]
  cases hopen : tree.openFile store.lockPath fileMode with
  | error cause =>
    refine .of_same h rfl (fun hstep => ?_) fun _ hresult => ?_
    · cases hstep
    · cases hresult
  | ok opened =>
    have hthere := lockThere_of_openFile h.sound hunlinked hopen
    have hopened := lockOpened_of_openFile hunlinked hopen
    cases hopened with
    | there =>
      refine .of_same h rfl (fun hstep => ?_) fun _ _ => hthere
      cases hstep
    | @fresh location hlock =>
      have hnone := h.sound.at?_of_vacant hlock
      have hpath := LockOpened.filePath h.sound hlock
      have hframe := frame_put_file hpath.place.takesFile (masked fileMode) []
      refine ⟨?_, hframe, ?_, fun hstep => ?_, fun _ _ => hthere⟩
      · refine h.frame hframe (h.sound.put_file hpath.place _ _) fun other hother hholds => ?_
        have hne : other ≠ location :=
          ne_beside suffix_ne_nil slash_not_mem_suffix h.sound hother hpath
        rwa [at?_put, if_neg hne]
      · rintro ⟨other, hother, hsome⟩
        rw [hother.location_unique hpath] at hsome
        exact absurd hnone hsome
      · cases hstep

/-- No step before the lock changes what a store holds. -/
theorem Valid.prepare (h : Valid store tree contents) (step : Preparation)
    (hunlinked : step = .openLock → LockUnlinked store tree) :
    Prepared store tree contents step (store.prepare step tree) := by
  cases step with
  | refuseLink =>
    refine .of_same h (tree_refuseLink store.path tree) (fun hstep => ?_) fun hstep => ?_
    · cases hstep
    · cases hstep
  | makeRoom =>
    obtain ⟨location, mode, hdirectory⟩ := h.directory
    obtain ⟨events, hroom⟩ := gives_makeRoom hdirectory
    refine .of_same h ?_ (fun hstep => ?_) fun hstep => ?_
    · rw [Store.prepare, hroom]
    · cases hstep
    · cases hstep
  | refuseLockLink =>
    refine .of_same h (tree_refuseLink store.lockPath tree) (fun _ hresult => ?_) fun hstep => ?_
    · exact (refuseLink_gives (Step.gives_of_result hresult)).2
    · cases hstep
  | openLock => exact h.openLock (hunlinked rfl)

/-! ### Temporary files -/

/-- A place for a file which is neither that of the store nor that of its lock. -/
structure Apart (store : Store) (tree : FileTree) (place : Location) : Prop where
  filePlace : tree.FilePlace place
  ne_data : ∀ location, tree.FilePath store.path location → location ≠ place
  ne_lock : ∀ location, tree.FilePath store.lockPath location → location ≠ place

/-- A temporary file with what has been written to it by now. -/
structure Temporary (store : Store) (tree : FileTree) (place : Location) (octets : Bytes) : Prop
    extends Apart store tree place where
  at?_eq : tree.at? place = some (.file fileMode octets)

theorem Apart.frame {place : Location} (h : Apart store tree place) (hframe : Frame tree u)
    (hu : u.Sound) : Apart store u place where
  filePlace := hframe.filePlace h.filePlace
  ne_data location hpath := h.ne_data location (hpath.frame hframe.symm hu)
  ne_lock location hpath := h.ne_lock location (hpath.frame hframe.symm hu)

/-- What a change of files leaves of a store whose lock is there. -/
structure Changed (store : Store) (tree u : FileTree) (contents : Contents) : Prop where
  valid : Valid store u contents
  frame : Frame tree u
  lock : LockThere store u

/-- Writing elsewhere does not change what a store holds. -/
theorem Apart.put {place : Location} (h : Apart store tree place)
    (hvalid : Valid store tree contents) (hlock : LockThere store tree) (octets : Bytes) :
    Changed store tree (tree.put place (.file fileMode octets)) contents ∧
      Temporary store (tree.put place (.file fileMode octets)) place octets := by
  have hframe := frame_put_file h.filePlace.takesFile fileMode octets
  have hsound := hvalid.sound.put_file h.filePlace fileMode octets
  refine ⟨⟨hvalid.frame hframe hsound fun location hpath hholds => ?_, hframe,
    hlock.frame hframe hvalid.sound fun location hpath hthere => ?_⟩, h.frame hframe hsound, ?_⟩
  · rwa [at?_put, if_neg (h.ne_data location hpath)]
  · rwa [at?_put, if_neg (h.ne_lock location hpath)]
  · rw [at?_put, if_pos rfl]

/-- Once the lock is there, its name is longer than that of the file, and the name of a temporary
file is longer still. -/
theorem ne_unusedName (ht : tree.Sound) (hlock : LockThere store tree) {location : Location}
    (hpath : tree.FilePath store.path location) (directory : Location) :
    location ≠ directory ++ [unusedName tree] := by
  intro heq
  obtain ⟨lockLocation, hlockPath, hthere⟩ := hlock
  obtain ⟨outer, name, rfl, rfl⟩ :=
    location_beside suffix_ne_nil slash_not_mem_suffix ht hpath hlockPath
  obtain ⟨-, hname⟩ := List.append_inj' heq rfl
  obtain rfl : name = unusedName tree := List.singleton_inj.1 hname
  have hlength := length_lt_of_at? hthere
  rw [List.length_append] at hlength
  omega

theorem apart_unusedName (ht : tree.Sound) (hlock : LockThere store tree) {directory : Location}
    (hdirectory : tree.IsDirectory directory) :
    Apart store tree (directory ++ [unusedName tree]) := by
  have hnone := at?_unusedName tree directory
  refine ⟨⟨.inl hnone, directory, _, rfl, hdirectory⟩,
    fun location hpath => ne_unusedName ht hlock hpath directory,
    fun location hpath heq => ?_⟩
  obtain ⟨lockLocation, hlockPath, hthere⟩ := hlock
  rw [hpath.location_unique hlockPath] at heq
  rw [heq, hnone] at hthere
  exact hthere rfl

/-- A temporary file that has been abandoned has come where nothing was, and that is neither the
place of the file nor that of the lock. -/
theorem Abandoned.exists_eq_put {faults : Faults} (h : Abandoned store faults tree u)
    (ht : tree.Sound) (hlock : LockThere store tree) :
    ∃ place octets, u = tree.put place (.file fileMode octets) ∧ tree.at? place = none ∧
      Apart store tree place := by
  cases h with
  | @left _ directory mode hdirectory octets =>
    exact ⟨_, octets, rfl, at?_unusedName tree directory,
      apart_unusedName ht hlock ⟨mode, ht.at?_of_follow hdirectory⟩⟩

/-- A new temporary file is empty. -/
theorem Valid.openTemporary (h : Valid store tree contents) (hlock : LockThere store tree) :
    ∃ place u, store.openTemporary.Gives tree place u ∧ Changed store tree u contents ∧
      Temporary store u place [] := by
  obtain ⟨location, mode, hdirectory⟩ := h.directory
  have hapart := apart_unusedName h.sound hlock ⟨mode, h.sound.at?_of_follow hdirectory⟩
  exact ⟨_, _, ⟨[], by rw [Store.openTemporary, hdirectory]⟩, hapart.put h hlock []⟩

/-- A temporary file takes the place of the file: the store holds what it holds. -/
theorem Temporary.replace {place : Location} (h : Temporary store tree place contents'.octets)
    (hvalid : Valid store tree contents) (hlock : LockThere store tree) :
    ∃ u, (store.replaceBy .none place).Gives tree () u ∧ Changed store tree u contents' := by
  obtain ⟨location, hpath, -⟩ := hvalid.data
  have htakes := hpath.place.takesFile
  have hmove := hvalid.sound.moveTo_file_eq h.at?_eq hpath
  rw [if_neg (h.ne_data location hpath)] at hmove
  have hframe := hvalid.sound.frame_move_file h.at?_eq htakes
  refine ⟨tree.move place location, gives_replaceBy_iff.2 ⟨rfl, hmove⟩,
    hvalid.frame hframe (hvalid.sound.move_file h.at?_eq hpath.place) fun other hother _ => ?_,
    hframe, hlock.frame hframe hvalid.sound fun other hother hthere => ?_⟩
  · rw [hother.location_unique hpath, hvalid.sound.at?_move_file h.at?_eq htakes, if_pos rfl]
    exact contents'.ofOctets_octets
  · have hne : location ≠ other :=
      ne_beside suffix_ne_nil slash_not_mem_suffix hvalid.sound hpath hother
    rwa [hvalid.sound.at?_move_file h.at?_eq htakes, if_neg hne.symm,
      if_neg (h.ne_lock other hother)]

end TokenVault.Store
