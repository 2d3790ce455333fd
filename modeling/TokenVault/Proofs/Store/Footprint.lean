import TokenVault.Proofs.Store.Commit

/-!
# What a request may change

A request changes nothing but the file of the store, and only if it is granted and changes the
contents.  What may be new besides is the lock, which is empty then, and directories on the way
to the store (`Footprint`).  A lock that is there stays as it is.  Nothing is left of the temporary
file unless the system refuses to remove it.
-/

namespace TokenVault

namespace Store

open FileTree

variable {store : Store} {faults : Faults} {tree u : FileTree} {request : Request}
  {location : Location} {octets : Bytes}

/-! ### The course of a request -/

/-- What has become of the files once a request has been performed: nothing, or the lock has
been opened where there was room for the store, and then the file may have been replaced, or a
temporary file abandoned. -/
inductive Effect (store : Store) (faults : Faults) (request : Request) (tree : FileTree) :
    Outcome Reply → Prop
  | refused (events : List Event) (e : StoreError) :
    Effect store faults request tree ⟨tree, events, .error e⟩
  | failed {locked : FileTree}
    (hlocked : LockOpened store (store.makeRoom faults tree).tree locked) (events : List Event)
    (e : StoreError) : Effect store faults request tree ⟨locked, events, .error e⟩
  | abandoned {locked u : FileTree}
    (hlocked : LockOpened store (store.makeRoom faults tree).tree locked)
    (hthere : LockThere store locked) (hleft : Abandoned store faults locked u)
    (events : List Event) (e : StoreError) :
    Effect store faults request tree ⟨u, events, .error e⟩
  | read {locked : FileTree}
    (hlocked : LockOpened store (store.makeRoom faults tree).tree locked)
    (hthere : LockThere store locked) (hchanges : request.changes = false) (events : List Event)
    (reply : Reply) : Effect store faults request tree ⟨locked, events, .ok reply⟩
  | rewritten {locked u : FileTree} {location : Location} {octets : Bytes}
    (hlocked : LockOpened store (store.makeRoom faults tree).tree locked)
    (hthere : LockThere store locked) (hchanges : request.changes = true)
    (hpath : locked.FilePath store.path location)
    (hfile : Rewritten locked location octets u) (events : List Event) (reply : Reply) :
    Effect store faults request tree ⟨u, events, .ok reply⟩

theorem perform_effect (ht : tree.Sound) (store : Store) (faults : Faults) (request : Request) :
    Effect store faults request tree (store.performUnder faults request tree) := by
  rcases houtcome : store.performUnder faults request tree with ⟨u, events, e | reply⟩
  · rcases fails_perform ⟨events, houtcome⟩ with rfl | hlocked | ⟨locked, hacquire, hleft⟩
    · exact .refused events e
    · exact .failed hlocked events e
    · exact .abandoned (gives_acquire hacquire) (lockThere_of_acquire ht hacquire) hleft events e
  · obtain ⟨locked, contents, hacquire, hread, hend⟩ := gives_perform ⟨events, houtcome⟩
    have hlocked := gives_acquire hacquire
    have hthere := lockThere_of_acquire ht hacquire
    rcases hend with ⟨hchanges, rfl⟩ | ⟨hchanges, hcommit⟩
    · exact .read hlocked hthere hchanges events reply
    · have hsound := hlocked.sound (sound_makeRoom ht store faults)
      obtain ⟨location, hpath⟩ :=
        filePath_of_readContents hsound hthere (path_ne_nil_of_commit hcommit) hread
      obtain ⟨told, hcommit⟩ := hcommit
      have hcommitted := committed_of_filePath hsound hthere hpath faults (request.after contents)
      rw [hcommit] at hcommitted
      cases hcommitted with
      | rewritten hrefusal hfile =>
        exact .rewritten hlocked hthere hchanges hpath hfile events reply

/-! ### What may differ -/

/-- What may be new at a location where nothing was. -/
inductive Added (store : Store) (tree after : FileTree) (location : Location) : Prop
  /-- A directory on the way to the store. -/
  | directory (hbefore : tree.at? location = none) (dir : Bytes)
    (hdir : dir ∈ Path.ancestors store.directory)
    (hafter : after.follow dir = .ok (location, .directory (masked directoryMode)))
  /-- The lock, which is empty. -/
  | lock (hbefore : tree.at? location = none)
    (hafter : after.resolve false store.lockPath =
      .ok (.found location (.file (masked fileMode) [])))

/-- The file of a store that has been replaced, as the request asked for it. -/
structure Replaced (store : Store) (request : Request) (tree : FileTree)
    (outcome : Outcome Reply) (location : Location) : Prop where
  changes : request.changes = true
  granted : ∃ reply, outcome.result = .ok reply
  before : tree.TakesFile location
  after : ∃ octets, outcome.tree.resolve false store.path =
    .ok (.found location (.file fileMode octets))

/-- A temporary file beside the file of a store which the system has refused to remove. -/
structure Leftover (store : Store) (faults : Faults) (tree : FileTree)
    (outcome : Outcome Reply) (location : Location) : Prop where
  refused : faults.refusal .remove ≠ none
  failed : ∃ e, outcome.result = .error e
  before : tree.at? location = none
  beside : ∃ directory mode name, location = directory ++ [name] ∧
    outcome.tree.follow store.directory = .ok (directory, .directory mode)
  after : ∃ octets, outcome.tree.at? location = some (.file fileMode octets)

/-- The lock once it has been opened: it is as it was before, or new and empty. -/
def LockLeft (store : Store) (tree after : FileTree) : Prop :=
  ∃ location mode octets,
    after.resolve false store.lockPath = .ok (.found location (.file mode octets)) ∧
      (tree.at? location = some (.file mode octets) ∨
        tree.at? location = none ∧ mode = masked fileMode ∧ octets = [])

/-- What a request may have done to the files, however it has ended and whatever the system has
refused. -/
structure Footprint (store : Store) (faults : Faults) (request : Request) (tree : FileTree)
    (outcome : Outcome Reply) : Prop where
  sound : outcome.tree.Sound
  workingDirectory : outcome.tree.workingDirectory = tree.workingDirectory
  /-- Nothing else differs, so nothing is left of a temporary file that could be removed. -/
  touched : ∀ location, outcome.tree.at? location = tree.at? location ∨
    Added store tree outcome.tree location ∨ Replaced store request tree outcome location ∨
      Leftover store faults tree outcome location
  /-- A lock that is there stays as it is. -/
  lock : ∀ location mode octets,
    tree.resolve false store.lockPath = .ok (.found location (.file mode octets)) →
      outcome.tree.at? location = some (.file mode octets)
  /-- A request that is granted has found a lock, or made one. -/
  granted : ∀ reply, outcome.result = .ok reply → LockLeft store tree outcome.tree
  /-- A request that changes nothing, or fails, leaves the file as it is and makes none. -/
  data : request.changes = false ∨ (∃ e, outcome.result = .error e) → ∀ location mode octets,
    (tree.resolve false store.path = .ok (.found location (.file mode octets)) →
      outcome.tree.resolve false store.path = .ok (.found location (.file mode octets))) ∧
    (outcome.tree.resolve false store.path = .ok (.found location (.file mode octets)) →
      tree.at? location = some (.file mode octets))

/-- A change of other files takes nothing from what is new. -/
theorem Added.frame {t : FileTree} (h : Added store tree t location) (ht : t.Sound)
    (hframe : Frame t u) (hsame : u.at? location = t.at? location) :
    Added store tree u location := by
  cases h with
  | directory hbefore dir hdir hafter =>
    exact .directory hbefore dir hdir (follow_directory_frame hframe ht hafter)
  | lock hbefore hafter =>
    refine .lock hbefore ((resolve_frame hframe ht hafter).trans ?_)
    have hat : t.at? location = some (.file (masked fileMode) []) :=
      ht.at?_of_found hafter
    exact congrArg Except.ok (placeAt_of_some (hsame.trans hat))

theorem addsDirectories_makeRoom (ht : tree.Sound) (store : Store) (faults : Faults) :
    AddsDirectories tree directoryMode (Path.ancestors store.directory)
      (store.makeRoom faults tree).tree := by
  rcases makeRoom_spec ht store faults with htree | ⟨-, htree⟩
  · rw [htree]
    exact .refl tree _ _
  · rw [htree]
    exact ht.addsDirectories _ directoryMode store.trimmed_directory

/-- Once the lock has been opened there are new directories on the way to the store, and the
lock. -/
theorem added_of_opened (ht : tree.Sound)
    (hlocked : LockOpened store (store.makeRoom faults tree).tree u) (location : Location) :
    u.at? location = tree.at? location ∨ Added store tree u location := by
  have hroom := sound_makeRoom ht store faults
  have hmade := addsDirectories_makeRoom ht store faults location
  -- what there is once room has been made is there still
  have hkept : ∀ {u : FileTree}, Frame (store.makeRoom faults tree).tree u →
      u.at? location = (store.makeRoom faults tree).tree.at? location →
        u.at? location = tree.at? location ∨ Added store tree u location := by
    intro u hframe hsame
    rcases hmade with hmade | ⟨hnone, dir, hdir, hfollow⟩
    · exact .inl (hsame.trans hmade)
    · exact .inr (.directory hnone dir hdir (follow_directory_frame hframe hroom hfollow))
  have hframe := hlocked.frame hroom
  cases hlocked with
  | there => exact hkept hframe rfl
  | @fresh lock hlock =>
    by_cases heq : location = lock
    · subst heq
      have hvacant := hroom.at?_of_vacant hlock
      have hpath := (LockOpened.filePath hroom hlock).frame hframe hroom
      have hnew : ((store.makeRoom faults tree).tree.put location (.file (masked fileMode) [])).at?
          location = some (.file (masked fileMode) []) := by
        rw [at?_put, if_pos rfl]
      refine .inr (.lock ?_ (hpath.resolve_eq.trans (congrArg Except.ok (placeAt_of_some hnew))))
      cases hat : tree.at? location with
      | none => rfl
      | some entry =>
        rw [(grows_makeRoom ht store faults).at?_eq _ _ hat] at hvacant
        cases hvacant
    · refine hkept hframe ?_
      rw [at?_put, if_neg heq]

theorem grows_of_opened (ht : tree.Sound)
    (hlocked : LockOpened store (store.makeRoom faults tree).tree u) : Grows tree u :=
  (grows_makeRoom ht store faults).trans (hlocked.grows (sound_makeRoom ht store faults))

theorem sound_of_opened (ht : tree.Sound)
    (hlocked : LockOpened store (store.makeRoom faults tree).tree u) : u.Sound :=
  hlocked.sound (sound_makeRoom ht store faults)

/-- The file and the lock are two. -/
theorem ne_of_resolve (ht : tree.Sound) {other : Location} {mode mode' : Nat} {octets' : Bytes}
    (hdata : tree.resolve false store.path = .ok (.found location (.file mode octets)))
    (hlock : tree.resolve false store.lockPath = .ok (.found other (.file mode' octets'))) :
    location ≠ other :=
  ne_beside suffix_ne_nil slash_not_mem_suffix ht (ht.filePath_of_found hdata)
    (ht.filePath_of_found hlock)

theorem lockLeft_of_opened (ht : tree.Sound)
    (hlocked : LockOpened store (store.makeRoom faults tree).tree u) (hthere : LockThere store u) :
    LockLeft store tree u := by
  have hsound := sound_of_opened ht hlocked
  obtain ⟨location, hpath, hsome⟩ := hthere
  obtain ⟨mode, octets, hat⟩ := hpath.place.takesFile.resolve_left hsome
  have hresolve := hpath.resolve_eq
  rw [placeAt_of_some hat] at hresolve
  refine ⟨location, mode, octets, hresolve, ?_⟩
  rcases added_of_opened ht hlocked location with hsame | hadded
  · exact .inl (hsame.symm.trans hat)
  · cases hadded with
    | directory hbefore dir hdir hafter =>
      rw [hsound.at?_of_follow hafter] at hat
      cases hat
    | lock hbefore hafter =>
      rw [hresolve] at hafter
      cases hafter
      exact .inr ⟨hbefore, rfl, rfl⟩

/-- Replacing the file leaves the lock as it is. -/
theorem LockLeft.rewritten {t : FileTree} (h : LockLeft store tree t) (ht : t.Sound)
    (hpath : t.FilePath store.path location) (hfile : Rewritten t location octets u) :
    LockLeft store tree u := by
  obtain ⟨lock, mode, content, hresolve, hbefore⟩ := h
  refine ⟨lock, mode, content, (resolve_frame hfile.frame ht hresolve).trans ?_, hbefore⟩
  exact congrArg Except.ok (placeAt_of_some (hfile.at?_lock ht hpath hresolve))

/-- Opening the lock makes no file where the path of the store leads. -/
theorem data_of_opened (ht : tree.Sound)
    (hlocked : LockOpened store (store.makeRoom faults tree).tree u) {mode : Nat}
    (h : u.resolve false store.path = .ok (.found location (.file mode octets))) :
    tree.at? location = some (.file mode octets) := by
  have hsound := sound_of_opened ht hlocked
  have hat : u.at? location = some (.file mode octets) := hsound.at?_of_found h
  rcases added_of_opened ht hlocked location with hsame | hadded
  · exact hsame.symm.trans hat
  · cases hadded with
    | directory hbefore dir hdir hafter =>
      rw [hsound.at?_of_follow hafter] at hat
      cases hat
    | lock hbefore hafter => exact absurd rfl (ne_of_resolve hsound h hafter)

/-- Opening the lock does not touch what was there. -/
theorem footprint_of_opened (ht : tree.Sound)
    (hlocked : LockOpened store (store.makeRoom faults tree).tree u) (events : List Event)
    (result : Except StoreError Reply)
    (hthere : ∀ reply, result = .ok reply → LockThere store u) :
    Footprint store faults request tree ⟨u, events, result⟩ := by
  have hgrows := grows_of_opened ht hlocked
  have hsound := sound_of_opened ht hlocked
  refine ⟨hsound, hgrows.workingDirectory, fun location => ?_, fun location mode octets h => ?_,
    fun reply h => lockLeft_of_opened ht hlocked (hthere reply h),
    fun _ location mode octets => ⟨hgrows.resolve ht, fun h => ?_⟩⟩
  · rcases added_of_opened ht hlocked location with hsame | hadded
    · exact .inl hsame
    · exact .inr (.inl hadded)
  · exact hgrows.at?_eq _ _ (ht.at?_of_found h)
  · exact data_of_opened ht hlocked h

/-- A temporary file that is left lies where nothing was, and is neither the file nor the lock. -/
theorem footprint_of_abandoned {locked : FileTree} (ht : tree.Sound)
    (hlocked : LockOpened store (store.makeRoom faults tree).tree locked)
    (hthere : LockThere store locked) (hleft : Abandoned store faults locked u)
    (events : List Event) (e : StoreError) :
    Footprint store faults request tree ⟨u, events, .error e⟩ := by
  have hsound := sound_of_opened ht hlocked
  cases hleft with
  | @left hremove outer mode hdirectory octets =>
    have hapart := apart_unusedName hsound hthere ⟨mode, hsound.at?_of_follow hdirectory⟩
    have hnone := at?_unusedName locked outer
    generalize hplace : outer ++ [unusedName locked] = place at hapart hnone
    have hframe := frame_put_file hapart.filePlace.takesFile fileMode octets
    have hput := hsound.put_file hapart.filePlace fileMode octets
    have hgrows := (grows_of_opened ht hlocked).trans (.put hnone (.file fileMode octets))
    have hkept : ∀ other, other ≠ place →
        (locked.put place (.file fileMode octets)).at? other = locked.at? other :=
      fun other hother => by rw [at?_put, if_neg hother]
    have hadded := added_of_opened ht hlocked
    refine ⟨hput, hgrows.workingDirectory, fun other => ?_, fun other mode content h => ?_, nofun,
      fun _ other mode content => ⟨hgrows.resolve ht, fun h => ?_⟩⟩
    · by_cases hother : other = place
      · refine .inr (.inr (.inr ⟨hremove, ⟨e, rfl⟩, ?_, ⟨outer, mode, _, hother.trans hplace.symm,
          follow_directory_frame hframe hsound hdirectory⟩, octets, ?_⟩))
        · cases hat : tree.at? other with
          | none => rfl
          | some entry =>
            rw [hother] at hat
            rw [(grows_of_opened ht hlocked).at?_eq _ _ hat] at hnone
            cases hnone
        · rw [hother, at?_put, if_pos rfl]
      · rcases hadded other with hsame | hnew
        · exact .inl ((hkept other hother).trans hsame)
        · exact .inr (.inl (hnew.frame hsound hframe (hkept other hother)))
    · exact hgrows.at?_eq _ _ (ht.at?_of_found h)
    · have hbefore : locked.resolve false store.path = .ok (locked.placeAt other) :=
        resolve_frame hframe.symm hput h
      by_cases hother : other = place
      · rw [hother, placeAt_of_none hnone] at hbefore
        exact absurd rfl (hapart.ne_data place (hsound.filePath hbefore (.inl hnone)))
      · have hat : locked.at? other = some (.file mode content) :=
          (hkept other hother).symm.trans (hput.at?_of_found h)
        rw [placeAt_of_some hat] at hbefore
        exact data_of_opened ht hlocked hbefore

theorem Effect.footprint (ht : tree.Sound) {outcome : Outcome Reply}
    (h : Effect store faults request tree outcome) :
    Footprint store faults request tree outcome := by
  cases h with
  | refused events e =>
    refine ⟨ht, rfl, fun _ => .inl rfl, fun location mode octets h => ?_, nofun,
      fun _ location mode octets => ⟨fun h => h, fun h => ?_⟩⟩
    · exact ht.at?_of_found h
    · exact ht.at?_of_found h
  | failed hlocked events e => exact footprint_of_opened ht hlocked events _ nofun
  | abandoned hlocked hthere hleft events e =>
    exact footprint_of_abandoned ht hlocked hthere hleft events e
  | read hlocked hthere hchanges events reply =>
    exact footprint_of_opened ht hlocked events _ fun _ _ => hthere
  | @rewritten locked u location octets hlocked hthere hchanges hpath hfile events reply =>
    have hgrows := grows_of_opened ht hlocked
    have hsound := sound_of_opened ht hlocked
    have hnew : u.at? location = some (.file fileMode octets) := by
      rw [hfile.at?_eq, if_pos rfl]
    refine ⟨hfile.sound, hfile.frame.workingDirectory.trans hgrows.workingDirectory,
      fun other => ?_, fun other mode octets h => ?_,
      fun _ _ => (lockLeft_of_opened ht hlocked hthere).rewritten hsound hpath hfile,
      fun hkept => ?_⟩
    · by_cases hother : other = location
      · subst hother
        refine .inr (.inr (.inl ⟨hchanges, ⟨reply, rfl⟩, ?_, octets, ?_⟩))
        · rcases hat : tree.at? other with _ | entry
          · exact .inl hat
          · rcases hpath.place.takesFile with hnone | ⟨mode, content, hsome⟩
            · rw [hgrows.at?_eq _ _ hat] at hnone
              cases hnone
            · rw [hgrows.at?_eq _ _ hat] at hsome
              exact .inr ⟨mode, content, hat.trans hsome⟩
        · have hresolve := (hpath.frame hfile.frame hsound).resolve_eq
          rwa [placeAt_of_some hnew] at hresolve
      · have hsame : u.at? other = locked.at? other := by rw [hfile.at?_eq, if_neg hother]
        rcases added_of_opened ht hlocked other with hbefore | hadded
        · exact .inl (hsame.trans hbefore)
        · exact .inr (.inl (hadded.frame hsound hfile.frame hsame))
    · exact hfile.at?_lock hsound hpath (hgrows.resolve ht h)
    · rcases hkept with hfalse | ⟨e, he⟩
      · rw [hchanges] at hfalse
        cases hfalse
      · cases he

/-- Whatever files a request comes upon, whatever the system refuses and however the request ends,
it touches nothing but the file of the store, its lock and the directories on the way to it. -/
theorem footprint_perform (ht : tree.Sound) (store : Store) (faults : Faults)
    (request : Request) :
    Footprint store faults request tree (store.performUnder faults request tree) :=
  (perform_effect ht store faults request).footprint ht

end Store

end TokenVault
