import TokenVault.Proofs.FileTree.Growth
import TokenVault.Proofs.Store.History

/-!
# Requests refused

A request that is refused leaves everything where it was, whatever the system has refused on the
way.  By then nothing has been done but to make room for the store and to open its lock, and the
temporary file has been taken away again unless the system has refused that as well
(`Store.fails_perform`).  So the files have only grown, and what the path of the store led to it
leads to still.  Where it led to nothing it leads to nothing, unless it goes up from a directory
that had to be made.
-/

namespace TokenVault

namespace Store

open FileTree

variable {store : Store} {faults : Faults} {tree t u : FileTree} {e : StoreError} {path : Bytes}
  {request : Request}

/-! ### Room for a store -/

theorem trimmed_directory (store : Store) : Path.Trimmed store.directory := by
  rcases Path.directory_spec store.path with hhere | ⟨-, -, htrimmed, -⟩
  · rw [directory, hhere]
    exact Path.trimmed_here
  · exact htrimmed

/-- There is room for a store whose directory is there, whether it can be looked for or not. -/
theorem makeRoom_of_enters (ht : tree.Sound)
    (h : ∃ location, tree.Enters store.directory location) (faults : Faults) :
    store.makeRoom faults tree = ⟨tree, [], .ok ()⟩ := by
  obtain ⟨location, h⟩ := h
  unfold makeRoom
  split
  · rfl
  · rw [ht.makeNewDirectories_of_enters store.trimmed_directory h]

/-- Making room is making the directory of the store, if it is not there. -/
theorem makeRoom_spec (ht : tree.Sound) (store : Store) (faults : Faults) :
    (store.makeRoom faults tree).tree = tree ∨
      (∀ location, ¬tree.Enters store.directory location) ∧
        (store.makeRoom faults tree).tree =
          (tree.makeNewDirectories (fun dir => faults.refusal (.makeDirectory dir)) directoryMode
            (Path.ancestors store.directory)).1 := by
  by_cases henters : ∃ location, tree.Enters store.directory location
  · rw [makeRoom_of_enters ht henters]
    exact .inl rfl
  · rw [makeRoom]
    split
    · exact .inl rfl
    · refine .inr ⟨not_exists.1 henters, ?_⟩
      rcases tree.makeNewDirectories (fun dir => faults.refusal (.makeDirectory dir)) directoryMode
        (Path.ancestors store.directory) with ⟨made, e | newDirectory⟩
      · rfl
      · rfl

theorem grows_makeRoom (ht : tree.Sound) (store : Store) (faults : Faults) :
    Grows tree (store.makeRoom faults tree).tree := by
  rcases makeRoom_spec ht store faults with htree | ⟨-, htree⟩
  · rw [htree]
    exact .refl tree
  · rw [htree]
    exact (ht.paved _ directoryMode store.trimmed_directory).grows

theorem kind_of_makeRoom (h : (store.makeRoom faults).Fails t e u) : e.kind = .storeFault := by
  obtain ⟨events, h⟩ := h
  unfold makeRoom at h
  split at h
  · cases h
  · split at h
    · cases h
    · cases h
      rfl

/-- Making room does not put anything where the path of the store leads, if the path goes up from
directories only that were there before. -/
theorem absent_makeRoom (ht : tree.Sound) (hup : tree.GoesUpInside store.path)
    (habsent : ∀ entry, tree.inspect store.path ≠ .ok entry) (entry : Entry) :
    (store.makeRoom faults tree).tree.inspect store.path ≠ .ok entry := by
  rcases makeRoom_spec ht store faults with htree | ⟨hnot, htree⟩
  · rw [htree]
    exact habsent entry
  · rw [htree]
    intro hinspect
    obtain ⟨-, hgrows, hrefused, hfresh, hkept⟩ :=
      ht.paved (fun dir => faults.refusal (.makeDirectory dir)) directoryMode
        store.trimmed_directory
    obtain ⟨place, hresolve⟩ := inspect_eq_ok_iff.1 hinspect
    obtain ⟨location, henters⟩ := enters_directory_of_resolve hresolve
    rcases Path.directory_spec store.path with hhere | ⟨hne, hfirst, -, name, -, hmoves⟩
    · exact hnot _ (hhere ▸ enters_here)
    have hstart : ∀ tree : FileTree, tree.start store.directory = tree.start store.path :=
      fun tree => start_eq (Path.isAbsolute_eq hfirst hne)
    rcases houtcome : (tree.makeNewDirectories (fun dir => faults.refusal (.makeDirectory dir))
      directoryMode (Path.ancestors store.directory)).2 with cause | _ | fresh
    · exact hrefused cause houtcome location henters
    · -- nothing has been made
      rw [hkept houtcome] at hinspect
      · exact habsent entry hinspect
      · intro before after hbefore
        rw [hstart]
        refine hup before (after ++ [name]) ?_
        rw [hmoves]
        show Path.moves store.directory ++ [name] = _
        rw [hbefore, List.append_assoc]
        rfl
    · -- the directory is a new one, so the path can only go up from it
      obtain ⟨hdirectory, hempty⟩ := hfresh fresh houtcome
      obtain ⟨hpath, hleads⟩ := resolve_eq_ok_iff.1 hresolve
      obtain ⟨links, there, hpasses, hlast⟩ :=
        hleads.last_move (Option.some_ne_none _) hmoves
      obtain ⟨-, _, hdirectoryPasses⟩ := hdirectory
      rw [hstart] at hdirectoryPasses
      obtain rfl := hdirectoryPasses.unique hpasses
      rcases hlast with rfl | hsome
      · obtain ⟨links, there, hbefore⟩ := hup _ [] hmoves
        refine hnot there ⟨henters.isPath, links, ?_⟩
        rw [hstart]
        exact hbefore
      · exact hsome (hempty name)

/-- A new file elsewhere does not come to where the path of the store leads. -/
theorem absent_put (ht : tree.Sound) {location : Location} (hplace : tree.FilePlace location)
    (hnew : tree.at? location = none)
    (hne : ∀ data, tree.FilePath store.path data → data ≠ location)
    {mode : Nat} {octets : Bytes} (habsent : ∀ entry, tree.inspect store.path ≠ .ok entry)
    (entry : Entry) : (tree.put location (.file mode octets)).inspect store.path ≠ .ok entry := by
  intro hinspect
  have hframe := frame_put_file (.inl hnew) mode octets
  have hu := ht.put_file hplace mode octets
  obtain ⟨place, hresolve⟩ := inspect_eq_ok_iff.1 hinspect
  -- the path leads to the same place as before, where nothing was
  have hbefore : tree.resolve false store.path = .ok (tree.placeAt place) :=
    resolve_frame hframe.symm hu hresolve
  have hnone : tree.at? place = none := by
    cases hat : tree.at? place with
    | none => rfl
    | some existing =>
      rw [placeAt_of_some hat] at hbefore
      exact absurd (inspect_eq_ok_iff.2 ⟨place, hbefore⟩) (habsent existing)
  have hsome : (tree.put location (.file mode octets)).at? place = some entry :=
    hu.at?_of_found hresolve
  rw [placeAt_of_none hnone] at hbefore
  rw [at?_put, if_neg (hne place (ht.filePath hbefore (.inl hnone))), hnone] at hsome
  cases hsome

/-! ### The lock of a store -/

/-- What comes of opening the lock: its file may be a new one. -/
inductive LockOpened (store : Store) (tree : FileTree) : FileTree → Prop
  | there : LockOpened store tree tree
  | fresh {location} (h : tree.resolve false store.lockPath = .ok (.vacant location)) :
    LockOpened store tree (tree.put location (.file (masked fileMode) []))

theorem suffix_ne_nil : Bytes.ofText ".lock" ≠ [] := by decide +kernel

theorem slash_not_mem_suffix : Path.slash ∉ Bytes.ofText ".lock" := by decide +kernel

namespace LockOpened

theorem grows (h : LockOpened store tree u) (ht : tree.Sound) : Grows tree u := by
  cases h with
  | there => exact .refl tree
  | fresh h => exact .put (ht.at?_of_vacant h) _

theorem filePath {location : Location} (ht : tree.Sound)
    (h : tree.resolve false path = .ok (.vacant location)) : tree.FilePath path location :=
  ht.filePath h (.inl (ht.at?_of_vacant h))

theorem sound (h : LockOpened store tree u) (ht : tree.Sound) : u.Sound := by
  cases h with
  | there => exact ht
  | fresh h => exact ht.put_file (filePath ht h).place _ _

theorem frame (h : LockOpened store tree u) (ht : tree.Sound) : Frame tree u := by
  cases h with
  | there => exact .refl tree
  | fresh h => exact frame_put_file (.inl (ht.at?_of_vacant h)) _ _

/-- The lock does not come to where the path of the store leads. -/
theorem absent (h : LockOpened store tree u) (ht : tree.Sound)
    (habsent : ∀ entry, tree.inspect store.path ≠ .ok entry) (entry : Entry) :
    u.inspect store.path ≠ .ok entry := by
  cases h with
  | there => exact habsent entry
  | @fresh location hlock =>
    exact absent_put ht (filePath ht hlock).place (ht.at?_of_vacant hlock)
      (fun _ hdata => ne_beside suffix_ne_nil slash_not_mem_suffix ht hdata (filePath ht hlock))
      habsent entry

/-- The lock is no link if it was none. -/
theorem lock_ne_link (h : LockOpened store tree u) (ht : tree.Sound)
    (hlink : ∀ target, tree.inspect store.lockPath ≠ .ok (.link target)) (target : Bytes) :
    u.inspect store.lockPath ≠ .ok (.link target) := by
  have hframe := h.frame ht
  cases h with
  | there => exact hlink target
  | fresh hlock =>
    intro hinspect
    obtain ⟨place, hresolve⟩ := inspect_eq_ok_iff.1 hinspect
    have hpath := (filePath ht hlock).frame hframe ht
    exact hpath.ne_link place target (Except.ok.inj (hpath.resolve_eq.symm.trans hresolve))

end LockOpened

theorem refuseLink_gives (h : (refuseLink path).Gives t () u) :
    u = t ∧ ∀ target, t.inspect path ≠ .ok (.link target) := by
  obtain ⟨events, h⟩ := h
  have htree := tree_refuseLink path t
  rw [h] at htree
  refine ⟨htree, fun target hlink => ?_⟩
  rw [refuseLink, hlink] at h
  cases h

variable {call : SystemCall}

theorem checked_gives
    (h : (faults.attempt call (.system .inspect path) (refuseLink path)).Gives t () u) :
    u = t ∧ ∀ target, t.inspect path ≠ .ok (.link target) :=
  refuseLink_gives (Step.gives_attempt_iff.1 h).2

/-- A path that is refused is a link, or it cannot be looked at. -/
theorem checked_fails
    (h : (faults.attempt call (.system .inspect path) (refuseLink path)).Fails t e u) :
    u = t ∧ ((∀ target, t.inspect path ≠ .ok (.link target)) → e.kind = .storeFault) := by
  rcases Step.fails_of_attempt h with ⟨rfl, wording, rfl⟩ | ⟨events, h⟩
  · exact ⟨rfl, fun _ => rfl⟩
  · unfold refuseLink at h
    split at h
    · next target hinspect =>
      cases h
      exact ⟨rfl, fun hlink => absurd hinspect (hlink target)⟩
    · cases h
    · cases h
    · cases h
      exact ⟨rfl, fun _ => rfl⟩

/-- Opening a lock that is no link. -/
theorem lockOpened_of_openFile (hlink : ∀ target, t.inspect store.lockPath ≠ .ok (.link target))
    (h : t.openFile store.lockPath fileMode = .ok u) : LockOpened store t u := by
  unfold openFile at h
  split at h
  · cases h
    exact .there
  · cases h
  · next hresolve =>
    cases h
    exact .fresh (resolve_of_followed hlink hresolve)
  · cases h

/-- Once the lock is taken its file has been opened, and was no link before. -/
theorem opens_of_acquire (h : (store.acquire faults).Gives tree () u) :
    (∀ target, (store.makeRoom faults tree).tree.inspect store.lockPath ≠ .ok (.link target)) ∧
      (store.makeRoom faults tree).tree.openFile store.lockPath fileMode = .ok u := by
  obtain ⟨_, t, hlink, hunlinked⟩ := Step.gives_bind h
  obtain ⟨rfl, -⟩ := checked_gives hlink
  obtain ⟨_, room, ⟨_, hroom⟩, hroomMade⟩ := Step.gives_bind hunlinked
  obtain ⟨_, _, hlock, hlockUnlinked⟩ := Step.gives_bind hroomMade
  obtain ⟨rfl, hne⟩ := checked_gives hlock
  obtain ⟨_, opened, hopen, htold⟩ := Step.gives_bind hlockUnlinked
  obtain rfl := Step.gives_tell_iff.1 (Step.gives_attempt_iff.1 htold).2
  rw [hroom]
  exact ⟨hne, Step.gives_change_iff.1 (Step.gives_attempt_iff.1 hopen).2⟩

theorem gives_acquire (h : (store.acquire faults).Gives tree () u) :
    LockOpened store (store.makeRoom faults tree).tree u := by
  obtain ⟨hne, hopen⟩ := opens_of_acquire h
  exact lockOpened_of_openFile hne hopen

/-- If the lock cannot be taken, its file may have been opened.  Unless there is a link in place of
the file or of the lock, it is a system error that is reported. -/
theorem fails_acquire (h : (store.acquire faults).Fails tree e u) :
    (u = tree ∨ LockOpened store (store.makeRoom faults tree).tree u) ∧
      ((∀ target, tree.inspect store.path ≠ .ok (.link target)) →
        (∀ target, (store.makeRoom faults tree).tree.inspect store.lockPath ≠
          .ok (.link target)) → e.kind = .storeFault) := by
  rcases Step.fails_bind h with hlink | ⟨_, t, hlink, hunlinked⟩
  · obtain ⟨rfl, hkind⟩ := checked_fails hlink
    exact ⟨.inl rfl, fun hdata _ => hkind hdata⟩
  obtain ⟨rfl, -⟩ := checked_gives hlink
  rcases Step.fails_bind hunlinked with hroom | ⟨_, room, ⟨_, hroom⟩, hroomMade⟩
  · rw [hroom.result_eq.2]
    exact ⟨.inr .there, fun _ _ => kind_of_makeRoom hroom⟩
  rw [hroom]
  rcases Step.fails_bind hroomMade with hlock | ⟨_, _, hlock, hlockUnlinked⟩
  · obtain ⟨rfl, hkind⟩ := checked_fails hlock
    exact ⟨.inr .there, fun _ => hkind⟩
  obtain ⟨rfl, hne⟩ := checked_gives hlock
  rcases Step.fails_bind hlockUnlinked with hopen | ⟨_, opened, hopen, htold⟩
  · rcases Step.fails_of_attempt hopen with ⟨rfl, wording, rfl⟩ | hopen
    · exact ⟨.inr .there, fun _ _ => rfl⟩
    · obtain ⟨rfl, cause, rfl⟩ := Step.fails_of_change hopen
      exact ⟨.inr .there, fun _ _ => rfl⟩
  · have hopened := lockOpened_of_openFile hne
      (Step.gives_change_iff.1 (Step.gives_attempt_iff.1 hopen).2)
    rcases Step.fails_of_attempt htold with ⟨rfl, wording, rfl⟩ | htold
    · exact ⟨.inr hopened, fun _ _ => rfl⟩
    · exact absurd htold (Step.not_fails_tell _)

/-! ### Contents -/

theorem readFile_fails (h : store.readFile.Fails t e u) : u = t ∧ e.kind = .storeFault := by
  obtain ⟨events, h⟩ := h
  unfold readFile at h
  split at h
  · next input _ =>
    rcases hread : Contents.ofOctets input with cause | contents
    · rw [hread] at h
      cases h
      exact ⟨rfl, rfl⟩
    · rw [hread] at h
      cases h
  · cases h
  · cases h
    exact ⟨rfl, rfl⟩

theorem readFile_gives {contents : Contents} (h : store.readFile.Gives t contents u) : u = t := by
  obtain ⟨events, h⟩ := h
  unfold readFile at h
  split at h
  · exact (congrArg Outcome.tree h).symm
  · exact (congrArg Outcome.tree h).symm
  · cases h

/-- What has been read has been found to be no link. -/
theorem readContents_gives {contents : Contents}
    (h : (store.readContents faults).Gives t contents u) :
    u = t ∧ (∀ target, t.inspect store.path ≠ .ok (.link target)) ∧
      store.readFile.Gives t contents t := by
  obtain ⟨_, v, hlink, hread⟩ := Step.gives_bind h
  obtain ⟨rfl, hunlinked⟩ := checked_gives hlink
  have hfile := (Step.gives_attempt_iff.1 hread).2
  obtain rfl := readFile_gives hfile
  exact ⟨rfl, hunlinked, hfile⟩

theorem readContents_fails (h : (store.readContents faults).Fails t e u) :
    u = t ∧ ((∀ target, t.inspect store.path ≠ .ok (.link target)) → e.kind = .storeFault) := by
  rcases Step.fails_bind h with hlink | ⟨_, v, hlink, hread⟩
  · exact checked_fails hlink
  obtain ⟨rfl, -⟩ := checked_gives hlink
  rcases Step.fails_of_attempt hread with ⟨rfl, wording, rfl⟩ | hread
  · exact ⟨rfl, fun _ => rfl⟩
  · obtain ⟨rfl, hkind⟩ := readFile_fails hread
    exact ⟨rfl, fun _ => hkind⟩

/-! ### Temporary files -/

/-- A temporary file that is dropped leaves nothing behind. -/
theorem drop_put {location : Location} (hne : location ≠ []) (h : t.at? location = none)
    (entry : Entry) : (t.put location entry).drop location = t := by
  rw [← lookup_of_ne_nil hne, List.lookup_eq_none_iff] at h
  have hfilter : t.entries.filter (·.1 != location.key) = t.entries :=
    List.filter_eq_self.2 fun e he => by simpa [bne_comm] using h e he
  rw [put, drop]
  simp [hfilter]

/-- Files to which a temporary file has come that the system has refused to remove. -/
inductive Abandoned (store : Store) (faults : Faults) (tree : FileTree) : FileTree → Prop
  | left (hremove : faults.refusal .remove ≠ none) {directory : Location} {mode : Nat}
    (hdirectory : tree.follow store.directory = .ok (directory, .directory mode))
    (octets : Bytes) :
    Abandoned store faults tree (tree.put (directory ++ [unusedName tree]) (.file fileMode octets))

/-- What is left once a temporary file has been discarded. -/
theorem eq_or_abandoned {directory : Location} {mode : Nat} {octets : Bytes}
    (hdirectory : t.follow store.directory = .ok (directory, .directory mode))
    (h : let written := t.put (directory ++ [unusedName t]) (.file fileMode octets)
      u = written.drop (directory ++ [unusedName t]) ∨
        faults.refusal .remove ≠ none ∧ u = written) :
    u = t ∨ Abandoned store faults t u := by
  rcases h with rfl | ⟨hremove, rfl⟩
  · exact .inl (drop_put (by simp) (at?_unusedName t directory) _)
  · exact .inr (.left hremove hdirectory octets)

theorem eq_of_removed (hremove : faults.refusal .remove = none)
    (h : u = t ∨ Abandoned store faults t u) : u = t := by
  rcases h with rfl | ⟨hne, -, -⟩
  · rfl
  · exact absurd hremove hne

theorem gives_openTemporary {place : Location} (h : store.openTemporary.Gives t place u) :
    ∃ directory mode, t.follow store.directory = .ok (directory, .directory mode) ∧
      place = directory ++ [unusedName t] ∧ u = t.put place (.file fileMode []) := by
  obtain ⟨events, h⟩ := h
  unfold openTemporary at h
  split at h
  · next directory mode hdirectory =>
    cases h
    exact ⟨directory, mode, hdirectory, rfl, rfl⟩
  · cases h
  · cases h

theorem fails_openTemporary (h : store.openTemporary.Fails t e u) :
    u = t ∧ e.kind = .storeFault := by
  obtain ⟨events, h⟩ := h
  unfold openTemporary at h
  split at h
  · cases h
  · cases h
    exact ⟨rfl, rfl⟩
  · cases h
    exact ⟨rfl, rfl⟩

variable {place : Location} {octets : Bytes} {mode : Nat}

theorem gives_write (h : (faults.write place mode octets).Gives t () u) :
    u = t.put place (.file mode octets) := by
  obtain ⟨events, h⟩ := h
  unfold Faults.write at h
  cases hrefusal : faults.refusal .write with
  | some wording =>
    rw [hrefusal] at h
    cases h
  | none =>
    rw [hrefusal] at h
    exact (congrArg Outcome.tree h).symm

theorem fails_write (h : (faults.write place mode octets).Fails t e u) :
    u = t.put place (.file mode (octets.take faults.written)) ∧ e.kind = .storeFault := by
  obtain ⟨events, h⟩ := h
  unfold Faults.write at h
  cases hrefusal : faults.refusal .write with
  | some wording =>
    rw [hrefusal] at h
    cases h
    exact ⟨rfl, rfl⟩
  | none =>
    rw [hrefusal] at h
    cases h

theorem gives_writeOut (h : (writeOut faults place octets).Gives t () u) :
    u = t.put place (.file fileMode octets) := by
  obtain ⟨_, v, hwrite, hwritten⟩ := Step.gives_bind h
  obtain rfl := gives_write hwrite
  obtain ⟨_, w, hsync, hmode⟩ := Step.gives_bind hwritten
  obtain rfl := Step.tree_of_gives_pure (Step.gives_attempt_iff.1 hsync).2
  exact Step.tree_of_gives_pure (Step.gives_attempt_iff.1 hmode).2

/-- However a temporary file comes not to be written out, it is there with some octets. -/
theorem fails_writeOut (h : (writeOut faults place octets).Fails t e u) :
    (∃ written, u = t.put place (.file fileMode written)) ∧ e.kind = .storeFault := by
  rcases Step.fails_bind h with hwrite | ⟨_, v, hwrite, hwritten⟩
  · obtain ⟨rfl, hkind⟩ := fails_write hwrite
    exact ⟨⟨_, rfl⟩, hkind⟩
  obtain rfl := gives_write hwrite
  rcases Step.fails_bind hwritten with hsync | ⟨_, w, hsync, hmode⟩
  · rcases Step.fails_of_attempt hsync with ⟨rfl, wording, rfl⟩ | hdone
    · exact ⟨⟨octets, rfl⟩, rfl⟩
    · exact absurd hdone (Step.not_fails_pure _)
  obtain rfl := Step.tree_of_gives_pure (Step.gives_attempt_iff.1 hsync).2
  rcases Step.fails_of_attempt hmode with ⟨rfl, wording, rfl⟩ | hdone
  · exact ⟨⟨octets, rfl⟩, rfl⟩
  · exact absurd hdone (Step.not_fails_pure _)

/-- New contents that cannot be committed leave everything as it is, but for a temporary file that
the system has refused to remove. -/
theorem commit_fails {contents : Contents} (h : (store.commit faults contents).Fails t e u) :
    (u = t ∨ Abandoned store faults t u) ∧ e.kind = .storeFault := by
  rcases Step.fails_bind h with hopen | ⟨place, v, hopen, hopened⟩
  · rcases Step.fails_of_attempt hopen with ⟨rfl, wording, rfl⟩ | hopen
    · exact ⟨.inl rfl, rfl⟩
    · obtain ⟨rfl, hkind⟩ := fails_openTemporary hopen
      exact ⟨.inl rfl, hkind⟩
  obtain ⟨directory, mode, hdirectory, rfl, rfl⟩ :=
    gives_openTemporary (Step.gives_attempt_iff.1 hopen).2
  rcases Step.fails_bind hopened with hwrite | ⟨_, w, hwrite, hwritten⟩
  · obtain ⟨w, hwrite, hdiscarded⟩ := Step.fails_of_discarding hwrite
    obtain ⟨⟨written, rfl⟩, hkind⟩ := fails_writeOut hwrite
    rw [put_put] at hdiscarded
    exact ⟨eq_or_abandoned hdirectory hdiscarded, hkind⟩
  obtain rfl := gives_writeOut (Step.gives_discarding_iff.1 hwrite)
  rw [put_put] at hwritten
  rcases Step.fails_bind hwritten with hreplace | ⟨_, w, -, htold⟩
  · obtain ⟨w, hreplace, hdiscarded⟩ := Step.fails_of_discarding hreplace
    rcases Step.fails_of_attempt hreplace with ⟨rfl, wording, rfl⟩ | hmove
    · exact ⟨eq_or_abandoned hdirectory hdiscarded, rfl⟩
    · obtain ⟨rfl, cause, rfl⟩ := Step.fails_of_change hmove
      exact ⟨eq_or_abandoned hdirectory hdiscarded, rfl⟩
  · exact absurd htold (Step.not_fails_tell _)

/-! ### The course of a request -/

/-- What a request that is granted has done: it has read the file under the lock, and replaced
it if it changes anything. -/
theorem gives_perform {reply : Reply}
    (h : (store.performUnder faults request).Gives tree reply u) :
    ∃ locked contents, (store.acquire faults).Gives tree () locked ∧
      (store.readContents faults).Gives locked contents locked ∧
      (request.changes = false ∧ u = locked ∨ request.changes = true ∧
        (store.commit faults (request.after contents)).Gives locked () u) := by
  obtain ⟨_, locked, hacquire, hlocked⟩ := Step.gives_bind h
  obtain ⟨_, v, hgranted, htold⟩ := Step.gives_bind hlocked
  obtain ⟨_, w, htell, hdone⟩ := Step.gives_bind htold
  obtain rfl := Step.gives_tell_iff.1 htell
  obtain rfl := Step.tree_of_gives_pure hdone
  obtain ⟨contents, locked, hread, hknown⟩ :=
    Step.gives_bind (Step.gives_afterwards_iff.1 hgranted)
  obtain ⟨rfl, -⟩ := readContents_gives hread
  refine ⟨locked, contents, hacquire, hread, ?_⟩
  dsimp only at hknown
  split at hknown
  · next hchanges =>
    obtain ⟨_, w, hcommit, hpure⟩ := Step.gives_bind hknown
    obtain rfl := Step.tree_of_gives_pure hpure
    exact .inr ⟨hchanges, hcommit⟩
  · next hchanges =>
    obtain rfl := Step.tree_of_gives_pure hknown
    exact .inl ⟨Bool.eq_false_iff.2 hchanges, rfl⟩

/-- How a request fails: before it holds the lock, when the file is read, or when the file is to be
replaced. -/
inductive FailsAt (store : Store) (faults : Faults) (request : Request) (tree : FileTree)
    (e : StoreError) (u : FileTree) : Prop
  | lock (h : (store.acquire faults).Fails tree e u)
  | read (hlocked : (store.acquire faults).Gives tree () u)
    (h : (store.readContents faults).Fails u e u)
  | commit {locked : FileTree} {contents : Contents}
    (hlocked : (store.acquire faults).Gives tree () locked)
    (hread : (store.readContents faults).Gives locked contents locked)
    (h : (store.commit faults (request.after contents)).Fails locked e u)

theorem failsAt_of_fails (h : (store.performUnder faults request).Fails tree e u) :
    FailsAt store faults request tree e u := by
  rcases Step.fails_bind h with hacquire | ⟨_, locked, hacquire, hlocked⟩
  · exact .lock hacquire
  rcases Step.fails_bind hlocked with hgrant | ⟨contents, v, -, hgranted⟩
  · rcases Step.fails_bind (Step.fails_afterwards_iff.1 hgrant) with
      hread | ⟨contents, v, hread, hknown⟩
    · obtain ⟨rfl, -⟩ := readContents_fails hread
      exact .read hacquire hread
    obtain ⟨rfl, -⟩ := readContents_gives hread
    dsimp only at hknown
    split at hknown
    · rcases Step.fails_bind hknown with hcommit | ⟨_, w, -, hdone⟩
      · exact .commit hacquire hread hcommit
      · exact absurd hdone (Step.not_fails_pure _)
    · exact absurd hknown (Step.not_fails_pure _)
  rcases Step.fails_bind hgranted with htold | ⟨_, w, -, hdone⟩
  · exact absurd htold (Step.not_fails_tell _)
  · exact absurd hdone (Step.not_fails_pure _)

/-- What a request that fails has done by then: at most it has made room and opened the lock, and
left a temporary file that the system has refused to remove. -/
theorem fails_perform (h : (store.performUnder faults request).Fails tree e u) :
    u = tree ∨ LockOpened store (store.makeRoom faults tree).tree u ∨
      ∃ locked, (store.acquire faults).Gives tree () locked ∧
        Abandoned store faults locked u := by
  cases failsAt_of_fails h with
  | lock h => exact (fails_acquire h).1.imp id .inl
  | read hlocked h => exact .inr (.inl (gives_acquire hlocked))
  | commit hlocked hread h =>
    rcases (commit_fails h).1 with rfl | habandoned
    · exact .inr (.inl (gives_acquire hlocked))
    · exact .inr (.inr ⟨_, hlocked, habandoned⟩)

end Store

end TokenVault
