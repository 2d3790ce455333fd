import TokenVault.Proofs.Store.Valid

/-!
# All or nothing

A request to a store is granted, or it is refused with a storage fault and whatever was at the
path of the store is there still (`Store.fails_closed`).  A link in place of the file or of its
lock is refused before anything is done.  A file that holds no credentials is never taken for an
empty one, so it survives any number of requests.
-/

namespace TokenVault

namespace FileTree

/-- Whether each step up on a path goes up from a directory that is there. -/
def RisesFromDirectories (tree : FileTree) (path : Bytes) : Prop :=
  ∀ before after, Path.components path = before ++ Path.up :: after →
    ∃ location mode, tree.walk true linkLimit (tree.start path) before =
      .ok (.found location (.directory mode))

theorem RisesFromDirectories.goesUpInside {tree : FileTree} {path : Bytes}
    (h : tree.RisesFromDirectories path) (ht : tree.Sound) : tree.GoesUpInside path := by
  intro before after hmoves
  obtain ⟨first, rest, hcomponents, rfl, hrest⟩ := List.filter_eq_append_iff.1 hmoves
  obtain ⟨dots, last, rfl, hdots, -, -⟩ := List.filter_eq_cons_iff.1 hrest
  obtain ⟨location, mode, hwalk⟩ := h (first ++ dots) last (by rw [hcomponents, List.append_assoc])
  have hleads := leads_of_walk hwalk
  have hplace : Place.found location (.directory mode) = tree.placeAt location :=
    hleads.eq_placeAt ht (ht.isDirectory_start path)
  have hat : tree.at? location = some (.directory mode) := by
    rw [← occupant_placeAt, ← hplace]
    rfl
  obtain ⟨links, hpasses⟩ := hleads.passes_of_directory ⟨mode, hat⟩
  refine ⟨links, location, hpasses.congr ?_⟩
  rw [List.filter_append, List.filter_eq_nil_iff.2 hdots, List.append_nil, List.filter_filter]
  simp

end FileTree

namespace Store

open FileTree

variable {store : Store} {faults : Faults} {tree u : FileTree} {e : StoreError}
  {request : Request}

/-! ### Links -/

/-- Whether the system lets a store look for links at its paths. -/
structure Looks (faults : Faults) : Prop where
  file : faults.refusal .inspectFile = none
  lock : faults.refusal .inspectLock = none

theorem refuseLink_eq {path target : Bytes} (h : tree.inspect path = .ok (.link target)) :
    refuseLink path tree = ⟨tree, [.refusedLink path], .error (.symbolicLink path)⟩ := by
  rw [refuseLink, h]

/-- A link in place of the file is refused before anything is done. -/
theorem perform_of_link (hlooks : faults.refusal .inspectFile = none) {target : Bytes}
    (h : tree.inspect store.path = .ok (.link target)) (request : Request) :
    store.performUnder faults request tree =
      ⟨tree, [.refusedLink store.path], .error (.symbolicLink store.path)⟩ := by
  refine Step.bind_eq_of_error (Step.bind_eq_of_error ?_ _) _
  rw [Step.attempt_eq hlooks]
  exact refuseLink_eq h

theorem refuseLink_of_resolve {path : Bytes} {place : Place}
    (h : tree.resolve false path = .ok place)
    (hlink : ∀ target, tree.inspect path ≠ .ok (.link target)) :
    refuseLink path tree = ⟨tree, [], .ok ()⟩ := by
  rcases place with ⟨location, entry⟩ | location
  · have hinspect := inspect_eq_ok_iff.2 ⟨location, h⟩
    rw [refuseLink, hinspect]
    cases entry with
    | file mode content => rfl
    | directory mode => rfl
    | link target => exact absurd hinspect (hlink target)
  · rw [refuseLink, inspect, h]

/-- A link in place of the lock is refused before anything is done: where it is, the directory of
the store is there already. -/
theorem perform_of_lock_link (hlooks : Looks faults) (ht : tree.Sound)
    (hlink : ∀ target, tree.inspect store.path ≠ .ok (.link target)) {target : Bytes}
    (h : tree.inspect store.lockPath = .ok (.link target)) (request : Request) :
    store.performUnder faults request tree =
      ⟨tree, [.refusedLink store.lockPath], .error (.symbolicLink store.lockPath)⟩ := by
  obtain ⟨location, hresolve⟩ := inspect_eq_ok_iff.1 h
  have hroom : store.makeRoom faults tree = ⟨tree, [], .ok ()⟩ :=
    makeRoom_of_enters ht (enters_directory_beside suffix_ne_nil slash_not_mem_suffix hresolve)
      faults
  have hdata : refuseLink store.path tree = ⟨tree, [], .ok ()⟩ := by
    by_cases hne : store.path = []
    · rw [hne]
      rfl
    · obtain ⟨place, hplace⟩ := resolve_beside suffix_ne_nil slash_not_mem_suffix hne hresolve
      exact refuseLink_of_resolve hplace hlink
  have hacquire : store.acquire faults tree =
      ⟨tree, [.refusedLink store.lockPath], .error (.symbolicLink store.lockPath)⟩ := by
    rw [acquire, Step.attempt_eq hlooks.file, Step.attempt_eq hlooks.lock, Step.bind_eq_of_ok hdata,
      Step.bind_eq_of_ok hroom]
    exact Step.bind_eq_of_error (refuseLink_eq h) _
  exact Step.bind_eq_of_error hacquire _

/-! ### Files without credentials -/

/-- A file that holds no credentials cannot be read. -/
theorem not_readFile {mode : Nat} {octets : Bytes} {cause : Json.Error} (ht : tree.Sound)
    (hdata : tree.inspect store.path = .ok (.file mode octets))
    (hcorrupt : Contents.ofOctets octets = .error cause) {contents : Contents} :
    ¬store.readFile.Gives tree contents u := by
  rintro ⟨events, h⟩
  rw [readFile, ht.content_of_inspect hdata] at h
  simp only [hcorrupt] at h
  cases h

/-- What a request comes to if the file holds no credentials: it fails, and has opened the lock at
most. -/
theorem fails_of_corrupt (ht : tree.Sound) {mode : Nat} {octets : Bytes} {cause : Json.Error}
    (hdata : tree.inspect store.path = .ok (.file mode octets))
    (hcorrupt : Contents.ofOctets octets = .error cause)
    (hlink : ∀ target, tree.inspect store.lockPath ≠ .ok (.link target)) (faults : Faults)
    (request : Request) :
    ∃ e u, (store.performUnder faults request).Fails tree e u ∧ e.kind = .storeFault ∧
      LockOpened store tree u := by
  obtain ⟨location, hresolve⟩ := inspect_eq_ok_iff.1 hdata
  have hroom : (store.makeRoom faults tree).tree = tree := by
    rw [makeRoom_of_enters ht (enters_directory_of_resolve hresolve)]
  have hunlinked : ∀ target, tree.inspect store.path ≠ .ok (.link target) := by simp [hdata]
  -- once the lock has been opened the file is what it was
  have hopened : ∀ {u : FileTree}, (store.acquire faults).Gives tree () u →
      LockOpened store tree u ∧ u.Sound ∧ u.inspect store.path = .ok (.file mode octets) :=
    fun hacquire => by
      have hlocked : LockOpened store tree _ := hroom ▸ gives_acquire hacquire
      exact ⟨hlocked, hlocked.sound ht, (hlocked.grows ht).inspect ht hdata⟩
  rcases houtcome : store.performUnder faults request tree with ⟨u, events, e | reply⟩
  · refine ⟨e, u, ⟨events, houtcome⟩, ?_⟩
    cases failsAt_of_fails ⟨events, houtcome⟩ with
    | lock h =>
      obtain ⟨htree, hkind⟩ := fails_acquire h
      rw [hroom] at htree hkind
      refine ⟨hkind hunlinked hlink, ?_⟩
      rcases htree with rfl | hlocked
      · exact .there
      · exact hlocked
    | read hlocked h =>
      obtain ⟨hlock, -, hdata'⟩ := hopened hlocked
      exact ⟨(readContents_fails h).2 (by simp [hdata']), hlock⟩
    | commit hlocked hread h =>
      obtain ⟨-, hsound, hdata'⟩ := hopened hlocked
      exact absurd (readContents_gives hread).2.2 (not_readFile hsound hdata' hcorrupt)
  · obtain ⟨locked, contents, hlocked, hread, -⟩ := gives_perform ⟨events, houtcome⟩
    obtain ⟨-, hsound, hdata'⟩ := hopened hlocked
    exact absurd (readContents_gives hread).2.2 (not_readFile hsound hdata' hcorrupt)

/-- The files after requests that are tried one after the other, whether they fail or not, while the
system refuses what it likes. -/
def afterTrying (store : Store) (attempts : List (Faults × Request)) (tree : FileTree) :
    FileTree :=
  attempts.foldl (fun tree attempt => (store.performUnder attempt.1 attempt.2 tree).tree) tree

/-- However many requests are tried, a file that holds no credentials keeps what it holds. -/
theorem corrupt_afterTrying (ht : tree.Sound) {mode : Nat} {octets : Bytes} {cause : Json.Error}
    (hdata : tree.inspect store.path = .ok (.file mode octets))
    (hcorrupt : Contents.ofOctets octets = .error cause)
    (hlink : ∀ target, tree.inspect store.lockPath ≠ .ok (.link target))
    (attempts : List (Faults × Request)) (faults : Faults) (request : Request) :
    (store.afterTrying attempts tree).inspect store.path = .ok (.file mode octets) ∧
      ∃ e, (store.performUnder faults request (store.afterTrying attempts tree)).result =
          .error e ∧ e.kind = .storeFault := by
  induction attempts generalizing tree with
  | nil =>
    obtain ⟨e, u, hfails, hkind, -⟩ := fails_of_corrupt ht hdata hcorrupt hlink faults request
    exact ⟨hdata, e, hfails.result_eq.1, hkind⟩
  | cons first rest ih =>
    -- the first request fails, and at most opens the lock
    obtain ⟨e, u, hfails, -, hopened⟩ :=
      fails_of_corrupt ht hdata hcorrupt hlink first.1 first.2
    rw [afterTrying, List.foldl_cons, hfails.result_eq.2]
    exact ih (hopened.sound ht) ((hopened.grows ht).inspect ht hdata)
      (hopened.lock_ne_link ht hlink)

/-! ### Refusals -/

/-- What a refused request leaves of the files: everything is where it was, and so is what the
path of the store led to.  If it led to nothing it does so still, unless it goes up from a
directory that was missing. -/
structure Kept (store : Store) (tree after : FileTree) : Prop where
  grows : Grows tree after
  data : ∀ entry, tree.inspect store.path = .ok entry → after.inspect store.path = .ok entry
  absence : tree.RisesFromDirectories store.path →
    (∀ entry, tree.inspect store.path ≠ .ok entry) →
    ∀ entry, after.inspect store.path ≠ .ok entry

theorem kept_of_fails (ht : tree.Sound) (h : (store.performUnder faults request).Fails tree e u) :
    Kept store tree u := by
  have hsound := sound_makeRoom ht store faults
  have hroom := grows_makeRoom ht store faults
  have hkept : Grows tree u → (tree.RisesFromDirectories store.path →
      (∀ entry, tree.inspect store.path ≠ .ok entry) →
      ∀ entry, u.inspect store.path ≠ .ok entry) → Kept store tree u :=
    fun hgrows habsence => ⟨hgrows, fun _ hdata => hgrows.inspect ht hdata, habsence⟩
  have hopened : ∀ {locked : FileTree}, LockOpened store (store.makeRoom faults tree).tree locked →
      tree.RisesFromDirectories store.path →
      (∀ entry, tree.inspect store.path ≠ .ok entry) →
      ∀ entry, locked.inspect store.path ≠ .ok entry := fun hlocked hrises habsent =>
    hlocked.absent hsound (absent_makeRoom ht (hrises.goesUpInside ht) habsent)
  rcases fails_perform h with rfl | hlocked | ⟨locked, hacquire, habandoned⟩
  · exact hkept (.refl u) fun _ habsent => habsent
  · exact hkept (hroom.trans (hlocked.grows hsound)) (hopened hlocked)
  · have hlocked := gives_acquire hacquire
    have hthere := lockThere_of_acquire ht hacquire
    have hgrows := hroom.trans (hlocked.grows hsound)
    have hlockedSound := hlocked.sound hsound
    obtain ⟨place, octets, rfl, hnew, hapart⟩ := habandoned.exists_eq_put hlockedSound hthere
    refine hkept (hgrows.trans (.put hnew _)) fun hrises habsent => ?_
    exact absent_put hlockedSound hapart.filePlace hnew hapart.ne_data
      (hopened hlocked hrises habsent)

/-- Requests to a store fail closed, whatever the system refuses.  A request that is refused tells
a storage fault, and keeps what was at the path of the store.  If there is a link in place of the
file or else in place of its lock, and the system lets them be looked at, it is that link which is
refused, and nothing at all has been done.  If there is a file that holds no credentials, all
requests are refused, however many are tried, and the file keeps its octets. -/
theorem fails_closed (store : Store) {tree : FileTree} (ht : tree.Sound) :
    (∀ faults request e, (store.performUnder faults request tree).result = .error e →
      e.kind.isStorageFault = true ∧
        Kept store tree (store.performUnder faults request tree).tree) ∧
    (∀ target, tree.inspect store.path = .ok (.link target) →
      ∀ faults, Looks faults → ∀ request,
        store.performUnder faults request tree =
          ⟨tree, [.refusedLink store.path], .error (.symbolicLink store.path)⟩) ∧
    ((∀ target, tree.inspect store.path ≠ .ok (.link target)) →
      ∀ target, tree.inspect store.lockPath = .ok (.link target) →
        ∀ faults, Looks faults → ∀ request,
          store.performUnder faults request tree =
            ⟨tree, [.refusedLink store.lockPath], .error (.symbolicLink store.lockPath)⟩) ∧
    ((∀ target, tree.inspect store.lockPath ≠ .ok (.link target)) →
      ∀ mode octets cause, tree.inspect store.path = .ok (.file mode octets) →
        Contents.ofOctets octets = .error cause → ∀ attempts faults request,
          (store.afterTrying attempts tree).inspect store.path = .ok (.file mode octets) ∧
            ∃ e, (store.performUnder faults request (store.afterTrying attempts tree)).result =
              .error e ∧ e.kind = .storeFault) := by
  refine ⟨fun faults request e h => ?_, fun target h faults hlooks => ?_,
    fun hlink target h faults hlooks => perform_of_lock_link hlooks ht hlink h,
    fun hlink mode octets cause hdata hcorrupt => corrupt_afterTrying ht hdata hcorrupt hlink⟩
  · exact ⟨e.isStorageFault_kind, kept_of_fails ht (Step.fails_of_result h)⟩
  · exact perform_of_link hlooks.file h

/-- The path `/s`, where there is a file that holds no credentials. -/
def corruptInRoot : FileTree :=
  FileTree.empty.put [Bytes.ofText "s"] (.file 0o644 (Bytes.ofText "x"))

/-- A disk on which there is room for one more octet. -/
def fullDisk : Faults :=
  { Faults.only .write "No space left on device (os error 28)" with written := 1 }

/-- A file that holds no credentials survives two requests and a third one, and a file that is to
be replaced while the disk is full stays as it is. -/
theorem fails_closed_inRoot :
    (corruptInRoot.Sound ∧
      (afterTrying ⟨History.pathInRoot⟩ [(.none, .clear), (fullDisk, .load)]
        corruptInRoot).inspect History.pathInRoot = .ok (.file 0o644 (Bytes.ofText "x")) ∧
      ∃ e, (performUnder ⟨History.pathInRoot⟩ .none .clear (afterTrying ⟨History.pathInRoot⟩
        [(.none, .clear), (fullDisk, .load)] corruptInRoot)).result = .error e ∧
          e.kind = .storeFault) ∧
    FileTree.empty.Sound ∧
    (performUnder ⟨History.pathInRoot⟩ fullDisk .clear .empty).result =
      .error (.temporary .write (.other "No space left on device (os error 28)")) ∧
    Kept ⟨History.pathInRoot⟩ .empty
      (performUnder ⟨History.pathInRoot⟩ fullDisk .clear .empty).tree := by
  have hsound : corruptInRoot.Sound :=
    History.sound_empty.put_file ⟨.inl rfl, [], _, rfl, 0o755, rfl⟩ _ _
  have hdata : corruptInRoot.inspect History.pathInRoot =
      .ok (.file 0o644 (Bytes.ofText "x")) := by decide +kernel
  have hlock : corruptInRoot.inspect (Store.lockPath ⟨History.pathInRoot⟩) =
      .error .notFound := by decide +kernel
  have hcorrupt : (Contents.ofOctets (Bytes.ofText "x")).toOption = none := by decide +kernel
  have hfull : (performUnder ⟨History.pathInRoot⟩ fullDisk .clear .empty).result =
      .error (.temporary .write (.other "No space left on device (os error 28)")) := by decide +kernel
  refine ⟨?_, History.sound_empty, hfull,
    ((fails_closed ⟨History.pathInRoot⟩ History.sound_empty).1 _ _ _ hfull).2⟩
  cases hcontents : Contents.ofOctets (Bytes.ofText "x") with
  | ok contents =>
    rw [hcontents] at hcorrupt
    cases hcorrupt
  | error cause =>
    refine ⟨hsound, (fails_closed ⟨History.pathInRoot⟩ hsound).2.2.2 ?_ _ _ _ hdata hcontents _ _ _⟩
    intro target hlink
    rw [hlock] at hlink
    cases hlink

/-- A path that goes up from a directory which is not there. -/
def climbing : Store := ⟨Bytes.ofText "a/b/.."⟩

/-- The directory is made for the lock, and then the path leads to the one that it lies in. -/
theorem absence_not_kept : FileTree.empty.Sound ∧
    FileTree.empty.inspect climbing.path = .error .notFound ∧
    (climbing.perform .load .empty).result =
      .error (.system .read climbing.path .isDirectory) ∧
    (climbing.perform .load .empty).tree.inspect climbing.path = .ok (.directory 0o700) := by
  refine ⟨History.sound_empty, ?_, ?_, ?_⟩
  · decide +kernel
  · decide +kernel
  · decide +kernel

end Store

end TokenVault
