import TokenVault.Proofs.Store.Valid

/-!
# How a store takes new contents

Under the lock, a store whose file can be read takes new contents unless the system refuses one of
the calls that this takes (`committed_of_filePath`).  Then the file has been replaced and nothing
else differs (`Rewritten`).  Otherwise the first refusal is reported, and all that may be left is
the temporary file.
-/

namespace TokenVault

namespace Store

open FileTree

variable {store : Store} {faults : Faults} {tree u : FileTree} {contents : Contents}
  {location : Location} {octets : Bytes}

/-- A tree in which a file has been replaced, and nothing else. -/
structure Rewritten (tree : FileTree) (location : Location) (octets : Bytes) (u : FileTree) :
    Prop where
  sound : u.Sound
  frame : Frame tree u
  at?_eq : ∀ other, u.at? other =
    if other = location then some (.file fileMode octets) else tree.at? other

/-- A replaced file is not the lock. -/
theorem Rewritten.at?_lock (h : Rewritten tree location octets u) (ht : tree.Sound)
    (hpath : tree.FilePath store.path location) {lock : Location} {mode : Nat} {content : Bytes}
    (hlock : tree.resolve false store.lockPath = .ok (.found lock (.file mode content))) :
    u.at? lock = some (.file mode content) := by
  have hne : location ≠ lock :=
    ne_beside suffix_ne_nil slash_not_mem_suffix ht hpath (ht.filePath_of_found hlock)
  rw [h.at?_eq, if_neg hne.symm, ht.at?_of_found hlock]

/-- Once the lock is there, what could be read stands where a file may. -/
theorem filePath_of_readContents (ht : tree.Sound) (hlock : LockThere store tree)
    (hne : store.path ≠ []) (h : (store.readContents faults).Gives tree contents u) :
    ∃ location, tree.FilePath store.path location := by
  obtain ⟨-, hunlinked, events, hread⟩ := readContents_gives h
  obtain ⟨lockLocation, hlockPath, -⟩ := hlock
  obtain ⟨place, hresolve⟩ :=
    resolve_beside suffix_ne_nil slash_not_mem_suffix hne hlockPath.resolve_eq
  refine ⟨place.location, ht.filePath hresolve ?_⟩
  have hoccupant := ht.occupant_of_resolve hresolve
  cases place with
  | vacant location => exact .inl hoccupant.symm
  | found location entry =>
    cases entry with
    | file mode octets => exact .inr ⟨mode, octets, hoccupant.symm⟩
    | link target =>
      exact absurd (inspect_eq_ok_iff.2 ⟨location, hresolve⟩) (hunlinked target)
    | directory mode =>
      -- a directory cannot be read
      have hcontent : tree.content store.path = .error .isDirectory := by
        rw [content, follow, followed_of_resolve hunlinked hresolve]
      simp only [readFile, hcontent] at hread
      cases hread

/-! ### If nothing is refused -/

/-- There is nothing between a store and new contents but the system: the temporary file can be
made, and it takes the place of the file. -/
theorem exists_rewritten (ht : tree.Sound) (hlock : LockThere store tree)
    (hpath : tree.FilePath store.path location) (octets : Bytes) :
    ∃ place u, store.openTemporary tree = ⟨tree.put place (.file fileMode []), [], .ok place⟩ ∧
      (tree.put place (.file fileMode octets)).moveTo place store.path = .ok u ∧
      Rewritten tree location octets u := by
  obtain ⟨outer, henters⟩ := enters_directory_of_resolve hpath.resolve_eq
  obtain ⟨mode, hdirectory⟩ := ht.enters_iff.1 henters
  -- the temporary file is new, and it is neither the file nor the lock
  have hne := ne_unusedName ht hlock hpath outer
  have hnone := at?_unusedName tree outer
  generalize hplace : outer ++ [unusedName tree] = place at hne hnone
  have hfilePlace : tree.FilePlace place :=
    ⟨.inl hnone, outer, _, hplace.symm, mode, ht.at?_of_follow hdirectory⟩
  have hstaged := frame_put_file hfilePlace.takesFile fileMode octets
  have hsound := ht.put_file hfilePlace fileMode octets
  have hat : (tree.put place (.file fileMode octets)).at? place =
      some (.file fileMode octets) := by
    rw [at?_put, if_pos rfl]
  have hpath' := hpath.frame hstaged ht
  have htakes := hpath'.place.takesFile
  have hmove := hsound.moveTo_file_eq hat hpath'
  rw [if_neg hne] at hmove
  refine ⟨place, _, ?_, hmove, hsound.move_file hat hpath'.place,
    hstaged.trans (hsound.frame_move_file hat htakes), fun other => ?_⟩
  · rw [openTemporary, directory, hdirectory, ← hplace]
  · rw [hsound.at?_move_file hat htakes, at?_put]
    by_cases hother : other = place
    · subst hother
      rw [if_neg hne.symm, if_neg hne.symm, if_pos rfl, hnone]
    · rw [if_neg hother, if_neg hother]

/-! ### Refusals -/

/-- What is asked of the system to write a temporary file out, and what is reported of a
refusal. -/
def writeCalls : List (SystemCall × (SystemError → StoreError)) :=
  [(.write, .temporary .write), (.sync, .temporary .write), (.setMode, .temporary .setMode)]

/-- What is asked of the system to give a store new contents. -/
def commitCalls (store : Store) : List (SystemCall × (SystemError → StoreError)) :=
  (.createTemporary, .temporary .create) :: writeCalls ++
    [(.replace, .system .replace store.path)]

/-- The report on the first of some calls that the system refuses. -/
def firstRefusal (faults : Faults) (calls : List (SystemCall × (SystemError → StoreError))) :
    Option StoreError :=
  calls.findSome? fun call => (faults.refusal call.1).map fun wording => call.2 (.other wording)

theorem firstRefusal_of_refused {call : SystemCall} {wording : String}
    (h : faults.refusal call = some wording) (fault : SystemError → StoreError)
    (calls : List (SystemCall × (SystemError → StoreError))) :
    firstRefusal faults ((call, fault) :: calls) = some (fault (.other wording)) := by
  simp only [firstRefusal, List.findSome?_cons, h, Option.map_some]

theorem firstRefusal_of_none {call : SystemCall} (h : faults.refusal call = none)
    (fault : SystemError → StoreError)
    (calls : List (SystemCall × (SystemError → StoreError))) :
    firstRefusal faults ((call, fault) :: calls) = firstRefusal faults calls := by
  simp only [firstRefusal, List.findSome?_cons, h, Option.map_none]

/-- A temporary file is written out unless one of the calls is refused. -/
theorem writeOut_eq (faults : Faults) (place : Location) (octets : Bytes) (t : FileTree) :
    firstRefusal faults writeCalls = none ∧
        writeOut faults place octets t = ⟨t.put place (.file fileMode octets), [], .ok ()⟩ ∨
      ∃ e u, firstRefusal faults writeCalls = some e ∧
        writeOut faults place octets t = ⟨u, [], .error e⟩ := by
  unfold writeCalls
  cases hwrite : faults.refusal .write with
  | some wording =>
    refine .inr ⟨_, _, firstRefusal_of_refused hwrite _ _,
      Step.bind_eq_of_error (u := t.put place (.file fileMode (octets.take faults.written))) ?_ _⟩
    rw [Faults.write, hwrite]
  | none =>
    have hwritten : faults.write place fileMode octets t =
        ⟨t.put place (.file fileMode octets), [], .ok ()⟩ := by
      rw [Faults.write, hwrite]
    rw [firstRefusal_of_none hwrite, writeOut, Step.bind_eq_of_ok hwritten]
    cases hsync : faults.refusal .sync with
    | some wording =>
      exact .inr ⟨_, _, firstRefusal_of_refused hsync _ _,
        Step.bind_eq_of_error (Step.attempt_eq_of_refused hsync _) _⟩
    | none =>
      rw [firstRefusal_of_none hsync, Step.attempt_eq hsync, Step.bind_eq_of_ok rfl]
      cases hmode : faults.refusal .setMode with
      | some wording =>
        exact .inr ⟨_, _, firstRefusal_of_refused hmode _ _, Step.attempt_eq_of_refused hmode _⟩
      | none =>
        rw [firstRefusal_of_none hmode, Step.attempt_eq hmode]
        exact .inl ⟨rfl, rfl⟩

theorem replaceBy_eq_of_refused {wording : String} (h : faults.refusal .replace = some wording)
    (store : Store) (place : Location) (t : FileTree) :
    ∃ u, store.replaceBy faults place t =
      ⟨u, [], .error (.system .replace store.path (.other wording))⟩ :=
  Step.discarding_eq_of_error (Step.attempt_eq_of_refused h t)

theorem replaceBy_eq_of_none {place : Location} {t : FileTree}
    (h : faults.refusal .replace = none) (hmove : t.moveTo place store.path = .ok u) :
    store.replaceBy faults place t = ⟨u, [], .ok ()⟩ := by
  refine Step.discarding_eq_of_ok ?_
  rw [Step.attempt_eq h, Step.change, hmove]

/-- What comes of new contents for a store whose file is at a location. -/
inductive Committed (store : Store) (faults : Faults) (tree : FileTree) (location : Location)
    (contents : Contents) : Outcome Unit → Prop
  | refused {e : StoreError} (hrefusal : firstRefusal faults store.commitCalls = some e)
    {u : FileTree} (hleft : u = tree ∨ Abandoned store faults tree u) :
    Committed store faults tree location contents ⟨u, [], .error e⟩
  | rewritten (hrefusal : firstRefusal faults store.commitCalls = none) {u : FileTree}
    (hfile : Rewritten tree location contents.octets u) :
    Committed store faults tree location contents
      ⟨u, [.rewrote store.path contents.entries.length], .ok ()⟩

theorem Committed.of_fails {e : StoreError}
    (hrefusal : firstRefusal faults store.commitCalls = some e)
    (h : store.commit faults contents tree = ⟨u, [], .error e⟩) :
    Committed store faults tree location contents (store.commit faults contents tree) := by
  rw [h]
  exact .refused hrefusal (commit_fails ⟨[], h⟩).1

/-- New contents take the place of the file, unless the system refuses one of the calls. -/
theorem committed_of_filePath (ht : tree.Sound) (hlock : LockThere store tree)
    (hpath : tree.FilePath store.path location) (faults : Faults) (contents : Contents) :
    Committed store faults tree location contents (store.commit faults contents tree) := by
  obtain ⟨place, moved, hopen, hmove, hfile⟩ := exists_rewritten ht hlock hpath contents.octets
  cases hcreate : faults.refusal .createTemporary with
  | some wording =>
    exact .of_fails (firstRefusal_of_refused hcreate _ _)
      (Step.bind_eq_of_error (Step.attempt_eq_of_refused hcreate _) _)
  | none =>
    have hopened : store.commit faults contents tree = (do
        faults.discarding place (writeOut faults place contents.octets)
        store.replaceBy faults place
        Step.tell [.rewrote store.path contents.entries.length])
          (tree.put place (.file fileMode [])) := by
      rw [commit, Step.attempt_eq hcreate, Step.bind_eq_of_ok hopen]
    have hcalls : firstRefusal faults store.commitCalls = (firstRefusal faults writeCalls).or
        (firstRefusal faults [(.replace, .system .replace store.path)]) :=
      (firstRefusal_of_none hcreate _ _).trans List.findSome?_append
    rcases writeOut_eq faults place contents.octets (tree.put place (.file fileMode [])) with
      ⟨hcalled, hwrite⟩ | ⟨e, u, hcalled, hwrite⟩
    · rw [hcalled, Option.none_or] at hcalls
      rw [put_put] at hwrite
      rw [Step.bind_eq_of_ok (Step.discarding_eq_of_ok hwrite)] at hopened
      cases hreplace : faults.refusal .replace with
      | some wording =>
        obtain ⟨v, hreplaced⟩ := replaceBy_eq_of_refused hreplace store place
          (tree.put place (.file fileMode contents.octets))
        exact .of_fails (hcalls.trans (firstRefusal_of_refused hreplace _ _))
          (hopened.trans (Step.bind_eq_of_error hreplaced _))
      | none =>
        rw [hopened, Step.bind_eq_of_ok (replaceBy_eq_of_none hreplace hmove)]
        exact .rewritten (hcalls.trans (firstRefusal_of_none hreplace _ _)) hfile
    · rw [hcalled, Option.some_or] at hcalls
      obtain ⟨v, hdiscarded⟩ := Step.discarding_eq_of_error hwrite
      exact .of_fails hcalls (hopened.trans (Step.bind_eq_of_error hdiscarded _))

/-- A file cannot be moved to the empty path. -/
theorem moveTo_nil (tree : FileTree) (source : Location) (u : FileTree) :
    tree.moveTo source [] ≠ .ok u := by
  intro h
  unfold moveTo at h
  split at h
  · cases h
  · next entry _ =>
    cases entry with
    | file mode octets => cases h
    | directory mode => cases h
    | link target => cases h

theorem path_ne_nil_of_commit (h : (store.commit faults contents).Gives tree () u) :
    store.path ≠ [] := by
  intro hnil
  obtain ⟨place, v, -, hopened⟩ := Step.gives_bind h
  obtain ⟨_, w, -, hwritten⟩ := Step.gives_bind hopened
  obtain ⟨_, moved, hreplace, -⟩ := Step.gives_bind hwritten
  obtain ⟨-, hmove⟩ := gives_replaceBy_iff.1 hreplace
  rw [hnil] at hmove
  exact moveTo_nil w place moved hmove

end Store

end TokenVault
