import TokenVault.Proofs.FileTree.Files
import TokenVault.Proofs.Store.Contents
import TokenVault.Proofs.Store.Steps
import TokenVault.Store.Basic

/-!
# Requests granted

A store is ready (`Ready`) if its file is absent or holds contents, neither it nor its lock is a
link, and its directory is there.  A ready store grants every request (`Ready.perform`): it answers
from the contents that it holds, and is ready again with the contents after the request.
-/

namespace TokenVault

namespace Store

open FileTree

/-- Whether contents are what a store holds, given what is at the place of its file. -/
def Holds (contents : Contents) : Option Entry → Prop
  | none => contents = .empty
  | some (.file _ octets) => Contents.ofOctets octets = .ok contents
  | some _ => False

/-- A store that can be used as it is, and the contents that it holds. -/
structure Ready (store : Store) (tree : FileTree) (contents : Contents) : Prop where
  sound : tree.Sound
  directory : ∃ location mode, tree.follow store.directory = .ok (location, .directory mode)
  data : ∃ location, tree.FilePath store.path location ∧ Holds contents (tree.at? location)
  lock : ∃ location, tree.FilePath store.lockPath location

/-- Whether the file of a store is just what is written of contents. -/
def Written (store : Store) (tree : FileTree) (contents : Contents) : Prop :=
  tree.content store.path = .ok contents.octets

variable {store : Store} {tree : FileTree} {contents : Contents}

/-- A store stays ready if files are changed, and holds what is then in its file. -/
theorem Ready.frame {u : FileTree} {contents' : Contents} (h : Ready store tree contents)
    (hframe : Frame tree u) (hsound : u.Sound)
    (hdata : ∀ location, tree.FilePath store.path location → Holds contents (tree.at? location) →
      Holds contents' (u.at? location)) :
    Ready store u contents' where
  sound := hsound
  directory := by
    obtain ⟨location, mode, hdirectory⟩ := h.directory
    exact ⟨location, mode, follow_directory_frame hframe h.sound hdirectory⟩
  data := by
    obtain ⟨location, hpath, hholds⟩ := h.data
    exact ⟨location, hpath.frame hframe h.sound, hdata location hpath hholds⟩
  lock := by
    obtain ⟨location, hpath⟩ := h.lock
    exact ⟨location, hpath.frame hframe h.sound⟩

/-! ### The lock -/

theorem gives_refuseLink {path : Bytes} {location : Location} (h : tree.FilePath path location) :
    (refuseLink path).Gives tree () tree := by
  refine ⟨[], ?_⟩
  rw [refuseLink, inspect, h.resolve_eq]
  rcases h.place.takesFile with hnone | ⟨mode, content, hfile⟩
  · rw [placeAt_of_none hnone]
  · rw [placeAt_of_some hfile]

/-- There is room for a store whose directory is there. -/
theorem gives_makeRoom {location : Location} {entry : Entry}
    (h : tree.follow store.directory = .ok (location, entry)) :
    (store.makeRoom .none).Gives tree () tree := by
  have hreaches : tree.reaches store.directory = true := by
    rw [reaches, h]
    rfl
  exact ⟨[], by rw [makeRoom, if_pos ⟨rfl, hreaches⟩]⟩

theorem Ready.gives_makeRoom (h : Ready store tree contents) :
    (store.makeRoom .none).Gives tree () tree := by
  obtain ⟨location, mode, hdirectory⟩ := h.directory
  exact Store.gives_makeRoom hdirectory

/-- Once there is room for a ready store, its lock can be taken: the store is ready still, and
its file has not been changed. -/
theorem Ready.acquire {t : FileTree} (hlink : (refuseLink store.path).Gives t () t)
    (hroom : (store.makeRoom .none).Gives t () tree) (h : Ready store tree contents) :
    ∃ u, (store.acquire .none).Gives t () u ∧ Ready store u contents ∧
      ∀ octets, tree.content store.path = .ok octets → u.content store.path = .ok octets := by
  obtain ⟨location, hlock⟩ := h.lock
  have hopen := hlock.openFile_eq fileMode
  have hacquire : ∀ {u : FileTree}, tree.openFile store.lockPath fileMode = .ok u →
      (store.acquire .none).Gives t () u := fun hopen =>
    hlink.bind (hroom.bind ((gives_refuseLink hlock).bind
      ((Step.gives_change_iff.2 hopen).bind (Step.gives_tell _ _))))
  by_cases hvacant : tree.at? location = none
  · rw [if_pos hvacant] at hopen
    have hframe := frame_put_file (.inl hvacant) (masked fileMode) []
    refine ⟨_, hacquire hopen, h.frame hframe (h.sound.put_file hlock.place _ _) ?_, ?_⟩
    · intro other hpath hholds
      rw [at?_put]
      split
      · next heq =>
        -- lock and file are the same, so the file is a new one without contents
        rw [heq, hvacant] at hholds
        have hempty : contents = .empty := hholds
        rw [hempty]
        exact Contents.ofOctets_nil
      · exact hholds
    · intro octets hcontent
      obtain ⟨other, hpath, -⟩ := h.data
      obtain ⟨mode, hfile⟩ := hpath.content_eq_ok_iff.1 hcontent
      have hne : other ≠ location := by
        rintro rfl
        rw [hvacant] at hfile
        cases hfile
      have hfile' : (tree.put location (.file (masked fileMode) [])).at? other =
          some (.file mode octets) := by
        rw [at?_put, if_neg hne, hfile]
      exact (hpath.frame hframe h.sound).content_of_some hfile'
  · rw [if_neg hvacant] at hopen
    exact ⟨tree, hacquire hopen, h, fun _ hcontent => hcontent⟩

/-! ### Contents -/

/-- What the file of a store holds is what is read. -/
theorem gives_readContents {location : Location} (hpath : tree.FilePath store.path location)
    (hholds : Holds contents (tree.at? location)) :
    (store.readContents .none).Gives tree contents tree := by
  refine (Step.gives_attempt_iff.2 ⟨rfl, gives_refuseLink hpath⟩).bind
    (Step.gives_attempt_iff.2 ⟨rfl, [], ?_⟩)
  rw [readFile]
  rcases hpath.place.takesFile with hnone | ⟨mode, octets, hfile⟩
  · rw [hnone] at hholds
    have hempty : contents = .empty := hholds
    rw [hpath.content_of_none hnone, hempty]
  · rw [hfile] at hholds
    have hread : Contents.ofOctets octets = .ok contents := hholds
    simp only [hpath.content_of_some hfile, hread]
    rfl

theorem Ready.gives_readContents (h : Ready store tree contents) :
    (store.readContents .none).Gives tree contents tree := by
  obtain ⟨location, hpath, hholds⟩ := h.data
  exact Store.gives_readContents hpath hholds

/-! ### New contents -/

theorem le_foldl_max {lengths : List Nat} {start n : Nat} (h : n ≤ start ∨ n ∈ lengths) :
    n ≤ lengths.foldl max start := by
  induction lengths generalizing start with
  | nil => exact h.resolve_right List.not_mem_nil
  | cons length rest ih =>
    refine ih ?_
    rcases h with h | h
    · exact .inl (Nat.le_trans h (Nat.le_max_left start length))
    · rcases List.mem_cons.1 h with rfl | h
      · exact .inl (Nat.le_max_right start n)
      · exact .inr h

theorem length_lt_unusedName {directory : Location} {name : Bytes} {entry : Entry}
    (h : ((directory ++ [name] : Location).key, entry) ∈ tree.entries) :
    name.length < (unusedName tree).length := by
  have hmem : name.length ∈
      tree.entries.map fun e => (e.1.location.getLast?.getD []).length :=
    List.mem_map.2 ⟨_, h, by simp [Location.key]⟩
  have hle : name.length ≤
      (tree.entries.map fun e => (e.1.location.getLast?.getD []).length).foldl max 0 :=
    le_foldl_max (.inr hmem)
  have hprefix : (Bytes.ofText ".tmp").length = 4 := by decide +kernel
  rw [unusedName, List.length_append, List.length_replicate, hprefix]
  omega

theorem length_lt_of_at? {directory : Location} {name : Bytes}
    (h : tree.at? (directory ++ [name]) ≠ none) : name.length < (unusedName tree).length := by
  have hne : directory ++ [name] ≠ [] := by simp
  rw [← lookup_of_ne_nil hne] at h
  obtain ⟨entry, hlookup⟩ := Option.ne_none_iff_exists'.1 h
  obtain ⟨before, after, hentries, -⟩ := List.lookup_eq_some_iff.1 hlookup
  have hmem : ((directory ++ [name] : Location).key, entry) ∈ tree.entries := by
    rw [hentries]
    exact List.mem_append_right _ List.mem_cons_self
  exact length_lt_unusedName hmem

theorem at?_unusedName (tree : FileTree) (directory : Location) :
    tree.at? (directory ++ [unusedName tree]) = none := by
  by_contra hsome
  exact Nat.lt_irrefl _ (length_lt_of_at? hsome)

/-- The temporary file is new, and lies in the directory of the store. -/
theorem Ready.openTemporary (h : Ready store tree contents) :
    ∃ place, store.openTemporary.Gives tree place (tree.put place (.file fileMode [])) ∧
      tree.FilePlace place := by
  obtain ⟨location, mode, hdirectory⟩ := h.directory
  have hplace : tree.FilePlace (location ++ [unusedName tree]) :=
    ⟨.inl (at?_unusedName tree location), location, _, rfl,
      ⟨mode, h.sound.at?_of_follow hdirectory⟩⟩
  refine ⟨location ++ [unusedName tree], ⟨[], ?_⟩, hplace⟩
  rw [Store.openTemporary, hdirectory]

/-- Writing a file anew is writing it once. -/
theorem put_put (tree : FileTree) (place : Location) (first second : Entry) :
    (tree.put place first).put place second = tree.put place second := by
  simp [put, List.filter_filter]

/-- A temporary file takes the place of the file if it can be moved there. -/
theorem gives_replaceBy_iff {faults : Faults} {place : Location} {u : FileTree} :
    (store.replaceBy faults place).Gives tree () u ↔
      faults.refusal .replace = none ∧ tree.moveTo place store.path = .ok u := by
  rw [replaceBy, Step.gives_discarding_iff, Step.gives_attempt_iff, Step.gives_change_iff]

/-- To give a store new contents is to make a temporary file with them and to move it. -/
theorem gives_commit {place : Location} {u : FileTree}
    (hopen : store.openTemporary.Gives tree place (tree.put place (.file fileMode [])))
    (hmove : (tree.put place (.file fileMode contents.octets)).moveTo place store.path = .ok u) :
    (store.commit .none contents).Gives tree () u := by
  have hwrite : (writeOut .none place contents.octets).Gives (tree.put place (.file fileMode []))
      () (tree.put place (.file fileMode contents.octets)) := by
    rw [← put_put tree place (.file fileMode []) (.file fileMode contents.octets)]
    exact ⟨[], rfl⟩
  have hreplace : (store.replaceBy .none place).Gives
      (tree.put place (.file fileMode contents.octets)) () u := gives_replaceBy_iff.2 ⟨rfl, hmove⟩
  exact (Step.gives_attempt_iff.2 ⟨rfl, hopen⟩).bind
    ((Step.gives_discarding_iff.2 hwrite).bind (hreplace.bind (Step.gives_tell _ _)))

/-- A ready store takes on new contents, and they are what then stands in its file. -/
theorem Ready.commit (h : Ready store tree contents) (contents' : Contents) :
    ∃ u, (store.commit .none contents').Gives tree () u ∧ Ready store u contents' ∧
      Written store u contents' := by
  -- the temporary file is a change of files, and so is its move onto the path
  obtain ⟨place, hopen, hplace⟩ := h.openTemporary
  obtain ⟨location, hpath, -⟩ := h.data
  have hput := frame_put_file hplace.takesFile fileMode contents'.octets
  have hputSound := h.sound.put_file hplace fileMode contents'.octets
  have hsource : (tree.put place (.file fileMode contents'.octets)).at? place =
      some (.file fileMode contents'.octets) := by
    rw [at?_put, if_pos rfl]
  obtain ⟨u, hmove, hsound, hframe, hfile⟩ :=
    hputSound.moveTo_file hsource (hpath.frame hput h.sound)
  refine ⟨u, gives_commit hopen hmove, ?_, ?_⟩
  · refine h.frame (hput.trans hframe) hsound fun other hother _ => ?_
    rw [hother.location_unique hpath, hfile]
    exact contents'.ofOctets_octets
  · exact ((hpath.frame hput h.sound).frame hframe hputSound).content_of_some hfile

/-! ### Requests -/

/-- Once there is room for a ready store, it grants every request.  What it answers and holds
afterwards follows from what it holds.  Its file is then written out if the request has changed
it, or if it was before. -/
theorem Ready.perform {t : FileTree} (hlink : (refuseLink store.path).Gives t () t)
    (hroom : (store.makeRoom .none).Gives t () tree) (h : Ready store tree contents)
    (request : Request) :
    ∃ u, (store.perform request).Gives t (request.reply contents) u ∧
      Ready store u (request.after contents) ∧
      (Written store tree contents ∨ request.changes = true →
        Written store u (request.after contents)) := by
  obtain ⟨locked, hacquire, hready, hkept⟩ := h.acquire hlink hroom
  have hread := hready.gives_readContents
  -- the lock is released and the answer given, whatever has been granted
  have hperform : ∀ {u : FileTree}, (store.grant .none request).Gives locked contents u →
      (store.perform request).Gives t (request.reply contents) u := fun hgrant =>
    hacquire.bind ((hgrant.afterwards (Step.gives_tell _ _)).bind
      ((Step.gives_tell _ _).bind (Step.gives_pure _ _)))
  cases hchanges : request.changes with
  | false =>
    have hgrant : (store.grant .none request).Gives locked contents locked := by
      refine hread.bind ?_
      rw [hchanges, if_neg Bool.false_ne_true]
      exact Step.gives_pure contents locked
    rw [Request.after_of_not_changes hchanges]
    refine ⟨locked, hperform hgrant, hready, fun hwritten => ?_⟩
    exact hkept _ (hwritten.resolve_right Bool.false_ne_true)
  | true =>
    obtain ⟨u, hcommit, hcommitted, hwritten⟩ := hready.commit (request.after contents)
    have hgrant : (store.grant .none request).Gives locked contents u := by
      refine hread.bind ?_
      rw [hchanges, if_pos rfl]
      exact hcommit.bind (Step.gives_pure contents u)
    exact ⟨u, hperform hgrant, hcommitted, fun _ => hwritten⟩

end Store

end TokenVault
