import TokenVault.Proofs.FileTree.Named
import TokenVault.Proofs.Store.Footprint

/-!
# Stores in one directory

What a request to a store comes to depends on two entries of the directory of the store, that of
its file and that of its lock, and on what the system refuses (`Store.Near.perform`), and it
changes no other entries unless a temporary file cannot be removed (`Store.LiesIn.perform`).  So
requests to two stores in one directory can be exchanged if the four names are distinct.
-/

namespace TokenVault

namespace Store

open FileTree
open Result (Both)

variable {store : Store} {faults : Faults} {tree t u : FileTree} {directory : Location}
  {name : Bytes}

/-! ### The entries of a store -/

/-- The name of the lock, for a file with this name. -/
def lockName (name : Bytes) : Bytes := name ++ Bytes.ofText ".lock"

/-- A store whose file and lock have their names in the directory at a location. -/
structure LiesIn (store : Store) (tree : FileTree) (directory : Location) (name : Bytes) :
    Prop where
  sound : tree.Sound
  data : tree.LiesIn store.path directory name

namespace LiesIn

theorem lock (h : LiesIn store tree directory name) :
    tree.LiesIn store.lockPath directory (lockName name) :=
  h.data.append suffix_ne_nil slash_not_mem_suffix

theorem frame (h : LiesIn store t directory name) (hframe : Frame t u) (hu : u.Sound) :
    LiesIn store u directory name :=
  ⟨hu, h.data.frame h.sound hframe⟩

/-- There is room for a store in a directory. -/
theorem makeRoom_eq (h : LiesIn store tree directory name) (faults : Faults) :
    store.makeRoom faults tree = ⟨tree, [], .ok ()⟩ := by
  obtain ⟨mode, hfollow⟩ := h.data.follow_eq
  exact makeRoom_of_enters h.sound ⟨directory, h.sound.enters_iff.2 ⟨mode, hfollow⟩⟩ faults

end LiesIn

/-! ### What a request depends on -/

/-- Two trees with the same entries for a store. -/
structure Near (store : Store) (directory : Location) (name : Bytes) (t u : FileTree) : Prop where
  left : LiesIn store t directory name
  right : LiesIn store u directory name
  data : t.at? (directory ++ [name]) = u.at? (directory ++ [name])
  lock : t.at? (directory ++ [lockName name]) = u.at? (directory ++ [lockName name])

/-- Two outcomes that differ at most in what does not belong to a store. -/
structure Agree {α : Type} (store : Store) (directory : Location) (name : Bytes)
    (x y : Outcome α) : Prop where
  events : x.events = y.events
  result : x.result = y.result
  tree : Near store directory name x.tree y.tree

variable {α β : Type}

theorem Agree.bind {first : Step α} {next : α → Step β}
    (h : Agree store directory name (first t) (first u))
    (hnext : ∀ a t' u', first.Gives t a t' → first.Gives u a u' →
      Near store directory name t' u' → Agree store directory name (next a t') (next a u')) :
    Agree store directory name ((first >>= next) t) ((first >>= next) u) := by
  show Agree store directory name (Step.andThen first next t) (Step.andThen first next u)
  unfold Step.andThen
  rcases ht : first t with ⟨t', events, result⟩
  rcases hu : first u with ⟨u', events', result'⟩
  rw [ht, hu] at h
  obtain ⟨hevents, hresult, htree⟩ := h
  obtain rfl : events = events' := hevents
  obtain rfl : result = result' := hresult
  cases result with
  | error e => exact ⟨rfl, rfl, htree⟩
  | ok a =>
    obtain ⟨hmore, hrest, htrees⟩ := hnext a t' u' ⟨events, ht⟩ ⟨events, hu⟩ htree
    exact ⟨congrArg (events ++ ·) hmore, hrest, htrees⟩

theorem Near.tell (h : Near store directory name t u) (events : List Event) :
    Agree store directory name (Step.tell events t) (Step.tell events u) :=
  ⟨rfl, rfl, h⟩

theorem Near.pure (h : Near store directory name t u) (value : α) :
    Agree store directory name ((Pure.pure value : Step α) t) ((Pure.pure value : Step α) u) :=
  ⟨rfl, rfl, h⟩

theorem Agree.afterwards {first : Step α} (h : Agree store directory name (first t) (first u))
    (events : List Event) :
    Agree store directory name (first.afterwards (Step.tell events) t)
      (first.afterwards (Step.tell events) u) :=
  ⟨congrArg (· ++ events) h.events, h.result, h.tree⟩

namespace Near

/-- A change of files in both trees that leaves the entries of the store the same. -/
theorem frame (h : Near store directory name t u) {t' u' : FileTree} (ht : Frame t t')
    (hu : Frame u u') (htSound : t'.Sound) (huSound : u'.Sound)
    (hdata : t'.at? (directory ++ [name]) = u'.at? (directory ++ [name]))
    (hlock : t'.at? (directory ++ [lockName name]) = u'.at? (directory ++ [lockName name])) :
    Near store directory name t' u' :=
  ⟨h.left.frame ht htSound, h.right.frame hu huSound, hdata, hlock⟩

theorem refuseLink {path : Bytes} (h : Near store directory name t u)
    (hinspect : t.inspect path = u.inspect path) :
    Agree store directory name (refuseLink path t) (refuseLink path u) := by
  unfold Store.refuseLink
  rw [hinspect]
  split
  · exact ⟨rfl, rfl, h⟩
  · exact ⟨rfl, rfl, h⟩
  · exact ⟨rfl, rfl, h⟩
  · exact ⟨rfl, rfl, h⟩

theorem inspect_data (h : Near store directory name t u) :
    t.inspect store.path = u.inspect store.path :=
  h.left.data.inspect_congr h.left.sound h.right.data h.right.sound h.data

theorem inspect_lock (h : Near store directory name t u) :
    t.inspect store.lockPath = u.inspect store.lockPath :=
  h.left.lock.inspect_congr h.left.sound h.right.lock h.right.sound h.lock

theorem followed_data (h : Near store directory name t u)
    (hlink : ∀ target, t.inspect store.path ≠ .ok (.link target)) :
    t.resolve true store.path = u.resolve true store.path :=
  h.left.data.followed_congr h.left.sound h.right.data h.right.sound h.data hlink

theorem followed_lock (h : Near store directory name t u) (hlink : LockUnlinked store t) :
    t.resolve true store.lockPath = u.resolve true store.lockPath :=
  h.left.lock.followed_congr h.left.sound h.right.lock h.right.sound h.lock hlink

/-- The system refuses a call for both trees, or for neither. -/
theorem attempt {call : SystemCall} {fault : SystemError → StoreError} {step : Step α}
    (h : Near store directory name t u) (hstep : Agree store directory name (step t) (step u)) :
    Agree store directory name (faults.attempt call fault step t)
      (faults.attempt call fault step u) := by
  cases hrefusal : faults.refusal call with
  | some wording =>
    rw [Step.attempt_eq_of_refused hrefusal, Step.attempt_eq_of_refused hrefusal]
    exact ⟨rfl, rfl, h⟩
  | none =>
    rw [Step.attempt_eq hrefusal]
    exact hstep

theorem makeRoom (h : Near store directory name t u) :
    Agree store directory name (store.makeRoom faults t) (store.makeRoom faults u) := by
  rw [h.left.makeRoom_eq, h.right.makeRoom_eq]
  exact ⟨rfl, rfl, h⟩

/-- A change that both trees allow, or neither of them. -/
theorem change {alter : FileTree → Except SystemError FileTree}
    {fault : SystemError → StoreError} (h : Near store directory name t u)
    (halter : Both Eq (Near store directory name) (alter t) (alter u)) :
    Agree store directory name (Step.change alter fault t) (Step.change alter fault u) := by
  unfold Step.change
  generalize alter t = x at halter
  generalize alter u = y at halter
  cases halter with
  | error hsame =>
    obtain rfl := hsame
    exact ⟨rfl, rfl, h⟩
  | ok hnear => exact ⟨rfl, rfl, hnear⟩

theorem openLock (h : Near store directory name t u) (hunlinked : LockUnlinked store t) :
    Both Eq (Near store directory name) (t.openFile store.lockPath fileMode)
      (u.openFile store.lockPath fileMode) := by
  have hsame := h.followed_lock hunlinked
  rw [openFile, openFile, ← hsame]
  cases hplace : t.resolve true store.lockPath with
  | error e => exact .error rfl
  | ok place =>
    cases place with
    | found location entry =>
      cases entry with
      | file mode octets => exact .ok h
      | directory mode => exact .error rfl
      | link target => exact .error rfl
    | vacant location =>
      have hunlinked' : LockUnlinked store u := fun target => h.inspect_lock ▸ hunlinked target
      have hleft : LockOpened store t _ := .fresh (resolve_of_followed hunlinked hplace)
      have hright : LockOpened store u _ :=
        .fresh (resolve_of_followed hunlinked' (hsame.symm.trans hplace))
      refine .ok (h.frame (hleft.frame h.left.sound) (hright.frame h.right.sound)
        (hleft.sound h.left.sound) (hright.sound h.right.sound) ?_ ?_)
      · rw [at?_put, at?_put, h.data]
      · rw [at?_put, at?_put, h.lock]

theorem acquire (h : Near store directory name t u) :
    Agree store directory name (store.acquire faults t) (store.acquire faults u) := by
  refine Agree.bind (h.attempt (h.refuseLink h.inspect_data)) fun _ _ _ _ _ hchecked => ?_
  refine Agree.bind hchecked.makeRoom fun _ _ _ _ _ hroom => ?_
  refine Agree.bind (hroom.attempt (hroom.refuseLink hroom.inspect_lock))
    fun _ _ _ hgives _ hlock => ?_
  obtain ⟨rfl, hunlinked⟩ := checked_gives hgives
  refine Agree.bind (hlock.attempt (hlock.change (hlock.openLock hunlinked)))
    fun _ _ _ _ _ hopened => ?_
  exact hopened.attempt (hopened.tell _)

theorem readContents (h : Near store directory name t u) :
    Agree store directory name (store.readContents faults t) (store.readContents faults u) := by
  refine Agree.bind (h.attempt (h.refuseLink h.inspect_data))
    fun _ t' u' hgives _ hchecked => hchecked.attempt ?_
  obtain ⟨rfl, hunlinked⟩ := checked_gives hgives
  have hcontent : t'.content store.path = u'.content store.path := by
    rw [content, content, FileTree.follow, FileTree.follow, hchecked.followed_data hunlinked]
  unfold readFile
  rw [hcontent]
  split
  · exact ⟨rfl, rfl, hchecked⟩
  · exact ⟨rfl, rfl, hchecked⟩
  · exact ⟨rfl, rfl, hchecked⟩

variable (hremove : faults.refusal .remove = none)

include hremove

/-- Under the lock, a store whose file can be read takes the same contents, or the system refuses
the same call. -/
theorem commit (h : Near store directory name t u) (ht : LockThere store t)
    (hu : LockThere store u) {before before' : Contents}
    (hread : (store.readContents faults).Gives t before t)
    (hread' : (store.readContents faults).Gives u before' u) (contents : Contents) :
    Agree store directory name (store.commit faults contents t)
      (store.commit faults contents u) := by
  have hne := h.left.data.endsIn.path_ne_nil
  obtain ⟨location, hpath⟩ := filePath_of_readContents h.left.sound ht hne hread
  obtain ⟨location', hpath'⟩ := filePath_of_readContents h.right.sound hu hne hread'
  have hcommit := committed_of_filePath h.left.sound ht hpath faults contents
  have hcommit' := committed_of_filePath h.right.sound hu hpath' faults contents
  generalize store.commit faults contents t = outcome at hcommit
  generalize store.commit faults contents u = outcome' at hcommit'
  cases hcommit with
  | refused hrefusal hleft =>
    cases hcommit' with
    | refused hrefusal' hleft' =>
      obtain rfl := Option.some.inj (hrefusal.symm.trans hrefusal')
      obtain rfl := eq_of_removed hremove hleft
      obtain rfl := eq_of_removed hremove hleft'
      exact ⟨rfl, rfl, h⟩
    | rewritten hnone => cases hnone.symm.trans hrefusal
  | rewritten hnone hfile =>
    cases hcommit' with
    | refused hrefusal => cases hnone.symm.trans hrefusal
    | rewritten _ hfile' =>
      have hlocation := h.left.data.filePath_eq h.left.sound hpath
      have hlocation' := h.right.data.filePath_eq h.right.sound hpath'
      refine ⟨rfl, rfl, h.frame hfile.frame hfile'.frame hfile.sound hfile'.sound ?_ ?_⟩
      · rw [hfile.at?_eq, hfile'.at?_eq, hlocation, hlocation', h.data]
      · rw [hfile.at?_eq, hfile'.at?_eq, hlocation, hlocation', h.lock]

theorem grant (h : Near store directory name t u) (ht : LockThere store t)
    (hu : LockThere store u) (request : Request) :
    Agree store directory name (store.grant faults request t)
      (store.grant faults request u) := by
  refine Agree.bind h.readContents fun contents t' u' hread hread' hsame => ?_
  obtain ⟨rfl, -⟩ := readContents_gives hread
  obtain ⟨rfl, -⟩ := readContents_gives hread'
  dsimp only
  split
  · exact Agree.bind (hsame.commit hremove ht hu hread hread' _) fun _ _ _ _ _ hdone =>
      hdone.pure _
  · exact hsame.pure _

/-- A request comes to the same if the entries of the store are the same. -/
theorem perform (h : Near store directory name t u) (request : Request) :
    Agree store directory name (store.performUnder faults request t)
      (store.performUnder faults request u) := by
  refine Agree.bind h.acquire fun _ t' u' hacquire hacquire' hlocked => ?_
  have ht := lockThere_of_acquire h.left.sound hacquire
  have hu := lockThere_of_acquire h.right.sound hacquire'
  refine Agree.bind ((hlocked.grant hremove ht hu request).afterwards _)
    fun _ _ _ _ _ hgranted => ?_
  exact Agree.bind (hgranted.tell _) fun _ _ _ _ _ htold => htold.pure _

end Near

/-! ### What a request changes -/

/-- What a request to a store does to its directory. -/
structure Within (directory : Location) (name : Bytes) (tree u : FileTree) : Prop where
  sound : u.Sound
  frame : Frame tree u
  elsewhere : ∀ location, location ≠ directory ++ [name] →
    location ≠ directory ++ [lockName name] → u.at? location = tree.at? location

theorem LiesIn.opened (h : LiesIn store tree directory name) (hlocked : LockOpened store tree u) :
    Within directory name tree u := by
  refine ⟨hlocked.sound h.sound, hlocked.frame h.sound, fun location _ hlock => ?_⟩
  cases hlocked with
  | there => rfl
  | fresh hvacant =>
    rw [at?_put, if_neg]
    exact fun heq => hlock (heq.trans (h.lock.location_eq h.sound hvacant))

/-- A request changes no entries but those of the store. -/
theorem LiesIn.perform (hremove : faults.refusal .remove = none)
    (h : LiesIn store tree directory name) (request : Request) :
    Within directory name tree (store.performUnder faults request tree).tree := by
  have heffect := perform_effect h.sound store faults request
  have hroom : (store.makeRoom faults tree).tree = tree := by rw [h.makeRoom_eq]
  generalize store.performUnder faults request tree = outcome at heffect
  cases heffect with
  | refused events e => exact ⟨h.sound, .refl tree, fun _ _ _ => rfl⟩
  | failed hlocked events e => exact h.opened (hroom ▸ hlocked)
  | abandoned hlocked hthere hleft events e =>
    obtain rfl := eq_of_removed hremove (.inr hleft)
    exact h.opened (hroom ▸ hlocked)
  | read hlocked hthere hchanges events reply => exact h.opened (hroom ▸ hlocked)
  | @rewritten locked u location octets hlocked hthere hchanges hpath hfile events reply =>
    have hopened := h.opened (hroom ▸ hlocked)
    have hlocation := (h.data.frame h.sound hopened.frame).filePath_eq hopened.sound hpath
    refine ⟨hfile.sound, hopened.frame.trans hfile.frame, fun other hdata hlock => ?_⟩
    rw [hfile.at?_eq, if_neg (hlocation ▸ hdata), hopened.elsewhere other hdata hlock]

/-! ### Two stores -/

/-- Two requests to two stores that can be exchanged, each with what the system refuses while it is
performed: each has the same result, and tells the same, whether it comes first or second, and
the same is left in either order. -/
structure Exchangeable (a b : Store) (f g : Faults) (p q : Request) (tree : FileTree) : Prop where
  left_result : (a.performUnder f p (b.performUnder g q tree).tree).result =
    (a.performUnder f p tree).result
  left_events : (a.performUnder f p (b.performUnder g q tree).tree).events =
    (a.performUnder f p tree).events
  right_result : (b.performUnder g q (a.performUnder f p tree).tree).result =
    (b.performUnder g q tree).result
  right_events : (b.performUnder g q (a.performUnder f p tree).tree).events =
    (b.performUnder g q tree).events
  workingDirectory : (b.performUnder g q (a.performUnder f p tree).tree).tree.workingDirectory =
    (a.performUnder f p (b.performUnder g q tree).tree).tree.workingDirectory
  at?_eq : ∀ location, (b.performUnder g q (a.performUnder f p tree).tree).tree.at? location =
    (a.performUnder f p (b.performUnder g q tree).tree).tree.at? location

variable {a b : Store} {f g : Faults} {m n : Bytes}

/-- A request to a store leaves the entries of its neighbour as they are. -/
theorem Within.near (h : Within directory m tree u) (hb : LiesIn b tree directory n)
    (hdistinct : [m, lockName m, n, lockName n].Nodup) : Near b directory n tree u := by
  have hne : ∀ {x y : Bytes}, x ≠ y → directory ++ [x] ≠ directory ++ [y] := fun hxy heq =>
    hxy (List.cons.inj (List.append_cancel_left heq)).1
  simp only [List.nodup_cons, List.mem_cons, List.not_mem_nil, or_false, not_or] at hdistinct
  obtain ⟨⟨-, hdata, hdataLock⟩, ⟨hlockData, hlock⟩, -⟩ := hdistinct
  refine ⟨hb, hb.frame h.frame h.sound, ?_, ?_⟩
  · exact (h.elsewhere _ (hne (Ne.symm hdata)) (hne (Ne.symm hlockData))).symm
  · exact (h.elsewhere _ (hne (Ne.symm hdataLock)) (hne (Ne.symm hlock))).symm

/-- A request to a neighbour does not disturb one to a store: if it comes before, the request
comes to the same, and if it comes after, the entries of the store stay. -/
theorem LiesIn.undisturbed (ha : LiesIn a tree directory m) (hb : LiesIn b tree directory n)
    (hdistinct : [n, lockName n, m, lockName m].Nodup) (hf : f.refusal .remove = none)
    (hg : g.refusal .remove = none) (p q : Request) :
    Agree a directory m (a.performUnder f p tree)
        (a.performUnder f p (b.performUnder g q tree).tree) ∧
      Near a directory m (a.performUnder f p tree).tree
        (b.performUnder g q (a.performUnder f p tree).tree).tree := by
  have hp := ha.perform hf p
  have hb' := hb.frame hp.frame hp.sound
  exact ⟨((hb.perform hg q).near ha hdistinct).perform hf p,
    (hb'.perform hg q).near (ha.frame hp.frame hp.sound) hdistinct⟩

/-- Requests to two stores in one directory can be exchanged if the names of their files and of
their locks are four. -/
theorem exchangeable (ha : LiesIn a tree directory m) (hb : LiesIn b tree directory n)
    (hdistinct : [m, lockName m, n, lockName n].Nodup) (hf : f.refusal .remove = none)
    (hg : g.refusal .remove = none) (p q : Request) : Exchangeable a b f g p q tree := by
  have hrotated : ([n, lockName n] ++ [m, lockName m]).Nodup :=
    List.perm_append_comm.nodup hdistinct
  obtain ⟨hagreeA, hkeptA⟩ := ha.undisturbed hb hrotated hf hg p q
  obtain ⟨hagreeB, hkeptB⟩ := hb.undisturbed ha hdistinct hg hf q p
  have hp := ha.perform hf p
  have hq := hb.perform hg q
  have hp' := (ha.frame hq.frame hq.sound).perform hf p
  have hq' := (hb.frame hp.frame hp.sound).perform hg q
  refine ⟨hagreeA.result.symm, hagreeA.events.symm, hagreeB.result.symm, hagreeB.events.symm,
    ?_, fun location => ?_⟩
  · rw [hq'.frame.workingDirectory, hp.frame.workingDirectory, hp'.frame.workingDirectory,
      hq.frame.workingDirectory]
  · by_cases hdataA : location = directory ++ [m]
    · rw [hdataA]
      exact hkeptA.data.symm.trans hagreeA.tree.data
    by_cases hlockA : location = directory ++ [lockName m]
    · rw [hlockA]
      exact hkeptA.lock.symm.trans hagreeA.tree.lock
    by_cases hdataB : location = directory ++ [n]
    · rw [hdataB]
      exact hagreeB.tree.data.symm.trans hkeptB.data
    by_cases hlockB : location = directory ++ [lockName n]
    · rw [hlockB]
      exact hagreeB.tree.lock.symm.trans hkeptB.lock
    rw [hq'.elsewhere location hdataB hlockB, hp.elsewhere location hdataA hlockA,
      hp'.elsewhere location hdataA hlockA, hq.elsewhere location hdataB hlockB]

/-! ### Nothing else -/

/-- Whatever the system refuses, a request touches nothing but the file of its store, the lock, and
directories that were missing on the way to them; no temporary file remains, unless the system
refuses to remove it.  So requests to two stores in one directory can be exchanged if the names
of their files and of their locks are four. -/
theorem touches_nothing_else :
    (∀ {tree : FileTree}, tree.Sound → ∀ (store : Store) (faults : Faults) (request : Request),
      Footprint store faults request tree (store.performUnder faults request tree)) ∧
    ∀ {a b : Store} {tree : FileTree} {directory : Location} {m n : Bytes} {f g : Faults},
      LiesIn a tree directory m → LiesIn b tree directory n →
        [m, lockName m, n, lockName n].Nodup →
          f.refusal .remove = none → g.refusal .remove = none →
            ∀ p q : Request, Exchangeable a b f g p q tree :=
  ⟨footprint_perform, exchangeable⟩

/-- The path `/t`. -/
def otherInRoot : Bytes := Bytes.ofText "/t"

theorem liesIn_root {path name : Bytes} (hpath : path = Path.slash :: name)
    (hdirectory : Path.directory path = [Path.slash]) (hslash : Path.slash ∉ name)
    (hne : name ≠ []) (hhere : name ≠ Path.here) (hup : name ≠ Path.up) :
    LiesIn ⟨path⟩ .empty [] name where
  sound := History.sound_empty
  data := ⟨⟨.inr ⟨[], hpath⟩, hslash, hne, hhere, hup⟩, 0o755, by
    rw [hdirectory]
    exact History.follow_root⟩

theorem touches_nothing_else_in_root :
    Footprint ⟨History.pathInRoot⟩ (.only .write "No space left on device") .clear .empty
      (performUnder ⟨History.pathInRoot⟩ (.only .write "No space left on device") .clear .empty) ∧
    Exchangeable ⟨History.pathInRoot⟩ ⟨otherInRoot⟩ .none (.only .sync "Input/output error")
      (.store "" (.ofAccessToken "a")) .clear .empty := by
  refine ⟨touches_nothing_else.1 History.sound_empty _ _ _, ?_⟩
  have ha : LiesIn ⟨History.pathInRoot⟩ .empty [] (Bytes.ofText "s") :=
    liesIn_root (by decide +kernel) (by decide +kernel) (by decide +kernel) (by decide +kernel)
      (by decide +kernel) (by decide +kernel)
  have hb : LiesIn ⟨otherInRoot⟩ .empty [] (Bytes.ofText "t") :=
    liesIn_root (by decide +kernel) (by decide +kernel) (by decide +kernel) (by decide +kernel)
      (by decide +kernel) (by decide +kernel)
  exact touches_nothing_else.2 ha hb (by decide +kernel) rfl (by decide) _ _

end Store

end TokenVault
