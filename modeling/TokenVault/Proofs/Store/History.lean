import TokenVault.Proofs.Store.Perform

/-!
# Histories of a store

A history makes calls on one path, one after the other, through any store values with that path.
All of them succeed, and they answer what a map from keys to credentials answers
(`History.refines`): nothing but the file carries it from one call to the next.  What the file
holds after a change depends on the map alone.
-/

namespace TokenVault

/-! ### The map that a store stands for -/

/-- What a map from keys to credentials answers to a request, and the map after it. -/
def Request.Answers (map : String → Option Credential) :
    Request → Reply → (String → Option Credential) → Prop
  | .load, .contents contents, after => contents.get? = map ∧ after = map
  | .get key, .credential found, after => found = map key ∧ after = map
  | .keys, .keys listed, after =>
    listed.Pairwise (fun a b => Bytes.ofText a < Bytes.ofText b) ∧
      (∀ key, key ∈ listed ↔ (map key).isSome = true) ∧ after = map
  | .store key credential, .done, after =>
    after = fun other => if other = key then some credential else map other
  | .delete key, .existed existed, after =>
    existed = (map key).isSome ∧ after = fun other => if other = key then none else map other
  | .clear, .done, after => after = fun _ => none
  | _, _, _ => False

/-- What a store holds after requests made one after the other. -/
def Request.afterAll (contents : Contents) (requests : List Request) : Contents :=
  requests.foldl (fun contents request => request.after contents) contents

/-- What a map answers to requests made one after the other, and the map after them. -/
inductive Answered : (String → Option Credential) → List Request → List Reply →
    (String → Option Credential) → Prop
  | done {map} : Answered map [] [] map
  | next {map next last request reply requests replies} (h : request.Answers map reply next)
      (hrest : Answered next requests replies last) :
    Answered map (request :: requests) (reply :: replies) last

/-- Contents answer a request as the map does that they stand for. -/
theorem Request.answers_reply (contents : Contents) (request : Request) :
    request.Answers contents.get? (request.reply contents) (request.after contents).get? := by
  cases request with
  | load => exact ⟨rfl, rfl⟩
  | get key => exact ⟨rfl, rfl⟩
  | keys => exact ⟨contents.pairwise_keys, contents.mem_keys_iff, rfl⟩
  | store key credential => exact funext fun other => contents.get?_insert key other credential
  | delete key => exact ⟨rfl, funext fun other => contents.get?_erase key other⟩
  | clear => rfl

/-- One request after others. -/
theorem Answered.append {map next last : String → Option Credential} {requests : List Request}
    {replies : List Reply} {request : Request} {reply : Reply}
    (h : Answered map requests replies next) (hlast : request.Answers next reply last) :
    Answered map (requests ++ [request]) (replies ++ [reply]) last := by
  induction h with
  | done => exact .next hlast .done
  | next hfirst _ ih => exact .next hfirst (ih hlast)

/-- What contents come to by requests is what the map comes to that they stand for. -/
theorem Request.exists_answered (contents : Contents) (requests : List Request) :
    ∃ replies, Answered contents.get? requests replies (afterAll contents requests).get? := by
  induction requests generalizing contents with
  | nil => exact ⟨[], .done⟩
  | cons request rest ih =>
    obtain ⟨replies, hrest⟩ := ih (request.after contents)
    exact ⟨_, .next (request.answers_reply contents) hrest⟩

namespace Store

open FileTree

/-- A store that is neither a link nor has one for a lock, and whose file is absent or holds
contents. -/
structure Usable (store : Store) (tree : FileTree) (contents : Contents) : Prop where
  directory : tree.reachesDirectory store.directory = true
  data : ∃ place, tree.resolve false store.path = .ok place ∧ Holds contents place.occupant
  lock : ∃ place, tree.resolve false store.lockPath = .ok place ∧
    (place.occupant = none ∨ ∃ mode content, place.occupant = some (.file mode content))

/-- What holds of the files when the first call is made.  The directory of the store may be
missing if it can be made, and what holds of the store is said of the files that are there
then: before `x` is made, the path `x/../s` leads nowhere, but it may lead to a file after. -/
structure Opens (store : Store) (tree : FileTree) (contents : Contents) : Prop where
  sound : tree.Sound
  unlinked : (refuseLink store.path tree).result = .ok ()
  makesRoom : (store.makeRoom .none tree).result = .ok ()
  usable : Usable store (store.makeRoom .none tree).tree contents

variable {store : Store} {tree : FileTree} {contents : Contents}

theorem Usable.ready (h : Usable store tree contents) (ht : tree.Sound) :
    Ready store tree contents where
  sound := ht
  directory := by
    have hdirectory := h.directory
    unfold reachesDirectory at hdirectory
    split at hdirectory
    · next location mode hfollow => exact ⟨location, mode, hfollow⟩
    · cases hdirectory
  data := by
    obtain ⟨place, hresolve, hholds⟩ := h.data
    rw [ht.occupant_of_resolve hresolve] at hholds
    refine ⟨place.location, ht.filePath hresolve ?_, hholds⟩
    -- what contents are read from is a file, or nothing
    unfold TakesFile
    rcases hat : tree.at? place.location with _ | ⟨mode, content⟩ | mode | target
    · exact .inl rfl
    · exact .inr ⟨mode, content, rfl⟩
    · rw [hat] at hholds
      exact hholds.elim
    · rw [hat] at hholds
      exact hholds.elim
  lock := by
    obtain ⟨place, hresolve, hfree⟩ := h.lock
    rw [ht.occupant_of_resolve hresolve] at hfree
    exact ⟨place.location, ht.filePath hresolve hfree⟩

theorem sound_makeRoom (ht : tree.Sound) (store : Store) (faults : Faults) :
    (store.makeRoom faults tree).tree.Sound := by
  unfold makeRoom
  split
  · exact ht
  · have hmade := (ht.makeNewDirectories (fun dir => faults.refusal (.makeDirectory dir))
      directoryMode (Path.ancestors store.directory)).sound
    split
    · next hdirectories => rwa [hdirectories] at hmade
    · next hdirectories => rwa [hdirectories] at hmade

theorem tree_refuseLink (path : Bytes) (tree : FileTree) : (refuseLink path tree).tree = tree := by
  unfold refuseLink
  split
  · rfl
  · rfl
  · rfl
  · rfl

/-- No room has to be made for a store that is usable as it is. -/
theorem Usable.opens (h : Usable store tree contents) (ht : tree.Sound) :
    Opens store tree contents := by
  have hready := h.ready ht
  obtain ⟨location, hpath, -⟩ := hready.data
  obtain ⟨linkEvents, hlink⟩ := gives_refuseLink hpath
  obtain ⟨roomEvents, hroom⟩ := hready.gives_makeRoom
  refine ⟨ht, ?_, ?_, ?_⟩
  · rw [hlink]
  · rw [hroom]
  · rw [hroom]
    exact h

/-- A store that opens grants its first request, and is ready from then on. -/
theorem Opens.perform (h : Opens store tree contents) (request : Request) :
    ∃ u, (store.perform request).Gives tree (request.reply contents) u ∧
      Ready store u (request.after contents) ∧
      (request.changes = true → Written store u (request.after contents)) := by
  have hlink := Step.gives_of_result h.unlinked
  rw [tree_refuseLink] at hlink
  have hready := h.usable.ready (sound_makeRoom h.sound store .none)
  obtain ⟨u, hperform, hu, hwritten⟩ :=
    hready.perform hlink (Step.gives_of_result h.makesRoom) request
  exact ⟨u, hperform, hu, fun hchanges => hwritten (.inr hchanges)⟩

/-- A store that is ready grants one request after the other. -/
theorem Ready.performAll (h : Ready store tree contents) (requests : List Request) :
    ∃ replies u, (store.performAll requests).Gives tree replies u ∧
      Answered contents.get? requests replies (Request.afterAll contents requests).get? ∧
      (Written store tree contents ∨ (∃ request ∈ requests, request.changes = true) →
        Written store u (Request.afterAll contents requests)) := by
  induction requests generalizing tree contents with
  | nil =>
    refine ⟨[], tree, Step.gives_pure [] tree, .done, fun hwritten => ?_⟩
    exact hwritten.resolve_right (by simp)
  | cons request rest ih =>
    obtain ⟨location, hpath, -⟩ := h.data
    obtain ⟨next, hperform, hnext, hfirst⟩ :=
      h.perform (gives_refuseLink hpath) h.gives_makeRoom request
    obtain ⟨replies, u, hrest, hanswered, hlast⟩ := ih hnext
    refine ⟨_, u, hperform.bind (hrest.bind (Step.gives_pure _ u)),
      .next (request.answers_reply contents) hanswered, fun hwritten => hlast ?_⟩
    -- once the file is written out, it is so after every request
    rcases hwritten with hwritten | ⟨other, hother, hchanges⟩
    · exact .inl (hfirst (.inl hwritten))
    · rcases List.mem_cons.1 hother with rfl | hother
      · exact .inl (hfirst (.inr hchanges))
      · exact .inr ⟨other, hother, hchanges⟩

theorem Opens.performAll (h : Opens store tree contents) (requests : List Request) :
    ∃ replies u, (store.performAll requests).Gives tree replies u ∧
      Answered contents.get? requests replies (Request.afterAll contents requests).get? ∧
      ((∃ request ∈ requests, request.changes = true) →
        Written store u (Request.afterAll contents requests)) := by
  -- only the first request may have to make room
  cases requests with
  | nil => exact ⟨[], tree, Step.gives_pure [] tree, .done, fun hchanges => by simp at hchanges⟩
  | cons request rest =>
    obtain ⟨next, hperform, hnext, hfirst⟩ := h.perform request
    obtain ⟨replies, u, hrest, hanswered, hlast⟩ := hnext.performAll rest
    refine ⟨_, u, hperform.bind (hrest.bind (Step.gives_pure _ u)),
      .next (request.answers_reply contents) hanswered, fun hwritten => hlast ?_⟩
    obtain ⟨other, hother, hchanges⟩ := hwritten
    rcases List.mem_cons.1 hother with rfl | hother
    · exact .inl (hfirst hchanges)
    · exact .inr ⟨other, hother, hchanges⟩

end Store

/-! ### Calls -/

/-- Makes calls one after the other, each on a store of its own, until one fails: what each
one answered. -/
def performCalls : List (Store × Request) → Step (List Reply)
  | [] => Step.done []
  | (store, request) :: rest => do
    let reply ← store.perform request
    let replies ← performCalls rest
    return reply :: replies

/-- Calls on stores with one path are requests to a single store. -/
theorem performCalls_eq_performAll {store : Store} {calls : List (Store × Request)}
    (h : ∀ call ∈ calls, call.1.path = store.path) :
    performCalls calls = store.performAll (calls.map (·.2)) := by
  induction calls with
  | nil => rfl
  | cons call rest ih =>
    obtain ⟨hcall, hrest⟩ := List.forall_mem_cons.1 h
    obtain ⟨⟨path⟩, request⟩ := call
    obtain rfl : path = store.path := hcall
    rw [performCalls, ih hrest]
    rfl

/-- Calls on one path, and the files that are there when the first is made. -/
structure History where
  path : Bytes
  tree : FileTree
  contents : Contents
  opens : Store.Opens ⟨path⟩ tree contents
  calls : List (Store × Request)
  onPath : ∀ call ∈ calls, call.1.path = path

namespace History

/-- What the history leaves behind. -/
def outcome (history : History) : Outcome (List Reply) := performCalls history.calls history.tree

/-- The requests that are made. -/
def requests (history : History) : List Request := history.calls.map (·.2)

/-- Whether any request changes what is held. -/
def Changes (history : History) : Prop := ∃ request ∈ history.requests, request.changes = true

/-- What is held in the end. -/
def final (history : History) : Contents := Request.afterAll history.contents history.requests

theorem outcome_spec (history : History) :
    ∃ replies, history.outcome.result = .ok replies ∧
      Answered history.contents.get? history.requests replies history.final.get? ∧
      (history.Changes →
        history.outcome.tree.content history.path = .ok history.final.octets) := by
  obtain ⟨replies, u, ⟨events, hgives⟩, hanswered, hwritten⟩ :=
    history.opens.performAll history.requests
  have hcalls : performCalls history.calls = Store.performAll ⟨history.path⟩ history.requests :=
    performCalls_eq_performAll history.onPath
  have houtcome : history.outcome = ⟨u, events, .ok replies⟩ := by
    rw [outcome, hcalls]
    exact hgives
  rw [houtcome]
  exact ⟨replies, rfl, hanswered, hwritten⟩

/-! ### A file in the root -/

theorem sound_empty : FileTree.empty.Sound where
  keys e he := absurd he List.not_mem_nil
  root := ⟨0o755, rfl⟩
  parents location name hsome := by
    refine absurd ?_ hsome
    rw [FileTree.at?, if_neg (by simp)]
    rfl
  workingDirectory := ⟨0o755, rfl⟩

theorem follow_root : FileTree.empty.follow [Path.slash] = .ok ([], .directory 0o755) := by
  decide +kernel

/-- The path `/s`. -/
def pathInRoot : Bytes := Bytes.ofText "/s"

theorem resolve_pathInRoot :
    FileTree.empty.resolve false pathInRoot = .ok (.vacant [Bytes.ofText "s"]) := by
  decide +kernel

theorem opens_inRoot : Store.Opens ⟨pathInRoot⟩ .empty .empty := by
  have hlock : FileTree.empty.resolve false (Store.lockPath ⟨pathInRoot⟩) =
      .ok (.vacant [Bytes.ofText "s.lock"]) := by
    decide +kernel
  have hdirectory : FileTree.empty.reachesDirectory (Store.directory ⟨pathInRoot⟩) = true := by
    decide +kernel
  exact Store.Usable.opens ⟨hdirectory, ⟨_, resolve_pathInRoot, rfl⟩, ⟨_, hlock, .inl rfl⟩⟩
    sound_empty

/-- A credential is stored in a new file, and the keys are listed. -/
def inRoot : History where
  path := pathInRoot
  tree := .empty
  contents := .empty
  opens := opens_inRoot
  calls := [(⟨pathInRoot⟩, .store "" (.ofAccessToken "a")), (⟨pathInRoot⟩, .keys)]
  onPath := by simp

/-! ### Refinement -/

/-- Every call succeeds and answers as a map does that starts with what is in the file.  Once a
call has changed the map, the file is just what is written of it; so two histories that end with
the same map leave the same octets.  A history that is cut short is one itself, so this holds
after each of its calls. -/
theorem refines :
    (∀ history : History, ∃ replies, history.outcome.result = .ok replies ∧
      Answered history.contents.get? history.requests replies history.final.get? ∧
      (history.Changes →
        history.outcome.tree.content history.path = .ok history.final.octets)) ∧
    ∀ a b : History, a.Changes → b.Changes → a.final.get? = b.final.get? →
      a.outcome.tree.content a.path = b.outcome.tree.content b.path := by
  refine ⟨outcome_spec, fun a b ha hb hmap => ?_⟩
  obtain ⟨-, -, -, hcontentA⟩ := a.outcome_spec
  obtain ⟨-, -, -, hcontentB⟩ := b.outcome_spec
  have hfinal : a.final = b.final := SortedMap.ext_get? fun key => congrFun hmap key
  rw [hcontentA ha, hcontentB hb, hfinal]

theorem refines_inRoot : ∃ replies, inRoot.outcome.result = .ok replies ∧
    Answered (fun _ => none) inRoot.requests replies inRoot.final.get? ∧
    inRoot.outcome.tree.content pathInRoot = .ok (Bytes.ofText
      "\x7b\n  \"\": \x7b\n    \"accessToken\": \"a\"\n  \x7d\n\x7d") := by
  obtain ⟨replies, hresult, hanswered, hcontent⟩ := refines.1 inRoot
  have hoctets : inRoot.final.octets = Bytes.ofText
      "\x7b\n  \"\": \x7b\n    \"accessToken\": \"a\"\n  \x7d\n\x7d" := by
    decide +kernel
  have hwritten := hcontent ⟨_, List.mem_cons_self, rfl⟩
  rw [hoctets] at hwritten
  exact ⟨replies, hresult, hanswered, hwritten⟩

end History

end TokenVault
