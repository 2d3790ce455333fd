import Mathlib.Control.Monad.Basic
import TokenVault.Store.Basic

/-!
# What a store tells of its lock

A request is refused before its store has been locked, or it takes the lock, is granted or
fails, and gives the lock up, and only then tells that it has been granted (`Course`).  So
over any sequence of requests the lock is taken and given up in turn, files are rewritten
while it is held and grants are told while it is not: `lock_discipline`.  This is so whatever
the system refuses; if it refuses to release a lock, that is told in place of the release.

The path of a store is looked at twice, before the lock is taken and after that.  A link that
is found the second time is warned of under the lock, and it need not have come from elsewhere:
making the directory of the store may be what makes its path lead to one
(`warned_under_lock`).
-/

namespace TokenVault

/-- What is told of a fault: a symbolic link is warned of, and nothing else. -/
def StoreError.warning : StoreError → List Event
  | symbolicLink path => [.refusedLink path]
  | system _ _ _ | temporary _ _ | corrupt _ _ => []

/-- Whether all that is told follows from the result: `told` of a value, and of a fault its
warning.  The links that are refused are among `links`. -/
inductive Outcome.Tells {α : Type} (links : List Bytes) (told : α → List Event) : Outcome α → Prop
  | value (tree : FileTree) (a : α) : Tells links told ⟨tree, told a, .ok a⟩
  | fault (tree : FileTree) (e : StoreError)
    (hlink : ∀ path, e = .symbolicLink path → path ∈ links) :
    Tells links told ⟨tree, e.warning, .error e⟩

namespace Step

variable {α β : Type} {links : List Bytes}

/-- Whether what a step tells follows from its result, whatever files it comes upon. -/
def Tells (links : List Bytes) (step : Step α) (told : α → List Event) : Prop :=
  ∀ tree, (step tree).Tells links told

/-- Whether a step tells nothing but warnings. -/
def Quiet (links : List Bytes) (step : Step α) : Prop := step.Tells links fun _ => []

theorem tells_tell (events : List Event) : (tell events).Tells links fun _ => events :=
  fun tree => .value tree ()

/-- A step that follows a quiet one. -/
theorem Quiet.bind {first : Step α} {next : α → Step β} {told : β → List Event}
    (hfirst : first.Quiet links) (hnext : ∀ a, (next a).Tells links told) :
    (first >>= next).Tells links told := by
  intro tree
  have hbefore := hfirst tree
  show (andThen first next tree).Tells links told
  rw [andThen]
  generalize first tree = outcome at hbefore
  cases hbefore with
  | value u a => exact hnext a u
  | fault u e hlink => exact .fault u e hlink

/-- A step that is followed by an answer only. -/
theorem Tells.returning {first : Step α} {told : β → List Event} {value : β}
    (hfirst : first.Tells links fun _ => told value) :
    (first >>= fun _ => pure value).Tells links told := by
  intro tree
  have hbefore := hfirst tree
  show (andThen first (fun _ => done value) tree).Tells links told
  rw [andThen]
  generalize first tree = outcome at hbefore
  cases hbefore with
  | value u a =>
    show Outcome.Tells links told ⟨u, told value ++ [], .ok value⟩
    rw [List.append_nil]
    exact .value u value
  | fault u e hlink => exact .fault u e hlink

theorem tells_fail {told : α → List Event} {e : StoreError} (he : e.warning = []) :
    (fail e).Tells links told := by
  intro tree
  have hfault : Outcome.Tells links told ⟨tree, e.warning, .error e⟩ := by
    refine .fault tree e fun path hlink => ?_
    rw [hlink] at he
    cases he
  rwa [he] at hfault

/-- What is refused tells no more than what fails otherwise. -/
theorem Tells.attempt {step : Step α} {told : α → List Event} (h : step.Tells links told)
    (faults : Faults) (call : SystemCall) {fault : SystemError → StoreError}
    (hfault : ∀ cause, (fault cause).warning = []) :
    (faults.attempt call fault step).Tells links told := by
  unfold Faults.attempt
  split
  · exact tells_fail (hfault _)
  · exact h

/-- Nothing is told of a temporary file that is removed. -/
theorem Tells.discarding {step : Step α} {told : α → List Event} (h : step.Tells links told)
    (faults : Faults) (place : Location) : (faults.discarding place step).Tells links told := by
  intro tree
  have hstep := h tree
  unfold Faults.discarding
  generalize step tree = outcome at hstep
  cases hstep with
  | value u a => exact .value u a
  | fault u e hlink =>
    dsimp only
    split
    · exact .fault _ e hlink
    · exact .fault u e hlink

end Step

namespace Store

open Step (Quiet Tells)

variable {links : List Bytes}

/-! ### What each step tells -/

theorem quiet_refuseLink {path : Bytes} (h : path ∈ links) : (refuseLink path).Quiet links := by
  intro tree
  unfold refuseLink
  split
  · exact .fault tree (.symbolicLink path) fun _ hother => StoreError.symbolicLink.inj hother ▸ h
  · exact .value tree ()
  · exact .value tree ()
  · exact .fault tree (.system _ _ _) nofun

theorem quiet_makeRoom (store : Store) (faults : Faults) :
    (store.makeRoom faults).Quiet links := by
  intro tree
  unfold makeRoom
  split
  · exact .value tree ()
  · split
    · exact .value _ ()
    · exact .fault _ (.system _ _ _) nofun

theorem quiet_change (alter : FileTree → Except SystemError FileTree) (task : StoreTask)
    (path : Bytes) : (Step.change alter (.system task path)).Quiet links := by
  intro tree
  unfold Step.change
  split
  · exact .value _ ()
  · exact .fault _ (.system _ _ _) nofun

theorem tells_acquire (store : Store) (faults : Faults) :
    (store.acquire faults).Tells [store.path, store.lockPath]
      fun _ => [.lockAcquired store.lockPath] := by
  have hfile : (refuseLink store.path).Quiet [store.path, store.lockPath] :=
    quiet_refuseLink List.mem_cons_self
  have hlock : (refuseLink store.lockPath).Quiet [store.path, store.lockPath] :=
    quiet_refuseLink (List.mem_cons_of_mem _ List.mem_cons_self)
  refine Quiet.bind (Tells.attempt hfile faults _ fun _ => rfl) fun _ => ?_
  refine (quiet_makeRoom store faults).bind fun _ => ?_
  refine Quiet.bind (Tells.attempt hlock faults _ fun _ => rfl) fun _ => ?_
  refine Quiet.bind (Tells.attempt (quiet_change _ _ _) faults _ fun _ => rfl) fun _ => ?_
  exact (Step.tells_tell _).attempt faults _ fun _ => rfl

theorem quiet_readFile (store : Store) : store.readFile.Quiet links := by
  intro tree
  unfold readFile
  split
  · next input _ =>
    rcases Contents.ofOctets input with e | contents
    · exact .fault tree (.corrupt _ e) nofun
    · exact .value tree contents
  · exact .value tree SortedMap.empty
  · exact .fault tree (.system _ _ _) nofun

theorem quiet_readContents (store : Store) (faults : Faults) :
    (store.readContents faults).Quiet [store.path] :=
  Quiet.bind (Tells.attempt (quiet_refuseLink List.mem_cons_self) faults _ fun _ => rfl) fun _ =>
    Tells.attempt (quiet_readFile store) faults _ fun _ => rfl

theorem quiet_openTemporary (store : Store) : store.openTemporary.Quiet links := by
  intro tree
  unfold openTemporary
  split
  · exact .value _ _
  · exact .fault tree (.temporary _ _) nofun
  · exact .fault tree (.temporary _ _) nofun

theorem quiet_done (faults : Faults) (call : SystemCall) (task : TemporaryTask) :
    (faults.attempt call (.temporary task) (pure ())).Quiet links :=
  Tells.attempt (fun tree => .value tree ()) faults call fun _ => rfl

theorem quiet_writeOut (faults : Faults) (place : Location) (octets : Bytes) :
    (writeOut faults place octets).Quiet links := by
  have hwrite : (faults.write place fileMode octets).Quiet links := by
    intro tree
    unfold Faults.write
    cases faults.refusal .write with
    | some wording => exact .fault _ (.temporary _ _) nofun
    | none => exact .value _ ()
  exact hwrite.bind fun _ => (quiet_done faults _ _).bind fun _ => quiet_done faults _ _

theorem quiet_replaceBy (store : Store) (faults : Faults) (place : Location) :
    (store.replaceBy faults place).Quiet links :=
  (Tells.attempt (quiet_change _ _ _) faults _ fun _ => rfl).discarding faults place

theorem tells_commit (store : Store) (faults : Faults) (contents : Contents) :
    (store.commit faults contents).Tells links
      fun _ => [.rewrote store.path contents.entries.length] := by
  refine Quiet.bind (Tells.attempt (quiet_openTemporary store) faults _ fun _ => rfl)
    fun place => ?_
  refine Quiet.bind (Tells.discarding (quiet_writeOut faults place _) faults place) fun _ => ?_
  exact (quiet_replaceBy store faults place).bind fun _ => Step.tells_tell _

/-- What is told under the lock of a request that is granted: whether the file has been
rewritten. -/
def rewriting (store : Store) (request : Request) (contents : Contents) : List Event :=
  if request.changes then [.rewrote store.path (request.after contents).entries.length] else []

theorem tells_grant (store : Store) (faults : Faults) (request : Request) :
    (store.grant faults request).Tells [store.path] (store.rewriting request) := by
  refine (quiet_readContents store faults).bind fun contents => ?_
  dsimp only
  cases hchanges : request.changes with
  | true =>
    have htold : store.rewriting request contents =
        [.rewrote store.path (request.after contents).entries.length] := by
      rw [rewriting, hchanges, if_pos rfl]
    refine Tells.returning ?_
    rw [htold]
    exact tells_commit store faults (request.after contents)
  | false =>
    have htold : store.rewriting request contents = [] := by
      rw [rewriting, hchanges, if_neg Bool.false_ne_true]
    intro tree
    have hvalue : Outcome.Tells [store.path] (store.rewriting request)
        ⟨tree, store.rewriting request contents, .ok contents⟩ := .value tree contents
    rwa [htold] at hvalue

/-! ### The course of a request -/

/-- What is told when a lock is given up: that it has been released, unless the system has refused
just that. -/
inductive GivesUp (store : Store) (faults : Faults) : Event → Prop
  | released (h : faults.refusal .unlock = none) :
    GivesUp store faults (.lockReleased store.lockPath)
  | notReleased {wording : String} (h : faults.refusal .unlock = some wording) :
    GivesUp store faults (.lockNotReleased store.lockPath wording)

theorem givesUp_released (store : Store) (faults : Faults) :
    GivesUp store faults (store.released faults) := by
  unfold released
  split
  · next wording hrefusal => exact .notReleased hrefusal
  · next hrefusal => exact .released hrefusal

/-- What is told of a request, and how it ends. -/
inductive Course (store : Store) (faults : Faults) (request : Request) :
    List Event → Except StoreError Reply → Prop
  /-- The request is refused before the lock is taken. -/
  | refused (e : StoreError)
    (hlink : ∀ path, e = .symbolicLink path → path = store.path ∨ path = store.lockPath) :
    Course store faults request e.warning (.error e)
  /-- The request fails under the lock. -/
  | failed (e : StoreError) (hlink : ∀ path, e = .symbolicLink path → path = store.path)
    (last : Event) (hlast : GivesUp store faults last) :
    Course store faults request (.lockAcquired store.lockPath :: e.warning ++ [last]) (.error e)
  /-- The request is granted. -/
  | granted (contents : Contents) (last : Event) (hlast : GivesUp store faults last) :
    Course store faults request
      (.lockAcquired store.lockPath :: store.rewriting request contents ++
        last :: request.notice store.path contents)
      (.ok (request.reply contents))

/-- A request to a store, what the system refuses, and the files that the request comes upon. -/
structure Turn where
  store : Store
  faults : Faults
  request : Request
  tree : FileTree

/-- What becomes of a request. -/
def Turn.outcome (turn : Turn) : Outcome Reply :=
  turn.store.performUnder turn.faults turn.request turn.tree

variable {store : Store} {faults : Faults} {request : Request} {tree : FileTree}

theorem perform_of_refused {u : FileTree} {events : List Event} {e : StoreError}
    (h : store.acquire faults tree = ⟨u, events, .error e⟩) :
    store.performUnder faults request tree = ⟨u, events, .error e⟩ := by
  show Step.andThen (store.acquire faults) _ tree = _
  rw [Step.andThen, h]

theorem perform_of_locked {locked : FileTree} {events : List Event}
    (h : store.acquire faults tree = ⟨locked, events, .ok ()⟩) :
    store.performUnder faults request tree =
      match store.grant faults request locked with
      | ⟨u, told, .ok contents⟩ =>
        ⟨u, events ++ (told ++ store.released faults :: request.notice store.path contents),
          .ok (request.reply contents)⟩
      | ⟨u, told, .error e⟩ => ⟨u, events ++ (told ++ [store.released faults]), .error e⟩ := by
  show Step.andThen (store.acquire faults) (fun _ => Step.andThen
    ((store.grant faults request).afterwards (store.release faults)) fun contents => Step.andThen
      (Step.tell (request.notice store.path contents))
        fun _ => Step.done (request.reply contents)) tree = _
  rcases hgrant : store.grant faults request locked with ⟨u, told, e | contents⟩
  · simp only [Step.andThen, h, Step.afterwards, hgrant, release, Step.tell]
  · simp only [Step.andThen, h, Step.afterwards, hgrant, release, Step.tell, Step.done,
      List.append_nil, List.append_assoc, List.singleton_append]

theorem Turn.course (turn : Turn) :
    Course turn.store turn.faults turn.request turn.outcome.events turn.outcome.result := by
  obtain ⟨store, faults, request, tree⟩ := turn
  show Course store faults request (store.performUnder faults request tree).events
    (store.performUnder faults request tree).result
  have hlast := givesUp_released store faults
  have hacquire := tells_acquire store faults tree
  generalize hlocked : store.acquire faults tree = outcome at hacquire
  cases hacquire with
  | fault u e hlink =>
    rw [perform_of_refused hlocked]
    exact .refused e fun path hpath => by simpa using hlink path hpath
  | value locked _ =>
    have hgrant := tells_grant store faults request locked
    rw [perform_of_locked hlocked]
    generalize store.grant faults request locked = outcome at hgrant
    cases hgrant with
    | fault u e hlink =>
      exact .failed e (fun path hpath => by simpa using hlink path hpath) _ hlast
    | value u contents => exact .granted contents _ hlast

/-! ### The lock over a sequence of requests -/

/-- The lock that is held after an event, given the one that was held before.  A lock is free
even if it has not been released, as its file is closed then. -/
def held (before : Option Bytes) : Event → Option Bytes
  | .lockAcquired lock => some lock
  | .lockReleased _ | .lockNotReleased _ _ => none
  | _ => before

/-- The lock that is held after events. -/
def heldAfter (events : List Event) : Option Bytes := events.foldl held none

/-- Whether an event may be told while this lock is held: one lock is taken at a time, what is
given up is what was taken, a file is rewritten under its lock, and what has been granted is
told when the lock is free. -/
def Fits (lock : Option Bytes) : Event → Prop
  | .lockAcquired _ => lock = none
  | .lockReleased given | .lockNotReleased given _ => lock = some given
  | .rewrote path _ => lock = some (lockPath ⟨path⟩)
  | .stored _ | .deleted _ _ | .cleared _ => lock = none
  | .refusedLink _ | .signed _ _ | .rejected _ => True

/-- Whether each of the events may be told when it is, from a time on when this lock is held. -/
def Ordered (lock : Option Bytes) : List Event → Prop
  | [] => True
  | event :: rest => Fits lock event ∧ Ordered (held lock event) rest

theorem Ordered.append {a b : List Event} {lock : Option Bytes} (ha : Ordered lock a)
    (hb : Ordered (a.foldl held lock) b) : Ordered lock (a ++ b) := by
  induction a generalizing lock with
  | nil => exact hb
  | cons event rest ih => exact ⟨ha.1, ih ha.2 hb⟩

/-- In ordered events each one fits the lock that is held when it is told. -/
theorem Ordered.fits {events : List Event} {lock : Option Bytes} (h : Ordered lock events)
    {before after : List Event} {event : Event} (hevents : events = before ++ event :: after) :
    Fits (before.foldl held lock) event := by
  subst hevents
  induction before generalizing lock with
  | nil => exact h.1
  | cons first rest ih => exact ih h.2

theorem ordered_warning (lock : Option Bytes) (e : StoreError) :
    Ordered lock e.warning ∧ e.warning.foldl held lock = lock := by
  cases e with
  | symbolicLink path => exact ⟨⟨trivial, trivial⟩, rfl⟩
  | system task path cause => exact ⟨trivial, rfl⟩
  | temporary task cause => exact ⟨trivial, rfl⟩
  | corrupt path cause => exact ⟨trivial, rfl⟩

theorem ordered_rewriting (store : Store) (request : Request) (contents : Contents) :
    Ordered (some store.lockPath) (store.rewriting request contents) ∧
      (store.rewriting request contents).foldl held (some store.lockPath) =
        some store.lockPath := by
  rw [rewriting]
  split
  · exact ⟨⟨rfl, trivial⟩, rfl⟩
  · exact ⟨trivial, rfl⟩

theorem ordered_notice (request : Request) (path : Bytes) (contents : Contents) :
    Ordered none (request.notice path contents) ∧
      (request.notice path contents).foldl held none = none := by
  cases request with
  | load => exact ⟨trivial, rfl⟩
  | get key => exact ⟨trivial, rfl⟩
  | keys => exact ⟨trivial, rfl⟩
  | store key credential => exact ⟨⟨rfl, trivial⟩, rfl⟩
  | delete key => exact ⟨⟨rfl, trivial⟩, rfl⟩
  | clear => exact ⟨⟨rfl, trivial⟩, rfl⟩

theorem GivesUp.ordered {last : Event} (h : GivesUp store faults last) :
    Fits (some store.lockPath) last ∧ held (some store.lockPath) last = none := by
  cases h with
  | released h => exact ⟨rfl, rfl⟩
  | notReleased h => exact ⟨rfl, rfl⟩

/-- What is told of a request starts and ends with a free lock. -/
theorem Course.ordered {events : List Event} {result : Except StoreError Reply}
    (h : Course store faults request events result) :
    Ordered none events ∧ heldAfter events = none := by
  cases h with
  | refused e hlink => exact ordered_warning none e
  | failed e hlink last hlast =>
    obtain ⟨hwarning, hheld⟩ := ordered_warning (some store.lockPath) e
    obtain ⟨hfits, hfree⟩ := hlast.ordered
    refine ⟨⟨rfl, hwarning.append ⟨?_, trivial⟩⟩, ?_⟩
    · rw [hheld]
      exact hfits
    · rw [heldAfter, List.foldl_append]
      show held (e.warning.foldl held (some store.lockPath)) last = none
      rw [hheld]
      exact hfree
  | granted contents last hlast =>
    obtain ⟨hrewriting, hheld⟩ := ordered_rewriting store request contents
    obtain ⟨hfits, hunlocked⟩ := hlast.ordered
    obtain ⟨hnotice, hfree⟩ := ordered_notice request store.path contents
    refine ⟨⟨rfl, hrewriting.append ?_⟩, ?_⟩
    · rw [hheld]
      refine ⟨hfits, ?_⟩
      rw [hunlocked]
      exact hnotice
    · rw [heldAfter, List.foldl_append]
      show (request.notice store.path contents).foldl held
        (held ((store.rewriting request contents).foldl held (some store.lockPath)) last) = none
      rw [hheld, hunlocked]
      exact hfree

/-- All that is told of requests one after the other. -/
def told (turns : List Turn) : List Event := turns.flatMap fun turn => turn.outcome.events

theorem ordered_told (turns : List Turn) :
    Ordered none (told turns) ∧ heldAfter (told turns) = none := by
  induction turns with
  | nil => exact ⟨trivial, rfl⟩
  | cons turn rest ih =>
    obtain ⟨hturn, hfree⟩ := turn.course.ordered
    have hheld : turn.outcome.events.foldl held none = none := hfree
    have hcons : told (turn :: rest) = turn.outcome.events ++ told rest := rfl
    constructor
    · rw [hcons]
      refine hturn.append ?_
      rw [hheld]
      exact ih.1
    · rw [heldAfter, hcons, List.foldl_append, hheld]
      exact ih.2

/-- Each request takes one of the courses, and tells of its grant once if it changes anything.
Over any sequence of requests, each of which may come upon any files and any refusals of the
system, every event fits the lock that is held when it is told, and the lock is free at the
end. -/
theorem lock_discipline :
    (∀ turn : Turn,
      Course turn.store turn.faults turn.request turn.outcome.events turn.outcome.result) ∧
    (∀ (request : Request) (path : Bytes) (contents : Contents),
      (request.notice path contents).map Event.level = if request.changes then [.info] else []) ∧
    ∀ turns : List Turn, heldAfter (told turns) = none ∧
      ∀ before event after, told turns = before ++ event :: after →
        Fits (heldAfter before) event := by
  refine ⟨Turn.course, ?_, fun turns => ?_⟩
  · intro request path contents
    cases request <;> rfl
  · obtain ⟨hordered, hfree⟩ := ordered_told turns
    exact ⟨hfree, fun before event after htold => hordered.fits htold⟩

/-- A store is loaded whose path `x/../l` leads nowhere until `x` has been made, and then to a
link. -/
def Turn.linkUncovered : Turn where
  store := ⟨Bytes.ofText "x/../l"⟩
  faults := .none
  request := .load
  tree := ⟨[(Location.key [Bytes.ofText "l"], .link (Bytes.ofText "t"))], []⟩

/-- A store without a file is loaded, and the system refuses to release its lock. -/
def Turn.unlockRefused : Turn where
  store := ⟨Bytes.ofText "s"⟩
  faults := .only .unlock "Input/output error (os error 5)"
  request := .load
  tree := .empty

/-- The link is warned of between the events of the lock, so the request is neither refused
before the lock is taken nor silent while it is held.  A lock that the system refuses to release
is not told to be released. -/
theorem warned_under_lock :
    Turn.linkUncovered.outcome.result = .error (.symbolicLink (Bytes.ofText "x/../l")) ∧
    Turn.linkUncovered.outcome.events = [.lockAcquired (Bytes.ofText "x/../l.lock"),
      .refusedLink (Bytes.ofText "x/../l"), .lockReleased (Bytes.ofText "x/../l.lock")] ∧
    ¬(∀ event ∈ Turn.linkUncovered.outcome.events, ∀ lock, event ≠ .lockAcquired lock ∧
      event ≠ .lockReleased lock) ∧
    (¬∃ lock written told, Turn.linkUncovered.outcome.events =
        .lockAcquired lock :: written ++ .lockReleased lock :: told ∧
      ∀ event ∈ written, ∃ path entries, event = .rewrote path entries) ∧
    Turn.unlockRefused.outcome.events = [.lockAcquired (Bytes.ofText "s.lock"),
      .lockNotReleased (Bytes.ofText "s.lock") "Input/output error (os error 5)"] := by
  have hresult : Turn.linkUncovered.outcome.result =
      .error (.symbolicLink (Bytes.ofText "x/../l")) := by decide +kernel
  have hevents : Turn.linkUncovered.outcome.events = [.lockAcquired (Bytes.ofText "x/../l.lock"),
      .refusedLink (Bytes.ofText "x/../l"), .lockReleased (Bytes.ofText "x/../l.lock")] := by
    decide +kernel
  refine ⟨hresult, hevents, ?_, ?_, by decide +kernel⟩
  · intro hnone
    rw [hevents] at hnone
    exact (hnone _ List.mem_cons_self _).1 rfl
  · rintro ⟨lock, written, told, hshape, hwritten⟩
    rw [hevents] at hshape
    cases written with
    | nil => simp at hshape
    | cons event rest =>
      obtain ⟨path, entries, rfl⟩ := hwritten event List.mem_cons_self
      simp at hshape

end Store

end TokenVault
