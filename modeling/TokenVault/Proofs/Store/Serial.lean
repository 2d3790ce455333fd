import Mathlib.Data.List.Nodup
import Mathlib.Data.List.Perm.Subperm
import TokenVault.Proofs.Store.Valid

/-!
# Interleaved requests are serial

However the steps of clients are interleaved, the file of a store holds what the calls have made
of it that have renamed their temporary file, one after the other in the order in which they have
got the lock (`Shared.run_serial`).  The invariant (`Shared.Consistent`) says for each client what
is known where it stands: who has read the contents holds the lock until it has renamed, so what
it has read is what the file holds.
-/

namespace TokenVault.Store

open FileTree

variable {ι : Type}

/-! ### Calls in order -/

/-- What a store holds after calls that are granted one after the other. -/
def afterCalls (start : Contents) (calls : List (Call ι)) : Contents :=
  Request.afterAll start (calls.map (·.request))

theorem afterCalls_append (start : Contents) (calls : List (Call ι)) (call : Call ι) :
    afterCalls start (calls ++ [call]) = call.request.after (afterCalls start calls) := by
  rw [afterCalls, afterCalls, Request.afterAll, Request.afterAll, List.map_append,
    List.foldl_append]
  rfl

variable [DecidableEq ι]

/-- Whether contents are what a call finds: what those calls have made of the store that have got
the lock before it and have renamed their file. -/
def Finds (acquired renamed : List (Call ι)) (start : Contents) (call : Call ι)
    (contents : Contents) : Prop :=
  ∃ before after, acquired = before ++ call :: after ∧
    contents = afterCalls start (before.filter (· ∈ renamed))

/-- What is known of a call that has been settled.  If it is granted its answer is made from what
it finds, and its change has been made; if it fails nothing has been changed. -/
def Answers (acquired renamed : List (Call ι)) (start : Contents) (call : Call ι) :
    Except StoreError Contents → Prop
  | .ok contents => Finds acquired renamed start call contents ∧
      (call.request.changes = true → call ∈ renamed)
  | .error _ => call ∉ renamed

variable {acquired renamed before : List (Call ι)} {start contents : Contents}
variable {call last : Call ι} {outcome : Except StoreError Contents}

/-- Who gets the lock later does not matter for a call. -/
theorem Answers.acquire (h : Answers acquired renamed start call outcome) (last : Call ι) :
    Answers (acquired ++ [last]) renamed start call outcome := by
  cases outcome with
  | error e => exact h
  | ok contents =>
    obtain ⟨⟨before, after, rfl, hcontents⟩, hchanges⟩ := h
    exact ⟨⟨before, after ++ [last], by simp, hcontents⟩, hchanges⟩

/-- The rename of the last call that has got the lock does not matter for the calls before. -/
theorem Answers.rename (h : Answers acquired renamed start call outcome)
    (hnodup : acquired.Nodup) (hlast : acquired = before ++ [last]) (hne : call ≠ last) :
    Answers acquired (renamed ++ [last]) start call outcome := by
  cases outcome with
  | error e =>
    intro hmem
    rcases List.mem_append.1 hmem with hmem | hmem
    · exact h hmem
    · exact hne (List.mem_singleton.1 hmem)
  | ok contents =>
    obtain ⟨⟨earlier, after, hacquired, rfl⟩, hchanges⟩ := h
    refine ⟨⟨earlier, after, hacquired, ?_⟩,
      fun hchange => List.mem_append_left _ (hchanges hchange)⟩
    -- the last call does not stand among the earlier ones as well
    have hlater : last ∈ call :: after := by
      have hend : (earlier ++ call :: after).getLast? = some last := by
        rw [← hacquired, hlast, List.getLast?_concat]
      rw [List.getLast?_append_of_ne_nil _ (List.cons_ne_nil _ _)] at hend
      exact List.mem_of_getLast? hend
    have hnot : last ∉ earlier := fun hearlier =>
      (List.disjoint_of_nodup_append (hacquired ▸ hnodup)) hearlier hlater
    congr 1
    refine List.filter_congr fun other hother => ?_
    have hotherNe : other ≠ last := fun heq => hnot (heq ▸ hother)
    simp [hotherNe]

theorem filter_mem_of_sublist (hnodup : acquired.Nodup) (h : renamed.Sublist acquired) :
    acquired.filter (· ∈ renamed) = renamed := by
  have hsublist := h.filter (· ∈ renamed)
  rw [List.filter_eq_self.2 (by simp)] at hsublist
  have hsubset : acquired.filter (· ∈ renamed) ⊆ renamed := fun call hcall => by
    simpa using (List.mem_filter.1 hcall).2
  exact (hsublist.eq_of_length_le
    (List.subperm_of_subset (hnodup.filter _) hsubset).length_le).symm

omit [DecidableEq ι] in
theorem sublist_of_not_mem (h : renamed.Sublist (before ++ [call])) (hcall : call ∉ renamed) :
    renamed.Sublist before := by
  obtain ⟨first, rest, rfl, hfirst, hrest⟩ := List.sublist_append_iff.1 h
  have hnil : rest = [] := by
    refine List.eq_nil_iff_forall_not_mem.2 fun other hother => hcall ?_
    rw [← List.mem_singleton.1 (hrest.subset hother)]
    exact List.mem_append_right _ hother
  rwa [hnil, List.append_nil]

/-- What the last call that has got the lock finds before it has renamed. -/
theorem finds_last (hnodup : (before ++ [call]).Nodup)
    (horder : renamed.Sublist (before ++ [call])) (hcall : call ∉ renamed) :
    Finds (before ++ [call]) renamed start call (afterCalls start renamed) := by
  refine ⟨before, [], rfl, ?_⟩
  rw [filter_mem_of_sublist (List.Nodup.of_append_left hnodup) (sublist_of_not_mem horder hcall)]

theorem finds_renamed (hnodup : (before ++ [call]).Nodup)
    (horder : renamed.Sublist (before ++ [call])) (hcall : call ∉ renamed) :
    Finds (before ++ [call]) (renamed ++ [call]) start call (afterCalls start renamed) := by
  have hsublist := sublist_of_not_mem horder hcall
  have hnot : call ∉ before := fun hmem =>
    List.disjoint_of_nodup_append hnodup hmem List.mem_cons_self
  refine ⟨before, [], rfl, ?_⟩
  congr 1
  rw [← filter_mem_of_sublist (List.Nodup.of_append_left hnodup) hsublist]
  refine List.filter_congr fun other hother => ?_
  have hne : other ≠ call := fun heq => hnot (heq ▸ hother)
  simp [hne, hother]

/-! ### What is known of each client -/

namespace Shared

variable {store : Store} {s s' : Shared ι} {client : ι} {request : Request} {stage : Stage}

/-- What the store holds now. -/
def now (start : Contents) (s : Shared ι) : Contents := afterCalls start s.renamed

/-- What is known of a call that holds the lock and has not renamed: nobody has got the lock since,
and the file of the lock is there. -/
structure Holding (store : Store) (s : Shared ι) (call : Call ι) : Prop where
  holder : s.holder = some call.client
  lock : LockThere store s.tree
  last : ∃ before, s.acquired = before ++ [call]
  pending : call ∉ s.renamed

/-- Whether the calls of a client that have got the lock are earlier than this one. -/
def Fresh (s : Shared ι) (call : Call ι) : Prop :=
  ∀ other ∈ s.acquired, other.client = call.client → other.number < call.number

/-- What is known of a call where it stands. -/
def Fits (store : Store) (start : Contents) (s : Shared ι) (call : Call ι) : Stage → Prop
  | .preparing step => s.Fresh call ∧ (step = .openLock → LockUnlinked store s.tree)
  | .waiting => s.Fresh call ∧ LockThere store s.tree
  | .locked => s.Holding store call
  | .known contents => s.Holding store call ∧ contents = s.now start
  | .writing contents place written => s.Holding store call ∧ contents = s.now start ∧
      call.request.changes = true ∧
      Temporary store s.tree place ((call.request.after contents).octets.take written)
  | .settled outcome => s.holder = some call.client ∧ LockThere store s.tree ∧
      Answers s.acquired s.renamed start call outcome
  | .released outcome => Answers s.acquired s.renamed start call outcome

/-- Whether a call is not the one that its client is busy with, but an earlier one. -/
def Past (s : Shared ι) (call : Call ι) : Prop :=
  call.number ≤ (s.clients call.client).number ∧
    ∀ request stage, (s.clients call.client).point = .busy request stage →
      call.number < (s.clients call.client).number

/-- What holds whatever the clients have done. -/
structure Consistent (store : Store) (start : Contents) (s : Shared ι) : Prop where
  valid : Valid store s.tree (s.now start)
  nodup : s.acquired.Nodup
  order : s.renamed.Sublist s.acquired
  numbered : ∀ call ∈ s.acquired, call.number ≤ (s.clients call.client).number
  fits : ∀ client request stage, (s.clients client).point = .busy request stage →
    s.Fits store start (s.call client request) stage
  returns : ∀ entry ∈ s.returned, s.Past entry.1 ∧ ∃ outcome,
    entry.2 = outcome.map (entry.1.request.reply ·) ∧
      Answers s.acquired s.renamed start entry.1 outcome

/-- What an action of one client leaves to the others.  If another one holds the lock, nothing is
done that this one would notice. -/
structure Spares (store : Store) (start : Contents) (client : ι) (s s' : Shared ι) : Prop where
  clients : ∀ other, other ≠ client → s'.clients other = s.clients other
  frame : Frame s.tree s'.tree
  lock : LockThere store s.tree → LockThere store s'.tree
  held : ∀ other, other ≠ client → s.holder = some other → LockThere store s.tree →
    s'.tree = s.tree ∧ s'.holder = s.holder ∧ s'.acquired = s.acquired ∧ s'.renamed = s.renamed
  acquired : ∀ call ∈ s'.acquired, call ∈ s.acquired ∨ call.client = client
  answers : ∀ call outcome, (∀ request stage, (s.clients client).point = .busy request stage →
    call ≠ s.call client request) → Answers s.acquired s.renamed start call outcome →
    Answers s'.acquired s'.renamed start call outcome

/-- What is known of the calls of other clients stays known. -/
theorem Spares.fits {call : Call ι} (h : s.Spares store start client s') (hu : s'.tree.Sound)
    (hclient : call.client ≠ client) (hfits : s.Fits store start call stage) :
    s'.Fits store start call stage := by
  have hne : ∀ request stage, (s.clients client).point = .busy request stage →
      call ≠ s.call client request := fun request stage _ heq => hclient (by rw [heq]; rfl)
  have hfresh : s.Fresh call → s'.Fresh call := fun hfresh other hother hsame => by
    rcases h.acquired other hother with hother | hother
    · exact hfresh other hother hsame
    · exact absurd (hsame.symm.trans hother) hclient
  have hholding : s.Holding store call → s'.Holding store call ∧ s'.tree = s.tree ∧
      s'.now start = s.now start := fun ⟨hholder, hlock, hlast, hpending⟩ => by
    obtain ⟨htree, hholder', hacquired, hrenamed⟩ := h.held call.client hclient hholder hlock
    refine ⟨⟨hholder'.trans hholder, htree ▸ hlock, hacquired ▸ hlast, hrenamed ▸ hpending⟩,
      htree, ?_⟩
    rw [now, now, hrenamed]
  cases stage with
  | preparing step =>
    exact ⟨hfresh hfits.1, fun hstep => (hfits.2 hstep).frame h.frame hu⟩
  | waiting => exact ⟨hfresh hfits.1, h.lock hfits.2⟩
  | locked => exact (hholding hfits).1
  | known contents =>
    obtain ⟨hholding', -, hnow⟩ := hholding hfits.1
    exact ⟨hholding', hfits.2.trans hnow.symm⟩
  | writing contents place written =>
    obtain ⟨hholds, hcontents, hchanges, htemporary⟩ := hfits
    obtain ⟨hholding', htree, hnow⟩ := hholding hholds
    exact ⟨hholding', hcontents.trans hnow.symm, hchanges, htree ▸ htemporary⟩
  | settled outcome =>
    obtain ⟨hholder, hlock, hanswers⟩ := hfits
    obtain ⟨-, hholder', -, -⟩ := h.held call.client hclient hholder hlock
    exact ⟨hholder'.trans hholder, h.lock hlock, h.answers call outcome hne hanswers⟩
  | released outcome => exact h.answers call outcome hne hfits

/-- What has to be seen of the client that has done something, if it spares the others. -/
theorem Consistent.of_spares (h : s.Consistent store start)
    (hspares : s.Spares store start client s')
    (hvalid : Valid store s'.tree (s'.now start)) (hnodup : s'.acquired.Nodup)
    (horder : s'.renamed.Sublist s'.acquired)
    (hnumber : (s.clients client).number ≤ (s'.clients client).number)
    (hnumbered : ∀ call ∈ s'.acquired, call.client = client →
      call.number ≤ (s'.clients client).number)
    (hbusy : ∀ request stage, (s'.clients client).point = .busy request stage →
      (s.clients client).number < (s'.clients client).number ∨
        ∃ request stage, (s.clients client).point = .busy request stage)
    (hfits : ∀ request stage, (s'.clients client).point = .busy request stage →
      s'.Fits store start (s'.call client request) stage)
    (hreturns : ∀ entry ∈ s'.returned, entry ∈ s.returned ∨ s'.Past entry.1 ∧ ∃ outcome,
      entry.2 = outcome.map (entry.1.request.reply ·) ∧
        Answers s'.acquired s'.renamed start entry.1 outcome) :
    s'.Consistent store start := by
  refine ⟨hvalid, hnodup, horder, fun call hcall => ?_, fun other request stage hpoint => ?_,
    fun entry hentry => ?_⟩
  · by_cases hclient : call.client = client
    · rw [hclient]
      exact hnumbered call hcall hclient
    · rw [hspares.clients _ hclient]
      exact h.numbered call ((hspares.acquired call hcall).resolve_right hclient)
  · by_cases hclient : other = client
    · subst hclient
      exact hfits request stage hpoint
    · have hsame := hspares.clients other hclient
      rw [hsame] at hpoint
      have hcall : s'.call other request = s.call other request := by rw [call, call, hsame]
      rw [hcall]
      exact hspares.fits hvalid.sound hclient (h.fits other request stage hpoint)
  · rcases hreturns entry hentry with hold | hnew
    · obtain ⟨⟨hle, hlt⟩, outcome, hresult, hanswers⟩ := h.returns entry hold
      refine ⟨?_, outcome, hresult, hspares.answers _ _ (fun request stage hpoint heq => ?_)
        hanswers⟩
      · -- the client may have begun another call, or be busy as it was
        unfold Past
        by_cases hclient : entry.1.client = client
        · rw [hclient] at hle hlt ⊢
          refine ⟨hle.trans hnumber, fun request stage hpoint => ?_⟩
          rcases hbusy request stage hpoint with hlater | ⟨request', stage', hpoint'⟩
          · exact hle.trans_lt hlater
          · exact (hlt request' stage' hpoint').trans_le hnumber
        · rw [hspares.clients _ hclient]
          exact ⟨hle, hlt⟩
      · have hclient : entry.1.client = client := by rw [heq]; rfl
        rw [hclient] at hlt
        have hless := hlt request stage hpoint
        rw [heq] at hless
        exact Nat.lt_irrefl _ hless
    · exact hnew

/-! ### Actions -/

theorem call_of_moved {point : Point} (h : s'.clients = s.moved client point)
    (request : Request) : s'.call client request = s.call client request := by
  rw [call, call, h, moved_self]

theorem clients_of_moved {point : Point} (h : s'.clients = s.moved client point) {other : ι}
    (hne : other ≠ client) : s'.clients other = s.clients other := by
  rw [h, s.moved_of_ne hne]

/-- What has to be seen of a client that stands elsewhere now, but has not begun a call. -/
theorem Consistent.of_moved {point : Point} (h : s.Consistent store start)
    (hbusy : ∀ request stage, point = .busy request stage →
      ∃ request stage, (s.clients client).point = .busy request stage)
    (hclients : s'.clients = s.moved client point) (hspares : s.Spares store start client s')
    (hvalid : Valid store s'.tree (s'.now start)) (hnodup : s'.acquired.Nodup)
    (horder : s'.renamed.Sublist s'.acquired)
    (hnumbered : ∀ call ∈ s'.acquired, call.client = client →
      call.number ≤ (s.clients client).number)
    (hfits : ∀ request stage, point = .busy request stage →
      s'.Fits store start (s.call client request) stage)
    (hreturns : ∀ entry ∈ s'.returned, entry ∈ s.returned ∨ s'.Past entry.1 ∧ ∃ outcome,
      entry.2 = outcome.map (entry.1.request.reply ·) ∧
        Answers s'.acquired s'.renamed start entry.1 outcome) :
    s'.Consistent store start := by
  have hself : s'.clients client = { s.clients client with point := point } := by
    rw [hclients, moved_self]
  refine h.of_spares hspares hvalid hnodup horder ?_ ?_ (fun request' stage' hpoint' => ?_) ?_
    hreturns
  · rw [hself]
  · rw [hself]
    exact hnumbered
  · rw [hself] at hpoint'
    exact .inr (hbusy request' stage' hpoint')
  · intro request' stage' hpoint'
    rw [hself] at hpoint'
    rw [call_of_moved hclients]
    exact hfits request' stage' hpoint'

/-- A client goes on or halts, and nothing is recorded. -/
theorem Consistent.goes_on {point : Point} (h : s.Consistent store start)
    (hbusy : ∀ request stage, point = .busy request stage →
      ∃ request stage, (s.clients client).point = .busy request stage)
    (hclients : s'.clients = s.moved client point) (hacquired : s'.acquired = s.acquired)
    (hrenamed : s'.renamed = s.renamed) (hreturned : s'.returned = s.returned)
    (hframe : Frame s.tree s'.tree) (hlock : LockThere store s.tree → LockThere store s'.tree)
    (hheld : ∀ other, other ≠ client → s.holder = some other → LockThere store s.tree →
      s'.tree = s.tree ∧ s'.holder = s.holder)
    (hvalid : Valid store s'.tree (s.now start))
    (hfits : ∀ request stage, point = .busy request stage →
      s'.Fits store start (s.call client request) stage) :
    s'.Consistent store start := by
  have hspares : s.Spares store start client s' := by
    refine ⟨fun other hne => clients_of_moved hclients hne, hframe, hlock,
      fun other hne hholder hthere => ?_, fun call hcall => .inl (hacquired ▸ hcall),
      fun call outcome _ hanswers => ?_⟩
    · obtain ⟨htree, hholder'⟩ := hheld other hne hholder hthere
      exact ⟨htree, hholder', hacquired, hrenamed⟩
    · rwa [hacquired, hrenamed]
  refine h.of_moved hbusy hclients hspares ?_ ?_ ?_ (fun call hcall hclient => ?_) hfits
    fun entry hentry => .inl (hreturned ▸ hentry)
  · rwa [now, hrenamed]
  · rw [hacquired]
    exact h.nodup
  · rw [hacquired, hrenamed]
    exact h.order
  · rw [← hclient]
    exact h.numbered call (hacquired ▸ hcall)

/-- A call that has not got the lock has not renamed. -/
theorem Fresh.not_renamed {call : Call ι} (h : s.Fresh call) (hs : s.Consistent store start) :
    call ∉ s.renamed :=
  fun hmem => Nat.lt_irrefl _ (h call (hs.order.subset hmem) rfl)

theorem Consistent.prepares {step : Preparation} (h : s.Consistent store start)
    (hpoint : (s.clients client).point = .busy request (.preparing step)) (octets : Nat) :
    (s.proceed store octets client request (.preparing step)).Consistent store start := by
  obtain ⟨hfresh, hunlinked⟩ := h.fits client request _ hpoint
  obtain ⟨hvalid, hframe, hunchanged, hrefused, hopened⟩ := h.valid.prepare step hunlinked
  refine h.goes_on (fun _ _ _ => ⟨_, _, hpoint⟩) rfl rfl rfl rfl hframe (fun hthere => ?_)
    (fun _ _ _ hthere => ⟨hunchanged hthere, rfl⟩) hvalid fun request' stage' hstage => ?_
  · rw [← hunchanged hthere] at hthere
    exact hthere
  · cases hstage
    cases hresult : (store.prepare step s.tree).result with
    | error e => exact hfresh.not_renamed h
    | ok done =>
      cases step with
      | refuseLink => exact ⟨hfresh, fun hstep => by cases hstep⟩
      | makeRoom => exact ⟨hfresh, fun hstep => by cases hstep⟩
      | refuseLockLink => exact ⟨hfresh, fun _ => hrefused rfl hresult⟩
      | openLock => exact ⟨hfresh, hopened rfl hresult⟩

omit [DecidableEq ι] in
/-- Nobody else holds the lock. -/
theorem not_held {other : ι} (h : s.holder = some client) (hne : other ≠ client) :
    s.holder ≠ some other := by
  rw [h]
  exact fun heq => hne (Option.some.inj heq).symm

theorem Consistent.reads (h : s.Consistent store start)
    (hpoint : (s.clients client).point = .busy request .locked) (octets : Nat) :
    (s.proceed store octets client request .locked).Consistent store start := by
  obtain ⟨hholder, hlock, hlast, hpending⟩ := h.fits client request _ hpoint
  obtain ⟨events, hread⟩ := h.valid.gives_readContents
  have hs' : s.proceed store octets client request .locked =
      { s with clients := s.moved client (.busy request (.known (s.now start))) } := by
    rw [proceed, hread]
  rw [hs']
  refine h.goes_on (fun _ _ _ => ⟨_, _, hpoint⟩) rfl rfl rfl rfl (.refl s.tree)
    (fun hthere => hthere) (fun _ _ _ _ => ⟨rfl, rfl⟩) h.valid fun request' stage' hstage => ?_
  cases hstage
  exact ⟨⟨hholder, hlock, hlast, hpending⟩, rfl⟩

/-- A request that changes nothing is settled with what has been read. -/
theorem Consistent.settles {contents : Contents} (h : s.Consistent store start)
    (hpoint : (s.clients client).point = .busy request (.known contents))
    (hchanges : request.changes = false) (octets : Nat) :
    (s.proceed store octets client request (.known contents)).Consistent store start := by
  obtain ⟨⟨hholder, hlock, ⟨before, hbefore⟩, hpending⟩, rfl⟩ := h.fits client request _ hpoint
  have hs' : s.proceed store octets client request (.known (s.now start)) =
      { s with clients := s.moved client (.busy request (.settled (.ok (s.now start)))) } := by
    rw [proceed, hchanges, if_neg Bool.false_ne_true]
  rw [hs']
  refine h.goes_on (fun _ _ _ => ⟨_, _, hpoint⟩) rfl rfl rfl rfl (.refl s.tree)
    (fun hthere => hthere) (fun _ _ _ _ => ⟨rfl, rfl⟩) h.valid fun request' stage' hstage => ?_
  cases hstage
  refine ⟨hholder, hlock, ?_, fun hchange => ?_⟩
  · show Finds s.acquired s.renamed start _ _
    rw [hbefore]
    exact finds_last (hbefore ▸ h.nodup) (hbefore ▸ h.order) hpending
  · rw [show (s.call client request).request.changes = false from hchanges] at hchange
    cases hchange

theorem Consistent.creates {contents : Contents} (h : s.Consistent store start)
    (hpoint : (s.clients client).point = .busy request (.known contents))
    (hchanges : request.changes = true) (octets : Nat) :
    (s.proceed store octets client request (.known contents)).Consistent store start := by
  obtain ⟨⟨hholder, hlock, hlast, hpending⟩, hcontents⟩ := h.fits client request _ hpoint
  obtain ⟨place, u, ⟨events, hopen⟩, hchanged, htemporary⟩ := h.valid.openTemporary hlock
  have hs' : s.proceed store octets client request (.known contents) =
      { s with
        tree := u
        clients := s.moved client (.busy request (.writing contents place 0)) } := by
    rw [proceed, hchanges, if_pos rfl, hopen]
  rw [hs']
  refine h.goes_on (fun _ _ _ => ⟨_, _, hpoint⟩) rfl rfl rfl rfl hchanged.frame
    (fun _ => hchanged.lock) (fun other hne hother => absurd hother (not_held hholder hne))
    hchanged.valid fun request' stage' hstage => ?_
  cases hstage
  exact ⟨⟨hholder, hchanged.lock, hlast, hpending⟩, hcontents, hchanges, htemporary⟩

theorem Consistent.writes {contents : Contents} {place : Location} {written : Nat}
    (h : s.Consistent store start)
    (hpoint : (s.clients client).point = .busy request (.writing contents place written))
    (hlength : written < (request.after contents).octets.length) (octets : Nat) :
    (s.proceed store octets client request (.writing contents place written)).Consistent store
      start := by
  obtain ⟨⟨hholder, hlock, hlast, hpending⟩, hcontents, hchanges, htemporary⟩ :=
    h.fits client request _ hpoint
  obtain ⟨hchanged, hwritten⟩ := htemporary.toApart.put h.valid hlock
    ((request.after contents).octets.take (written + octets))
  have hs' : s.proceed store octets client request (.writing contents place written) =
      { s with
        tree := s.tree.put place
          (.file fileMode ((request.after contents).octets.take (written + octets)))
        clients := s.moved client
          (.busy request (.writing contents place (written + octets))) } := by
    rw [proceed]
    exact if_pos hlength
  rw [hs']
  refine h.goes_on (fun _ _ _ => ⟨_, _, hpoint⟩) rfl rfl rfl rfl hchanged.frame
    (fun _ => hchanged.lock) (fun other hne hother => absurd hother (not_held hholder hne))
    hchanged.valid fun request' stage' hstage => ?_
  cases hstage
  exact ⟨⟨hholder, hchanged.lock, hlast, hpending⟩, hcontents, hchanges, hwritten⟩

/-- A temporary file that is written out is renamed: the call is the next whose change counts. -/
theorem Consistent.renames {contents : Contents} {place : Location} {written : Nat}
    (h : s.Consistent store start)
    (hpoint : (s.clients client).point = .busy request (.writing contents place written))
    (hlength : ¬written < (request.after contents).octets.length) (octets : Nat) :
    (s.proceed store octets client request (.writing contents place written)).Consistent store
      start := by
  obtain ⟨⟨hholder, hlock, ⟨before, hbefore⟩, hpending⟩, rfl, hchanges, htemporary⟩ :=
    h.fits client request _ hpoint
  have htemporary : Temporary store s.tree place (request.after (s.now start)).octets := by
    rw [← List.take_of_length_le (Nat.le_of_not_lt hlength)]
    exact htemporary
  obtain ⟨u, ⟨events, hreplace⟩, hchanged⟩ := htemporary.replace h.valid hlock
  have hs' : s.proceed store octets client request (.writing (s.now start) place written) =
      { s with
        tree := u
        clients := s.moved client (.busy request (.settled (.ok (s.now start))))
        renamed := s.renamed ++ [s.call client request] } := by
    rw [proceed]
    simp only [if_neg hlength, hreplace]
  rw [hs']
  refine h.of_moved (fun _ _ _ => ⟨_, _, hpoint⟩) rfl
    ⟨fun other hne => s.moved_of_ne hne _, hchanged.frame,
      fun _ => hchanged.lock, fun other hne hother => absurd hother (not_held hholder hne),
      fun _ hcall => .inl hcall,
      fun call outcome hne hanswers => hanswers.rename h.nodup hbefore (hne request _ hpoint)⟩
    ?_ h.nodup ?_ (fun call hcall hclient => hclient ▸ h.numbered call hcall)
    (fun request' stage' hstage => ?_) fun _ hentry => .inl hentry
  · show Valid store u (afterCalls start (s.renamed ++ [s.call client request]))
    rw [afterCalls_append]
    exact hchanged.valid
  · show (s.renamed ++ [s.call client request]).Sublist s.acquired
    rw [hbefore]
    exact (sublist_of_not_mem (hbefore ▸ h.order) hpending).append (List.Sublist.refl _)
  · cases hstage
    refine ⟨hholder, hchanged.lock, ?_, fun _ => List.mem_append_right _ List.mem_cons_self⟩
    show Finds s.acquired (s.renamed ++ [s.call client request]) start _ _
    rw [hbefore]
    exact finds_renamed (hbefore ▸ h.nodup) (hbefore ▸ h.order) hpending

/-- A client that waits gets the lock if it is free. -/
theorem Consistent.waits (h : s.Consistent store start)
    (hpoint : (s.clients client).point = .busy request .waiting) (octets : Nat) :
    (s.proceed store octets client request .waiting).Consistent store start := by
  obtain ⟨hfresh, hlock⟩ := h.fits client request _ hpoint
  cases hholder : s.holder with
  | some other =>
    have hs' : s.proceed store octets client request .waiting = s := by rw [proceed, hholder]
    rwa [hs']
  | none =>
    have hs' : s.proceed store octets client request .waiting =
        { s with
          holder := some client
          clients := s.moved client (.busy request .locked)
          acquired := s.acquired ++ [s.call client request] } := by
      rw [proceed, hholder]
    have hnot : s.call client request ∉ s.acquired := fun hmem =>
      Nat.lt_irrefl _ (hfresh _ hmem rfl)
    rw [hs']
    refine h.of_moved (fun _ _ _ => ⟨_, _, hpoint⟩) rfl
      ⟨fun other hne => s.moved_of_ne hne _, .refl s.tree,
        fun hthere => hthere, fun other _ hother => ?_, fun call hcall => ?_,
        fun call outcome _ hanswers => hanswers.acquire _⟩
      h.valid ?_ (h.order.trans (List.sublist_append_left _ _)) (fun call hcall hclient => ?_)
      (fun request' stage' hstage => ?_) fun _ hentry => .inl hentry
    · rw [hholder] at hother
      cases hother
    · exact (List.mem_append.1 hcall).imp id fun hcall => by rw [List.mem_singleton.1 hcall]; rfl
    · exact List.nodup_append.2 ⟨h.nodup, List.nodup_singleton _, fun call hcall other hother =>
        fun heq => hnot (List.mem_singleton.1 hother ▸ heq ▸ hcall)⟩
    · rcases List.mem_append.1 hcall with hcall | hcall
      · exact hclient ▸ h.numbered call hcall
      · rw [List.mem_singleton.1 hcall]
        exact Nat.le_refl _
    · cases hstage
      exact ⟨rfl, hlock, ⟨s.acquired, rfl⟩, hfresh.not_renamed h⟩

theorem Consistent.releases {outcome : Except StoreError Contents} (h : s.Consistent store start)
    (hpoint : (s.clients client).point = .busy request (.settled outcome)) (octets : Nat) :
    (s.proceed store octets client request (.settled outcome)).Consistent store start := by
  obtain ⟨hholder, hlock, hanswers⟩ := h.fits client request _ hpoint
  refine h.goes_on (fun _ _ _ => ⟨_, _, hpoint⟩) rfl rfl rfl rfl (.refl s.tree)
    (fun hthere => hthere) (fun other hne hother => absurd hother (not_held hholder hne)) h.valid
    fun request' stage' hstage => ?_
  cases hstage
  exact hanswers

omit [DecidableEq ι] in
/-- A call of a client that is idle is an earlier one. -/
theorem past_of_idle {call : Call ι} (hpoint : (s.clients call.client).point = .idle)
    (hnumber : call.number ≤ (s.clients call.client).number) : s.Past call := by
  refine ⟨hnumber, fun request stage hstage => ?_⟩
  rw [hpoint] at hstage
  cases hstage

theorem Consistent.finishes {outcome : Except StoreError Contents} (h : s.Consistent store start)
    (hpoint : (s.clients client).point = .busy request (.released outcome)) (octets : Nat) :
    (s.proceed store octets client request (.released outcome)).Consistent store start := by
  have hanswers := h.fits client request _ hpoint
  refine h.of_moved (fun _ _ _ => ⟨_, _, hpoint⟩) rfl
    ⟨fun other hne => s.moved_of_ne hne _, .refl s.tree,
      fun hthere => hthere, fun _ _ _ _ => ⟨rfl, rfl, rfl, rfl⟩, fun _ hcall => .inl hcall,
      fun _ _ _ hanswers => hanswers⟩
    h.valid h.nodup h.order (fun call hcall hclient => hclient ▸ h.numbered call hcall)
    (fun request' stage' hstage => ?_) fun entry hentry => ?_
  · cases hstage
  · refine (List.mem_append.1 hentry).imp id fun hentry => ?_
    obtain rfl := List.mem_singleton.1 hentry
    have hself : (s.proceed store octets client request (.released outcome)).clients client =
        { s.clients client with point := .idle } := s.moved_self client .idle
    refine ⟨past_of_idle ?_ ?_, outcome, rfl, hanswers⟩
    · exact congrArg Client.point hself
    · exact (congrArg Client.number hself).ge

theorem Consistent.begins (h : s.Consistent store start) (client : ι) :
    (s.begin client).Consistent store start := by
  cases hpending : (s.clients client).pending with
  | nil =>
    have hs' : s.begin client = s := by rw [begin, hpending]
    rwa [hs']
  | cons request rest =>
    have hs' : s.begin client = { s with
        clients := Function.update s.clients client
          ⟨.busy request (.preparing .refuseLink), rest, (s.clients client).number + 1⟩ } := by
      rw [begin, hpending]
    have hself : (s.begin client).clients client =
        ⟨.busy request (.preparing .refuseLink), rest, (s.clients client).number + 1⟩ := by
      rw [hs']
      exact Function.update_self _ _ _
    have hspares : s.Spares store start client (s.begin client) := by
      rw [hs']
      exact ⟨fun other hne => Function.update_of_ne hne _ _, .refl s.tree, fun hthere => hthere,
        fun _ _ _ _ => ⟨rfl, rfl, rfl, rfl⟩, fun _ hcall => .inl hcall, fun _ _ _ h => h⟩
    refine h.of_spares hspares ?_ ?_ ?_ ?_ ?_ (fun _ _ _ => .inl ?_) ?_ ?_
    · rw [hs']
      exact h.valid
    · rw [hs']
      exact h.nodup
    · rw [hs']
      exact h.order
    · rw [hself]
      exact Nat.le_succ _
    · rw [hself, hs']
      exact fun call hcall hclient => Nat.le_succ_of_le (hclient ▸ h.numbered call hcall)
    · rw [hself]
      exact Nat.lt_succ_self _
    · intro request' stage' hstage
      rw [hself] at hstage
      cases hstage
      refine ⟨fun other hother hsame => ?_, fun hstep => by cases hstep⟩
      rw [hs'] at hother
      have hclient : other.client = client := hsame
      show other.number < ((s.begin client).clients client).number
      rw [hself]
      exact Nat.lt_succ_of_le (hclient ▸ h.numbered other hother)
    · rw [hs']
      exact fun _ hentry => .inl hentry

theorem Consistent.halts (h : s.Consistent store start) (client : ι) :
    (s.step store (.halt client)).Consistent store start := by
  refine h.goes_on (fun _ _ hstage => ?_) rfl rfl rfl rfl (.refl s.tree) (fun hthere => hthere)
    (fun _ _ _ _ => ⟨rfl, rfl⟩) h.valid fun _ _ hstage => ?_
  · cases hstage
  · cases hstage

/-- Freeing the lock of a client that has halted changes nothing for the others, as none of them
holds it. -/
theorem Consistent.reclaims (h : s.Consistent store start) :
    (s.step store .reclaim).Consistent store start := by
  cases hholder : s.holder with
  | none =>
    have hs' : s.step store .reclaim = s := by rw [step, hholder]
    rwa [hs']
  | some client =>
    cases hpoint : (s.clients client).point with
    | idle =>
      have hs' : s.step store .reclaim = s := by simp only [step, hholder, hpoint]
      rwa [hs']
    | busy request stage =>
      have hs' : s.step store .reclaim = s := by simp only [step, hholder, hpoint]
      rwa [hs']
    | halted =>
      have hs' : s.step store .reclaim = { s with holder := none } := by
        simp only [step, hholder, hpoint]
      have hspares : s.Spares store start client (s.step store .reclaim) := by
        rw [hs']
        exact ⟨fun _ _ => rfl, .refl s.tree, fun hthere => hthere,
          fun other hne hother => absurd hother (not_held hholder hne),
          fun _ hcall => .inl hcall, fun _ _ _ hanswers => hanswers⟩
      have hnot : ∀ request stage, ((s.step store .reclaim).clients client).point ≠
          .busy request stage := by
        rw [hs', hpoint]
        exact fun _ _ hstage => by cases hstage
      refine h.of_spares hspares ?_ ?_ ?_ ?_ ?_ (fun _ _ hstage => absurd hstage (hnot _ _))
        (fun _ _ hstage => absurd hstage (hnot _ _)) ?_
      · rw [hs']
        exact h.valid
      · rw [hs']
        exact h.nodup
      · rw [hs']
        exact h.order
      · rw [hs']
      · rw [hs']
        exact fun call hcall hclient => hclient ▸ h.numbered call hcall
      · rw [hs']
        exact fun _ hentry => .inl hentry

/-- Every action keeps what holds of all clients. -/
theorem Consistent.step (h : s.Consistent store start) (action : Action ι) :
    (s.step store action).Consistent store start := by
  cases action with
  | advance client octets =>
    rw [Shared.step]
    cases hpoint : (s.clients client).point with
    | idle => exact h.begins client
    | halted => exact h
    | busy request stage =>
      cases stage with
      | preparing step => exact h.prepares hpoint octets
      | waiting => exact h.waits hpoint octets
      | locked => exact h.reads hpoint octets
      | known contents =>
        cases hchanges : request.changes with
        | false => exact h.settles hpoint hchanges octets
        | true => exact h.creates hpoint hchanges octets
      | writing contents place written =>
        by_cases hlength : written < (request.after contents).octets.length
        · exact h.writes hpoint hlength octets
        · exact h.renames hpoint hlength octets
      | settled outcome => exact h.releases hpoint octets
      | released outcome => exact h.finishes hpoint octets
  | halt client => exact h.halts client
  | reclaim => exact h.reclaims

theorem Consistent.run (h : s.Consistent store start) (schedule : List (Action ι)) :
    (s.run store schedule).Consistent store start := by
  induction schedule generalizing s with
  | nil => exact h
  | cons action rest ih => exact ih (h.step action)

theorem consistent_initial {tree : FileTree} (h : Valid store tree start)
    (pending : ι → List Request) : (initial tree pending).Consistent store start where
  valid := h
  nodup := List.nodup_nil
  order := List.Sublist.refl []
  numbered _ hcall := absurd hcall List.not_mem_nil
  fits _ _ _ hpoint := by cases hpoint
  returns _ hentry := absurd hentry List.not_mem_nil

/-! ### Serial order -/

/-- The calls that have renamed their file, in the order in which they have got the lock. -/
def applied (s : Shared ι) : List (Call ι) := s.acquired.filter (· ∈ s.renamed)

/-- Whatever clients ask of a valid store, and however their steps are interleaved: at every
moment its file holds what the calls have made of it that have renamed, in the order in which they
have got the lock, and that is what they make of a map from keys to credentials.  A call that has
returned an answer has it from what the calls before it have made of the store, and it is what the
map answers; if it changes the store it has renamed, and just once.  No call renames twice, and
none that has returned a fault has renamed at all. -/
theorem run_serial (store : Store) {tree : FileTree} {start : Contents}
    (h : Valid store tree start) (pending : ι → List Request) (schedule : List (Action ι)) :
    let s := (initial tree pending).run store schedule
    (store.readContents .none s.tree).result = .ok (afterCalls start s.applied) ∧
    (∃ replies, Answered start.get? (s.applied.map (·.request)) replies
      (afterCalls start s.applied).get?) ∧
    s.acquired.Nodup ∧ s.applied = s.renamed ∧
    (∀ call reply, (call, .ok reply) ∈ s.returned →
      ∃ before after, s.acquired = before ++ call :: after ∧
        reply = call.request.reply (afterCalls start (before.filter (· ∈ s.renamed))) ∧
        ∃ replies last, Answered start.get?
          ((before.filter (· ∈ s.renamed)).map (·.request) ++ [call.request])
          (replies ++ [reply]) last) ∧
    (∀ call reply, (call, .ok reply) ∈ s.returned → call.request.changes = true →
      s.renamed.count call = 1) ∧
    (∀ call e, (call, .error e) ∈ s.returned → s.renamed.count call = 0) ∧
    ∀ call, s.renamed.count call ≤ 1 := by
  intro s
  have hs : s.Consistent store start := (consistent_initial h pending).run schedule
  have happlied : s.applied = s.renamed := filter_mem_of_sublist hs.nodup hs.order
  have hnodup : s.renamed.Nodup := hs.order.nodup hs.nodup
  have hanswer : ∀ call reply, (call, .ok reply) ∈ s.returned → ∃ contents,
      reply = call.request.reply contents ∧
        Answers s.acquired s.renamed start call (.ok contents) := by
    intro call reply hentry
    obtain ⟨-, outcome, hreply, hanswers⟩ := hs.returns _ hentry
    cases outcome with
    | error e => cases hreply
    | ok contents =>
      exact ⟨contents, Except.ok.inj hreply, hanswers⟩
  refine ⟨?_, Request.exists_answered start _, hs.nodup, happlied, fun call reply hentry => ?_,
    fun call reply hentry hchanges => ?_, fun call e hentry => ?_,
    fun call => List.nodup_iff_count_le_one.1 hnodup call⟩
  · obtain ⟨events, hread⟩ := hs.valid.gives_readContents
    rw [hread, happlied]
    rfl
  · obtain ⟨contents, rfl, ⟨before, after, hacquired, rfl⟩, -⟩ := hanswer call reply hentry
    obtain ⟨replies, hanswered⟩ :=
      Request.exists_answered start ((before.filter (· ∈ s.renamed)).map (·.request))
    exact ⟨before, after, hacquired, rfl, replies, _,
      hanswered.append (call.request.answers_reply _)⟩
  · obtain ⟨contents, -, -, hrenamed⟩ := hanswer call reply hentry
    exact List.count_eq_one_of_mem hnodup (hrenamed hchanges)
  · obtain ⟨-, outcome, hfault, hanswers⟩ := hs.returns _ hentry
    cases outcome with
    | error e => exact List.count_eq_zero.2 hanswers
    | ok contents => cases hfault

/-- Two clients: one is to store a credential, and the other one to store two others, to delete one
of them, to list the keys, and to clear the store. -/
def twoPending : Bool → List Request
  | false => [.store "a" (.ofAccessToken "1")]
  | true => [.store "b" (.ofAccessToken "2"), .store "c" (.ofAccessToken "3"), .delete "b", .keys,
      .clear]

/-- The first client halts when it has written three octets, while the second one waits for the
lock.  Once the lock is freed the second one goes on. -/
def haltedSchedule : List (Action Bool) :=
  List.replicate 8 (.advance false 0) ++ [.advance false 3] ++
    List.replicate 6 (.advance true 0) ++ [.halt false, .reclaim] ++
    List.replicate 53 (.advance true 100)

/-- The credential of the client that has halted is never there.  The other client is answered, and
as it has cleared the store nothing is there in the end. -/
theorem run_serial_halted : Valid ⟨History.pathInRoot⟩ .empty .empty ∧
    let s := (initial .empty twoPending).run ⟨History.pathInRoot⟩ haltedSchedule
    s.acquired = [⟨false, 1, .store "a" (.ofAccessToken "1")⟩,
      ⟨true, 1, .store "b" (.ofAccessToken "2")⟩, ⟨true, 2, .store "c" (.ofAccessToken "3")⟩,
      ⟨true, 3, .delete "b"⟩, ⟨true, 4, .keys⟩, ⟨true, 5, .clear⟩] ∧
    s.returned = [(⟨true, 1, .store "b" (.ofAccessToken "2")⟩, .ok .done),
      (⟨true, 2, .store "c" (.ofAccessToken "3")⟩, .ok .done),
      (⟨true, 3, .delete "b"⟩, .ok (.existed true)), (⟨true, 4, .keys⟩, .ok (.keys ["c"])),
      (⟨true, 5, .clear⟩, .ok .done)] ∧
    (Store.readContents ⟨History.pathInRoot⟩ .none s.tree).result = .ok .empty ∧
    ∃ replies, Answered (SortedMap.empty : Contents).get? [.store "b" (.ofAccessToken "2"),
      .store "c" (.ofAccessToken "3"), .delete "b", .clear] replies
      (SortedMap.empty : Contents).get? := by
  have hvalid : Valid ⟨History.pathInRoot⟩ .empty .empty := by
    refine ⟨History.sound_empty, [Bytes.ofText "s"], ?_, ?_⟩
    · exact History.sound_empty.filePath History.resolve_pathInRoot (.inl rfl)
    · exact rfl
  obtain ⟨hread, ⟨replies, hanswered⟩, -, happlied, -⟩ :=
    run_serial ⟨History.pathInRoot⟩ hvalid twoPending haltedSchedule
  have hrenamed : ((initial .empty twoPending).run ⟨History.pathInRoot⟩ haltedSchedule).renamed =
      [⟨true, 1, .store "b" (.ofAccessToken "2")⟩, ⟨true, 2, .store "c" (.ofAccessToken "3")⟩,
        ⟨true, 3, .delete "b"⟩, ⟨true, 5, .clear⟩] := by decide +kernel
  rw [happlied, hrenamed] at hread hanswered
  refine ⟨hvalid, ?_, ?_, hread, replies, hanswered⟩
  · decide +kernel
  · decide +kernel

end Shared

end TokenVault.Store
