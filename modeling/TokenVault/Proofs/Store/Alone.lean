import TokenVault.Proofs.Store.Failure
import TokenVault.Proofs.Store.Interleaving

/-!
# A client on its own

The steps of a client that nobody interferes with come to what its request does when it is
performed at once: the same files, and the same reply or fault (`Shared.run_alone`).  From each
stage the client gets to its reply, and what is left of the request by then comes to just that.
-/

namespace TokenVault

namespace Step

variable {α β : Type} {t u v : FileTree}

/-- What a step comes to, whatever it tells: what it gives, or how it fails. -/
def Ends (step : Step α) (tree tree' : FileTree) (result : Except StoreError α) : Prop :=
  ∃ events, step tree = ⟨tree', events, result⟩

theorem ends_self (step : Step α) (t : FileTree) : step.Ends t (step t).tree (step t).result :=
  ⟨(step t).events, rfl⟩

theorem Ends.eq {step : Step α} {result : Except StoreError α} (h : step.Ends t u result) :
    (step t).tree = u ∧ (step t).result = result := by
  obtain ⟨events, h⟩ := h
  rw [h]
  exact ⟨rfl, rfl⟩

theorem Gives.bind_ends {first : Step α} {next : α → Step β} {a : α}
    {result : Except StoreError β} (h : first.Gives t a u) (hnext : (next a).Ends u v result) :
    (first >>= next).Ends t v result := by
  cases result with
  | error e => exact h.bind_fails hnext
  | ok b => exact h.bind hnext

/-- Of two steps the first fails, or what the second comes to is what both do. -/
theorem ends_bind {first : Step α} {next : α → Step β} {result : Except StoreError β}
    (h : (first >>= next).Ends t v result) :
    (∃ a u, first.Gives t a u ∧ (next a).Ends u v result) ∨
      ∃ e, first.Fails t e v ∧ result = .error e := by
  cases result with
  | error e => exact (fails_bind h).symm.imp id fun hfirst => ⟨e, hfirst, rfl⟩
  | ok b => exact .inl (gives_bind h)

theorem andThen_done (step : Step α) : step.andThen done = step := by
  funext tree
  rw [andThen]
  rcases step tree with ⟨u, events, e | a⟩
  · rfl
  · simp only [done, List.append_nil]

theorem andThen_assoc {γ : Type} (first : Step α) (second : α → Step β) (third : β → Step γ) :
    (first.andThen second).andThen third = first.andThen fun a => (second a).andThen third := by
  funext tree
  simp only [andThen]
  rcases first tree with ⟨u, events, e | a⟩
  · rfl
  · simp only
    rcases second a u with ⟨v, later, e | b⟩
    · rfl
    · simp only [List.append_assoc]

instance : LawfulMonad Step :=
  LawfulMonad.mk' Step andThen_done (fun _ _ => rfl) andThen_assoc

end Step

namespace Store

open FileTree

theorem put_openTemporary {store : Store} {tree : FileTree} {place : Location}
    (h : (store.openTemporary tree).result = .ok place) :
    (store.openTemporary tree).tree.put place (.file fileMode []) =
      (store.openTemporary tree).tree := by
  unfold openTemporary at h ⊢
  split at h
  · obtain rfl := Except.ok.inj h
    exact put_put tree _ _ _
  · cases h
  · cases h

/-- Releasing the lock and answering come to nothing but the reply. -/
theorem ends_perform {store : Store} {request : Request} {tree u : FileTree}
    {outcome : Except StoreError Contents}
    (h : Step.Ends (do store.acquire .none; store.grant .none request) tree u outcome) :
    (store.perform request).Ends tree u (outcome.map (request.reply ·)) := by
  rcases Step.ends_bind h with ⟨done, locked, hacquire, hgrant⟩ | ⟨e, hacquire, rfl⟩
  · refine hacquire.bind_ends ?_
    cases outcome with
    | error e => exact (Step.fails_afterwards_iff.2 hgrant).bind _
    | ok contents =>
      exact (Step.Gives.afterwards hgrant (Step.gives_tell _ _)).bind
        ((Step.gives_tell _ _).bind (Step.gives_pure _ _))
  · exact hacquire.bind _

variable {ι : Type} [DecidableEq ι]

namespace Shared

variable {store : Store} {s s' : Shared ι} {client : ι} {request : Request} {stage : Stage}
variable {contents : Contents} {tree : FileTree} {outcome : Except StoreError Contents}

theorem run_cons (store : Store) (s : Shared ι) (action : Action ι) (schedule : List (Action ι)) :
    s.run store (action :: schedule) = (s.step store action).run store schedule := rfl

/-- Whether a client that is busy with a request gets to its reply on its own, and what the files
and the outcome are then. -/
def Finishes (store : Store) (s : Shared ι) (client : ι) (request : Request) (tree : FileTree)
    (outcome : Except StoreError Contents) : Prop :=
  ∃ schedule, (∀ action ∈ schedule, ∃ octets, action = .advance client octets) ∧
    let s' := s.run store schedule
    s'.tree = tree ∧ s'.holder = none ∧ s'.clients = s.moved client .idle ∧
      s'.returned = s.returned ++ [(s.call client request, outcome.map (request.reply ·))]

/-- Whether a client gets to its reply on its own, and the files and the outcome are then what comes
of a step: of what is left to be done for the request. -/
def Completes (store : Store) (s : Shared ι) (client : ι) (request : Request)
    (left : Step Contents) : Prop :=
  ∃ tree outcome, left.Ends s.tree tree outcome ∧ s.Finishes store client request tree outcome

/-- A client goes on, and then gets to its reply. -/
theorem finishes_of_step {point : Point} {octets : Nat}
    (hstep : s.step store (.advance client octets) = s')
    (hclients : s'.clients = s.moved client point) (hreturned : s'.returned = s.returned)
    (h : s'.Finishes store client request tree outcome) :
    s.Finishes store client request tree outcome := by
  obtain ⟨schedule, hown, htree, hholder, hidle, hreply⟩ := h
  have hself : s'.clients client = { s.clients client with point := point } := by
    rw [hclients, moved_self]
  refine ⟨.advance client octets :: schedule, List.forall_mem_cons.2 ⟨⟨octets, rfl⟩, hown⟩, ?_⟩
  rw [run_cons, hstep]
  refine ⟨htree, hholder, ?_, ?_⟩
  · rw [hidle, moved, hself, hclients, moved, Function.update_idem]
    rfl
  · rw [hreply, hreturned, call, call, hself]

/-- A client that is busy goes on. -/
theorem step_busy (store : Store) (hpoint : (s.clients client).point = .busy request stage)
    (octets : Nat) :
    s.step store (.advance client octets) = s.proceed store octets client request stage := by
  simp only [step, hpoint]

theorem point_moved (s : Shared ι) (client : ι) (point : Point) :
    (s.moved client point client).point = point := by
  rw [moved_self]

theorem finishes_released (hpoint : (s.clients client).point = .busy request (.released outcome))
    (hholder : s.holder = none) : s.Finishes store client request s.tree outcome := by
  refine ⟨[.advance client 0], fun action haction => ⟨0, List.mem_singleton.1 haction⟩, ?_⟩
  have hrun : s.run store [.advance client 0] =
      s.proceed store 0 client request (.released outcome) := step_busy store hpoint 0
  rw [hrun]
  exact ⟨rfl, hholder, rfl, rfl⟩

theorem finishes_settled (hpoint : (s.clients client).point = .busy request (.settled outcome)) :
    s.Finishes store client request s.tree outcome := by
  refine finishes_of_step (step_busy store hpoint 0) rfl rfl ?_
  exact finishes_released (s.point_moved client _) rfl

/-- A request is settled, and then the client gets to its reply. -/
theorem finishes_of_settling {octets : Nat}
    (hstep : s.step store (.advance client octets) = s')
    (hclients : s'.clients = s.moved client (.busy request (.settled outcome)))
    (hreturned : s'.returned = s.returned) (htree : s'.tree = tree) :
    s.Finishes store client request tree outcome := by
  refine finishes_of_step hstep hclients hreturned (htree ▸ finishes_settled ?_)
  rw [hclients, moved_self]

/-- Once a temporary file is written out it is renamed. -/
theorem finishes_written (store : Store) {place : Location} {written : Nat}
    (hpoint : (s.clients client).point = .busy request (.writing contents place written))
    (hlength : ¬written < (request.after contents).octets.length) :
    ∃ tree result, (store.replaceBy .none place).Ends s.tree tree result ∧
      s.Finishes store client request tree (result.map fun _ => contents) := by
  have hs' := step_busy store hpoint 0
  rw [proceed] at hs'
  simp only [if_neg hlength] at hs'
  refine ⟨_, _, Step.ends_self _ _, ?_⟩
  cases hresult : (store.replaceBy .none place s.tree).result with
  | error e =>
    rw [hresult] at hs'
    exact finishes_of_settling hs' rfl rfl rfl
  | ok done =>
    rw [hresult] at hs'
    exact finishes_of_settling hs' rfl rfl rfl

/-- A new temporary file is written out and renamed. -/
theorem finishes_new (store : Store) {place : Location}
    (hpoint : (s.clients client).point = .busy request (.writing contents place 0))
    (hempty : s.tree.put place (.file fileMode []) = s.tree) :
    ∃ tree result, (store.replaceBy .none place).Ends
        (s.tree.put place (.file fileMode (request.after contents).octets)) tree result ∧
      s.Finishes store client request tree (result.map fun _ => contents) := by
  set all := (request.after contents).octets with hall
  by_cases hlength : 0 < all.length
  · have hs' := step_busy store hpoint all.length
    rw [proceed, ← hall] at hs'
    simp only [if_pos hlength, Nat.zero_add, List.take_length] at hs'
    obtain ⟨tree, result, hends, hfinishes⟩ :=
      finishes_written store (s := { s with
          tree := s.tree.put place (.file fileMode all)
          clients := s.moved client (.busy request (.writing contents place all.length)) })
        (s.point_moved client _) (Nat.lt_irrefl _)
    exact ⟨tree, result, hends, finishes_of_step hs' rfl rfl hfinishes⟩
  · have hnil : all = [] := List.eq_nil_of_length_eq_zero (Nat.eq_zero_of_not_pos hlength)
    rw [hnil, hempty]
    exact finishes_written store hpoint hlength

/-- What is left to be done once the contents have been read. -/
theorem completes_known (store : Store)
    (hpoint : (s.clients client).point = .busy request (.known contents)) :
    s.Completes store client request
      (do if request.changes then store.commit .none (request.after contents)
          return contents) := by
  have hs' := step_busy store hpoint 0
  rw [proceed] at hs'
  cases hchanges : request.changes with
  | false =>
    rw [hchanges, if_neg Bool.false_ne_true] at hs'
    exact ⟨_, _, Step.gives_pure _ _, finishes_of_settling hs' rfl rfl rfl⟩
  | true =>
    rw [hchanges, if_pos rfl] at hs'
    cases hresult : (store.openTemporary s.tree).result with
    | error e =>
      simp only [hresult] at hs'
      have hcommit : (store.commit .none (request.after contents)).Fails s.tree e
          (store.openTemporary s.tree).tree := (Step.fails_of_result hresult).bind _
      exact ⟨_, _, hcommit.bind _, finishes_of_settling hs' rfl rfl rfl⟩
    | ok place =>
      simp only [hresult] at hs'
      have hopen := Step.gives_of_result hresult
      have hwritten : (Faults.none.discarding place
          (writeOut .none place (request.after contents).octets)).Gives
          (store.openTemporary s.tree).tree () ((store.openTemporary s.tree).tree.put place
            (.file fileMode (request.after contents).octets)) :=
        Step.gives_discarding_iff.2 ⟨[], rfl⟩
      obtain ⟨tree, result, hreplace, hfinishes⟩ :=
        finishes_new store (s := { s with
            tree := (store.openTemporary s.tree).tree
            clients := s.moved client (.busy request (.writing contents place 0)) })
          (s.point_moved client _) (put_openTemporary hresult)
      refine ⟨tree, _, ?_, finishes_of_step hs' rfl rfl hfinishes⟩
      cases result with
      | error e =>
        have hcommit : (store.commit .none (request.after contents)).Fails s.tree e tree :=
          hopen.bind_fails (hwritten.bind_fails (Step.Fails.bind hreplace _))
        exact hcommit.bind _
      | ok done =>
        have hcommit : (store.commit .none (request.after contents)).Gives s.tree () tree :=
          hopen.bind (hwritten.bind (Step.Gives.bind hreplace (Step.gives_tell _ _)))
        exact hcommit.bind (Step.gives_pure _ _)

theorem completes_locked (store : Store)
    (hpoint : (s.clients client).point = .busy request .locked) :
    s.Completes store client request (store.grant .none request) := by
  have hs' := step_busy store hpoint 0
  rw [proceed] at hs'
  cases hresult : (store.readContents .none s.tree).result with
  | error e =>
    simp only [hresult] at hs'
    exact ⟨_, _, (Step.fails_of_result hresult).bind _, finishes_of_settling hs' rfl rfl rfl⟩
  | ok contents =>
    simp only [hresult] at hs'
    obtain ⟨tree, outcome, hends, hfinishes⟩ :=
      completes_known store (s := { s with
          tree := (store.readContents .none s.tree).tree
          clients := s.moved client (.busy request (.known contents)) })
        (s.point_moved client _)
    exact ⟨tree, outcome, (Step.gives_of_result hresult).bind_ends hends,
      finishes_of_step hs' rfl rfl hfinishes⟩

theorem completes_waiting (store : Store)
    (hpoint : (s.clients client).point = .busy request .waiting) (hholder : s.holder = none) :
    s.Completes store client request (store.grant .none request) := by
  have hs' := step_busy store hpoint 0
  rw [proceed, hholder] at hs'
  obtain ⟨tree, outcome, hends, hfinishes⟩ :=
    completes_locked store (s := { s with
        holder := some client
        clients := s.moved client (.busy request .locked)
        acquired := s.acquired ++ [s.call client request] })
      (s.point_moved client _)
  exact ⟨tree, outcome, hends, finishes_of_step hs' rfl rfl hfinishes⟩

/-- A step before the lock is made, and if it does not fail what follows on it is done. -/
theorem completes_preparing {step : Preparation} {left : Step Contents}
    (hpoint : (s.clients client).point = .busy request (.preparing step))
    (hholder : s.holder = none)
    (hnext : ∀ s' : Shared ι, (s'.clients client).point = .busy request (step.after (.ok ())) →
      s'.holder = none → s'.Completes store client request left) :
    s.Completes store client request (do store.prepare step; left) := by
  have hs' := step_busy store hpoint 0
  rw [proceed] at hs'
  cases hresult : (store.prepare step s.tree).result with
  | error e =>
    simp only [hresult] at hs'
    exact ⟨_, _, (Step.fails_of_result hresult).bind _,
      finishes_of_step hs' rfl rfl (finishes_released (s.point_moved client _) hholder)⟩
  | ok done =>
    simp only [hresult] at hs'
    obtain ⟨tree, outcome, hends, hfinishes⟩ := hnext { s with
        tree := (store.prepare step s.tree).tree
        clients := s.moved client (.busy request (step.after (.ok ()))) }
      (s.point_moved client _) hholder
    exact ⟨tree, outcome, (Step.gives_of_result hresult).bind_ends hends,
      finishes_of_step hs' rfl rfl hfinishes⟩

/-- What is left to be done when a request has just been made. -/
theorem completes_begun (store : Store)
    (hpoint : (s.clients client).point = .busy request (.preparing .refuseLink))
    (hholder : s.holder = none) :
    s.Completes store client request (do store.acquire .none; store.grant .none request) := by
  have hacquire : (do store.acquire .none; store.grant .none request) = (do
      store.prepare .refuseLink
      store.prepare .makeRoom
      store.prepare .refuseLockLink
      store.prepare .openLock
      Step.tell [.lockAcquired store.lockPath]
      store.grant .none request) := by
    simp only [acquire, bind_assoc]
    rfl
  rw [hacquire]
  refine completes_preparing hpoint hholder fun s₁ hpoint hholder => ?_
  refine completes_preparing hpoint hholder fun s₂ hpoint hholder => ?_
  refine completes_preparing hpoint hholder fun s₃ hpoint hholder => ?_
  refine completes_preparing hpoint hholder fun s₄ hpoint hholder => ?_
  obtain ⟨tree, outcome, hends, hfinishes⟩ := completes_waiting store hpoint hholder
  exact ⟨tree, outcome, (Step.gives_tell _ _).bind_ends hends, hfinishes⟩

/-- The steps of a client that nobody interferes with come to what its request does. -/
theorem run_alone (store : Store) (s : Shared ι) {client : ι} {request : Request}
    {rest : List Request} {number : Nat}
    (hclient : s.clients client = ⟨.idle, request :: rest, number⟩) (hholder : s.holder = none) :
    ∃ schedule, (∀ action ∈ schedule, ∃ octets, action = .advance client octets) ∧
      let s' := s.run store schedule
      let outcome := store.perform request s.tree
      s'.tree = outcome.tree ∧ s'.holder = none ∧
        s'.clients = Function.update s.clients client ⟨.idle, rest, number + 1⟩ ∧
        s'.returned = s.returned ++ [(⟨client, number + 1, request⟩, outcome.result)] := by
  obtain ⟨s₁, hbegin⟩ : ∃ s₁, s.step store (.advance client 0) = s₁ := ⟨_, rfl⟩
  have hs₁ : s₁ = { s with
      clients := Function.update s.clients client
        ⟨.busy request (.preparing .refuseLink), rest, number + 1⟩ } := by
    rw [← hbegin]
    simp only [step, begin, hclient]
  have hclients : s₁.clients = Function.update s.clients client
      ⟨.busy request (.preparing .refuseLink), rest, number + 1⟩ := by rw [hs₁]
  have hself : s₁.clients client = ⟨.busy request (.preparing .refuseLink), rest, number + 1⟩ := by
    rw [hclients, Function.update_self]
  have htree₁ : s₁.tree = s.tree := by rw [hs₁]
  have hholder₁ : s₁.holder = none := by rw [hs₁, hholder]
  have hreturned₁ : s₁.returned = s.returned := by rw [hs₁]
  obtain ⟨tree, outcome, hends, schedule, hown, htree, hfree, hidle, hreply⟩ :=
    completes_begun store (by rw [hself]) hholder₁
  rw [htree₁] at hends
  obtain ⟨hdone, hresult⟩ := (ends_perform hends).eq
  refine ⟨.advance client 0 :: schedule, List.forall_mem_cons.2 ⟨⟨0, rfl⟩, hown⟩, ?_⟩
  rw [run_cons, hbegin]
  refine ⟨htree.trans hdone.symm, hfree, ?_, ?_⟩
  · rw [hidle, moved, hself, hclients, Function.update_idem]
  · rw [hreply, hreturned₁, hresult, call, hself]

end Shared

end Store

end TokenVault
