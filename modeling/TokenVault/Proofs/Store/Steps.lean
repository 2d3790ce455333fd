import TokenVault.Store.Faults

/-!
# What steps come to

A step gives a value (`Step.Gives`) or fails with a fault (`Step.Fails`), and leaves files behind
either way.  Of two steps the second is made if the first gives something, and what the system
refuses is not made.  The lemmas are for taking a step of a store apart, and for putting one
together from what its parts come to.
-/

namespace TokenVault.Step

variable {α β : Type}

/-- Whether a step succeeds: with what value, and what it makes of the files. -/
def Gives (step : Step α) (tree : FileTree) (value : α) (tree' : FileTree) : Prop :=
  ∃ events, step tree = ⟨tree', events, .ok value⟩

/-- Whether a step fails: with what fault, and what it has made of the files by then. -/
def Fails (step : Step α) (tree : FileTree) (e : StoreError) (tree' : FileTree) : Prop :=
  ∃ events, step tree = ⟨tree', events, .error e⟩

variable {t u v : FileTree} {e : StoreError}

theorem gives_of_result {step : Step α} {value : α} (h : (step t).result = .ok value) :
    step.Gives t value (step t).tree :=
  ⟨(step t).events, by rw [← h]⟩

theorem fails_of_result {step : Step α} (h : (step t).result = .error e) :
    step.Fails t e (step t).tree :=
  ⟨(step t).events, by rw [← h]⟩

theorem Fails.result_eq {step : Step α} (h : step.Fails t e u) :
    (step t).result = .error e ∧ (step t).tree = u := by
  obtain ⟨events, h⟩ := h
  rw [h]
  exact ⟨rfl, rfl⟩

/-! ### Single steps -/

theorem gives_pure (value : α) (t : FileTree) : (pure value : Step α).Gives t value t :=
  ⟨[], rfl⟩

theorem tree_of_gives_pure {value a : α} (h : (pure value : Step α).Gives t a u) : u = t := by
  obtain ⟨events, h⟩ := h
  exact (congrArg Outcome.tree h).symm

theorem not_fails_pure (value : α) : ¬(pure value : Step α).Fails t e u := by
  rintro ⟨_, h⟩
  cases h

theorem gives_tell (events : List Event) (t : FileTree) : (tell events).Gives t () t :=
  ⟨events, rfl⟩

theorem gives_tell_iff {events : List Event} : (tell events).Gives t () u ↔ u = t := by
  constructor
  · rintro ⟨_, h⟩
    cases h
    rfl
  · rintro rfl
    exact gives_tell events u

theorem not_fails_tell (events : List Event) : ¬(tell events).Fails t e u := by
  rintro ⟨_, h⟩
  cases h

theorem gives_change_iff {alter : FileTree → Except SystemError FileTree}
    {fault : SystemError → StoreError} : (change alter fault).Gives t () u ↔ alter t = .ok u := by
  unfold Gives change
  constructor
  · rintro ⟨events, h⟩
    split at h
    · next halter =>
      cases h
      exact halter
    · cases h
  · intro h
    exact ⟨[], by rw [h]⟩

/-- A step that cannot change files does not change them. -/
theorem fails_of_change {alter : FileTree → Except SystemError FileTree}
    {fault : SystemError → StoreError} (h : (change alter fault).Fails t e u) :
    u = t ∧ ∃ cause, e = fault cause := by
  obtain ⟨events, h⟩ := h
  unfold change at h
  split at h
  · cases h
  · next cause _ =>
    cases h
    exact ⟨rfl, cause, rfl⟩

/-! ### One step after the other -/

theorem Gives.bind {first : Step α} {next : α → Step β} {a : α} {b : β}
    (hfirst : first.Gives t a u) (hnext : (next a).Gives u b v) :
    (first >>= next).Gives t b v := by
  obtain ⟨before, hbefore⟩ := hfirst
  obtain ⟨after, hafter⟩ := hnext
  refine ⟨before ++ after, ?_⟩
  show andThen first next t = _
  rw [andThen, hbefore]
  simp only [hafter]

theorem bind_eq_of_error {first : Step α} {events : List Event}
    (h : first t = ⟨u, events, .error e⟩) (next : α → Step β) :
    (first >>= next) t = ⟨u, events, .error e⟩ := by
  show andThen first next t = _
  rw [andThen, h]

/-- A step that tells nothing does not show in what follows. -/
theorem bind_eq_of_ok {first : Step α} {a : α} (h : first t = ⟨u, [], .ok a⟩)
    (next : α → Step β) : (first >>= next) t = next a u := by
  show andThen first next t = _
  rw [andThen, h]
  rfl

theorem Fails.bind {first : Step α} (h : first.Fails t e u) (next : α → Step β) :
    (first >>= next).Fails t e u := by
  obtain ⟨events, h⟩ := h
  exact ⟨events, bind_eq_of_error h next⟩

theorem Gives.bind_fails {first : Step α} {next : α → Step β} {a : α} (h : first.Gives t a u)
    (hnext : (next a).Fails u e v) : (first >>= next).Fails t e v := by
  obtain ⟨before, h⟩ := h
  obtain ⟨after, hnext⟩ := hnext
  refine ⟨before ++ after, ?_⟩
  show andThen first next t = _
  rw [andThen, h]
  simp only [hnext]

theorem gives_bind {first : Step α} {next : α → Step β} {b : β}
    (h : (first >>= next).Gives t b v) : ∃ a u, first.Gives t a u ∧ (next a).Gives u b v := by
  obtain ⟨events, h⟩ := h
  have h : andThen first next t = ⟨v, events, .ok b⟩ := h
  rw [andThen] at h
  rcases hfirst : first t with ⟨u, before, a | a⟩
  · rw [hfirst] at h
    cases h
  · rw [hfirst] at h
    simp only at h
    refine ⟨a, u, ⟨before, hfirst⟩, (next a u).events, ?_⟩
    rw [Outcome.mk.injEq] at h
    rw [← h.1, ← h.2.2]

/-- Of two steps the first fails, or the second does after the first. -/
theorem fails_bind {first : Step α} {next : α → Step β} (h : (first >>= next).Fails t e v) :
    first.Fails t e v ∨ ∃ a u, first.Gives t a u ∧ (next a).Fails u e v := by
  obtain ⟨events, h⟩ := h
  have h : andThen first next t = ⟨v, events, .error e⟩ := h
  rw [andThen] at h
  rcases hfirst : first t with ⟨u, before, a | a⟩
  · rw [hfirst] at h
    cases h
    exact .inl ⟨before, hfirst⟩
  · rw [hfirst] at h
    simp only at h
    refine .inr ⟨a, u, ⟨before, hfirst⟩, (next a u).events, ?_⟩
    rw [Outcome.mk.injEq] at h
    rw [← h.1, ← h.2.2]

theorem Gives.afterwards {first : Step α} {last : Step Unit} {a : α} (hfirst : first.Gives t a u)
    (hlast : last.Gives u () v) : (first.afterwards last).Gives t a v := by
  obtain ⟨before, hbefore⟩ := hfirst
  obtain ⟨after, hafter⟩ := hlast
  refine ⟨before ++ after, ?_⟩
  rw [Step.afterwards, hbefore]
  simp only [hafter]

theorem gives_afterwards_iff {first : Step α} {events : List Event} {a : α} :
    (first.afterwards (tell events)).Gives t a u ↔ first.Gives t a u := by
  constructor
  · rintro ⟨all, h⟩
    rw [afterwards, Outcome.mk.injEq] at h
    exact ⟨(first t).events, by rw [← h.2.2, ← h.1]; rfl⟩
  · exact fun h => h.afterwards (gives_tell events u)

theorem fails_afterwards_iff {first : Step α} {events : List Event} :
    (first.afterwards (tell events)).Fails t e u ↔ first.Fails t e u := by
  constructor
  · rintro ⟨all, h⟩
    rw [afterwards, Outcome.mk.injEq] at h
    exact ⟨(first t).events, by rw [← h.2.2, ← h.1]; rfl⟩
  · rintro ⟨before, h⟩
    refine ⟨before ++ events, ?_⟩
    rw [afterwards, h]
    rfl

/-! ### What the system refuses -/

variable {faults : Faults} {call : SystemCall} {fault : SystemError → StoreError} {step : Step α}
  {place : Location} {value : α}

theorem attempt_eq (h : faults.refusal call = none) : faults.attempt call fault step = step := by
  rw [Faults.attempt, h]

theorem gives_attempt_iff :
    (faults.attempt call fault step).Gives t value u ↔
      faults.refusal call = none ∧ step.Gives t value u := by
  unfold Faults.attempt
  split
  · next wording hrefusal =>
    refine ⟨?_, fun h => ?_⟩
    · rintro ⟨events, h⟩
      cases h
    · rw [hrefusal] at h
      cases h.1
  · next hrefusal => exact ⟨fun h => ⟨hrefusal, h⟩, fun h => h.2⟩

/-- A call that is refused is reported. -/
theorem attempt_eq_of_refused {wording : String} (h : faults.refusal call = some wording)
    (t : FileTree) :
    faults.attempt call fault step t = ⟨t, [], .error (fault (.other wording))⟩ := by
  rw [Faults.attempt, h]
  rfl

/-- What is refused has not been done. -/
theorem fails_of_attempt (h : (faults.attempt call fault step).Fails t e u) :
    (u = t ∧ ∃ wording, e = fault (.other wording)) ∨ step.Fails t e u := by
  unfold Faults.attempt at h
  split at h
  · next wording _ =>
    obtain ⟨events, h⟩ := h
    cases h
    exact .inl ⟨rfl, wording, rfl⟩
  · exact .inr h

/-- What is done with a temporary file does not show if it succeeds. -/
theorem gives_discarding_iff :
    (faults.discarding place step).Gives t value u ↔ step.Gives t value u := by
  unfold Gives Faults.discarding
  rcases step t with ⟨v, events, e | a⟩
  · dsimp only
    split <;> simp
  · exact Iff.rfl

theorem discarding_eq_of_error {events : List Event} (h : step t = ⟨u, events, .error e⟩) :
    ∃ v, faults.discarding place step t = ⟨v, events, .error e⟩ := by
  unfold Faults.discarding
  rw [h]
  dsimp only
  split
  · exact ⟨_, rfl⟩
  · exact ⟨_, rfl⟩

theorem discarding_eq_of_ok {events : List Event} (h : step t = ⟨u, events, .ok value⟩) :
    faults.discarding place step t = ⟨u, events, .ok value⟩ := by
  unfold Faults.discarding
  rw [h]

/-- A step with a temporary file that fails takes the file away, unless that is refused. -/
theorem fails_of_discarding (h : (faults.discarding place step).Fails t e u) :
    ∃ v, step.Fails t e v ∧ (u = v.drop place ∨ faults.refusal .remove ≠ none ∧ u = v) := by
  obtain ⟨events, h⟩ := h
  unfold Faults.discarding at h
  unfold Fails
  rcases hstep : step t with ⟨v, told, cause | a⟩
  · rw [hstep] at h
    dsimp only at h
    split at h
    · cases h
      exact ⟨_, ⟨_, rfl⟩, .inl rfl⟩
    · next hrefused =>
      cases h
      exact ⟨_, ⟨_, rfl⟩, .inr ⟨hrefused _ rfl, rfl⟩⟩
  · rw [hstep] at h
    cases h

end TokenVault.Step
