/-!
# Results in sequence

A sequence of steps that may fail succeeds if each of them does, and fails with the first
error.
-/

namespace TokenVault.Result

variable {ε ε' α β : Type}

@[simp] theorem ok_bind (a : α) (f : α → Except ε β) : (Except.ok a >>= f) = f a := rfl

@[simp] theorem error_bind (e : ε) (f : α → Except ε β) :
    (Except.error e >>= f) = Except.error e := rfl

@[simp] theorem pure_eq_ok (a : α) : (pure a : Except ε α) = Except.ok a := rfl

@[simp] theorem throw_eq_error (e : ε) : (throw e : Except ε α) = Except.error e := rfl

theorem bind_eq_ok_iff {x : Except ε α} {f : α → Except ε β} {b : β} :
    x >>= f = .ok b ↔ ∃ a, x = .ok a ∧ f a = .ok b := by
  cases x with
  | error e => simp
  | ok a => simp

theorem bind_eq_error_iff {x : Except ε α} {f : α → Except ε β} {e : ε} :
    x >>= f = .error e ↔ x = .error e ∨ ∃ a, x = .ok a ∧ f a = .error e := by
  cases x with
  | error e => simp
  | ok a => simp

@[simp] theorem mapError_ok (f : ε → ε') (a : α) :
    (Except.ok a : Except ε α).mapError f = .ok a := rfl

@[simp] theorem mapError_error (f : ε → ε') (e : ε) :
    (Except.error e : Except ε α).mapError f = .error (f e) := rfl

theorem mapError_eq_ok_iff {x : Except ε α} {f : ε → ε'} {a : α} :
    x.mapError f = .ok a ↔ x = .ok a := by
  cases x with
  | error e => simp
  | ok b => simp

theorem mapError_eq_error_iff {x : Except ε α} {f : ε → ε'} {e' : ε'} :
    x.mapError f = .error e' ↔ ∃ e, x = .error e ∧ f e = e' := by
  cases x with
  | error e => simp
  | ok b => simp

/-! ### Two results -/

/-- Whether two results are there both or missing both, and related. -/
inductive Both {ε ε' α α' : Type} (E : ε → ε' → Prop) (S : α → α' → Prop) :
    Except ε α → Except ε' α' → Prop
  | ok {a : α} {a' : α'} : S a a' → Both E S (.ok a) (.ok a')
  | error {e : ε} {e' : ε'} : E e e' → Both E S (.error e) (.error e')

namespace Both

variable {α' β' : Type} {E : ε → ε → Prop} {S : α → α' → Prop} {S' : β → β' → Prop}

theorem refl (hE : ∀ e, E e e) {S : α → α → Prop} (hS : ∀ a, S a a) (x : Except ε α) :
    Both E S x x := by
  cases x with
  | ok a => exact .ok (hS a)
  | error e => exact .error (hE e)

theorem bind {x : Except ε α} {x' : Except ε α'} {f : α → Except ε β} {f' : α' → Except ε β'}
    (h : Both E S x x') (hf : ∀ a a', S a a' → Both E S' (f a) (f' a')) :
    Both E S' (x >>= f) (x' >>= f') := by
  cases h with
  | ok ha => exact hf _ _ ha
  | error he => exact .error he

theorem exists_ok_iff {x : Except ε α} {x' : Except ε α'} (h : Both E S x x') :
    (∃ a, x = .ok a) ↔ ∃ a', x' = .ok a' := by
  cases h with
  | ok => exact ⟨fun _ => ⟨_, rfl⟩, fun _ => ⟨_, rfl⟩⟩
  | error => exact ⟨fun ⟨_, hok⟩ => (nomatch hok), fun ⟨_, hok⟩ => (nomatch hok)⟩

theorem exists_error {x : Except ε α} {x' : Except ε α'} (h : Both E S x x') {e : ε}
    (he : x = .error e) : ∃ e', x' = .error e' ∧ E e e' := by
  subst he
  cases h with
  | error halike => exact ⟨_, rfl, halike⟩

theorem mapError {D : ε' → ε' → Prop} {x : Except ε α} {x' : Except ε α'} {f : ε → ε'}
    (h : Both E S x x') (hf : ∀ e e', E e e' → D (f e) (f e')) :
    Both D S (x.mapError f) (x'.mapError f) := by
  cases h with
  | ok ha => exact .ok ha
  | error he => exact .error (hf _ _ he)

end Both

theorem toOption_eq_some_iff {x : Except ε α} {a : α} : x.toOption = some a ↔ x = .ok a := by
  cases x with
  | error e => simp [Except.toOption]
  | ok b => simp [Except.toOption]

end TokenVault.Result
