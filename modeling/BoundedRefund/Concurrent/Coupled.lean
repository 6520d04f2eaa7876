import BoundedRefund.Concurrent.Program

/-!
# Two programs in step

Two uninterrupted programs, each on a state of its own.  `Prog.Coupled R A p q` says that,
started in states related by `R`, they stop in states related by `R`, with results related
by `A` or with the same exception.  The rules are those of a program logic with two programs
for one, and they are applied in step: the first statements to each other, then what follows.

A program that is coupled with itself does not see where related states differ.
-/

namespace Concurrent

universe u v w

variable {ε : Type u} {α β : Type w}

/-- Related results, or the same exception. -/
inductive Agree (A : α → β → Prop) : Except ε α → Except ε β → Prop
  | ok {a : α} {b : β} (related : A a b) : Agree A (.ok a) (.ok b)
  | error (e : ε) : Agree A (.error e) (.error e)

namespace Agree

variable {A B : α → β → Prop}

theorem refl (r : Except ε α) : Agree Eq r r := by
  cases r with
  | ok a => exact .ok rfl
  | error e => exact .error e

/-- Answers that agree on equality are equal. -/
theorem eq {r r' : Except ε α} (h : Agree Eq r r') : r = r' := by
  cases h with
  | ok related => rw [related]
  | error e => rfl

/-- Exceptions composed in step. -/
theorem bind {α' β' : Type w} {B : α' → β' → Prop} {r : Except ε α} {r' : Except ε β}
    {k : α → Except ε α'} {k' : β → Except ε β'} (h : Agree A r r')
    (hk : ∀ a b, A a b → Agree B (k a) (k' b)) : Agree B (r >>= k) (r' >>= k') := by
  cases h with
  | ok related => exact hk _ _ related
  | error e => exact .error e

end Agree

namespace Prog

variable {σ τ : Type v} {R : σ → τ → Prop} {A : α → β → Prop}

/-- The programs go from related states to related states, with related results. -/
def Coupled (R : σ → τ → Prop) (A : α → β → Prop) (p : Prog ε σ α) (q : Prog ε τ β) : Prop :=
  ∀ s t, R s t → Agree A (p.run s).1 (q.run t).1 ∧ R (p.run s).2 (q.run t).2

namespace Coupled

theorem ret {a : α} {b : β} (h : A a b) :
    Coupled R A (pure a : Prog ε σ α) (pure b : Prog ε τ β) := fun _ _ hst => ⟨.ok h, hst⟩

theorem fail (e : ε) : Coupled R A (throw e : Prog ε σ α) (throw e : Prog ε τ β) :=
  fun _ _ hst => ⟨.error e, hst⟩

theorem ofExcept {r : Except ε α} {r' : Except ε β} (h : Agree A r r') :
    Coupled R A (ofExcept r : Prog ε σ α) (ofExcept r' : Prog ε τ β) := by
  intro s t hst
  rw [run_ofExcept, run_ofExcept]
  exact ⟨h, hst⟩

/-- Looks at two worlds, with answers that agree. -/
theorem read {f : σ → Except ε α} {g : τ → Except ε β}
    (h : ∀ s t, R s t → Agree A (f s) (g t)) : Coupled R A (read f) (read g) := by
  intro s t hst
  rw [run_read, run_read]
  exact ⟨h s t hst, hst⟩

/-- Statements on two worlds, with answers that agree and worlds that stay related. -/
theorem atomically {f : σ → Except ε α × σ} {g : τ → Except ε β × τ}
    (h : ∀ s t, R s t → Agree A (f s).1 (g t).1 ∧ R (f s).2 (g t).2) :
    Coupled R A (atomically f) (atomically g) := by
  intro s t hst
  rw [run_atomically, run_atomically]
  exact h s t hst

/-- Statements without an answer. -/
theorem modify {f : σ → σ} {g : τ → τ} (h : ∀ s t, R s t → R (f s) (g t)) :
    Coupled R Eq (modify f : Prog ε σ PUnit) (modify g : Prog ε τ PUnit) :=
  fun s t hst => ⟨.ok rfl, h s t hst⟩

/-- The rule for sequential composition. -/
theorem bind {α' β' : Type w} {B : α' → β' → Prop} {p : Prog ε σ α} {q : Prog ε τ β}
    {k : α → Prog ε σ α'} {l : β → Prog ε τ β'} (h : Coupled R A p q)
    (hkl : ∀ a b, A a b → Coupled R B (k a) (l b)) : Coupled R B (p >>= k) (q >>= l) := by
  intro s t hst
  obtain ⟨hresult, hstate⟩ := h s t hst
  rw [bind_def, bind_def, run_bind, run_bind]
  rcases hp : p.run s with ⟨r, s'⟩
  rcases hq : q.run t with ⟨r', t'⟩
  rw [hp, hq] at hresult hstate
  cases hresult with
  | ok related => exact hkl _ _ related s' t' hstate
  | error e => exact ⟨.error e, hstate⟩

/-- The same rule where the first results are the same. -/
theorem bind_eq {α' β' : Type w} {B : α' → β' → Prop} {p : Prog ε σ α} {q : Prog ε τ α}
    {k : α → Prog ε σ α'} {l : α → Prog ε τ β'} (h : Coupled R Eq p q)
    (hkl : ∀ a, Coupled R B (k a) (l a)) : Coupled R B (p >>= k) (q >>= l) := by
  refine h.bind ?_
  rintro a _ rfl
  exact hkl a

/-- The rule for exception handlers. -/
theorem tryCatch {p : Prog ε σ α} {q : Prog ε τ β} {k : ε → Prog ε σ α} {l : ε → Prog ε τ β}
    (h : Coupled R A p q) (hkl : ∀ e, Coupled R A (k e) (l e)) :
    Coupled R A (MonadExcept.tryCatch p k) (MonadExcept.tryCatch q l) := by
  intro s t hst
  obtain ⟨hresult, hstate⟩ := h s t hst
  rw [tryCatch_def, tryCatch_def, run_tryCatch, run_tryCatch]
  rcases hp : p.run s with ⟨r, s'⟩
  rcases hq : q.run t with ⟨r', t'⟩
  rw [hp, hq] at hresult hstate
  cases hresult with
  | ok related => exact ⟨.ok related, hstate⟩
  | error e => exact hkl e s' t' hstate

end Coupled

end Prog

end Concurrent
