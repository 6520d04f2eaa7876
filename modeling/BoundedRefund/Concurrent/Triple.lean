import BoundedRefund.Concurrent.Program

/-!
# Before and after

What an uninterrupted run makes of what held when it began.  `Prog.Triple P p Q E` is the
Hoare triple with a postcondition for results and one for exceptions.  `Prog.Leaves g p`
says that a program does not touch what `g` looks at.

Most of a program leaves most of the state alone.  A property that only depends on `g` is
kept by all of that (`Leaves.triple`), and the rules for triples are needed along the few
statements that are left.
-/

namespace Concurrent

namespace Prog

universe u v w

variable {ε : Type u} {σ : Type v} {α β : Type w} {γ : Type*}

/-- Where `P` holds before `p`, `Q` holds behind its result and `E` behind its exception. -/
def Triple (P : σ → Prop) (p : Prog ε σ α) (Q : α → σ → Prop) (E : ε → σ → Prop) : Prop :=
  ∀ s, P s → match p.run s with
    | (.ok a, s') => Q a s'
    | (.error e, s') => E e s'

/-- `p` does not touch what `g` looks at. -/
def Leaves (g : σ → γ) (p : Prog ε σ α) : Prop := ∀ s, g (p.run s).2 = g s

/-! ## Triples -/

namespace Triple

variable {P P' : σ → Prop} {Q Q' : α → σ → Prop} {E E' : ε → σ → Prop}
variable {p : Prog ε σ α}

/-- A triple tells what holds behind an answer. -/
theorem ok (h : Triple P p Q E) {s s' : σ} {a : α} (hs : P s) (hrun : p.run s = (.ok a, s')) :
    Q a s' := by
  simpa only [hrun] using h s hs

/-- It tells what holds behind an exception. -/
theorem error (h : Triple P p Q E) {s s' : σ} {e : ε} (hs : P s)
    (hrun : p.run s = (.error e, s')) : E e s' := by
  simpa only [hrun] using h s hs

/-- A triple, told by what a run ends in. -/
theorem of_run (hok : ∀ s a s', P s → p.run s = (.ok a, s') → Q a s')
    (herror : ∀ s e s', P s → p.run s = (.error e, s') → E e s') : Triple P p Q E := by
  intro s hs
  rcases hrun : p.run s with ⟨e | a, s'⟩
  · exact herror s e s' hs hrun
  · exact hok s a s' hs hrun

theorem ret (a : α) (h : ∀ s, P s → Q a s) : Triple P (pure a) Q E := fun s hs => h s hs

theorem fail (e : ε) (h : ∀ s, P s → E e s) : Triple P (throw e : Prog ε σ α) Q E :=
  fun s hs => h s hs

/-- The rule of consequence. -/
theorem conseq (h : Triple P p Q E) (hP : ∀ s, P' s → P s) (hQ : ∀ a s, Q a s → Q' a s)
    (hE : ∀ e s, E e s → E' e s) : Triple P' p Q' E' :=
  of_run (fun s _ _ hs hrun => hQ _ _ (h.ok (hP s hs) hrun))
    (fun s _ _ hs hrun => hE _ _ (h.error (hP s hs) hrun))

/-- The rule for sequential composition. -/
theorem bind {R : β → σ → Prop} {g : α → Prog ε σ β} (hp : Triple P p Q E)
    (hg : ∀ a, Triple (Q a) (g a) R E) : Triple P (p >>= g) R E := by
  intro s hs
  have h := hp s hs
  rw [bind_def, run_bind]
  rcases hrun : p.run s with ⟨e | a, t⟩
  · rw [hrun] at h
    exact h
  · rw [hrun] at h
    exact hg a t h

/-- The rule for exception handlers. -/
theorem tryCatch {F : ε → σ → Prop} {h : ε → Prog ε σ α} (hp : Triple P p Q F)
    (hh : ∀ e, Triple (F e) (h e) Q E) : Triple P (MonadExcept.tryCatch p h) Q E := by
  intro s hs
  have hrun' := hp s hs
  rw [tryCatch_def, run_tryCatch]
  rcases hrun : p.run s with ⟨e | a, t⟩
  · rw [hrun] at hrun'
    exact hh e t hrun'
  · rw [hrun] at hrun'
    exact hrun'

/-- What holds behind any end of a program. -/
theorem behind {J : σ → Prop} (h : Triple P p (fun _ => J) (fun _ => J)) {s : σ} (hs : P s) :
    J (p.run s).2 := by
  have hend := h s hs
  rcases hrun : p.run s with ⟨e | a, t⟩
  · rw [hrun] at hend
    exact hend
  · rw [hrun] at hend
    exact hend

/-- The same behind a composition, from the end of its first part on. -/
theorem behind_bind {J : σ → Prop} {g : α → Prog ε σ β}
    (h : ∀ a, Triple P (g a) (fun _ => J) (fun _ => J)) (hPJ : ∀ s, P s → J s) {s : σ}
    (hp : P (p.run s).2) : J ((p >>= g).run s).2 := by
  rw [bind_def, run_bind]
  rcases hrun : p.run s with ⟨e | a, t⟩
  · rw [hrun] at hp
    exact hPJ t hp
  · rw [hrun] at hp
    exact (h a).behind hp

end Triple

/-! ## What a program leaves alone -/

namespace Leaves

variable {g : σ → γ} {p : Prog ε σ α}

/-- What depends on `g` alone is kept by a program that leaves `g` alone. -/
theorem triple (h : Leaves g p) {P : σ → Prop} (hP : ∀ s s', g s' = g s → P s → P s') :
    Triple P p (fun _ => P) (fun _ => P) := by
  refine Triple.of_run (fun s a s' hs hrun => ?_) (fun s e s' hs hrun => ?_)
  · exact hP s s' (by rw [← h s, hrun]) hs
  · exact hP s s' (by rw [← h s, hrun]) hs

/-- What is left alone is the same behind a run. -/
theorem run (h : Leaves g p) {s s' : σ} {r : Except ε α} (hrun : p.run s = (r, s')) :
    g s' = g s := by
  rw [← h s, hrun]

theorem ret (a : α) : Leaves g (pure a : Prog ε σ α) := fun _ => rfl

theorem fail (e : ε) : Leaves g (throw e : Prog ε σ α) := fun _ => rfl

theorem ofExcept (r : Except ε α) : Leaves g (ofExcept r : Prog ε σ α) := by
  intro s
  rw [run_ofExcept]

theorem read (f : σ → Except ε α) : Leaves g (read f) := by
  intro s
  rw [run_read]

/-- A statement leaves what its effect leaves. -/
theorem atomically {t : σ → Except ε α × σ} (h : ∀ s, g (t s).2 = g s) :
    Leaves g (atomically t) := by
  intro s
  rw [run_atomically, h]

theorem modify {f : σ → σ} (h : ∀ s, g (f s) = g s) :
    Leaves g (modify f : Prog ε σ PUnit) := h

/-- What follows leaves it as well. -/
theorem bind {k : α → Prog ε σ β} (hp : Leaves g p) (hk : ∀ a, Leaves g (k a)) :
    Leaves g (p >>= k) := by
  intro s
  rw [bind_def, run_bind]
  rcases hrun : p.run s with ⟨e | a, t⟩
  · exact hp.run hrun
  · exact (hk a t).trans (hp.run hrun)

/-- So does a handler. -/
theorem tryCatch {h : ε → Prog ε σ α} (hp : Leaves g p) (hh : ∀ e, Leaves g (h e)) :
    Leaves g (MonadExcept.tryCatch p h) := by
  intro s
  rw [tryCatch_def, run_tryCatch]
  rcases hrun : p.run s with ⟨e | a, t⟩
  · exact (hh e t).trans (hp.run hrun)
  · exact hp.run hrun

end Leaves

end Prog

end Concurrent
