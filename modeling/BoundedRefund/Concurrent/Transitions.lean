import BoundedRefund.Concurrent.Program

/-!
# The statements of a run

An uninterrupted run taken apart: `Prog.transitions` lists the state before and the state behind
each of its statements.

Most statements do not touch most of the state.  `Prog.Inert g p` says that no statement of `p`
changes what `g` looks at, wherever `p` is started, not even to change it back.  The statements
that do can then be searched for: behind an inert part of a program (`Inert.later`), or in front
of one (`Inert.earlier`).  What holds at the end of a run and did not hold when it began, some
statement has made true (`exists_switch`), and what some statement has made true holds at the end
if no other one undoes it (`run_keeps_of_mem`).
-/

namespace Concurrent

namespace Prog

universe u v w

variable {ε : Type u} {σ : Type v} {α β : Type w} {γ : Type*}

/-- The states before and behind each statement, nobody interfering. -/
def transitions : Prog ε σ α → σ → List (σ × σ)
  | ret _, _ => []
  | fail _, _ => []
  | step f k, s => (s, f s) :: (k s).transitions (f s)

@[simp] theorem transitions_ret (a : α) (s : σ) : (ret a : Prog ε σ α).transitions s = [] := rfl

@[simp] theorem transitions_fail (e : ε) (s : σ) :
    (fail e : Prog ε σ α).transitions s = [] := rfl

/-- A statement makes one transition. -/
@[simp] theorem transitions_step (f : σ → σ) (k : σ → Prog ε σ α) (s : σ) :
    (step f k).transitions s = (s, f s) :: (k s).transitions (f s) := rfl

@[simp] theorem transitions_ofExcept (r : Except ε α) (s : σ) :
    (ofExcept r : Prog ε σ α).transitions s = [] := by
  cases r <;> rfl

/-- So does an atomic one. -/
@[simp] theorem transitions_atomically (t : σ → Except ε α × σ) (s : σ) :
    (atomically t).transitions s = [(s, (t s).2)] := by
  simp [atomically]

@[simp] theorem transitions_read (g : σ → Except ε α) (s : σ) :
    (read g).transitions s = [(s, s)] := by
  simp [read]

@[simp] theorem transitions_modify (f : σ → σ) (s : σ) :
    (modify f : Prog ε σ PUnit).transitions s = [(s, f s)] := rfl

variable {p : Prog ε σ α} {k : α → Prog ε σ β} {h : ε → Prog ε σ α} {s : σ} {a : σ × σ}

/-- The statements of a composition are those of its first part, and, if that returns, those of
the second part behind it. -/
theorem mem_transitions_bind : a ∈ (p >>= k).transitions s ↔
    a ∈ p.transitions s ∨ ∃ b t, p.run s = (.ok b, t) ∧ a ∈ (k b).transitions t := by
  rw [bind_def]
  induction p generalizing s with
  | ret b =>
      constructor
      · exact fun ha => .inr ⟨b, s, rfl, ha⟩
      · rintro (ha | ⟨_, _, hrun, ha⟩)
        · cases ha
        · cases hrun
          exact ha
  | fail e => simp
  | step f g ih =>
      simp only [step_bind, transitions_step, run_step, List.mem_cons, ih]
      exact or_assoc.symm

/-- Those of a handler come behind an exception. -/
theorem mem_transitions_tryCatch : a ∈ (MonadExcept.tryCatch p h).transitions s ↔
    a ∈ p.transitions s ∨ ∃ e t, p.run s = (.error e, t) ∧ a ∈ (h e).transitions t := by
  rw [tryCatch_def]
  induction p generalizing s with
  | ret b => simp [Prog.tryCatch]
  | fail e =>
      constructor
      · exact fun ha => .inr ⟨e, s, rfl, ha⟩
      · rintro (ha | ⟨_, _, hrun, ha⟩)
        · cases ha
        · cases hrun
          exact ha
  | step f g ih =>
      simp only [Prog.tryCatch, transitions_step, run_step, List.mem_cons, ih]
      exact or_assoc.symm

/-- The transitions of the first part are among them. -/
theorem transitions_front : p.transitions s ⊆ (p >>= k).transitions s :=
  fun _ ha => mem_transitions_bind.mpr (.inl ha)

/-- So are those of the second, from where the first ended. -/
theorem transitions_rest {b : α} {t : σ} (hrun : p.run s = (.ok b, t)) :
    (k b).transitions t ⊆ (p >>= k).transitions s :=
  fun _ ha => mem_transitions_bind.mpr (.inr ⟨b, t, hrun, ha⟩)

theorem transitions_seq {q : Prog ε σ β} {b : α} {t : σ} (hrun : p.run s = (.ok b, t)) :
    q.transitions t ⊆ (p >>= fun _ => q).transitions s :=
  transitions_rest (k := fun _ => q) hrun

/-- **Some statement makes it true.** -/
theorem exists_switch {P : σ → Prop} (hbefore : ¬ P s) (hbehind : P (p.run s).2) :
    ∃ a ∈ p.transitions s, ¬ P a.1 ∧ P a.2 := by
  induction p generalizing s with
  | ret b => exact absurd hbehind hbefore
  | fail e => exact absurd hbehind hbefore
  | step f g ih =>
      by_cases hnext : P (f s)
      · exact ⟨(s, f s), List.mem_cons_self, hbefore, hnext⟩
      · obtain ⟨a, hmem, hswitch⟩ := ih s hnext hbehind
        exact ⟨a, List.mem_cons_of_mem _ hmem, hswitch⟩

/-- **Some statement makes the change.** -/
theorem exists_change {g : σ → γ} (h : g (p.run s).2 ≠ g s) :
    ∃ a ∈ p.transitions s, g a.2 ≠ g a.1 := by
  obtain ⟨a, ha, hbefore, hbehind⟩ := exists_switch (P := fun t => g t ≠ g s)
    (not_not_intro rfl) h
  exact ⟨a, ha, fun hsame => hbehind (hsame.trans (Classical.not_not.mp hbefore))⟩

/-- What every statement keeps is kept by the run. -/
theorem run_keeps {P : σ → Prop} (p : Prog ε σ α) {s : σ}
    (hkeeps : ∀ a ∈ p.transitions s, P a.1 → P a.2) (h : P s) : P (p.run s).2 := by
  induction p generalizing s with
  | ret b => exact h
  | fail e => exact h
  | step f g ih =>
      exact ih s (fun a ha => hkeeps a (List.mem_cons_of_mem _ ha))
        (hkeeps (s, f s) List.mem_cons_self h)

/-- It holds at the end if it held behind some statement. -/
theorem run_keeps_of_mem {P : σ → Prop} (hkeeps : ∀ a ∈ p.transitions s, P a.1 → P a.2)
    (ha : a ∈ p.transitions s) (h : P a.2) : P (p.run s).2 := by
  induction p generalizing s with
  | ret b => cases ha
  | fail e => cases ha
  | step f g ih =>
      have hrest : ∀ a ∈ (g s).transitions (f s), P a.1 → P a.2 :=
        fun a ha => hkeeps a (List.mem_cons_of_mem _ ha)
      rcases List.mem_cons.mp ha with rfl | ha
      · exact run_keeps (g s) hrest h
      · exact ih s hrest ha

/-! ## What no statement touches -/

/-- No statement of `p` changes what `g` looks at. -/
def Inert (g : σ → γ) (p : Prog ε σ α) : Prop := ∀ s, ∀ a ∈ p.transitions s, g a.2 = g a.1

namespace Inert

variable {g : σ → γ}

theorem ret (b : α) : Inert g (pure b : Prog ε σ α) := by
  intro s a ha
  cases ha

theorem fail (e : ε) : Inert g (throw e : Prog ε σ α) := by
  intro s a ha
  cases ha

theorem ofExcept (r : Except ε α) : Inert g (ofExcept r : Prog ε σ α) := by
  intro s a ha
  rw [transitions_ofExcept] at ha
  cases ha

theorem read (f : σ → Except ε α) : Inert g (read f) := by
  intro s a ha
  rw [transitions_read, List.mem_singleton] at ha
  rw [ha]

/-- A statement leaves what its effect leaves. -/
theorem atomically {t : σ → Except ε α × σ} (h : ∀ s, g (t s).2 = g s) :
    Inert g (atomically t) := by
  intro s a ha
  rw [transitions_atomically, List.mem_singleton] at ha
  rw [ha, h]

theorem modify {f : σ → σ} (h : ∀ s, g (f s) = g s) :
    Inert g (modify f : Prog ε σ PUnit) := by
  intro s a ha
  rw [transitions_modify, List.mem_singleton] at ha
  rw [ha, h]

/-- What follows leaves it as well. -/
theorem bind (hp : Inert g p) (hk : ∀ b, Inert g (k b)) : Inert g (p >>= k) := by
  intro s a ha
  rcases mem_transitions_bind.mp ha with ha | ⟨b, t, -, ha⟩
  · exact hp s a ha
  · exact hk b t a ha

/-- So does a handler. -/
theorem tryCatch (hp : Inert g p) (hh : ∀ e, Inert g (h e)) :
    Inert g (MonadExcept.tryCatch p h) := by
  intro s a ha
  rcases mem_transitions_tryCatch.mp ha with ha | ⟨e, t, -, ha⟩
  · exact hp s a ha
  · exact hh e t a ha

/-- Behind an inert part that returns, the rest makes the change. -/
theorem later (hp : Inert g p) (ha : a ∈ (p >>= k).transitions s) (hchange : g a.2 ≠ g a.1) :
    ∃ b t, p.run s = (.ok b, t) ∧ (p >>= k).run s = (k b).run t ∧ a ∈ (k b).transitions t := by
  rcases mem_transitions_bind.mp ha with ha | ⟨b, t, hrun, ha⟩
  · exact absurd (hp s a ha) hchange
  · refine ⟨b, t, hrun, ?_, ha⟩
    rw [bind_def, run_bind, hrun]

/-- The same, where it is known how the inert part returns. -/
theorem behind (hp : Inert g p) {b : α} {t : σ} (hrun : p.run s = (.ok b, t))
    (ha : a ∈ (p >>= k).transitions s) (hchange : g a.2 ≠ g a.1) :
    (p >>= k).run s = (k b).run t ∧ a ∈ (k b).transitions t := by
  obtain ⟨b', t', hrun', hrest, ha⟩ := hp.later ha hchange
  cases hrun.symm.trans hrun'
  exact ⟨hrest, ha⟩

/-- In front of an inert part, the change has been made already. -/
theorem earlier (hk : ∀ b, Inert g (k b)) (ha : a ∈ (p >>= k).transitions s)
    (hchange : g a.2 ≠ g a.1) : a ∈ p.transitions s := by
  rcases mem_transitions_bind.mp ha with ha | ⟨b, t, -, ha⟩
  · exact ha
  · exact absurd (hk b t a ha) hchange

end Inert

end Prog

end Concurrent
