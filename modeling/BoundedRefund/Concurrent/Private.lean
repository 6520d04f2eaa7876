import BoundedRefund.Concurrent.Pool

/-!
# What a thread knows of its own

Nobody else touches the private state of a thread.  What is said of that state alone can
therefore be proved without a word about the others, and without any assumption on what they
make of the store: it is the same along every interleaving.

`Prog.Privately J P p Q E` is the triple for such statements.  Started where `P` holds of the
private state, every statement of `p` leaves it in `J`, and `p` ends in `Q` with a result and in
`E` with an exception, whatever the store has become before each of its statements.  A program
that only moves its private state along some relation (`Prog.Moves`) keeps everything that is
closed under it (`Moves.privately`), so the rules are needed along the few statements that do
more.

`Pool.reachable_private` takes the triples of the threads to the pool.
-/

namespace Concurrent

universe u v w x y

variable {ε : Type u} {δ : Type v} {ω : Type w} {α β : Type x}

/-- Nothing is known of what the others do to the store. -/
def Anything (_d _d' : δ) : Prop := True

/-- `Q` for a result, `E` for an exception. -/
def Ends (Q : α → ω → Prop) (E : ε → ω → Prop) : Except ε α → ω → Prop
  | .ok a, o => Q a o
  | .error e, o => E e o

namespace Prog

/-- Where `P` holds of the private state, every statement of `p` leaves it in `J`, and `p` ends
in `Q` or `E`. -/
def Privately (J P : ω → Prop) (p : Prog ε (View δ ω) α) (Q : α → ω → Prop)
    (E : ε → ω → Prop) : Prop :=
  ∀ v, P v.own → p.wp (Rely Anything) (fun _ v' => J v'.own) (fun r v' => Ends Q E r v'.own) v

/-- Every statement of `p` moves the private state along `M`, and every exception is in `N`. -/
def Moves (M : ω → ω → Prop) (N : ε → Prop) (p : Prog ε (View δ ω) α) : Prop :=
  ∀ v, p.wp (Rely Anything) (fun v v' => M v.own v'.own) (fun r _ => ∀ e, r = .error e → N e) v

namespace Privately

variable {J P P' : ω → Prop} {Q Q' : α → ω → Prop} {E E' : ε → ω → Prop}
variable {p : Prog ε (View δ ω) α}

/-- The rule of consequence. -/
theorem conseq (h : Privately J P p Q E) (hP : ∀ o, P' o → P o) (hQ : ∀ a o, Q a o → Q' a o)
    (hE : ∀ e o, E e o → E' e o) : Privately J P' p Q' E' := by
  intro v hv
  refine wp_mono ?_ (h v (hP _ hv))
  rintro (e | a) t ht
  · exact hE e _ ht
  · exact hQ a _ ht

/-- One case of what is known at a time. -/
theorem of_exists {κ : Sort*} {C : κ → Prop} {F : κ → ω → Prop}
    (h : ∀ k, C k → Privately J (F k) p Q E) :
    Privately J (fun o => ∃ k, F k o ∧ C k) p Q E := by
  rintro v ⟨k, hk, hc⟩
  exact h k hc v hk

/-- What does not depend on the state is known from here on. -/
theorem of_and {c : Prop} (h : c → Privately J P p Q E) :
    Privately J (fun o => P o ∧ c) p Q E := by
  rintro v ⟨hv, hc⟩
  exact h hc v hv

/-- What is done keeps its state. -/
theorem ret (a : α) (h : ∀ o, P o → Q a o) :
    Privately J P (pure a : Prog ε (View δ ω) α) Q E := fun v hv => h v.own hv

/-- So does what has raised. -/
theorem fail (e : ε) (h : ∀ o, P o → E e o) :
    Privately J P (throw e : Prog ε (View δ ω) α) Q E := fun v hv => h v.own hv

/-- A statement is followed from the state before it to the one behind. -/
theorem atomically {t : View δ ω → Except ε α × View δ ω}
    (h : ∀ v, P v.own → J (t v).2.own ∧ Ends Q E (t v).1 (t v).2.own) :
    Privately J P (atomically t) Q E := by
  intro v hv
  refine (wp_atomically t).mpr fun v' hrely => h v' ?_
  rw [hrely.1]
  exact hv

/-- A look leaves the state alone. -/
theorem read {g : View δ ω → Except ε α} (hJ : ∀ o, P o → J o)
    (h : ∀ v, P v.own → Ends Q E (g v) v.own) : Privately J P (read g) Q E := by
  intro v hv
  refine (wp_read g).mpr fun v' hrely => ?_
  have hv' : P v'.own := by
    rw [hrely.1]
    exact hv
  exact ⟨hJ _ hv', h v' hv'⟩

/-- The rule for sequential composition. -/
theorem bind {R : β → ω → Prop} {k : α → Prog ε (View δ ω) β} (hp : Privately J P p Q E)
    (hk : ∀ a, Privately J (Q a) (k a) R E) : Privately J P (p >>= k) R E := by
  intro v hv
  refine (wp_bind p k).mpr (wp_mono ?_ (hp v hv))
  rintro (e | a) t ht
  · exact ht
  · exact hk a t ht

/-- The rule for exception handlers. -/
theorem tryCatch {F : ε → ω → Prop} {k : ε → Prog ε (View δ ω) α} (hp : Privately J P p Q F)
    (hk : ∀ e, Privately J (F e) (k e) Q E) : Privately J P (MonadExcept.tryCatch p k) Q E := by
  intro v hv
  refine (wp_tryCatch p k).mpr (wp_mono ?_ (hp v hv))
  rintro (e | a) t ht
  · exact hk e t ht
  · exact ht

end Privately

/-! ## Programs that only move -/

namespace Moves

variable {M : ω → ω → Prop} {N : ε → Prop} {p : Prog ε (View δ ω) α}

theorem ret (a : α) : Moves M N (pure a : Prog ε (View δ ω) α) := fun _ _ h => by cases h

theorem fail {e : ε} (h : N e) : Moves M N (throw e : Prog ε (View δ ω) α) := by
  intro _ _ heq
  cases heq
  exact h

theorem ofExcept {r : Except ε α} (h : ∀ e, r = .error e → N e) :
    Moves M N (ofExcept r : Prog ε (View δ ω) α) :=
  fun _ => (wp_ofExcept r).mpr h

theorem atomically {t : View δ ω → Except ε α × View δ ω} (h : ∀ v, M v.own (t v).2.own)
    (hN : ∀ v e, (t v).1 = .error e → N e) : Moves M N (atomically t) :=
  fun _ => (wp_atomically t).mpr fun v' _ => ⟨h v', hN v'⟩

theorem read {g : View δ ω → Except ε α} (hM : ∀ o, M o o) (hN : ∀ v e, g v = .error e → N e) :
    Moves M N (read g) :=
  fun _ => (wp_read g).mpr fun v' _ => ⟨hM v'.own, hN v'⟩

theorem modify {f : View δ ω → View δ ω} (h : ∀ v, M v.own (f v).own) :
    Moves M N (modify f : Prog ε (View δ ω) PUnit) :=
  fun _ => (wp_modify f).mpr fun v' _ => ⟨h v', fun _ heq => by cases heq⟩

theorem bind {k : α → Prog ε (View δ ω) β} (hp : Moves M N p) (hk : ∀ a, Moves M N (k a)) :
    Moves M N (p >>= k) := by
  intro v
  refine (wp_bind p k).mpr (wp_mono ?_ (hp v))
  rintro (e | a) t h
  · intro e' heq
    cases heq
    exact h e rfl
  · exact hk a t

theorem tryCatch {N' : ε → Prop} {k : ε → Prog ε (View δ ω) α} (hp : Moves M N' p)
    (hk : ∀ e, N' e → Moves M N (k e)) : Moves M N (MonadExcept.tryCatch p k) := by
  intro v
  refine (wp_tryCatch p k).mpr (wp_mono ?_ (hp v))
  rintro (e | a) t h
  · exact hk e (h e rfl) t
  · exact fun _ heq => by cases heq

/-- **What is closed under the moves is kept.** -/
theorem privately (h : Moves M N p) {J P : ω → Prop} (hP : ∀ o o', M o o' → P o → P o')
    (hJ : ∀ o, P o → J o) : Privately J P p (fun _ => P) (fun e o => P o ∧ N e) := by
  intro v hv
  have hp := h v
  clear h
  induction p generalizing v with
  | ret a => exact hv
  | fail e => exact ⟨hv, hp e rfl⟩
  | step f k ih =>
      intro v' hrely
      have hv' : P v'.own := by
        rw [hrely.1]
        exact hv
      obtain ⟨hmove, hrest⟩ := hp v' hrely
      have hnext := hP _ _ hmove hv'
      exact ⟨hJ _ hnext, ih v' (f v') hnext hrest⟩

end Moves

end Prog

namespace Pool

variable {ι : Type y} [DecidableEq ι] {R : δ → δ → Prop}
variable {J : ι → ω → Prop} {Q : ι → α → ω → Prop} {E : ι → ε → ω → Prop}

/-- **Private facts hold along every interleaving**, whatever anybody does to the store. -/
theorem reachable_private {c c' : Pool ι ε δ ω α} (hJ : ∀ i, J i (c.threads i).own)
    (hc : ∀ i, (c.threads i).code.Privately (J i) (· = (c.threads i).own) (Q i) (E i))
    (h : Reaches R c c') (i : ι) :
    J i (c'.threads i).own ∧
      ∀ r, (c'.threads i).answer = some r → Ends (Q i) (E i) r (c'.threads i).own := by
  have hstand : ∀ j, J j (c'.threads j).own ∧
      (c'.threads j).code.wp (Rely Anything) (fun _ v' => J j v'.own)
        (fun r v' => Ends (Q j) (E j) r v'.own) (c'.view j) := by
    induction h with
    | refl => exact fun j => ⟨hJ j, hc j (c.view j) rfl⟩
    | @tail b d _ hstep ih =>
        -- for a thread that did not move, only the store has changed
        have others : ∀ (shared : δ) j, J j (b.threads j).own ∧
            (b.threads j).code.wp (Rely Anything) (fun _ v' => J j v'.own)
              (fun r v' => Ends (Q j) (E j) r v'.own) ⟨shared, (b.threads j).own⟩ := by
          intro shared j
          have hrely : Rely Anything (b.view j) ⟨shared, (b.threads j).own⟩ := ⟨rfl, trivial⟩
          refine ⟨(ih j).1, Prog.wp_rely ?_ ?_ hrely (ih j).2⟩
          · exact fun _ _ _ hrely hrely' => ⟨hrely'.1.trans hrely.1, trivial⟩
          · intro r v v' hrely hends
            rw [hrely.1]
            exact hends
        cases hstep with
        | env h => exact others _
        | act k hact =>
            obtain ⟨f, g, code⟩ := hact
            intro j
            by_cases hj : j = k
            · subst hj
              have hj := (ih j).2
              rw [code] at hj
              obtain ⟨hown, hrest⟩ := hj (b.view j) ⟨rfl, trivial⟩
              simpa [Pool.view, Pool.perform] using And.intro hown hrest
            · simpa [Pool.view, Pool.perform, hj] using others _ j
  refine ⟨(hstand i).1, fun r hr => ?_⟩
  have hends := (hstand i).2
  rw [Thread.answer_eq_some.mp hr, Prog.wp_ofExcept] at hends
  exact hends

end Pool

end Concurrent
