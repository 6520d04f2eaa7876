import BoundedRefund.Concurrent.Pool

/-!
# What a thread spends

However the others interfere, there may be a bound on what a thread does itself: on how many
statements it performs, or on something it counts in its private state.  A `Tariff` says what a
statement costs and what the private state has on its account, and `Prog.Costs J t p n Q` says
that `p` never spends more than `n`, as long as its private state meets `J`, which it keeps.

The bounds of the parts of a program add up.  `Pool.Walks` counts the statements of each thread
along an interleaving, and `Pool.walks_costs` says that the account of a thread, what it has
performed, and what it may still spend, stay within the bound it began with.  A thread that has
performed as many statements as its bound allows is done (`Pool.walks_ends`): no schedule keeps
it busy for longer.
-/

namespace Concurrent

universe u v w x y

variable {ε : Type u} {δ : Type v} {ω : Type w} {α β : Type x}

/-- What each statement costs, and what is on the account of a private state. -/
structure Tariff (ω : Type w) where
  statement : ℕ
  account : ω → ℕ

namespace Prog

variable {J : ω → Prop} {t : Tariff ω} {Q Q' : α → Prop} {p : Prog ε (View δ ω) α} {m n : ℕ}

/-- Whatever it finds, `p` keeps `J`, spends at most `n`, and returns something in `Q`. -/
def Costs (J : ω → Prop) (t : Tariff ω) : Prog ε (View δ ω) α → ℕ → (α → Prop) → Prop
  | ret a, _, Q => Q a
  | fail _, _, _ => True
  | step f k, n, Q => ∀ v, J v.own → J (f v).own ∧
      ∃ m, t.statement + t.account (f v).own + m ≤ t.account v.own + n ∧ (k v).Costs J t m Q

namespace Costs

/-- More may be spent, and less be known of the result. -/
theorem mono (h : p.Costs J t m Q) (hn : m ≤ n) (hQ : ∀ a, Q a → Q' a) : p.Costs J t n Q' := by
  induction p generalizing m n with
  | ret a => exact hQ a h
  | fail e => trivial
  | step f k ih =>
      intro v hv
      obtain ⟨hkeep, l, hl, hrest⟩ := h v hv
      exact ⟨hkeep, l, by omega, ih v hrest le_rfl⟩

/-- A larger budget does as well. -/
theorem le (h : p.Costs J t m Q) (hn : m ≤ n) : p.Costs J t n Q :=
  h.mono hn fun _ h => h

theorem ret {a : α} (h : Q a) : (pure a : Prog ε (View δ ω) α).Costs J t n Q := h

/-- What raises has spent nothing more. -/
theorem fail (e : ε) : (throw e : Prog ε (View δ ω) α).Costs J t n Q := trivial

theorem ofExcept {r : Except ε α} (h : ∀ a, r = .ok a → Q a) :
    (ofExcept r : Prog ε (View δ ω) α).Costs J t n Q := by
  cases r with
  | ok a => exact h a rfl
  | error e => trivial

/-- A statement pays for itself and for what it books. -/
theorem atomically {f : View δ ω → Except ε α × View δ ω}
    (h : ∀ v, J v.own → J (f v).2.own ∧
      t.statement + t.account (f v).2.own ≤ t.account v.own + n ∧ ∀ a, (f v).1 = .ok a → Q a) :
    (atomically f).Costs J t n Q := by
  intro v hv
  obtain ⟨hkeep, hcost, hresult⟩ := h v hv
  exact ⟨hkeep, 0, hcost, ofExcept hresult⟩

/-- A look at the world books nothing. -/
theorem read {g : View δ ω → Except ε α} (hn : t.statement ≤ n)
    (h : ∀ v, J v.own → ∀ a, g v = .ok a → Q a) : (read g).Costs J t n Q := by
  intro v hv
  exact ⟨hv, 0, by simp only [id]; omega, ofExcept (h v hv)⟩

/-- A statement without an answer. -/
theorem modify {f : View δ ω → View δ ω}
    (h : ∀ v, J v.own → J (f v).own ∧
      t.statement + t.account (f v).own ≤ t.account v.own + n) :
    (modify f : Prog ε (View δ ω) PUnit).Costs J t n fun _ => True :=
  fun v hv => ⟨(h v hv).1, 0, (h v hv).2, trivial⟩

/-- The rule for sequential composition. -/
theorem bind {R : β → Prop} {k : α → Prog ε (View δ ω) β} (hp : p.Costs J t m Q)
    (hk : ∀ a, Q a → (k a).Costs J t n R) : (p >>= k).Costs J t (m + n) R := by
  rw [bind_def]
  induction p generalizing m with
  | ret a => exact (hk a hp).le (Nat.le_add_left _ _)
  | fail e => trivial
  | step f g ih =>
      intro v hv
      obtain ⟨hkeep, l, hl, hrest⟩ := hp v hv
      exact ⟨hkeep, l + n, by omega, ih v hrest⟩

/-- The rule for exception handlers. -/
theorem tryCatch {k : ε → Prog ε (View δ ω) α} (hp : p.Costs J t m Q)
    (hk : ∀ e, (k e).Costs J t n Q) : (MonadExcept.tryCatch p k).Costs J t (m + n) Q := by
  rw [tryCatch_def]
  induction p generalizing m with
  | ret a => exact hp
  | fail e => exact (hk e).le (Nat.le_add_left _ _)
  | step f g ih =>
      intro v hv
      obtain ⟨hkeep, l, hl, hrest⟩ := hp v hv
      exact ⟨hkeep, l + n, by omega, ih v hrest⟩

end Costs

end Prog

namespace Pool

variable {ι : Type y} [DecidableEq ι] {E : δ → δ → Prop} {c c' : Pool ι ε δ ω α}

/-- Reached along an interleaving in which thread `i` performs `k i` statements. -/
inductive Walks (E : δ → δ → Prop) (c : Pool ι ε δ ω α) : (ι → ℕ) → Pool ι ε δ ω α → Prop
  | start : Walks E c (fun _ => 0) c
  | act {k : ι → ℕ} {c' c'' : Pool ι ε δ ω α} (i : ι) (h : Walks E c k c') (move : Act i c' c'') :
      Walks E c (Function.update k i (k i + 1)) c''
  | env {k : ι → ℕ} {c' : Pool ι ε δ ω α} {d : δ} (h : Walks E c k c') (move : E c'.shared d) :
      Walks E c k { c' with shared := d }

/-- Every interleaving can be counted. -/
theorem reaches_iff_walks : Reaches E c c' ↔ ∃ k, Walks E c k c' := by
  constructor
  · intro h
    induction h with
    | refl => exact ⟨_, .start⟩
    | tail _ hstep ih =>
        obtain ⟨k, hk⟩ := ih
        cases hstep with
        | act i move => exact ⟨_, .act i hk move⟩
        | env move => exact ⟨_, .env hk move⟩
  · rintro ⟨k, h⟩
    induction h with
    | start => exact .refl
    | act i _ move ih => exact ih.tail (.act i move)
    | env _ move ih => exact ih.tail (.env move)

/-- **Bounds add up along every interleaving.**  What a thread has performed, what is on its
account, and what it may still spend stay within its bound. -/
theorem walks_costs {J : ι → ω → Prop} {t : Tariff ω} {n : ι → ℕ} {Q : ι → α → Prop}
    (hJ : ∀ i, J i (c.threads i).own)
    (hc : ∀ i, (c.threads i).code.Costs (J i) t (n i) (Q i)) {k : ι → ℕ} (h : Walks E c k c')
    (i : ι) : J i (c'.threads i).own ∧
      ∃ m, t.statement * k i + t.account (c'.threads i).own + m ≤
          t.account (c.threads i).own + n i ∧ (c'.threads i).code.Costs (J i) t m (Q i) := by
  induction h with
  | start => exact ⟨hJ i, n i, by simp, hc i⟩
  | env _ _ ih => exact ih
  | @act k b d j _ move ih =>
      obtain ⟨f, g, code⟩ := move
      by_cases hij : i = j
      · subst hij
        obtain ⟨hkeep, m, hm, hrest⟩ := ih
        rw [code] at hrest
        obtain ⟨hnext, l, hl, hafter⟩ := hrest (b.view i) hkeep
        simp only [perform, Function.update_self]
        refine ⟨hnext, l, ?_, hafter⟩
        have hsum : t.statement * (k i + 1) = t.statement * k i + t.statement := Nat.mul_succ _ _
        have hview : t.account (b.view i).own = t.account (b.threads i).own := rfl
        omega
      · simpa [perform, hij] using ih

/-- Where statements cost something, a thread that is not done has not spent all. -/
theorem walks_ends {J : ι → ω → Prop} {t : Tariff ω} {n : ι → ℕ} {Q : ι → α → Prop}
    (hJ : ∀ i, J i (c.threads i).own)
    (hc : ∀ i, (c.threads i).code.Costs (J i) t (n i) (Q i)) {k : ι → ℕ} (h : Walks E c k c')
    (i : ι) (hbusy : (c'.threads i).answer = none) :
    t.statement * (k i + 1) ≤ t.account (c.threads i).own + n i := by
  obtain ⟨hkeep, m, hm, hrest⟩ := walks_costs hJ hc h i
  cases code : (c'.threads i).code with
  | ret a => simp [Thread.answer, code] at hbusy
  | fail e => simp [Thread.answer, code] at hbusy
  | step f g =>
      rw [code] at hrest
      obtain ⟨-, l, hl, -⟩ := hrest (c'.view i) hkeep
      have hsum : t.statement * (k i + 1) = t.statement * k i + t.statement := Nat.mul_succ _ _
      have hview : t.account (c'.view i).own = t.account (c'.threads i).own := rfl
      omega

end Pool

end Concurrent
