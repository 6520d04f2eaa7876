import BoundedRefund.Concurrent.Program
import Mathlib.Data.Set.Basic
import Mathlib.Logic.Function.Iterate

/-!
# Pools of threads on one store

Any number of threads work on one shared store; each also has a private state
nobody else touches.  A thread's program sees both parts at once, as a `View`.
A pool moves when some thread performs its next atomic statement, or when an
environment outside the pool changes the store.

`Pool.reachable_sound` is the parallel composition rule.  If every thread,
relying on the others to move the store along `R`, itself moves the store along
`R`, then along every interleaving the store moves along `R` and every thread is
still verified where it stands.  The last part is what makes facts about single
statements available at any reachable point (`Pool.Act.guarantee`), and with
them the invariants of the store (`Pool.reachable_invariant`).  A thread may
guarantee more of its own statements than the others do of theirs
(`Pool.reachable_stands`).
-/

namespace Concurrent

universe u v w x y

/-- What one thread sees: the store it shares and the state of its own. -/
structure View (δ : Type u) (ω : Type v) where
  shared : δ
  own : ω

/-- A thread: its private state and what is left of its program. -/
structure Thread (ε : Type u) (δ : Type v) (ω : Type w) (α : Type x) where
  own : ω
  code : Prog ε (View δ ω) α

/-- What a thread has come to, once it has. -/
def Thread.answer {ε : Type u} {δ : Type v} {ω : Type w} {α : Type x} (t : Thread ε δ ω α) :
    Option (Except ε α) :=
  match t.code with
  | .ret a => some (.ok a)
  | .fail e => some (.error e)
  | .step _ _ => none

/-- A thread has its answer when its program is one. -/
theorem Thread.answer_eq_some {ε : Type u} {δ : Type v} {ω : Type w} {α : Type x}
    {t : Thread ε δ ω α} {r : Except ε α} : t.answer = some r ↔ t.code = Prog.ofExcept r := by
  unfold answer
  cases hcode : t.code <;> cases r <;> simp [Prog.ofExcept]

/-- The threads, and the store they share. -/
structure Pool (ι : Type y) (ε : Type u) (δ : Type v) (ω : Type w) (α : Type x) where
  shared : δ
  threads : ι → Thread ε δ ω α

namespace Pool

variable {ι : Type y} {ε : Type u} {δ : Type v} {ω : Type w} {α : Type x}

/-- What thread `i` sees. -/
def view (c : Pool ι ε δ ω α) (i : ι) : View δ ω :=
  ⟨c.shared, (c.threads i).own⟩

/-- Thread `i` performs the statement `f`, `k` of its program. -/
def perform [DecidableEq ι] (c : Pool ι ε δ ω α) (i : ι) (f : View δ ω → View δ ω)
    (k : View δ ω → Prog ε (View δ ω) α) : Pool ι ε δ ω α where
  shared := (f (c.view i)).shared
  threads := Function.update c.threads i ⟨(f (c.view i)).own, k (c.view i)⟩

/-- One atomic statement of one thread. -/
inductive Act [DecidableEq ι] (i : ι) : Pool ι ε δ ω α → Pool ι ε δ ω α → Prop
  | intro {c : Pool ι ε δ ω α} (f : View δ ω → View δ ω)
      (k : View δ ω → Prog ε (View δ ω) α) (code : (c.threads i).code = .step f k) :
      Act i c (c.perform i f k)

/-- What the statement is, where it is known to be an atomic one. -/
theorem Act.of_atomically [DecidableEq ι] {β : Type x} {i : ι} {c c' : Pool ι ε δ ω α}
    (h : Act i c c') {t : View δ ω → Except ε β × View δ ω} {g : β → Prog ε (View δ ω) α}
    (hcode : (c.threads i).code = (Prog.atomically t).bind g) :
    c'.shared = (t (c.view i)).2.shared ∧ c'.threads = Function.update c.threads i
      ⟨(t (c.view i)).2.own, (Prog.ofExcept (t (c.view i)).1).bind g⟩ := by
  obtain ⟨f, k, code⟩ := h
  rw [hcode, Prog.atomically, Prog.step_bind, Prog.step.injEq] at code
  obtain ⟨rfl, rfl⟩ := code
  exact ⟨rfl, rfl⟩

/-- A finished thread has no statement left. -/
theorem Act.not_finished [DecidableEq ι] {i : ι} {c c' : Pool ι ε δ ω α} (h : Act i c c')
    (r : Except ε α) : (c.threads i).code ≠ Prog.ofExcept r := by
  obtain ⟨f, k, code⟩ := h
  rw [code]
  cases r <;> simp [Prog.ofExcept]

/-- One move of the pool: a statement of some thread, or a change by the
environment `E`. -/
inductive Step [DecidableEq ι] (E : δ → δ → Prop) :
    Pool ι ε δ ω α → Pool ι ε δ ω α → Prop
  | act {c c' : Pool ι ε δ ω α} (i : ι) (h : Act i c c') : Step E c c'
  | env {c : Pool ι ε δ ω α} {d : δ} (h : E c.shared d) : Step E c { c with shared := d }

/-- Reached from `c` along some interleaving. -/
abbrev Reaches [DecidableEq ι] (E : δ → δ → Prop) :
    Pool ι ε δ ω α → Pool ι ε δ ω α → Prop :=
  Relation.ReflTransGen (Step E)

section Run

variable {ι : Type y} {ε : Type u} {δ : Type v} {ω : Type w} {α : Type x} [DecidableEq ι]

/-- The pool after thread `i` has run to its end, nobody interfering. -/
def finish (c : Pool ι ε δ ω α) (i : ι) : Pool ι ε δ ω α :=
  let ran := (c.threads i).code.run (c.view i)
  { shared := ran.2.shared
    threads := Function.update c.threads i ⟨ran.2.own, Prog.ofExcept ran.1⟩ }

/-- One of the interleavings lets a thread run to its end. -/
theorem reaches_finish {E : δ → δ → Prop} (c : Pool ι ε δ ω α) (i : ι) :
    Reaches E c (c.finish i) := by
  have along : ∀ (code : Prog ε (View δ ω) α) (c : Pool ι ε δ ω α),
      (c.threads i).code = code → Reaches E c (c.finish i) := by
    intro code
    induction code with
    | ret a =>
        intro c hi
        have hthread : (⟨(c.threads i).own, .ret a⟩ : Thread ε δ ω α) = c.threads i := by
          rw [← hi]
        have hc : c.finish i = c := by
          simp only [finish, view, hi, Prog.run_ret, Prog.ofExcept, hthread,
            Function.update_eq_self]
        rw [hc]
    | fail e =>
        intro c hi
        have hthread : (⟨(c.threads i).own, .fail e⟩ : Thread ε δ ω α) = c.threads i := by
          rw [← hi]
        have hc : c.finish i = c := by
          simp only [finish, view, hi, Prog.run_fail, Prog.ofExcept, hthread,
            Function.update_eq_self]
        rw [hc]
    | step f k ih =>
        intro c hi
        have hnext := ih (c.view i) (c.perform i f k) (by simp [perform])
        have hsame : (c.perform i f k).finish i = c.finish i := by
          simp [finish, perform, view, hi]
        rw [hsame] at hnext
        exact Relation.ReflTransGen.head (.act i (.intro f k hi)) hnext
  exact along _ c rfl

/-- Thread `i` has a statement left. -/
def busy (c : Pool ι ε δ ω α) (i : ι) : Bool :=
  match (c.threads i).code with
  | .step _ _ => true
  | .ret _ => false
  | .fail _ => false

/-- Thread `i` performs its next statement, if it has one left. -/
def next (c : Pool ι ε δ ω α) (i : ι) : Pool ι ε δ ω α :=
  match (c.threads i).code with
  | .step f k => c.perform i f k
  | .ret _ => c
  | .fail _ => c

/-- A busy thread may act. -/
theorem act_next {c : Pool ι ε δ ω α} {i : ι} (h : c.busy i = true) : Act i c (c.next i) := by
  cases hi : (c.threads i).code with
  | step f k =>
      simp only [next, hi]
      exact .intro f k hi
  | ret a => simp [busy, hi] at h
  | fail e => simp [busy, hi] at h

/-- What a thread does is settled by where it stands. -/
theorem Act.eq_next {c c' : Pool ι ε δ ω α} {i : ι} (h : Act i c c') : c' = c.next i := by
  obtain ⟨f, k, code⟩ := h
  simp only [next, code]

/-- A thread that is done stays. -/
theorem next_of_idle {c : Pool ι ε δ ω α} {i : ι} (h : c.busy i = false) : c.next i = c := by
  cases hi : (c.threads i).code with
  | step f k => simp [busy, hi] at h
  | ret a => simp [next, hi]
  | fail e => simp [next, hi]

/-- The next statement of a thread is a run of its own. -/
theorem reaches_next {E : δ → δ → Prop} (c : Pool ι ε δ ω α) (i : ι) :
    Reaches E c (c.next i) := by
  cases hb : c.busy i with
  | true => exact .single (.act i (act_next hb))
  | false => rw [next_of_idle hb]

/-- A thread may perform any number of statements while the others wait. -/
theorem reaches_iterate {E : δ → δ → Prop} (c : Pool ι ε δ ω α) (i : ι) (n : Nat) :
    Reaches E c ((fun c => c.next i)^[n] c) := by
  induction n with
  | zero => exact .refl
  | succ n ih =>
      rw [Function.iterate_succ_apply']
      exact ih.trans (reaches_next _ i)

/-- It may do so while the states it starts its statements from meet a condition. -/
theorem reaches_iterate_while {E : δ → δ → Prop} {C : Pool ι ε δ ω α → Prop}
    (c : Pool ι ε δ ω α) (i : ι) (n : Nat) (h : ∀ k < n, C ((fun c => c.next i)^[k] c)) :
    Relation.ReflTransGen (fun c c' => Step E c c' ∧ C c) c ((fun c => c.next i)^[n] c) := by
  induction n with
  | zero => exact .refl
  | succ n ih =>
      have hn := ih fun k hk => h k (Nat.lt_succ_of_lt hk)
      rw [Function.iterate_succ_apply']
      cases hb : busy ((fun c => c.next i)^[n] c) i with
      | true => exact hn.tail ⟨.act i (act_next hb), h n (Nat.lt_succ_self n)⟩
      | false =>
          rw [next_of_idle hb]
          exact hn

end Run

end Pool

/-- What a thread relies on: its own state is not touched, the store moves along
`R`. -/
def Rely {δ : Type u} {ω : Type v} (R : δ → δ → Prop) (v v' : View δ ω) : Prop :=
  v'.own = v.own ∧ R v.shared v'.shared

/-- What a thread guarantees in turn; `P` is what it promises about each of its
own statements beyond that. -/
def Guar {δ : Type u} {ω : Type v} (R : δ → δ → Prop) (P : View δ ω → View δ ω → Prop)
    (v v' : View δ ω) : Prop :=
  R v.shared v'.shared ∧ P v v'

namespace Rely

variable {δ : Type u} {ω : Type v} {R : δ → δ → Prop}

theorem refl (hR : ∀ d, R d d) (v : View δ ω) : Rely R v v :=
  ⟨rfl, hR _⟩

theorem trans (hR : ∀ d d' d'', R d d' → R d' d'' → R d d'') {v v' v'' : View δ ω}
    (h : Rely R v v') (h' : Rely R v' v'') : Rely R v v'' :=
  ⟨h'.1.trans h.1, hR _ _ _ h.2 h'.2⟩

end Rely

namespace Pool

variable {ι : Type y} {ε : Type u} {δ : Type v} {ω : Type w} {α : Type x} [DecidableEq ι]
variable {R : δ → δ → Prop} {P : View δ ω → View δ ω → Prop} {E : δ → δ → Prop}

/-- Thread `i` is verified where it stands. -/
def Stands (R : δ → δ → Prop) (P : View δ ω → View δ ω → Prop) (i : ι)
    (c : Pool ι ε δ ω α) : Prop :=
  (c.threads i).code.wp (Rely R) (Guar R P) (fun _ _ => True) (c.view i)

/-- Every thread is verified where it stands. -/
def Verified (R : δ → δ → Prop) (P : View δ ω → View δ ω → Prop) (c : Pool ι ε δ ω α) :
    Prop :=
  ∀ i, c.Stands R P i

/-- A statement of thread `i` keeps what the thread guarantees. -/
theorem Act.guaranteed (hR : ∀ d, R d d) {i : ι} {c c' : Pool ι ε δ ω α}
    (hi : c.Stands R P i) (h : Act i c c') :
    R c.shared c'.shared ∧ P (c.view i) (c'.view i) := by
  obtain ⟨f, k, code⟩ := h
  rw [Stands, code] at hi
  have hg := (hi _ (Rely.refl hR _)).1
  simpa [Guar, Pool.view, Pool.perform] using hg

/-- In a verified pool every thread keeps the same guarantee. -/
theorem Act.guarantee (hR : ∀ d, R d d) {i : ι} {c c' : Pool ι ε δ ω α}
    (hc : c.Verified R P) (h : Act i c c') :
    R c.shared c'.shared ∧ P (c.view i) (c'.view i) :=
  h.guaranteed hR (hc i)

omit [DecidableEq ι] in
/-- What the others do to the store leaves a thread verified. -/
theorem Stands.others (htrans : ∀ d d' d'', R d d' → R d' d'' → R d d'') {i : ι}
    {c c' : Pool ι ε δ ω α} (hi : c.Stands R P i) (hd : R c.shared c'.shared)
    (hthread : c'.threads i = c.threads i) : c'.Stands R P i := by
  rw [Stands, hthread]
  have hrely : Rely R (c.view i) (c'.view i) := ⟨by simp only [view, hthread], hd⟩
  refine Prog.wp_rely ?_ (fun _ _ _ _ _ => trivial) hrely hi
  exact fun _ _ _ h h' => Rely.trans htrans h h'

/-- A move of the pool moves the store along `R`. -/
theorem Step.along (hrefl : ∀ d, R d d) (hE : ∀ d d', E d d' → R d d')
    {c c' : Pool ι ε δ ω α} (hc : c.Verified R P) (h : Step E c c') : R c.shared c'.shared := by
  cases h with
  | env h => exact hE _ _ h
  | act i h => exact (h.guarantee hrefl hc).1

/-- A move of a verified pool leaves a thread verified that guarantees more than the others. -/
theorem Step.stands (hrefl : ∀ d, R d d) (htrans : ∀ d d' d'', R d d' → R d' d'' → R d d'')
    (hE : ∀ d d', E d d' → R d d') {c c' : Pool ι ε δ ω α} (hc : c.Verified R P)
    {P' : View δ ω → View δ ω → Prop} {i : ι} (hi : c.Stands R P' i) (h : Step E c c') :
    c'.Stands R P' i := by
  have hd := h.along hrefl hE hc
  cases h with
  | env h => exact hi.others htrans hd rfl
  | act j h =>
      obtain ⟨f, k, code⟩ := h
      by_cases hj : i = j
      · subst hj
        rw [Stands, code] at hi
        have := (hi _ (Rely.refl hrefl _)).2
        simpa [Stands, Pool.view, Pool.perform] using this
      · exact hi.others htrans hd (by simp [perform, hj])

/-- Every move of the pool leaves it verified. -/
theorem Step.verified (hrefl : ∀ d, R d d) (htrans : ∀ d d' d'', R d d' → R d' d'' → R d d'')
    (hE : ∀ d d', E d d' → R d d') {c c' : Pool ι ε δ ω α}
    (hc : c.Verified R P) (h : Step E c c') :
    R c.shared c'.shared ∧ c'.Verified R P :=
  ⟨h.along hrefl hE hc, fun i => h.stands hrefl htrans hE hc (hc i)⟩

/-- **Parallel composition.**  Along every interleaving the store moves along `R`
and every thread is verified where it stands. -/
theorem reachable_sound (hrefl : ∀ d, R d d)
    (htrans : ∀ d d' d'', R d d' → R d' d'' → R d d'')
    (hE : ∀ d d', E d d' → R d d') {c c' : Pool ι ε δ ω α}
    (hc : c.Verified R P) (h : Reaches E c c') :
    R c.shared c'.shared ∧ c'.Verified R P := by
  induction h with
  | refl => exact ⟨hrefl _, hc⟩
  | tail _ hstep ih =>
      obtain ⟨hR, hv⟩ := hstep.verified hrefl htrans hE ih.2
      exact ⟨htrans _ _ _ ih.1 hR, hv⟩

/-- Along every interleaving a thread that guarantees more than the others stays verified. -/
theorem reachable_stands (hrefl : ∀ d, R d d)
    (htrans : ∀ d d' d'', R d d' → R d' d'' → R d d'')
    (hE : ∀ d d', E d d' → R d d') {P' : View δ ω → View δ ω → Prop} {i : ι}
    {c c' : Pool ι ε δ ω α} (hc : c.Verified R P) (hi : c.Stands R P' i)
    (h : Reaches E c c') : c'.Stands R P' i := by
  induction h with
  | refl => exact hi
  | tail hreach hstep ih =>
      exact hstep.stands hrefl htrans hE (reachable_sound hrefl htrans hE hc hreach).2 ih

/-- **Invariants of the store.**  What holds at the start, survives the
environment, and is kept by every statement that moves the store along `R` and
has the guarantee `P`, holds along every interleaving. -/
theorem reachable_invariant (hrefl : ∀ d, R d d)
    (htrans : ∀ d d' d'', R d d' → R d' d'' → R d d'')
    (hE : ∀ d d', E d d' → R d d') {J : δ → Prop}
    (henv : ∀ d d', E d d' → J d → J d')
    (hact : ∀ v v' : View δ ω, R v.shared v'.shared → P v v' → J v.shared → J v'.shared)
    {c c' : Pool ι ε δ ω α} (hc : c.Verified R P) (h : Reaches E c c') (hJ : J c.shared) :
    J c'.shared := by
  induction h with
  | refl => exact hJ
  | @tail b d hreach hstep ih =>
      have hb := (reachable_sound hrefl htrans hE hc hreach).2
      cases hstep with
      | env h => exact henv _ _ h ih
      | act i h =>
          obtain ⟨hR, hP⟩ := h.guarantee hrefl hb
          exact hact _ _ hR hP ih

end Pool

end Concurrent
