import BoundedRefund.Concurrent.Pool

/-!
# Transactions, statement by statement

A pool treats a transaction as one statement.  An engine does not: it opens the transaction
on a working copy, performs what is written inside one statement after the other, and then
commits the copy or rolls it back.  Meanwhile the other threads go on, on the store as it was
committed last, the one lock for writing being taken; and a process may be killed between any
two statements, inside a transaction or outside.

`Engine.reaches_iff` is the reduction.  A pool is reached by an engine exactly if it is
reached with the transactions taken to be atomic.  An engine is simulated with stutters:
opening a transaction, working in it, rolling it back for a killed process and killing one do
not show, and the whole transaction takes place at its end (`Engine.Step.pool`).  In the
other direction an atomic transaction is opened, performed and closed in one go
(`Engine.reaches_close`).
-/

namespace Concurrent

universe u v w x y z

/-- What a run that may have raised leaves of the store it began in. -/
def settle {ε : Type u} {δ : Type v} {β : Type z} (d : δ) : Except ε β × δ → δ
  | (.ok _, d') => d'
  | (.error _, _) => d

/-- A transaction that answers leaves what it wrote. -/
@[simp] theorem settle_ok {ε : Type u} {δ : Type v} {β : Type z} (d d' : δ) (b : β) :
    settle d ((.ok b, d') : Except ε β × δ) = d' := rfl

/-- One that raises leaves what it found. -/
@[simp] theorem settle_error {ε : Type u} {δ : Type v} {β : Type z} (d d' : δ) (e : ε) :
    settle d ((.error e, d') : Except ε β × δ) = d := rfl

/-! ## Programs that carry out a transformer -/

namespace Prog

variable {ε : Type u} {δ : Type v} {β γ : Type z}

/-- Run alone, `p` returns and leaves what `t` does, and raises what `t` raises.  What is left
of the store behind an exception is not said: it is rolled back. -/
def CarriesOut (p : Prog ε δ β) (t : δ → Except ε (β × δ)) : Prop :=
  ∀ d, match t d with
    | .ok (b, d') => p.run d = (.ok b, d')
    | .error e => (p.run d).1 = .error e

namespace CarriesOut

variable {p : Prog ε δ β} {t : δ → Except ε (β × δ)}

/-- Where the transition answers, so do the statements, with its state. -/
theorem ok (h : p.CarriesOut t) {d d' : δ} {b : β} (ht : t d = .ok (b, d')) :
    p.run d = (.ok b, d') := by
  have hd := h d
  rw [ht] at hd
  exact hd

/-- Where it raises, so do they. -/
theorem error (h : p.CarriesOut t) {d : δ} {e : ε} (ht : t d = .error e) :
    (p.run d).1 = .error e := by
  have hd := h d
  rw [ht] at hd
  exact hd

/-- The rule for sequential composition. -/
theorem bind {g : β → Prog ε δ γ} {s : β → δ → Except ε (γ × δ)} (hp : p.CarriesOut t)
    (hg : ∀ b, (g b).CarriesOut (s b)) :
    (p.bind g).CarriesOut fun d => t d >>= fun r => s r.1 r.2 := by
  intro d
  cases ht : t d with
  | error e =>
      have hrun := hp.error ht
      rcases hd : p.run d with ⟨r, d'⟩
      rw [hd] at hrun
      cases hrun
      simp only [run_bind, hd, ht, Bind.bind, Except.bind]
  | ok r =>
      simp only [run_bind, hp.ok ht, ht, Bind.bind, Except.bind]
      exact hg r.1 r.2

/-- A value that may raise comes first. -/
theorem raising {δ : Type z} {r : Except ε β} {g : β → Prog ε δ γ} {s : β → δ → Except ε (γ × δ)}
    (hg : ∀ b, (g b).CarriesOut (s b)) :
    ((ofExcept r).bind g).CarriesOut fun d => r >>= fun b => s b d := by
  intro d
  cases r with
  | error e => rfl
  | ok b => exact hg b d

/-- What the store is once the program has been committed or rolled back. -/
theorem settle_run (h : p.CarriesOut t) (d : δ) :
    settle d (p.run d) = match t d with
      | .ok (_, d') => d'
      | .error _ => d := by
  cases ht : t d with
  | ok r => rw [h.ok ht, settle_ok]
  | error e =>
      have hrun := h.error ht
      rcases hd : p.run d with ⟨r, d'⟩
      rw [hd] at hrun
      cases hrun
      rfl

/-- What it answers. -/
theorem answer (h : p.CarriesOut t) (d : δ) : (p.run d).1 = (t d).map Prod.fst := by
  cases ht : t d with
  | ok r => rw [h.ok ht, Except.map]
  | error e => rw [h.error ht, Except.map]

end CarriesOut

end Prog

/-! ## Transactions -/

/-- A transaction of a thread: its statements, on the store alone, and how the thread goes on
with what they come to. -/
structure Transaction (ε : Type u) (δ : Type v) (ω : Type w) (α : Type x) (β : Type z) where
  body : Prog ε δ β
  resume : Except ε β → Prog ε (View δ ω) α

/-- The transaction as one statement. -/
def Transaction.atomic {ε : Type u} {δ : Type v} {ω : Type w} {α : Type x} {β : Type z}
    (t : Transaction ε δ ω α β) : Prog ε (View δ ω) α :=
  .step (fun v => ⟨settle v.shared (t.body.run v.shared), v.own⟩)
    fun v => t.resume (t.body.run v.shared).1

section Transaction

variable {ε : Type u} {δ : Type v} {ω : Type w} {α α' : Type x} {β : Type z}

/-- What follows a transaction belongs to how its thread goes on. -/
theorem Transaction.atomic_bind (t : Transaction ε δ ω α β) (g : α → Prog ε (View δ ω) α') :
    t.atomic.bind g = Transaction.atomic ⟨t.body, fun r => (t.resume r).bind g⟩ := rfl

/-- A handler of a transaction is a handler of what follows on it. -/
theorem Transaction.atomic_tryCatch (t : Transaction ε δ ω α β)
    (h : ε → Prog ε (View δ ω) α) :
    t.atomic.tryCatch h = Transaction.atomic ⟨t.body, fun r => (t.resume r).tryCatch h⟩ := rfl

end Transaction

/-! ## Programs that write in transactions -/

namespace Prog

variable {ε : Type u} {δ : Type v} {ω : Type w} {α α' : Type x} {β : Type z} {γ : Type*}

/-- Wherever `p` has got to, its next statement opens a transaction of `B`, or it leaves what
`g` looks at as it is. -/
def WritesInside (g : δ → γ) (B : Prog ε δ β → Prop) : Prog ε (View δ ω) α → Prop
  | ret _ => True
  | fail _ => True
  | step f k =>
      ((∃ t : Transaction ε δ ω α β, B t.body ∧ step f k = t.atomic) ∨
        ∀ v, g (f v).shared = g v.shared) ∧ ∀ v, WritesInside g B (k v)

namespace WritesInside

variable {g : δ → γ} {B : Prog ε δ β → Prop} {p : Prog ε (View δ ω) α}

theorem ret (a : α) : (Prog.ret a : Prog ε (View δ ω) α).WritesInside g B := trivial

theorem fail (e : ε) : (Prog.fail e : Prog ε (View δ ω) α).WritesInside g B := trivial

theorem ofExcept (r : Except ε α) :
    (Prog.ofExcept r : Prog ε (View δ ω) α).WritesInside g B := by
  cases r <;> trivial

/-- A statement that does not write there. -/
theorem atomically {t : View δ ω → Except ε α × View δ ω}
    (h : ∀ v, g (t v).2.shared = g v.shared) : (Prog.atomically t).WritesInside g B :=
  ⟨.inr h, fun _ => ofExcept _⟩

theorem read (f : View δ ω → Except ε α) : (Prog.read f).WritesInside g B :=
  ⟨.inr fun _ => rfl, fun _ => ofExcept _⟩

/-- A statement outside a transaction does not touch what is written inside. -/
theorem modify {f : View δ ω → View δ ω} (h : ∀ v, g (f v).shared = g v.shared) :
    (Prog.modify f : Prog ε (View δ ω) PUnit).WritesInside g B :=
  ⟨.inr h, fun _ => trivial⟩

/-- A transaction writes inside. -/
theorem atomic {t : Transaction ε δ ω α β} (hB : B t.body)
    (h : ∀ r, (t.resume r).WritesInside g B) : t.atomic.WritesInside g B :=
  ⟨.inl ⟨t, hB, rfl⟩, fun _ => h _⟩

theorem bind {q : α → Prog ε (View δ ω) α'} (hp : p.WritesInside g B)
    (hq : ∀ a, (q a).WritesInside g B) : (p.bind q).WritesInside g B := by
  induction p with
  | ret a => exact hq a
  | fail e => trivial
  | step f k ih =>
      refine ⟨?_, fun v => ih v (hp.2 v)⟩
      rcases hp.1 with ⟨t, hB, ht⟩ | hleaves
      · exact .inl ⟨⟨t.body, fun r => (t.resume r).bind q⟩, hB, by
          rw [← Transaction.atomic_bind, ← ht, step_bind]⟩
      · exact .inr hleaves

theorem tryCatch {h : ε → Prog ε (View δ ω) α} (hp : p.WritesInside g B)
    (hh : ∀ e, (h e).WritesInside g B) : (p.tryCatch h).WritesInside g B := by
  induction p with
  | ret a => trivial
  | fail e => exact hh e
  | step f k ih =>
      refine ⟨?_, fun v => ih v (hp.2 v)⟩
      rcases hp.1 with ⟨t, hB, ht⟩ | hleaves
      · exact .inl ⟨⟨t.body, fun r => (t.resume r).tryCatch h⟩, hB, by
          rw [← Transaction.atomic_tryCatch, ← ht, Prog.tryCatch]⟩
      · exact .inr hleaves

end WritesInside

end Prog

namespace Pool

variable {ι : Type y} {ε : Type u} {δ : Type v} {ω : Type w} {α : Type x} {β : Type z} {γ : Type*}
variable {g : δ → γ} {B : Prog ε δ β → Prop} {c c' : Pool ι ε δ ω α}

/-- All threads write in transactions. -/
def WritesInside (g : δ → γ) (B : Prog ε δ β → Prop) (c : Pool ι ε δ ω α) : Prop :=
  ∀ i, (c.threads i).code.WritesInside g B

variable [DecidableEq ι] {E : δ → δ → Prop}

/-- What writes inside goes on to do so. -/
theorem WritesInside.step (hc : c.WritesInside g B) (h : Step E c c') :
    c'.WritesInside g B := by
  cases h with
  | env h => exact hc
  | act i h =>
      obtain ⟨f, k, code⟩ := h
      intro j
      by_cases hj : j = i
      · subst hj
        have hcode := hc j
        rw [code] at hcode
        simpa [perform] using hcode.2 (c.view j)
      · simpa [perform, hj] using hc j

/-- They go on doing so. -/
theorem WritesInside.reaches (hc : c.WritesInside g B) (h : Reaches E c c') :
    c'.WritesInside g B := by
  induction h with
  | refl => exact hc
  | tail _ hmove ih => exact ih.step hmove

end Pool

/-! ## Engines -/

/-- A transaction that is open: whose it is, the copy it works on, the statements that are
left of it, and how its owner goes on. -/
structure Opened (ι : Type y) (ε : Type u) (δ : Type v) (ω : Type w) (α : Type x)
    (β : Type z) where
  owner : ι
  working : δ
  rest : Prog ε δ β
  resume : Except ε β → Prog ε (View δ ω) α

/-- A pool whose transactions take time.  Its store is the committed one; at most one
transaction is open, whose owner stands in front of it; the processes of some threads may
have been killed. -/
structure Engine (ι : Type y) (ε : Type u) (δ : Type v) (ω : Type w) (α : Type x)
    (β : Type z) where
  pool : Pool ι ε δ ω α
  opened : Option (Opened ι ε δ ω α β)
  alive : ι → Bool

/-- The pool behind a transaction: the store is `d`, and the owner goes on with `r`. -/
def Opened.leave {ι : Type y} {ε : Type u} {δ : Type v} {ω : Type w} {α : Type x} {β : Type z}
    [DecidableEq ι] (o : Opened ι ε δ ω α β) (c : Pool ι ε δ ω α) (d : δ) (r : Except ε β) :
    Pool ι ε δ ω α where
  shared := d
  threads := Function.update c.threads o.owner ⟨(c.threads o.owner).own, o.resume r⟩

namespace Engine

variable {ι : Type y} {ε : Type u} {δ : Type v} {ω : Type w} {α : Type x} {β : Type z}

/-- Nothing is open and nobody was killed. -/
def start (c : Pool ι ε δ ω α) : Engine ι ε δ ω α β where
  pool := c
  opened := none
  alive _ := true

/-- What is open, unless thread `i` owns it. -/
def without [DecidableEq ι] (s : Engine ι ε δ ω α β) (i : ι) : Option (Opened ι ε δ ω α β) :=
  s.opened.filter fun o => o.owner ≠ i

/-- One move of an engine whose threads open the transactions `B`, in an environment `E`. -/
inductive Step [DecidableEq ι] (E : δ → δ → Prop) (B : Prog ε δ β → Prop) :
    Engine ι ε δ ω α β → Engine ι ε δ ω α β → Prop
  /-- A statement outside any transaction.  It commits by itself, so it waits for the lock
  where it writes. -/
  | act {s : Engine ι ε δ ω α β} (i : ι) (f : View δ ω → View δ ω)
      (k : View δ ω → Prog ε (View δ ω) α) (alive : s.alive i = true)
      (outside : ∀ o, s.opened = some o → o.owner ≠ i)
      (code : (s.pool.threads i).code = .step f k)
      (single : ∀ t : Transaction ε δ ω α β, B t.body → (s.pool.threads i).code ≠ t.atomic)
      (lock : s.opened = none ∨ (f (s.pool.view i)).shared = s.pool.shared) :
      Step E B s { s with pool := s.pool.perform i f k }
  /-- A transaction is opened once nobody else is inside one. -/
  | begin {s : Engine ι ε δ ω α β} (i : ι) (t : Transaction ε δ ω α β)
      (alive : s.alive i = true) (free : s.opened = none) (opens : B t.body)
      (code : (s.pool.threads i).code = t.atomic) :
      Step E B s { s with opened := some ⟨i, s.pool.shared, t.body, t.resume⟩ }
  /-- One statement inside it. -/
  | work {s : Engine ι ε δ ω α β} (o : Opened ι ε δ ω α β) (g : δ → δ) (h : δ → Prog ε δ β)
      (opened : s.opened = some o) (rest : o.rest = .step g h) :
      Step E B s
        { s with opened := some { o with working := g o.working, rest := h o.working } }
  | commit {s : Engine ι ε δ ω α β} (o : Opened ι ε δ ω α β) (b : β)
      (opened : s.opened = some o) (rest : o.rest = .ret b) :
      Step E B s { s with pool := o.leave s.pool o.working (.ok b), opened := none }
  | rollback {s : Engine ι ε δ ω α β} (o : Opened ι ε δ ω α β) (e : ε)
      (opened : s.opened = some o) (rest : o.rest = .fail e) :
      Step E B s { s with pool := o.leave s.pool s.pool.shared (.error e), opened := none }
  /-- The process of thread `i` is killed.  What it had open is rolled back. -/
  | kill {s : Engine ι ε δ ω α β} (i : ι) :
      Step E B s { s with opened := s.without i, alive := Function.update s.alive i false }
  /-- Somebody outside writes, with the lock. -/
  | env {s : Engine ι ε δ ω α β} {d : δ} (free : s.opened = none) (h : E s.pool.shared d) :
      Step E B s { s with pool := { s.pool with shared := d } }

/-- Reached along some interleaving of the statements. -/
abbrev Reaches [DecidableEq ι] (E : δ → δ → Prop) (B : Prog ε δ β → Prop) :
    Engine ι ε δ ω α β → Engine ι ε δ ω α β → Prop :=
  Relation.ReflTransGen (Step E B)

/-! ## The transaction takes place at its end -/

section Simulation

variable [DecidableEq ι] {E : δ → δ → Prop} {B : Prog ε δ β → Prop}
variable {s s' : Engine ι ε δ ω α β}

/-- Whatever is open is a transaction its owner stands in front of, and what is left of it
will come to what the whole of it would come to, run on the committed store. -/
def Sound (B : Prog ε δ β → Prop) (s : Engine ι ε δ ω α β) : Prop :=
  ∀ o, s.opened = some o → ∃ body : Prog ε δ β, B body ∧
    (s.pool.threads o.owner).code = Transaction.atomic ⟨body, o.resume⟩ ∧
      body.run s.pool.shared = o.rest.run o.working

omit [DecidableEq ι] in
/-- At the beginning nobody is inside a transaction. -/
theorem sound_start (c : Pool ι ε δ ω α) : (start c : Engine ι ε δ ω α β).Sound B := by
  intro o ho
  cases ho

/-- Leaving a transaction is performing it. -/
theorem Sound.leave (hs : s.Sound B) {o : Opened ι ε δ ω α β} (ho : s.opened = some o) :
    Pool.Act o.owner s.pool
      (o.leave s.pool (settle s.pool.shared (o.rest.run o.working))
        (o.rest.run o.working).1) := by
  obtain ⟨body, -, hcode, hrun⟩ := hs o ho
  have hact := Pool.Act.intro (i := o.owner) _ _ hcode
  have hsame : s.pool.perform o.owner
      (fun v => ⟨settle v.shared (body.run v.shared), v.own⟩)
      (fun v => o.resume (body.run v.shared).1) =
      o.leave s.pool (settle s.pool.shared (o.rest.run o.working))
        (o.rest.run o.working).1 := by
    simp only [Pool.perform, Pool.view, Opened.leave, hrun]
  rw [← hsame]
  exact hact

/-- **What a step shows.**  Seen from the pool, a step is nothing at all, or one step with
the transactions taken to be atomic. -/
theorem Step.pool (hs : s.Sound B) (h : Step E B s s') :
    s'.pool = s.pool ∨ Pool.Step E s.pool s'.pool := by
  cases h with
  | act i f k alive outside code single lock => exact .inr (.act i (.intro f k code))
  | begin i t alive free opens code => exact .inl rfl
  | work o g h opened rest => exact .inl rfl
  | commit o b opened rest =>
      have hleave := hs.leave opened
      rw [rest, Prog.run_ret, settle_ok] at hleave
      exact .inr (.act o.owner hleave)
  | rollback o e opened rest =>
      have hleave := hs.leave opened
      rw [rest, Prog.run_fail, settle_error] at hleave
      exact .inr (.act o.owner hleave)
  | kill i => exact .inl rfl
  | env free h => exact .inr (.env h)

/-- Every step keeps who is inside to its transaction. -/
theorem Step.sound (hs : s.Sound B) (h : Step E B s s') : s'.Sound B := by
  cases h with
  | act i f k alive outside code single lock =>
      intro o ho
      obtain ⟨body, hB, hcode, hrun⟩ := hs o ho
      have hi : o.owner ≠ i := outside o ho
      -- somebody is inside, so the statement did not write
      have hshared : (f (s.pool.view i)).shared = s.pool.shared := by
        rcases lock with free | unchanged
        · rw [free] at ho
          cases ho
        · exact unchanged
      refine ⟨body, hB, ?_, ?_⟩
      · simpa [Pool.perform, hi] using hcode
      · simpa [Pool.perform, hshared] using hrun
  | begin i t alive free opens code =>
      rintro o ⟨⟩
      exact ⟨t.body, opens, code, rfl⟩
  | work o g h opened rest =>
      rintro o' ⟨⟩
      obtain ⟨body, hB, hcode, hrun⟩ := hs o opened
      refine ⟨body, hB, hcode, ?_⟩
      rw [hrun, rest, Prog.run_step]
  | commit o b opened rest =>
      intro o' ho'
      cases ho'
  | rollback o e opened rest =>
      intro o' ho'
      cases ho'
  | kill i =>
      intro o ho
      obtain ⟨ho, -⟩ := Option.filter_eq_some_iff.mp ho
      exact hs o ho
  | env free h =>
      intro o ho
      rw [free] at ho
      cases ho

/-- **Simulation.**  Whatever an engine reaches, its pool reaches with the transactions taken
to be atomic. -/
theorem Reaches.pool (hs : s.Sound B) (h : Reaches E B s s') :
    Pool.Reaches E s.pool s'.pool ∧ s'.Sound B := by
  induction h with
  | refl => exact ⟨.refl, hs⟩
  | tail _ hstep ih =>
      refine ⟨?_, hstep.sound ih.2⟩
      rcases hstep.pool ih.2 with hsame | hmove
      · rw [hsame]
        exact ih.1
      · exact ih.1.tail hmove

/-! ## An atomic transaction, performed statement by statement -/

/-- An open transaction can be brought to its end, whatever the others do not do. -/
theorem reaches_close (o : Opened ι ε δ ω α β) (ho : s.opened = some o) :
    Reaches E B s { s with
      pool := o.leave s.pool (settle s.pool.shared (o.rest.run o.working))
        (o.rest.run o.working).1
      opened := none } := by
  obtain ⟨owner, working, rest, resume⟩ := o
  induction rest generalizing s working with
  | ret b => exact .single (.commit _ b ho rfl)
  | fail e => exact .single (.rollback _ e ho rfl)
  | step g h ih =>
      have hwork : Step E B s _ := .work _ g h ho rfl
      exact .head hwork (ih working (s := { s with opened := _ }) (g working) rfl)

/-- One statement of the pool takes an engine that is idle one or several. -/
theorem reaches_act {c c' : Pool ι ε δ ω α} {i : ι} {alive : ι → Bool} (hi : alive i = true)
    (h : Pool.Act i c c') :
    Reaches E B (⟨c, none, alive⟩ : Engine ι ε δ ω α β) ⟨c', none, alive⟩ := by
  obtain ⟨f, k, code⟩ := h
  by_cases hB : ∃ t : Transaction ε δ ω α β, B t.body ∧ (c.threads i).code = t.atomic
  · obtain ⟨t, ht, hcode⟩ := hB
    have hbegin : Step E B (⟨c, none, alive⟩ : Engine ι ε δ ω α β) _ :=
      .begin i t hi rfl ht hcode
    refine .head hbegin ?_
    -- opened, the transaction is performed to its end, which is what the statement does
    have hclose := reaches_close (E := E) (B := B)
      (s := ⟨c, some ⟨i, c.shared, t.body, t.resume⟩, alive⟩) _ rfl
    rw [hcode, Transaction.atomic, Prog.step.injEq] at code
    obtain ⟨rfl, rfl⟩ := code
    exact hclose
  · push Not at hB
    exact .single (.act i f k hi (fun o ho => by cases ho) code hB (.inl rfl))

/-- A run of the pool is one of the engine, with every transaction in one piece. -/
theorem reaches_of_pool {c c' : Pool ι ε δ ω α} (h : Pool.Reaches E c c') :
    Reaches E B (start c) (start c') := by
  induction h with
  | refl => exact .refl
  | tail _ hstep ih =>
      refine ih.trans ?_
      cases hstep with
      | act i h => exact reaches_act rfl h
      | env h => exact .single (.env rfl h)

/-- A thread that is alive may go on alone. -/
theorem reaches_iterate {i : ι} {alive : ι → Bool} (hi : alive i = true) (c : Pool ι ε δ ω α)
    (n : Nat) : Reaches E B (⟨c, none, alive⟩ : Engine ι ε δ ω α β)
      ⟨(fun c => c.next i)^[n] c, none, alive⟩ := by
  induction n with
  | zero => exact .refl
  | succ n ih =>
      rw [Function.iterate_succ_apply']
      cases hb : ((fun c => c.next i)^[n] c).busy i with
      | true => exact ih.trans (reaches_act hi (Pool.act_next hb))
      | false =>
          rw [Pool.next_of_idle hb]
          exact ih

/-- Where a thread is about to write in a transaction, it may be inside and have performed the
first of the statements. -/
theorem reaches_midway {γ : Type*} {g : δ → γ} {c c' : Pool ι ε δ ω α} {i : ι}
    {alive : ι → Bool} (hc : c.WritesInside g B) (hi : alive i = true) (h : Pool.Act i c c')
    (hwrites : g c'.shared ≠ g c.shared) :
    ∃ o : Opened ι ε δ ω α β, o.owner = i ∧
      Reaches E B ⟨c, none, alive⟩ ⟨c, some o, alive⟩ := by
  obtain ⟨f, k, code⟩ := h
  have hcode := hc i
  rw [code] at hcode
  rcases hcode.1 with ⟨t, hB, ht⟩ | hleaves
  · have hbegin : Step E B (⟨c, none, alive⟩ : Engine ι ε δ ω α β) _ :=
      .begin i t hi rfl hB (code.trans ht)
    rw [Transaction.atomic, Prog.step.injEq] at ht
    obtain ⟨rfl, -⟩ := ht
    cases hbody : t.body with
    | step first rest =>
        exact ⟨_, rfl, .tail (.single hbegin) (.work _ first rest rfl hbody)⟩
    | ret b =>
        refine absurd ?_ hwrites
        simp only [Pool.perform, Pool.view, hbody, Prog.run_ret, settle_ok]
    | fail e =>
        refine absurd ?_ hwrites
        simp only [Pool.perform, Pool.view, hbody, Prog.run_fail, settle_error]
  · exact absurd (hleaves _) hwrites

/-- **Reduction.**  The pools an engine reaches are those that are reached with the
transactions taken to be atomic. -/
theorem reaches_iff {c c' : Pool ι ε δ ω α} :
    (∃ s : Engine ι ε δ ω α β, Reaches E B (start c) s ∧ s.pool = c') ↔
      Pool.Reaches E c c' := by
  constructor
  · rintro ⟨s, hs, rfl⟩
    exact (Reaches.pool (sound_start c) hs).1
  · intro h
    exact ⟨start c', reaches_of_pool h, rfl⟩

/-! ## What is written where -/

/-- **Only a commit writes.**  Where the threads write in transactions, a step changes what
`g` looks at only if it commits the transaction that is open, or is one of the
environment. -/
theorem Step.writes {γ : Type*} {g : δ → γ} (hpool : s.pool.WritesInside g B)
    (h : Step E B s s') :
    g s'.pool.shared = g s.pool.shared ∨ E s.pool.shared s'.pool.shared ∨
      ∃ o b, s.opened = some o ∧ o.rest = .ret b ∧ s'.pool.shared = o.working := by
  cases h with
  | act i f k alive outside code single lock =>
      have hcode := hpool i
      rw [code] at hcode
      rcases hcode.1 with ⟨t, hB, ht⟩ | hleaves
      · exact absurd (code.trans ht) (single t hB)
      · exact .inl (hleaves _)
  | begin i t alive free opens code => exact .inl rfl
  | work o g h opened rest => exact .inl rfl
  | commit o b opened rest => exact .inr (.inr ⟨o, b, opened, rest, rfl⟩)
  | rollback o e opened rest => exact .inl rfl
  | kill i => exact .inl rfl
  | env free h => exact .inr (.inl h)

/-- The same wherever an engine has got to. -/
theorem Reaches.writes {γ : Type*} {g : δ → γ} {c : Pool ι ε δ ω α}
    (hc : c.WritesInside g B) (h : Reaches E B (start c) s) (hstep : Step E B s s') :
    g s'.pool.shared = g s.pool.shared ∨ E s.pool.shared s'.pool.shared ∨
      ∃ o b, s.opened = some o ∧ o.rest = .ret b ∧ s'.pool.shared = o.working :=
  hstep.writes (hc.reaches (Reaches.pool (sound_start c) h).1)

end Simulation

end Engine

end Concurrent
