import BoundedRefund.Concurrent.Pool

/-!
# Threads that keep to a part of the store

A thread keeps to a part of the store if it finds and leaves the same whatever the rest of the
store is, and leaves the rest as it is.  `Prog.KeepsTo` says so of a program: every statement
commutes with forgetting what is not of its part (`Estate.view`), and spares the rest
(`Estate.spares`), as long as the store is legal.

Threads with parts of their own do not notice each other.  Along every interleaving each of
them is where it would be had it performed as many statements alone, from the store the pool
began with (`Pool.reachable_isolated`); and so it ends as it would have ended alone
(`Pool.finished_isolated`).  The two conditions on a statement are those of an unwinding
argument; what they say of one statement is said of whole runs by induction.
-/

namespace Concurrent

universe u v w x y

/-- What a thread keeps to. -/
structure Estate (δ : Type v) (ω : Type w) where
  /-- The store, but for what is not of the part. -/
  part : δ → δ
  /-- The private state, but for what it remembers of the rest of the store. -/
  trim : ω → ω
  /-- The rest of the store is the same. -/
  spares : δ → δ → Prop
  spares_refl : ∀ d, spares d d
  /-- What is known of the store. -/
  legal : δ → Prop
  /-- What is known of the private state. -/
  minds : ω → Prop

variable {ε : Type u} {δ : Type v} {ω : Type w} {α β : Type x}

namespace Estate

/-- What is left of a view. -/
def view (H : Estate δ ω) (v : View δ ω) : View δ ω := ⟨H.part v.shared, H.trim v.own⟩

/-- A transformer of views keeps to the estate. -/
structure Keeps (H : Estate δ ω) (f : View δ ω → View δ ω) (v : View δ ω) : Prop where
  view : f (H.view v) = H.view (f v)
  spares : H.spares v.shared (f v).shared
  legal : H.legal (f v).shared
  minds : H.minds (f v).own

/-- What changes the private state alone keeps to any estate that its store is legal for. -/
theorem Keeps.privately {H : Estate δ ω} {g : ω → ω} {v : View δ ω}
    (hlegal : H.legal v.shared) (htrim : g (H.trim v.own) = H.trim (g v.own))
    (hminds : H.minds (g v.own)) : H.Keeps (fun v => ⟨v.shared, g v.own⟩) v where
  view := congrArg (View.mk (H.part v.shared)) htrim
  spares := H.spares_refl v.shared
  legal := hlegal
  minds := hminds

end Estate

namespace Prog

/-- Every statement of `p` keeps to the estate, and its result is in `Q`. -/
def KeepsTo (H : Estate δ ω) (Q : α → Prop) : Prog ε (View δ ω) α → Prop
  | ret a => Q a
  | fail _ => True
  | step f k => ∀ v, H.legal v.shared → H.minds v.own →
      H.Keeps f v ∧ k (H.view v) = k v ∧ KeepsTo H Q (k v)

namespace KeepsTo

variable {H : Estate δ ω} {Q : α → Prop} {p : Prog ε (View δ ω) α}

theorem ret {a : α} (h : Q a) : (pure a : Prog ε (View δ ω) α).KeepsTo H Q := h

theorem fail (e : ε) : (throw e : Prog ε (View δ ω) α).KeepsTo H Q := trivial

theorem ofExcept {r : Except ε α} (h : ∀ a, r = .ok a → Q a) :
    (Prog.ofExcept r : Prog ε (View δ ω) α).KeepsTo H Q := by
  cases r with
  | error e => trivial
  | ok a => exact h a rfl

/-- A statement keeps to its part when its effect and its answer are found in the part. -/
theorem atomically {t : View δ ω → Except ε α × View δ ω}
    (h : ∀ v, H.legal v.shared → H.minds v.own →
      H.Keeps (fun v => (t v).2) v ∧ (t (H.view v)).1 = (t v).1 ∧
        ∀ a, (t v).1 = .ok a → Q a) : (Prog.atomically t).KeepsTo H Q := by
  intro v hlegal hminds
  obtain ⟨hkeeps, hresult, hQ⟩ := h v hlegal hminds
  exact ⟨hkeeps, congrArg Prog.ofExcept hresult, ofExcept hQ⟩

/-- A look keeps to its part when its answer is found there. -/
theorem read {g : View δ ω → Except ε α}
    (h : ∀ v, H.legal v.shared → H.minds v.own →
      g (H.view v) = g v ∧ ∀ a, g v = .ok a → Q a) : (Prog.read g).KeepsTo H Q := by
  intro v hlegal hminds
  obtain ⟨hresult, hQ⟩ := h v hlegal hminds
  exact ⟨.privately (g := id) hlegal rfl hminds, congrArg Prog.ofExcept hresult, ofExcept hQ⟩

/-- A change keeps to its part when its effect is. -/
theorem modify {f : View δ ω → View δ ω}
    (h : ∀ v, H.legal v.shared → H.minds v.own → H.Keeps f v) :
    (Prog.modify f : Prog ε (View δ ω) PUnit).KeepsTo H fun _ => True :=
  fun v hlegal hminds => ⟨h v hlegal hminds, rfl, trivial⟩

/-- A transaction on the store: where it raises it has done nothing. -/
theorem transaction {t : δ → Except ε (α × δ)} {s : View δ ω → Except ε α × View δ ω}
    (hok : ∀ v a d, t v.shared = .ok (a, d) → s v = (.ok a, ⟨d, v.own⟩))
    (herror : ∀ v e, t v.shared = .error e → s v = (.error e, v))
    (hpart : ∀ d, H.legal d → t (H.part d) = (t d).map fun r => (r.1, H.part r.2))
    (hrest : ∀ d a d', H.legal d → t d = .ok (a, d') → H.spares d d' ∧ H.legal d' ∧ Q a) :
    (Prog.atomically s).KeepsTo H Q := by
  refine atomically fun v hlegal hminds => ?_
  have hview : t (H.view v).shared = (t v.shared).map fun r => (r.1, H.part r.2) :=
    hpart v.shared hlegal
  cases ht : t v.shared with
  | error e =>
      rw [ht] at hview
      have hs := herror _ _ ht
      have hs' := herror _ _ hview
      simp only [hs, hs']
      refine ⟨⟨?_, ?_, ?_, ?_⟩, trivial, nofun⟩
      · rw [hs, hs']
      · rw [hs]
        exact H.spares_refl v.shared
      · rw [hs]
        exact hlegal
      · rw [hs]
        exact hminds
  | ok r =>
      obtain ⟨a, d⟩ := r
      obtain ⟨hspares, hlegal', hQ⟩ := hrest v.shared a d hlegal ht
      rw [ht] at hview
      have hs := hok _ _ _ ht
      have hs' := hok _ _ _ hview
      simp only [hs, hs']
      refine ⟨⟨?_, ?_, ?_, ?_⟩, trivial, ?_⟩
      · rw [hs, hs']
        rfl
      · rw [hs]
        exact hspares
      · rw [hs]
        exact hlegal'
      · rw [hs]
        exact hminds
      · intro b hb
        cases hb
        exact hQ

/-- What follows keeps to the part as well. -/
theorem bind {R : β → Prop} {k : α → Prog ε (View δ ω) β} (hp : p.KeepsTo H Q)
    (hk : ∀ a, Q a → (k a).KeepsTo H R) : (p >>= k).KeepsTo H R := by
  rw [bind_def]
  induction p with
  | ret a => exact hk a hp
  | fail e => trivial
  | step f l ih =>
      intro v hlegal hminds
      obtain ⟨hkeeps, hview, hrest⟩ := hp v hlegal hminds
      exact ⟨hkeeps, congrArg (fun q => q.bind k) hview, ih v hrest⟩

/-- So does a handler. -/
theorem tryCatch {k : ε → Prog ε (View δ ω) α} (hp : p.KeepsTo H Q)
    (hk : ∀ e, (k e).KeepsTo H Q) : (MonadExcept.tryCatch p k).KeepsTo H Q := by
  rw [tryCatch_def]
  induction p with
  | ret a => exact hp
  | fail e => exact hk e
  | step f l ih =>
      intro v hlegal hminds
      obtain ⟨hkeeps, hview, hrest⟩ := hp v hlegal hminds
      exact ⟨hkeeps, congrArg (fun q => q.tryCatch k) hview, ih v hrest⟩

/-- On the part alone the program does what it does on the whole store. -/
theorem run_view (h : p.KeepsTo H Q) {v : View δ ω} (hlegal : H.legal v.shared)
    (hminds : H.minds v.own) : p.run (H.view v) = ((p.run v).1, H.view (p.run v).2) := by
  induction p generalizing v with
  | ret a => rfl
  | fail e => rfl
  | step f k ih =>
      obtain ⟨hkeeps, hview, hrest⟩ := h v hlegal hminds
      rw [run_step, run_step, hview, hkeeps.view]
      exact ih v hrest hkeeps.legal hkeeps.minds

end KeepsTo

end Prog

/-! ## Pools of such threads -/

namespace Pool

variable {ι : Type y} [DecidableEq ι]

/-- The estates lie apart: who spares the rest spares the parts of the others. -/
structure Apart (H : ι → Estate δ ω) (legal : δ → Prop) : Prop where
  legal_iff : ∀ i d, (H i).legal d ↔ legal d
  spared : ∀ {i j}, i ≠ j → ∀ {d d'}, (H i).spares d d' → (H j).part d' = (H j).part d

/-- Every thread keeps to its estate where it stands. -/
structure Settled (H : ι → Estate δ ω) (legal : δ → Prop)
    (c : Pool ι ε δ ω α) : Prop where
  legal : legal c.shared
  minds : ∀ i, (H i).minds (c.threads i).own
  keeps : ∀ i, (c.threads i).code.KeepsTo (H i) fun _ => True

/-- For thread `i` the two pools are the same. -/
structure SameFor (H : ι → Estate δ ω) (i : ι) (c c' : Pool ι ε δ ω α) : Prop where
  code : (c.threads i).code = (c'.threads i).code
  view : (H i).view (c.view i) = (H i).view (c'.view i)

/-- Others change no part. -/
def Elsewhere (H : ι → Estate δ ω) (legal : δ → Prop) (d d' : δ) : Prop :=
  legal d → legal d' ∧ ∀ i, (H i).part d' = (H i).part d

variable {H : ι → Estate δ ω} {legal : δ → Prop} {E : δ → δ → Prop}
variable {c c' : Pool ι ε δ ω α}

/-- What a statement of thread `i` leaves the others. -/
theorem Settled.act (happart : Apart H legal) (h : Settled H legal c) {i : ι}
    {f : View δ ω → View δ ω} {k : View δ ω → Prog ε (View δ ω) α}
    (code : (c.threads i).code = .step f k) : Settled H legal (c.perform i f k) := by
  have hkeeps := h.keeps i
  rw [code] at hkeeps
  obtain ⟨hstep, -, hrest⟩ :=
    hkeeps (c.view i) ((happart.legal_iff i _).mpr h.legal) (h.minds i)
  refine ⟨(happart.legal_iff i _).mp hstep.legal, fun j => ?_, fun j => ?_⟩
  · by_cases hj : j = i
    · subst hj
      simpa [perform] using hstep.minds
    · simpa [perform, hj] using h.minds j
  · by_cases hj : j = i
    · subst hj
      simpa [perform] using hrest
    · simpa [perform, hj] using h.keeps j

/-- A settled pool stays settled when a thread goes on. -/
theorem Settled.next (happart : Apart H legal) (h : Settled H legal c) (i : ι) :
    Settled H legal (c.next i) := by
  cases hi : (c.threads i).code with
  | step f k =>
      simp only [Pool.next, hi]
      exact h.act happart hi
  | ret a =>
      simp only [Pool.next, hi]
      exact h
  | fail e =>
      simp only [Pool.next, hi]
      exact h

/-- What is the same for a thread is the same for it after its next statement. -/
theorem SameFor.next (happart : Apart H legal) {i : ι} {f : View δ ω → View δ ω}
    {k : View δ ω → Prog ε (View δ ω) α} (hsame : SameFor H i c c') (h : Settled H legal c)
    (h' : Settled H legal c') (code : (c.threads i).code = .step f k) :
    SameFor H i (c.perform i f k) (c'.next i) := by
  have code' : (c'.threads i).code = .step f k := hsame.code.symm.trans code
  have hkeeps := h.keeps i
  have hkeeps' := h'.keeps i
  rw [code] at hkeeps
  rw [code'] at hkeeps'
  obtain ⟨hstep, hview, -⟩ :=
    hkeeps (c.view i) ((happart.legal_iff i _).mpr h.legal) (h.minds i)
  obtain ⟨hstep', hview', -⟩ :=
    hkeeps' (c'.view i) ((happart.legal_iff i _).mpr h'.legal) (h'.minds i)
  have hnext : c'.next i = c'.perform i f k := by
    simp only [Pool.next, code']
  rw [hnext]
  constructor
  · simp only [perform, Function.update_self]
    rw [← hview, ← hview', hsame.view]
  · have hboth : (H i).view (f (c.view i)) = (H i).view (f (c'.view i)) := by
      rw [← hstep.view, ← hstep'.view, hsame.view]
    simpa [perform, Pool.view] using hboth

/-- **Isolation.**  Along every interleaving each thread is where it would be had it performed
some number of statements alone, the others not having begun. -/
theorem reachable_isolated (happart : Apart H legal)
    (hE : ∀ d d', E d d' → Elsewhere H legal d d') (hc : Settled H legal c)
    (h : Reaches E c c') :
    Settled H legal c' ∧ ∀ i, ∃ n, SameFor H i c' ((fun c => c.next i)^[n] c) := by
  have halone : ∀ i n, Settled H legal ((fun c : Pool ι ε δ ω α => c.next i)^[n] c) := by
    intro i n
    induction n with
    | zero => exact hc
    | succ n ih =>
        rw [Function.iterate_succ_apply']
        exact ih.next happart i
  induction h with
  | refl => exact ⟨hc, fun i => ⟨0, rfl, rfl⟩⟩
  | @tail b d _ hstep ih =>
      obtain ⟨hb, hsame⟩ := ih
      cases hstep with
      | @env d hd =>
          obtain ⟨hlegal, hparts⟩ := hE _ _ hd hb.legal
          refine ⟨⟨hlegal, hb.minds, hb.keeps⟩, fun i => ?_⟩
          obtain ⟨n, hn⟩ := hsame i
          refine ⟨n, hn.code, ?_⟩
          rw [← hn.view]
          simp only [Estate.view, Pool.view, hparts i]
      | act j hact =>
          obtain ⟨f, k, code⟩ := hact
          refine ⟨hb.act happart code, fun i => ?_⟩
          obtain ⟨n, hn⟩ := hsame i
          by_cases hi : i = j
          · subst hi
            refine ⟨n + 1, ?_⟩
            rw [Function.iterate_succ_apply']
            exact hn.next happart hb (halone i n) code
          · -- the statement was somebody else's, who spares the part of thread `i`
            have hkeeps := hb.keeps j
            rw [code] at hkeeps
            obtain ⟨hspares, -⟩ :=
              hkeeps (b.view j) ((happart.legal_iff j _).mpr hb.legal) (hb.minds j)
            have hpart := happart.spared (Ne.symm hi) hspares.spares
            refine ⟨n, ?_, ?_⟩
            · simpa [perform, hi] using hn.code
            · rw [← hn.view]
              simpa [perform, Pool.view, Estate.view, hi] using hpart

/-- However many statements a thread has performed, the rest of them end where all of them
would. -/
theorem finish_iterate (c : Pool ι ε δ ω α) (i : ι) (n : Nat) :
    ((fun c => c.next i)^[n] c).finish i = c.finish i := by
  induction n with
  | zero => rfl
  | succ n ih =>
      rw [Function.iterate_succ_apply', ← ih]
      generalize (fun c : Pool ι ε δ ω α => c.next i)^[n] c = b
      cases hi : (b.threads i).code with
      | step f k => simp [finish, Pool.next, perform, Pool.view, hi]
      | ret a => simp [Pool.next, hi]
      | fail e => simp [Pool.next, hi]

/-- A thread with its answer has nothing to finish. -/
theorem finish_of_answer {i : ι} {r : Except ε α} (h : (c.threads i).answer = some r) :
    c.finish i = c := by
  have hcode := Thread.answer_eq_some.mp h
  have hthread : (⟨(c.threads i).own, Prog.ofExcept r⟩ : Thread ε δ ω α) = c.threads i := by
    rw [← hcode]
  simp only [finish, hcode, Prog.run_ofExcept, view, hthread, Function.update_eq_self]

/-- **A thread ends as it would have ended alone**, on a store that holds nothing but its
part: with the same answer, the same private state and the same part of the store. -/
theorem finished_isolated (happart : Apart H legal)
    (hE : ∀ d d', E d d' → Elsewhere H legal d d') (hc : Settled H legal c)
    (h : Reaches E c c') {i : ι} {r : Except ε α} (hr : (c'.threads i).answer = some r) :
    (c.threads i).code.run ((H i).view (c.view i)) = (r, (H i).view (c'.view i)) := by
  obtain ⟨n, hn⟩ := (reachable_isolated happart hE hc h).2 i
  have hcode' := Thread.answer_eq_some.mp hr
  have halone : (((fun c => c.next i)^[n] c).threads i).answer = some r := by
    rw [Thread.answer_eq_some, ← hn.code]
    exact hcode'
  have hsame : SameFor H i c' (c.finish i) := by
    rw [← finish_iterate c i n, finish_of_answer halone]
    exact hn
  have hrun : ((c.threads i).code.run (c.view i)).1 = r := by
    have hcodes := congrArg (fun code => (code.run (c.view i)).1) hsame.code
    simpa [hcode', finish] using hcodes.symm
  rw [(hc.keeps i).run_view ((happart.legal_iff i _).mpr hc.legal) (hc.minds i), hrun, hsame.view]
  simp [finish, Pool.view]

end Pool

end Concurrent
