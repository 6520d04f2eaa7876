import Mathlib.Logic.Relation
import Mathlib.Tactic.TypeStar

/-!
# Interruptible programs

A program that works on a store it shares with others is not a function of the
store it starts from: between any two of its statements somebody else may have
written.  `Prog ε σ α` keeps the statements apart.  A program is finished with a
result, finished with an exception, or about to perform one atomic statement,
after which the rest of it may depend on the state the statement found.

Two readings of the same program are used.

* `Prog.run` performs all statements in a row, nobody interfering.  It is the
  ordinary state-and-exception semantics, and it computes.
* `Prog.wp R G` is the rely/guarantee reading: before every statement the state
  may have moved along `R`, and every statement the program performs is shown to
  move it along `G`.

The first is for witnesses and for a run alone, the second for what holds whatever the
others do.
-/

namespace Concurrent

universe u v w

/-- A program over states `σ` with exceptions `ε` and results `α`.  In `step f k`
the state becomes `f s` in one atomic statement, and the program goes on as
`k s`, where `s` is the state the statement found. -/
inductive Prog (ε : Type u) (σ : Type v) (α : Type w) : Type (max u v w)
  | ret (a : α)
  | fail (e : ε)
  | step (f : σ → σ) (k : σ → Prog ε σ α)

namespace Prog

variable {ε : Type u} {σ : Type v} {α β : Type w}

/-- Sequential composition. -/
def bind (p : Prog ε σ α) (g : α → Prog ε σ β) : Prog ε σ β :=
  match p with
  | ret a => g a
  | fail e => fail e
  | step f k => step f fun s => (k s).bind g

/-- Run `h` on the exception of `p`, if there is one. -/
def tryCatch (p : Prog ε σ α) (h : ε → Prog ε σ α) : Prog ε σ α :=
  match p with
  | ret a => ret a
  | fail e => h e
  | step f k => step f fun s => (k s).tryCatch h

instance : Monad (Prog ε σ) where
  pure := ret
  bind := bind

instance : MonadExceptOf ε (Prog ε σ) where
  throw := fail
  tryCatch := tryCatch

/-- A result that is already known. -/
def ofExcept : Except ε α → Prog ε σ α
  | .ok a => ret a
  | .error e => fail e

/-- One atomic statement: the state transformer `t`, with its result. -/
def atomically (t : σ → Except ε α × σ) : Prog ε σ α :=
  step (fun s => (t s).2) fun s => ofExcept (t s).1

/-- One atomic look at the state. -/
def read (g : σ → Except ε α) : Prog ε σ α :=
  step id fun s => ofExcept (g s)

/-- One atomic update without a result. -/
def modify (f : σ → σ) : Prog ε σ PUnit :=
  step f fun _ => ret ⟨⟩

@[simp] theorem pure_def (a : α) : (pure a : Prog ε σ α) = ret a := rfl

@[simp] theorem bind_def (p : Prog ε σ α) (g : α → Prog ε σ β) :
    p >>= g = p.bind g := rfl

@[simp] theorem throw_def (e : ε) : (throw e : Prog ε σ α) = fail e := rfl

@[simp] theorem tryCatch_def (p : Prog ε σ α) (h : ε → Prog ε σ α) :
    MonadExcept.tryCatch p h = p.tryCatch h := rfl

@[simp] theorem ret_bind (a : α) (g : α → Prog ε σ β) : (ret a).bind g = g a := rfl

@[simp] theorem fail_bind (e : ε) (g : α → Prog ε σ β) :
    (fail e : Prog ε σ α).bind g = fail e := rfl

@[simp] theorem step_bind (f : σ → σ) (k : σ → Prog ε σ α) (g : α → Prog ε σ β) :
    (step f k).bind g = step f fun s => (k s).bind g := rfl

/-- To go on with nothing is to be done. -/
theorem bind_ret (p : Prog ε σ α) : p.bind ret = p := by
  induction p with
  | ret a => rfl
  | fail e => rfl
  | step f k ih => simp [ih]

/-- Parts of a program may be grouped as one likes. -/
theorem bind_assoc {γ : Type w} (p : Prog ε σ α) (g : α → Prog ε σ β)
    (h : β → Prog ε σ γ) :
    (p.bind g).bind h = p.bind fun a => (g a).bind h := by
  induction p with
  | ret a => rfl
  | fail e => rfl
  | step f k ih => simp [ih]

instance : LawfulMonad (Prog ε σ) :=
  LawfulMonad.mk' _ (fun p => bind_ret p) (fun _ _ => rfl) (fun p g h => bind_assoc p g h)

/-! ## The uninterrupted run -/

/-- Perform the whole program, nobody interfering. -/
def run : Prog ε σ α → σ → Except ε α × σ
  | ret a, s => (.ok a, s)
  | fail e, s => (.error e, s)
  | step f k, s => (k s).run (f s)

@[simp] theorem run_ret (a : α) (s : σ) : (ret a : Prog ε σ α).run s = (.ok a, s) := rfl

@[simp] theorem run_fail (e : ε) (s : σ) :
    (fail e : Prog ε σ α).run s = (.error e, s) := rfl

/-- A statement is run on the state it finds. -/
@[simp] theorem run_step (f : σ → σ) (k : σ → Prog ε σ α) (s : σ) :
    (step f k).run s = (k s).run (f s) := rfl

@[simp] theorem run_ofExcept (r : Except ε α) (s : σ) :
    (ofExcept r : Prog ε σ α).run s = (r, s) := by
  cases r <;> rfl

/-- An atomic statement answers and leaves its state. -/
@[simp] theorem run_atomically (t : σ → Except ε α × σ) (s : σ) :
    (atomically t).run s = t s := by
  simp [atomically]

@[simp] theorem run_read (g : σ → Except ε α) (s : σ) :
    (read g).run s = (g s, s) := by
  simp [read]

@[simp] theorem run_modify (f : σ → σ) (s : σ) :
    (modify f : Prog ε σ PUnit).run s = (.ok ⟨⟩, f s) := rfl

/-- The run of a composition goes through the intermediate result and state. -/
theorem run_bind (p : Prog ε σ α) (g : α → Prog ε σ β) (s : σ) :
    (p.bind g).run s =
      match p.run s with
      | (.ok a, s') => (g a).run s'
      | (.error e, s') => (.error e, s') := by
  induction p generalizing s with
  | ret a => rfl
  | fail e => rfl
  | step f k ih => simpa using ih s (f s)

/-- A handler is run on the state the exception left. -/
theorem run_tryCatch (p : Prog ε σ α) (h : ε → Prog ε σ α) (s : σ) :
    (p.tryCatch h).run s =
      match p.run s with
      | (.ok a, s') => (.ok a, s')
      | (.error e, s') => (h e).run s' := by
  induction p generalizing s with
  | ret a => rfl
  | fail e => rfl
  | step f k ih => simpa [tryCatch] using ih s (f s)

/-- A composition that returns has returned from its first part. -/
theorem run_bind_eq_ok {p : Prog ε σ α} {g : α → Prog ε σ β} {s s' : σ} {b : β}
    (h : (p.bind g).run s = (.ok b, s')) :
    ∃ a t, p.run s = (.ok a, t) ∧ (g a).run t = (.ok b, s') := by
  rw [run_bind] at h
  rcases hp : p.run s with ⟨_ | a, t⟩
  · simp [hp] at h
  · exact ⟨a, t, rfl, by simpa [hp] using h⟩

/-! ## Rely and guarantee -/

/-- `wp R G p Q s`: started in `s`, whatever the others do along `R` before each
of its statements, `p` moves the state only along `G` and ends in `Q`. -/
def wp (R G : σ → σ → Prop) : Prog ε σ α → (Except ε α → σ → Prop) → σ → Prop
  | ret a, Q, s => Q (.ok a) s
  | fail e, Q, s => Q (.error e) s
  | step f k, Q, s => ∀ s', R s s' → G s' (f s') ∧ wp R G (k s') Q (f s')

variable {R G : σ → σ → Prop} {Q : Except ε α → σ → Prop} {s : σ}

@[simp] theorem wp_ret (a : α) : wp R G (ret a) Q s ↔ Q (.ok a) s := Iff.rfl

@[simp] theorem wp_fail (e : ε) : wp R G (fail e) Q s ↔ Q (.error e) s := Iff.rfl

/-- A statement is run on any state the others may leave. -/
theorem wp_step (f : σ → σ) (k : σ → Prog ε σ α) :
    wp R G (step f k) Q s ↔ ∀ s', R s s' → G s' (f s') ∧ wp R G (k s') Q (f s') :=
  Iff.rfl

@[simp] theorem wp_ofExcept (r : Except ε α) :
    wp R G (ofExcept r) Q s ↔ Q r s := by
  cases r <;> exact Iff.rfl

/-- So is an atomic one, and it guarantees its step. -/
theorem wp_atomically (t : σ → Except ε α × σ) :
    wp R G (atomically t) Q s ↔ ∀ s', R s s' → G s' (t s').2 ∧ Q (t s').1 (t s').2 := by
  simp [atomically, wp_step]

/-- A look guarantees that nothing changed. -/
theorem wp_read (g : σ → Except ε α) :
    wp R G (read g) Q s ↔ ∀ s', R s s' → G s' s' ∧ Q (g s') s' := by
  simp [read, wp_step]

theorem wp_modify (f : σ → σ) {Q : Except ε PUnit → σ → Prop} :
    wp R G (modify f) Q s ↔ ∀ s', R s s' → G s' (f s') ∧ Q (.ok ⟨⟩) (f s') := by
  simp [modify, wp_step]

/-- The rule for sequential composition. -/
theorem wp_bind (p : Prog ε σ α) (g : α → Prog ε σ β) {Q : Except ε β → σ → Prop} :
    wp R G (p.bind g) Q s ↔
      wp R G p (fun r t => match r with
        | .ok a => wp R G (g a) Q t
        | .error e => Q (.error e) t) s := by
  induction p generalizing s with
  | ret a => rfl
  | fail e => rfl
  | step f k ih => simp [wp_step, ih]

/-- The rule for exception handlers. -/
theorem wp_tryCatch (p : Prog ε σ α) (h : ε → Prog ε σ α) :
    wp R G (p.tryCatch h) Q s ↔
      wp R G p (fun r t => match r with
        | .ok a => Q (.ok a) t
        | .error e => wp R G (h e) Q t) s := by
  induction p generalizing s with
  | ret a => rfl
  | fail e => rfl
  | step f k ih => simp [wp_step, tryCatch, ih]

/-- The rule of consequence. -/
theorem wp_mono {p : Prog ε σ α} {Q' : Except ε α → σ → Prop}
    (hQ : ∀ r t, Q r t → Q' r t) (h : wp R G p Q s) : wp R G p Q' s := by
  induction p generalizing s with
  | ret a => exact hQ _ _ h
  | fail e => exact hQ _ _ h
  | step f k ih => exact fun s' hs' => ⟨(h s' hs').1, ih s' (h s' hs').2⟩

/-- Interference before the program starts is interference before its first
statement. -/
theorem wp_rely {p : Prog ε σ α} (hR : ∀ t t' t'', R t t' → R t' t'' → R t t'')
    (hQ : ∀ r t t', R t t' → Q r t → Q r t') {s' : σ} (hs : R s s')
    (h : wp R G p Q s) : wp R G p Q s' := by
  cases p with
  | ret a => exact hQ _ _ _ hs h
  | fail e => exact hQ _ _ _ hs h
  | step f k => exact fun s'' hs'' => h s'' (hR _ _ _ hs hs'')

end Prog

end Concurrent
