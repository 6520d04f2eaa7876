import BoundedRefund.Concurrent.Coupled
import BoundedRefund.Concurrent.Pool

/-!
# What a thread makes of what it finds

All a thread learns of the others is the store each of its statements finds.  `Prog.meet p o found`
lets a program meet a list of stores, one for each statement, and tells which stores it leaves
behind and how far it gets.

A thread can therefore be replaced by any other that leaves the same stores behind when it finds
the same (`Pool.reaches_alike`): where one pool goes, the other can follow.  `Prog.Lockstep` is the
usual reason for that, two programs that take the same steps on related private states.
`Prog.Foretold` is a weaker one.  The second program may need a list of words to do what the first
does, and which words these are may depend on everything the first will find.
-/

namespace Concurrent

universe u v w x y

variable {ε : Type u} {δ : Type v} {ω ω' : Type w} {α β : Type x}

/-- How far a program gets: it waits before its next statement, or it is done and some of the
stores are left over. -/
inductive Progress (ε : Type u) (δ : Type v) (ω : Type w) (α : Type x)
  | waiting (own : ω)
  | done (result : Except ε α) (own : ω) (unmet : List δ)

namespace Prog

/-- The stores a program leaves behind when its statements find the given ones, and how far it
gets with them. -/
def meet : Prog ε (View δ ω) α → ω → List δ → List δ × Progress ε δ ω α
  | ret a, o, found => ([], .done (.ok a) o found)
  | fail e, o, found => ([], .done (.error e) o found)
  | step _ _, o, [] => ([], .waiting o)
  | step f k, o, d :: found =>
      let rest := (k ⟨d, o⟩).meet (f ⟨d, o⟩).own found
      ((f ⟨d, o⟩).shared :: rest.1, rest.2)

variable {p : Prog ε (View δ ω) α} {o : ω} {found : List δ}

/-- A program that is done meets nothing. -/
@[simp] theorem meet_ret (a : α) (o : ω) (found : List δ) :
    (ret a : Prog ε (View δ ω) α).meet o found = ([], .done (.ok a) o found) := by
  simp [meet]

/-- Nor does one that has raised. -/
@[simp] theorem meet_fail (e : ε) (o : ω) (found : List δ) :
    (fail e : Prog ε (View δ ω) α).meet o found = ([], .done (.error e) o found) := by
  simp [meet]

/-- A statement waits for the database it is to meet. -/
@[simp] theorem meet_step_nil (f : View δ ω → View δ ω) (k : View δ ω → Prog ε (View δ ω) α)
    (o : ω) : (step f k).meet o [] = ([], .waiting o) := by
  simp [meet]

/-- It takes the next one, and leaves its own behind. -/
@[simp] theorem meet_step_cons (f : View δ ω → View δ ω) (k : View δ ω → Prog ε (View δ ω) α)
    (o : ω) (d : δ) (found : List δ) : (step f k).meet o (d :: found) =
      ((f ⟨d, o⟩).shared :: ((k ⟨d, o⟩).meet (f ⟨d, o⟩).own found).1,
        ((k ⟨d, o⟩).meet (f ⟨d, o⟩).own found).2) := by
  simp [meet]

@[simp] theorem meet_ofExcept (r : Except ε α) (o : ω) (found : List δ) :
    (ofExcept r : Prog ε (View δ ω) α).meet o found = ([], .done r o found) := by
  cases r <;> simp [ofExcept]

/-- A composition goes on with what its first part has not met. -/
theorem meet_bind (k : α → Prog ε (View δ ω) β) : (p >>= k).meet o found =
    match p.meet o found with
    | (left, .waiting o') => (left, .waiting o')
    | (left, .done (.error e) o' unmet) => (left, .done (.error e) o' unmet)
    | (left, .done (.ok a) o' unmet) =>
        (left ++ ((k a).meet o' unmet).1, ((k a).meet o' unmet).2) := by
  rw [bind_def]
  induction p generalizing o found with
  | ret a => simp
  | fail e => simp
  | step f g ih =>
      cases found with
      | nil => simp
      | cons d found =>
          simp only [step_bind, meet_step_cons, ih]
          rcases (g ⟨d, o⟩).meet (f ⟨d, o⟩).own found with ⟨left, own | ⟨e | a, own, unmet⟩⟩ <;> rfl

/-- A handler goes on with what was not met yet. -/
theorem meet_tryCatch (h : ε → Prog ε (View δ ω) α) : (MonadExcept.tryCatch p h).meet o found =
    match p.meet o found with
    | (left, .waiting o') => (left, .waiting o')
    | (left, .done (.ok a) o' unmet) => (left, .done (.ok a) o' unmet)
    | (left, .done (.error e) o' unmet) =>
        (left ++ ((h e).meet o' unmet).1, ((h e).meet o' unmet).2) := by
  rw [tryCatch_def]
  induction p generalizing o found with
  | ret a => simp [Prog.tryCatch]
  | fail e => simp [Prog.tryCatch]
  | step f g ih =>
      cases found with
      | nil => simp [Prog.tryCatch]
      | cons d found =>
          simp only [Prog.tryCatch, meet_step_cons, ih]
          rcases (g ⟨d, o⟩).meet (f ⟨d, o⟩).own found with ⟨left, own | ⟨e | a, own, unmet⟩⟩ <;> rfl

/-- With what it finds the program raises this exception. -/
def Raises (e : ε) (p : Prog ε (View δ ω) α) (o : ω) (found : List δ) : Prop :=
  ∃ o' unmet, (p.meet o found).2 = .done (.error e) o' unmet

/-- What raises first raises. -/
theorem Raises.bind {e : ε} {k : α → Prog ε (View δ ω) β} (h : p.Raises e o found) :
    (p >>= k).Raises e o found := by
  obtain ⟨o', unmet, hmeet⟩ := h
  refine ⟨o', unmet, ?_⟩
  rw [meet_bind]
  rcases hp : p.meet o found with ⟨left, progress⟩
  rw [hp] at hmeet
  cases hmeet
  rfl

/-- What raises behind a part that is done raises. -/
theorem Raises.after {e : ε} {a : α} {o₁ : ω} {unmet : List δ} {k : α → Prog ε (View δ ω) β}
    (hdone : (p.meet o found).2 = .done (.ok a) o₁ unmet) (h : (k a).Raises e o₁ unmet) :
    (p >>= k).Raises e o found := by
  obtain ⟨o', unmet', hmeet⟩ := h
  refine ⟨o', unmet', ?_⟩
  rw [meet_bind]
  rcases hp : p.meet o found with ⟨left, progress⟩
  rw [hp] at hdone
  cases hdone
  exact hmeet

end Prog

/-! ## Threads that can stand in for others -/

/-- What a thread makes of what it finds. -/
def Thread.meet (t : Thread ε δ ω α) (found : List δ) : List δ × Progress ε δ ω α :=
  t.code.meet t.own found

/-- The thread has got this far. -/
def Thread.StandsAt (t : Thread ε δ ω α) : Progress ε δ ω α → Prop
  | .waiting o => t.own = o ∧ t.answer = none
  | .done r o _ => t.own = o ∧ t.answer = some r

/-- Every thread stands where its program waits. -/
theorem Thread.standsAt_meet (t : Thread ε δ ω α) : t.StandsAt (t.meet []).2 := by
  cases hcode : t.code <;> simp [Thread.meet, Thread.StandsAt, Thread.answer, hcode]

namespace Pool

variable {ι : Type y} [DecidableEq ι] {E : δ → δ → Prop}

/-- The thread that moves finds the store as it is now. -/
theorem meet_perform {c : Pool ι ε δ ω α} {i : ι} {f : View δ ω → View δ ω}
    {k : View δ ω → Prog ε (View δ ω) α} (code : (c.threads i).code = .step f k)
    (found : ι → List δ) (j : ι) :
    (c.threads j).meet (Function.update found i (c.shared :: found i) j) =
      (if j = i then (c.perform i f k).shared :: (((c.perform i f k).threads j).meet (found j)).1
        else (((c.perform i f k).threads j).meet (found j)).1,
      (((c.perform i f k).threads j).meet (found j)).2) := by
  by_cases hj : j = i
  · subst hj
    simp [Thread.meet, code, perform, view]
  · simp [Thread.meet, perform, hj]

/-- **Where a pool goes, one that leaves the same stores can follow.**  Along any interleaving
each thread finds certain stores; a pool whose threads leave the same stores behind when they
find those reaches the same store. -/
theorem reaches_alike (ω' : Type w) (β : Type x) {c c' : Pool ι ε δ ω α} (h : Reaches E c c') :
    ∃ found : ι → List δ, (∀ i, (c'.threads i).StandsAt ((c.threads i).meet (found i)).2) ∧
      ∀ d : Pool ι ε δ ω' β, d.shared = c.shared →
        (∀ i, ((d.threads i).meet (found i)).1 = ((c.threads i).meet (found i)).1) →
        ∃ d', Reaches E d d' ∧ d'.shared = c'.shared ∧
          ∀ i, (d'.threads i).StandsAt ((d.threads i).meet (found i)).2 := by
  induction h using Relation.ReflTransGen.head_induction_on with
  | refl =>
      exact ⟨fun _ => [], fun i => Thread.standsAt_meet _,
        fun d hd _ => ⟨d, .refl, hd, fun i => Thread.standsAt_meet _⟩⟩
  | @head b c₁ hstep _ ih =>
      obtain ⟨found, hstands, hfollow⟩ := ih
      cases hstep with
      | @env shared henv =>
          refine ⟨found, hstands, fun d hd hsame => ?_⟩
          obtain ⟨d', hreach, hshared, hstands'⟩ := hfollow { d with shared := shared } rfl hsame
          refine ⟨d', .head (.env ?_) hreach, hshared, hstands'⟩
          rw [hd]
          exact henv
      | act i hact =>
          obtain ⟨f, k, code⟩ := hact
          -- thread `i` finds the store its statement was performed on, the others what they found
          refine ⟨Function.update found i (b.shared :: found i), fun j => ?_, fun d hd hsame => ?_⟩
          · rw [meet_perform code]
            exact hstands j
          rw [← hd] at hsame
          have hi := hsame i
          rw [hd, meet_perform code, if_pos rfl, Function.update_self] at hi
          cases hcode : (d.threads i).code with
          | ret a => simp [Thread.meet, hcode] at hi
          | fail e => simp [Thread.meet, hcode] at hi
          | step f' k' =>
              have hsame' : ∀ j, (if j = i then (d.perform i f' k').shared ::
                    (((d.perform i f' k').threads j).meet (found j)).1
                  else (((d.perform i f' k').threads j).meet (found j)).1) =
                  if j = i then (b.perform i f k).shared ::
                    (((b.perform i f k).threads j).meet (found j)).1
                  else (((b.perform i f k).threads j).meet (found j)).1 := by
                intro j
                have hj := hsame j
                rw [meet_perform hcode, hd, meet_perform code] at hj
                exact hj
              have hnext := hsame' i
              rw [if_pos rfl, if_pos rfl, List.cons.injEq] at hnext
              obtain ⟨d', hreach, hshared, hstands'⟩ := hfollow (d.perform i f' k') hnext.1
                fun j => by
                  by_cases hj : j = i
                  · subst hj
                    exact hnext.2
                  · have := hsame' j
                    rwa [if_neg hj, if_neg hj] at this
              refine ⟨d', .head (.act i (.intro f' k' hcode)) hreach, hshared, fun j => ?_⟩
              rw [← hd, meet_perform hcode]
              exact hstands' j

end Pool

/-! ## Programs that do alike -/

/-- Both wait in states related by `W`, have returned related results in states related by `S`,
or have raised the same exception. -/
inductive Progress.Rel (W S : ω → ω' → Prop) (A : α → β → Prop) :
    Progress ε δ ω α → Progress ε δ ω' β → Prop
  | waiting {o : ω} {o' : ω'} (h : W o o') : Rel W S A (.waiting o) (.waiting o')
  | returned {a : α} {b : β} {o : ω} {o' : ω'} (unmet : List δ) (related : A a b) (h : S o o') :
      Rel W S A (.done (.ok a) o unmet) (.done (.ok b) o' unmet)
  | raised {o : ω} {o' : ω'} (unmet : List δ) (e : ε) (h : W o o') :
      Rel W S A (.done (.error e) o unmet) (.done (.error e) o' unmet)

/-- The same stores are left behind, and the progress is related. -/
structure Alike (W S : ω → ω' → Prop) (A : α → β → Prop) (x : List δ × Progress ε δ ω α)
    (y : List δ × Progress ε δ ω' β) : Prop where
  left : y.1 = x.1
  progress : Progress.Rel W S A x.2 y.2

/-- Threads that have got so far are in related states, with the same answer or with none. -/
theorem Progress.Rel.standsAt {W : ω → ω' → Prop} {x : Progress ε δ ω α} {y : Progress ε δ ω' α}
    (h : Progress.Rel W W Eq x y) {t : Thread ε δ ω α} {t' : Thread ε δ ω' α}
    (ht : t.StandsAt x) (ht' : t'.StandsAt y) : W t.own t'.own ∧ t'.answer = t.answer := by
  cases h with
  | waiting h => exact ⟨ht.1 ▸ ht'.1 ▸ h, ht'.2.trans ht.2.symm⟩
  | returned unmet related h =>
      cases related
      exact ⟨ht.1 ▸ ht'.1 ▸ h, ht'.2.trans ht.2.symm⟩
  | raised unmet e h => exact ⟨ht.1 ▸ ht'.1 ▸ h, ht'.2.trans ht.2.symm⟩

namespace Alike

variable {α' β' : Type x} {W W' S S' : ω → ω' → Prop} {A : α → β → Prop} {B : α' → β' → Prop}
variable {p : Prog ε (View δ ω) α} {q : Prog ε (View δ ω') β} {o : ω} {o' : ω'} {found : List δ}

/-- Encounters stay alike under weaker relations. -/
theorem mono {x : List δ × Progress ε δ ω α} {y : List δ × Progress ε δ ω' β}
    (h : Alike W S A x y) (hW : ∀ o o', W o o' → W' o o') (hS : ∀ o o', S o o' → S' o o') :
    Alike W' S' A x y := by
  obtain ⟨left, progress⟩ := x
  obtain ⟨left', progress'⟩ := y
  obtain ⟨hleft, hprogress⟩ := h
  refine ⟨hleft, ?_⟩
  cases hprogress with
  | waiting h => exact .waiting (hW _ _ h)
  | returned unmet related h => exact .returned unmet related (hS _ _ h)
  | raised unmet e h => exact .raised unmet e (hW _ _ h)

/-- Encounters are alike where their parts are. -/
theorem bind {k : α → Prog ε (View δ ω) α'} {l : β → Prog ε (View δ ω') β'}
    (h : Alike W S A (p.meet o found) (q.meet o' found))
    (hkl : ∀ a b o₁ o₁' unmet, (p.meet o found).2 = .done (.ok a) o₁ unmet → A a b → S o₁ o₁' →
      Alike W S' B ((k a).meet o₁ unmet) ((l b).meet o₁' unmet)) :
    Alike W S' B ((p >>= k).meet o found) ((q >>= l).meet o' found) := by
  rw [Prog.meet_bind, Prog.meet_bind]
  rcases hp : p.meet o found with ⟨left, progress⟩
  rcases hq : q.meet o' found with ⟨left', progress'⟩
  rw [hp, hq] at h
  rw [hp] at hkl
  obtain ⟨hleft, hprogress⟩ := h
  cases hleft
  cases hprogress with
  | waiting h => exact ⟨rfl, .waiting h⟩
  | raised unmet e h => exact ⟨rfl, .raised unmet e h⟩
  | returned unmet related h =>
      obtain ⟨hrest, hend⟩ := hkl _ _ _ _ _ rfl related h
      exact ⟨congrArg (left ++ ·) hrest, hend⟩

/-- So they are where the handlers are. -/
theorem tryCatch {k : ε → Prog ε (View δ ω) α} {l : ε → Prog ε (View δ ω') β}
    (h : Alike W S A (p.meet o found) (q.meet o' found))
    (hkl : ∀ e o₁ o₁' unmet, W o₁ o₁' →
      Alike W S A ((k e).meet o₁ unmet) ((l e).meet o₁' unmet)) :
    Alike W S A ((MonadExcept.tryCatch p k).meet o found)
      ((MonadExcept.tryCatch q l).meet o' found) := by
  rw [Prog.meet_tryCatch, Prog.meet_tryCatch]
  rcases hp : p.meet o found with ⟨left, progress⟩
  rcases hq : q.meet o' found with ⟨left', progress'⟩
  rw [hp, hq] at h
  obtain ⟨hleft, hprogress⟩ := h
  cases hleft
  cases hprogress with
  | waiting h => exact ⟨rfl, .waiting h⟩
  | returned unmet related h => exact ⟨rfl, .returned unmet related h⟩
  | raised unmet e h =>
      obtain ⟨hrest, hend⟩ := hkl e _ _ _ h
      exact ⟨congrArg (left ++ ·) hrest, hend⟩

/-- One statement on each side, on the same database. -/
theorem atomically {t : View δ ω → Except ε α × View δ ω} {u : View δ ω' → Except ε β × View δ ω'}
    (hwait : W o o') (hSW : ∀ o o', S o o' → W o o')
    (h : ∀ d, (u ⟨d, o'⟩).2.shared = (t ⟨d, o⟩).2.shared ∧
      Agree A (t ⟨d, o⟩).1 (u ⟨d, o'⟩).1 ∧ S (t ⟨d, o⟩).2.own (u ⟨d, o'⟩).2.own) :
    Alike W S A ((Prog.atomically t).meet o found) ((Prog.atomically u).meet o' found) := by
  cases found with
  | nil => exact ⟨by simp [Prog.atomically], by simpa [Prog.atomically] using .waiting hwait⟩
  | cons d found =>
      obtain ⟨hshared, hagree, hown⟩ := h d
      simp only [Prog.atomically, Prog.meet_step_cons, Prog.meet_ofExcept]
      refine ⟨by rw [hshared], ?_⟩
      revert hagree
      generalize (t ⟨d, o⟩).1 = r
      generalize (u ⟨d, o'⟩).1 = r'
      intro hagree
      cases hagree with
      | ok related => exact .returned found related hown
      | error e => exact .raised found e (hSW _ _ hown)

end Alike

namespace Prog

/-- On related private states the programs do alike, whatever they find. -/
def Lockstep (S : ω → ω' → Prop) (A : α → β → Prop) (p : Prog ε (View δ ω) α)
    (q : Prog ε (View δ ω') β) : Prop :=
  ∀ o o' found, S o o' → Alike S S A (p.meet o found) (q.meet o' found)

namespace Lockstep

variable {S : ω → ω' → Prop} {A : α → β → Prop}

theorem ret {a : α} {b : β} (h : A a b) :
    Lockstep S A (pure a : Prog ε (View δ ω) α) (pure b : Prog ε (View δ ω') β) := by
  intro o o' found hs
  simp only [pure_def, meet_ret]
  exact ⟨rfl, .returned found h hs⟩

theorem fail (e : ε) :
    Lockstep S A (throw e : Prog ε (View δ ω) α) (throw e : Prog ε (View δ ω') β) := by
  intro o o' found hs
  simp only [throw_def, meet_fail]
  exact ⟨rfl, .raised found e hs⟩

theorem atomically {t : View δ ω → Except ε α × View δ ω}
    {u : View δ ω' → Except ε β × View δ ω'}
    (h : ∀ d o o', S o o' → (u ⟨d, o'⟩).2.shared = (t ⟨d, o⟩).2.shared ∧
      Agree A (t ⟨d, o⟩).1 (u ⟨d, o'⟩).1 ∧ S (t ⟨d, o⟩).2.own (u ⟨d, o'⟩).2.own) :
    Lockstep S A (atomically t) (atomically u) :=
  fun o o' _ hs => Alike.atomically hs (fun _ _ h => h) fun d => h d o o' hs

theorem read {g : View δ ω → Except ε α} {g' : View δ ω' → Except ε β}
    (h : ∀ d o o', S o o' → Agree A (g ⟨d, o⟩) (g' ⟨d, o'⟩)) :
    Lockstep S A (read g) (read g') :=
  atomically (t := fun v => (g v, v)) (u := fun v => (g' v, v))
    fun d o o' hs => ⟨rfl, h d o o' hs, hs⟩

theorem modify {f : View δ ω → View δ ω} {f' : View δ ω' → View δ ω'}
    (h : ∀ d o o', S o o' → (f' ⟨d, o'⟩).shared = (f ⟨d, o⟩).shared ∧
      S (f ⟨d, o⟩).own (f' ⟨d, o'⟩).own) :
    Lockstep S Eq (modify f : Prog ε (View δ ω) PUnit) (modify f') :=
  atomically (t := fun v => (.ok PUnit.unit, f v)) (u := fun v => (.ok PUnit.unit, f' v))
    fun d o o' hs =>
    ⟨(h d o o' hs).1, .ok rfl, (h d o o' hs).2⟩

/-- The rule for sequential composition. -/
theorem bind {α' β' : Type x} {B : α' → β' → Prop} {p : Prog ε (View δ ω) α}
    {q : Prog ε (View δ ω') β} {k : α → Prog ε (View δ ω) α'} {l : β → Prog ε (View δ ω') β'}
    (h : Lockstep S A p q) (hkl : ∀ a b, A a b → Lockstep S B (k a) (l b)) :
    Lockstep S B (p >>= k) (q >>= l) :=
  fun o o' found hs => (h o o' found hs).bind fun a b o₁ o₁' unmet _ hab hs' =>
    hkl a b hab o₁ o₁' unmet hs'

/-- The same rule where the first results are the same. -/
theorem bind_eq {α' β' : Type x} {B : α' → β' → Prop} {p : Prog ε (View δ ω) α}
    {q : Prog ε (View δ ω') α} {k : α → Prog ε (View δ ω) α'} {l : α → Prog ε (View δ ω') β'}
    (h : Lockstep S Eq p q) (hkl : ∀ a, Lockstep S B (k a) (l a)) :
    Lockstep S B (p >>= k) (q >>= l) := by
  refine h.bind ?_
  rintro a _ rfl
  exact hkl a

/-- The rule for exception handlers. -/
theorem tryCatch {p : Prog ε (View δ ω) α} {q : Prog ε (View δ ω') β}
    {k : ε → Prog ε (View δ ω) α} {l : ε → Prog ε (View δ ω') β} (h : Lockstep S A p q)
    (hkl : ∀ e, Lockstep S A (k e) (l e)) :
    Lockstep S A (MonadExcept.tryCatch p k) (MonadExcept.tryCatch q l) :=
  fun o o' found hs => (h o o' found hs).tryCatch fun e o₁ o₁' unmet hs' =>
    hkl e o₁ o₁' unmet hs'

end Lockstep

/-! ## Words that are foretold -/

section Foretold

variable {ρ : Type w} {S : List ρ → ω → ω' → Prop}

/-- With the words `words` to use up, `q` does what `p` does from `o` on when it finds `found`,
and what words there are beyond them are left. -/
def Told (S : List ρ → ω → ω' → Prop) (p : Prog ε (View δ ω) α) (q : Prog ε (View δ ω') α)
    (o : ω) (found : List δ) (words : List ρ) : Prop :=
  ∀ (rest : List ρ) (o' : ω'), S (words ++ rest) o o' →
    Alike (fun o o' => ∃ words, S words o o') (S rest) Eq (p.meet o found) (q.meet o' found)

/-- With exactly these words `q` does what `p` does, whatever words are left in the end. -/
def Exactly (S : List ρ → ω → ω' → Prop) (p : Prog ε (View δ ω) α) (q : Prog ε (View δ ω') α)
    (o : ω) (found : List δ) (words : List ρ) : Prop :=
  ∀ o', S words o o' →
    Alike (fun o o' => ∃ words, S words o o') (fun o o' => ∃ words, S words o o') Eq
      (p.meet o found) (q.meet o' found)

/-- Whatever `p` will find, some words make `q` do the same. -/
def Foretold (S : List ρ → ω → ω' → Prop) (p : Prog ε (View δ ω) α) (q : Prog ε (View δ ω') α) :
    Prop :=
  ∀ o found, ∃ words, Told S p q o found words

variable {p : Prog ε (View δ ω) α} {q : Prog ε (View δ ω') α} {words words' : List ρ}
variable {k : α → Prog ε (View δ ω) β} {l : α → Prog ε (View δ ω') β} {o : ω} {found : List δ}

/-- A program in lockstep needs no words. -/
theorem Lockstep.told (h : ∀ words, Lockstep (S words) Eq p q) (o : ω) (found : List δ) :
    Told S p q o found [] :=
  fun rest o' hs => (h rest o o' found hs).mono (fun _ _ hs => ⟨rest, hs⟩) fun _ _ hs => hs

/-- Programs in lockstep need no word foretold. -/
theorem Lockstep.foretold (h : ∀ words, Lockstep (S words) Eq p q) : Foretold S p q :=
  fun o found => ⟨[], Lockstep.told h o found⟩

/-- Nor do they speak one. -/
theorem Lockstep.exactly (h : ∀ words, Lockstep (S words) Eq p q) (o : ω) (found : List δ)
    (words : List ρ) : Exactly S p q o found words :=
  fun o' hs => (h words o o' found hs).mono (fun _ _ hs => ⟨words, hs⟩) fun _ _ hs => ⟨words, hs⟩

/-- First the words of the first part, then those of the second. -/
theorem Told.bind (h : Told S p q o found words)
    (hkl : ∀ a o₁ unmet, (p.meet o found).2 = .done (.ok a) o₁ unmet →
      Told S (k a) (l a) o₁ unmet words') :
    Told S (p >>= k) (q >>= l) o found (words ++ words') := by
  intro rest o' hs
  rw [List.append_assoc] at hs
  refine (h _ o' hs).bind ?_
  rintro a _ o₁ o₁' unmet hdone rfl hs'
  exact hkl a o₁ unmet hdone rest o₁' hs'

/-- What was told first is followed by what is told then. -/
theorem Told.bind_exactly (h : Told S p q o found words)
    (hkl : ∀ a o₁ unmet, (p.meet o found).2 = .done (.ok a) o₁ unmet →
      Exactly S (k a) (l a) o₁ unmet words') :
    Exactly S (p >>= k) (q >>= l) o found (words ++ words') := by
  intro o' hs
  refine (h _ o' hs).bind ?_
  rintro a _ o₁ o₁' unmet hdone rfl hs'
  exact hkl a o₁ unmet hdone o₁' hs'

/-- The words spoken are those of the first part, then those of the second. -/
theorem Exactly.bind (h : Exactly S p q o found words)
    (hkl : ∀ a o₁ unmet words, (p.meet o found).2 = .done (.ok a) o₁ unmet →
      Exactly S (k a) (l a) o₁ unmet words) :
    Exactly S (p >>= k) (q >>= l) o found words := by
  intro o' hs
  refine (h o' hs).bind ?_
  rintro a _ o₁ o₁' unmet hdone rfl ⟨left, hs'⟩
  exact hkl a o₁ unmet left hdone o₁' hs'

/-- What comes after a first part that does not get to its end needs no words. -/
theorem exists_words (p : Prog ε (View δ ω) α) (o : ω) (found : List δ)
    {P : α → ω → List δ → List ρ → Prop}
    (h : ∀ a o₁ unmet, (p.meet o found).2 = .done (.ok a) o₁ unmet → ∃ words, P a o₁ unmet words) :
    ∃ words, ∀ a o₁ unmet, (p.meet o found).2 = .done (.ok a) o₁ unmet → P a o₁ unmet words := by
  rcases hp : (p.meet o found).2 with own | ⟨e | a, own, unmet⟩
  · exact ⟨[], fun _ _ _ hdone => by cases hdone⟩
  · exact ⟨[], fun _ _ _ hdone => by cases hdone⟩
  · obtain ⟨words, hwords⟩ := h a own unmet hp
    refine ⟨words, fun _ _ _ hdone => ?_⟩
    cases hdone
    exact hwords

/-- The words of a composition are those of its parts. -/
theorem Foretold.bind (h : Foretold S p q) (hkl : ∀ a, Foretold S (k a) (l a)) :
    Foretold S (p >>= k) (q >>= l) := by
  intro o found
  obtain ⟨words, hwords⟩ := h o found
  obtain ⟨words', hwords'⟩ := exists_words p o found
    fun a o₁ unmet _ => hkl a o₁ unmet
  exact ⟨words ++ words', hwords.bind hwords'⟩

/-- The same where the second part does so unless it raises `e`. -/
theorem Foretold.bind_exactly {e : ε} (h : Foretold S p q)
    (hraises : ¬ (p >>= k).Raises e o found)
    (hkl : ∀ a o₁ unmet, ¬ (k a).Raises e o₁ unmet →
      ∃ words, Exactly S (k a) (l a) o₁ unmet words) :
    ∃ words, Exactly S (p >>= k) (q >>= l) o found words := by
  obtain ⟨words, hwords⟩ := h o found
  obtain ⟨words', hwords'⟩ := exists_words p o found
    fun a o₁ unmet hdone => hkl a o₁ unmet fun h => hraises (.after hdone h)
  exact ⟨words ++ words', hwords.bind_exactly hwords'⟩

end Foretold

/-! ## A state beside the private one -/

/-- The program, with more private state that it does not touch. -/
def beside (π : Type w) : Prog ε (View δ ω) α → Prog ε (View δ (ω × π)) α
  | ret a => ret a
  | fail e => fail e
  | step f k =>
    step (fun v => ⟨(f ⟨v.shared, v.own.1⟩).shared, (f ⟨v.shared, v.own.1⟩).own, v.own.2⟩)
      fun v => (k ⟨v.shared, v.own.1⟩).beside π

/-- It is in lockstep with whatever the program is in lockstep with. -/
theorem Lockstep.beside {π : Type w} {S : ω → ω' → Prop} {A : α → β → Prop}
    {p : Prog ε (View δ ω) α} {q : Prog ε (View δ ω') β} (h : Lockstep S A p q) :
    Lockstep (fun o o' => S o.1 o') A (p.beside π) q := by
  have hmeet : ∀ (p : Prog ε (View δ ω) α) (o : ω) (s : π) (found : List δ),
      (p.beside π).meet (o, s) found = ((p.meet o found).1, match (p.meet o found).2 with
        | .waiting o' => .waiting (o', s)
        | .done r o' unmet => .done r (o', s) unmet) := by
    intro p
    induction p with
    | ret a => intro o s found; simp [Prog.beside]
    | fail e => intro o s found; simp [Prog.beside]
    | step f k ih =>
        intro o s found
        cases found with
        | nil => simp [Prog.beside]
        | cons d found => simp [Prog.beside, ih]
  rintro ⟨o, s⟩ o' found hs
  obtain ⟨hleft, hprogress⟩ := h o o' found hs
  rw [hmeet]
  refine ⟨hleft, ?_⟩
  revert hprogress
  generalize (p.meet o found).2 = progress
  generalize (q.meet o' found).2 = progress'
  intro hprogress
  cases hprogress with
  | waiting h => exact .waiting h
  | returned unmet related h => exact .returned unmet related h
  | raised unmet e h => exact .raised unmet e h

end Prog

end Concurrent
