import BoundedRefund.Discipline

/-!
# Runs nobody disturbs

A single run on a database of its own is an uninterrupted run of the same programs.  Here
are the runs of the primitives, each alone and at the head of a program.

`Ticks k` collects what a stretch without writes leaves alone; all it does is read
the clock `k` times, trace, record and read.
-/

namespace BoundedRefund

open Concurrent Relational

/-! ## Runs of the primitives -/

namespace Py

variable {α β : Type} (v : World)

@[simp] theorem run_pure (a : α) : (pure a : Py α).run v = (.ok a, v) := rfl

@[simp] theorem run_throw (err : PyError) : (throw err : Py α).run v = (.error err, v) := rfl

@[simp] theorem run_raising (r : Except PyError α) : (Py.raising r).run v = (r, v) :=
  Prog.run_ofExcept r v

@[simp] theorem run_query (g : Database → Except PyError α) :
    (Py.query g).run v = (g v.shared, v) :=
  Prog.run_read _ v

@[simp] theorem run_own (g : Session → α) :
    (Py.own g).run v = (.ok (g v.own.session), v) :=
  Prog.run_read _ v

@[simp] theorem run_update (f : Session → α × Session) :
    (Py.update f).run v = (.ok (f v.own.session).1,
      ⟨v.shared, { v.own with session := (f v.own.session).2 }⟩) :=
  Prog.run_atomically _ v

@[simp] theorem run_touch (f : Session → Session) :
    (Py.touch f).run v = (.ok (), ⟨v.shared, { v.own with session := f v.own.session }⟩) :=
  run_update v _

theorem run_transaction (t : Database → Except PyError (α × Database)) :
    (Py.transaction t).run v = match t v.shared with
      | .ok (a, db) => (.ok a, ⟨db, v.own⟩)
      | .error err => (.error err, v) := by
  refine (Prog.run_atomically _ v).trans ?_
  rcases t v.shared with err | ⟨a, db⟩ <;> rfl

variable {v} {v' : World}

/-- A composition ends in its first part, or goes through it. -/
theorem run_bind_cases {p : Py α} {k : α → Py β} {r : Except PyError β}
    (h : (p >>= k).run v = (r, v')) :
    (∃ err, p.run v = (.error err, v') ∧ r = .error err) ∨
      ∃ a t, p.run v = (.ok a, t) ∧ (k a).run t = (r, v') := by
  rw [Prog.bind_def, Prog.run_bind] at h
  rcases hp : p.run v with ⟨err | a, t⟩
  · simp only [hp, Prod.mk.injEq] at h
    exact Or.inl ⟨err, by rw [h.2], h.1.symm⟩
  · exact Or.inr ⟨a, t, rfl, by simpa [hp] using h⟩

/-- Either nothing was raised, or the handler went on. -/
theorem run_tryCatch_cases {p : Py α} {k : PyError → Py α} {r : Except PyError α}
    (h : (tryCatch p k).run v = (r, v')) :
    (∃ a, p.run v = (.ok a, v') ∧ r = .ok a) ∨
      ∃ err t, p.run v = (.error err, t) ∧ (k err).run t = (r, v') := by
  rw [Prog.tryCatch_def, Prog.run_tryCatch] at h
  rcases hp : p.run v with ⟨err | a, t⟩
  · exact Or.inr ⟨err, t, rfl, by simpa [hp] using h⟩
  · simp only [hp, Prod.mk.injEq] at h
    exact Or.inl ⟨a, by rw [h.2], h.1.symm⟩

/-! At the head of a program. -/

variable {r : Except PyError β}

/-- A look fails, or what it found is gone on with. -/
theorem run_query_bind {g : Database → Except PyError α} {k : α → Py β}
    (h : (Py.query g >>= k).run v = (r, v')) :
    (∃ err, g v.shared = .error err ∧ r = .error err ∧ v' = v) ∨
      ∃ a, g v.shared = .ok a ∧ (k a).run v = (r, v') := by
  obtain ⟨err, hq, rfl⟩ | ⟨a, t, hq, hk⟩ := run_bind_cases h
  · rw [run_query, Prod.mk.injEq] at hq
    exact Or.inl ⟨err, hq.1, rfl, hq.2.symm⟩
  · rw [run_query, Prod.mk.injEq] at hq
    obtain ⟨hg, rfl⟩ := hq
    exact Or.inr ⟨a, hg, hk⟩

/-- So it is with what may raise. -/
theorem run_raising_bind {e : Except PyError α} {k : α → Py β}
    (h : (Py.raising e >>= k).run v = (r, v')) :
    (∃ err, e = .error err ∧ r = .error err ∧ v' = v) ∨
      ∃ a, e = .ok a ∧ (k a).run v = (r, v') := by
  obtain ⟨err, hq, rfl⟩ | ⟨a, t, hq, hk⟩ := run_bind_cases h
  · rw [run_raising, Prod.mk.injEq] at hq
    exact Or.inl ⟨err, hq.1, rfl, hq.2.symm⟩
  · rw [run_raising, Prod.mk.injEq] at hq
    obtain ⟨he, rfl⟩ := hq
    exact Or.inr ⟨a, he, hk⟩

/-- The session is looked at. -/
theorem run_own_bind {g : Session → α} {k : α → Py β}
    (h : (Py.own g >>= k).run v = (r, v')) : (k (g v.own.session)).run v = (r, v') := by
  simpa [Prog.bind_def, Prog.run_bind] using h

/-- It is changed, and answers. -/
theorem run_update_bind {f : Session → α × Session} {k : α → Py β}
    (h : (Py.update f >>= k).run v = (r, v')) :
    (k (f v.own.session).1).run
      ⟨v.shared, { v.own with session := (f v.own.session).2 }⟩ = (r, v') := by
  simpa [Prog.bind_def, Prog.run_bind] using h

/-- It is changed. -/
theorem run_touch_bind {f : Session → Session} {k : Unit → Py β}
    (h : (Py.touch f >>= k).run v = (r, v')) :
    (k ()).run ⟨v.shared, { v.own with session := f v.own.session }⟩ = (r, v') :=
  run_update_bind h

/-- The call learns. -/
theorem run_callLearns_bind {f : Call → Call} {k : Unit → Py β}
    (h : (Py.callLearns f >>= k).run v = (r, v')) :
    (k ()).run ⟨v.shared, { v.own with history := v.own.history.modifyHead f }⟩ = (r, v') := by
  simpa [Py.callLearns, Prog.bind_def, Prog.run_bind] using h

end Py

/-! ## Stretches that write nothing -/

/-- What decides about the failures still to come. -/
def FailureInjector.due (injector : FailureInjector) :
    FailureSpec × (String → Nat) × (String → Nat) :=
  (injector.spec, injector.preCommitFired, injector.postCommitFired)

/-- What every stretch of a run leaves alone. -/
structure Steady (v v' : World) : Prop where
  history : v'.own.history = v.own.history
  sequence : v'.own.session.sequence = v.own.session.sequence
  planner : v'.own.session.planner = v.own.session.planner
  lastExecution : v'.own.session.lastExecution = v.own.session.lastExecution
  audited : v'.own.session.audit.isSome = v.own.session.audit.isSome
  injector : v'.own.session.injector.map FailureInjector.spec =
    v.own.session.injector.map FailureInjector.spec
  readings_le : v.own.session.readings ≤ v'.own.session.readings

/-- Nothing is written and no failure is used up; the clock is read `k` times. -/
structure Ticks (k : Nat) (v v' : World) : Prop extends Steady v v' where
  shared : v'.shared = v.shared
  readings : v'.own.session.readings = v.own.session.readings + k
  due : v'.own.session.injector.map FailureInjector.due =
    v.own.session.injector.map FailureInjector.due

namespace Steady

variable {v v' v'' : World}

theorem refl (v : World) : Steady v v := ⟨rfl, rfl, rfl, rfl, rfl, rfl, le_rfl⟩

theorem trans (h : Steady v v') (h' : Steady v' v'') : Steady v v'' :=
  ⟨h'.history.trans h.history, h'.sequence.trans h.sequence, h'.planner.trans h.planner,
    h'.lastExecution.trans h.lastExecution, h'.audited.trans h.audited,
    h'.injector.trans h.injector, h.readings_le.trans h'.readings_le⟩

end Steady

namespace Ticks

variable {k k' : Nat} {v v' v'' : World}

theorem refl (v : World) : Ticks 0 v v := ⟨Steady.refl v, rfl, rfl, rfl⟩

theorem trans (h : Ticks k v v') (h' : Ticks k' v' v'') : Ticks (k + k') v v'' where
  toSteady := h.toSteady.trans h'.toSteady
  shared := h'.shared.trans h.shared
  readings := by rw [h'.readings, h.readings, Nat.add_assoc]
  due := h'.due.trans h.due

/-- An update of the run's own objects that touches nothing of consequence. -/
theorem of_session {s : Session} (hseq : s.sequence = v.own.session.sequence)
    (hplanner : s.planner = v.own.session.planner)
    (hlast : s.lastExecution = v.own.session.lastExecution)
    (haudit : s.audit.isSome = v.own.session.audit.isSome)
    (hinj : s.injector = v.own.session.injector)
    (hread : s.readings = v.own.session.readings + k) :
    Ticks k v ⟨v.shared, { v.own with session := s }⟩ where
  history := rfl
  sequence := hseq
  planner := hplanner
  lastExecution := hlast
  audited := haudit
  injector := by rw [hinj]
  readings_le := hread ▸ Nat.le_add_right _ _
  shared := rfl
  readings := hread
  due := by rw [hinj]

end Ticks

/-- How often an emission reads the clock. -/
def Session.tick (s : Session) : Nat := if s.audit.isSome then 1 else 0

/-- With a trace every event reads the clock once. -/
theorem Session.tick_of_audited {s : Session} (h : s.audit.isSome = true) : s.tick = 1 := by
  simp [tick, h]

/-- It stays so. -/
theorem Steady.tick {v v' : World} (h : Steady v v') :
    v'.own.session.tick = v.own.session.tick := by
  simp only [Session.tick, h.audited]

section Runs

variable {v v' : World}

/-- The clock is read once. -/
theorem run_now (clock : Clock) {r : Except PyError Instant}
    (h : (Py.now clock).run v = (r, v')) :
    r = .ok (clock v.own.session.readings) ∧ Ticks 1 v v' := by
  rw [Py.now, Py.run_update, Prod.mk.injEq] at h
  obtain ⟨rfl, rfl⟩ := h
  exact ⟨rfl, Ticks.of_session rfl rfl rfl rfl rfl rfl⟩

/-- So it is for an event. -/
theorem run_emit (clock : Clock) (fields : EventFields) {r : Except PyError Unit}
    (h : (Py.emit clock fields).run v = (r, v')) :
    r = .ok () ∧ Ticks v.own.session.tick v v' := by
  rw [Py.emit, Py.run_touch, Prod.mk.injEq] at h
  obtain ⟨rfl, rfl⟩ := h
  refine ⟨rfl, ?_⟩
  cases ha : v.own.session.audit with
  | none =>
      have he : v.own.session.emit clock fields = v.own.session := by
        simp [Session.emit, ha]
      rw [he]
      simpa [Session.tick, ha] using Ticks.refl v
  | some audit =>
      have he : v.own.session.emit clock fields = { v.own.session with
          readings := v.own.session.readings + 1
          audit := some (audit.emit (clock v.own.session.readings) fields) } := by
        simp [Session.emit, ha]
      rw [he]
      exact Ticks.of_session rfl rfl rfl (by simp [ha]) rfl (by simp [Session.tick, ha])

namespace Py

variable {α β : Type} {r : Except PyError β}

theorem run_emit_bind {clock : Clock} {fields : EventFields} {k : Unit → Py β}
    (h : (Py.emit clock fields >>= k).run v = (r, v')) :
    ∃ t, Ticks v.own.session.tick v t ∧ (k ()).run t = (r, v') := by
  obtain ⟨err, he, -⟩ | ⟨_, t, he, hk⟩ := run_bind_cases h
  · cases (run_emit _ _ he).1
  · exact ⟨t, (run_emit _ _ he).2, hk⟩

theorem run_now_bind {clock : Clock} {k : Instant → Py β}
    (h : (Py.now clock >>= k).run v = (r, v')) :
    ∃ t, Ticks 1 v t ∧ (k (clock v.own.session.readings)).run t = (r, v') := by
  obtain ⟨err, he, -⟩ | ⟨now, t, he, hk⟩ := run_bind_cases h
  · cases (run_now _ he).1
  · obtain ⟨hnow, ht⟩ := run_now _ he
    cases hnow
    exact ⟨t, ht, hk⟩

end Py

section ExecutorEmit

variable {e : Executor} {eventType : EventType} {proposal : ActionProposal}
variable {permit : Option ExecutionPermit} {result : Option ExecutionResult}
variable {extra : List (String × PlainValue)}

/-- An event of the executor is written, or its target cannot be resolved. -/
theorem run_executor_emit {r : Except PyError Unit}
    (h : (e.emit eventType proposal permit result extra).run v = (r, v')) :
    (r = .ok () ∧ Ticks v.own.session.tick v v') ∨
      ∃ err, r = .error err ∧ v.shared.resolveTarget proposal = .error err ∧ v' = v := by
  have hk := Py.run_own_bind h
  cases hs : v.own.session.audit.isSome with
  | false =>
      simp only [hs, Bool.false_eq_true, if_false, Py.run_pure, Prod.mk.injEq] at hk
      obtain ⟨rfl, rfl⟩ := hk
      simpa [Session.tick, hs] using Ticks.refl v
  | true =>
      simp only [hs, if_true] at hk
      obtain ⟨err, hq, rfl, rfl⟩ | ⟨target, -, hk⟩ := Py.run_query_bind hk
      · exact Or.inr ⟨err, rfl, hq, rfl⟩
      · exact Or.inl (run_emit _ _ hk)

/-- Where it is written the clock was read for it. -/
theorem run_executor_emit_ok {u : Unit}
    (h : (e.emit eventType proposal permit result extra).run v = (.ok u, v')) :
    Ticks v.own.session.tick v v' := by
  rcases run_executor_emit h with h | ⟨err, hr, -⟩
  · exact h.2
  · cases hr

/-- An executor's emission only fails where its look at the target does. -/
theorem run_executor_emit_error {err : PyError}
    (h : (e.emit eventType proposal permit result extra).run v = (.error err, v')) :
    v.shared.resolveTarget proposal = .error err ∧ v' = v := by
  rcases run_executor_emit h with ⟨hr, -⟩ | ⟨err', hr, hrest⟩
  · cases hr
  · cases hr
    exact hrest

end ExecutorEmit

end Runs

end BoundedRefund
