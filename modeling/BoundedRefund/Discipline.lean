import BoundedRefund.Commit

/-!
# What a statement may do

Issuers and executors run next to others on one database.  `Statement A G` lists what
a single statement of theirs can do to it: nothing, issue a permit, make an injected
change among `A`, or commit an execution that has the grounds `G`.

`issuePermit_spec` and `execute_spec` show that this is all they do, whatever the
others do in between along a relation `R`.  They are proved for every `R` that a
`Discipline` allows, so that the same proofs serve a relation that says little about
arbitrary callers and one that says much about well-behaved ones.
-/

namespace BoundedRefund

open Concurrent Relational

/-- The permit row is still there; at most it was used. -/
def PermitRow.Kept (row row' : PermitRow) : Prop := row' = row ∨ row' = row.spend

namespace PermitRow.Kept

theorem refl (row : PermitRow) : Kept row row := Or.inl rfl

theorem trans {row row' row'' : PermitRow} (h : Kept row row') (h' : Kept row' row'') :
    Kept row row'' := by
  rcases h with rfl | rfl
  · exact h'
  · rcases h' with rfl | rfl
    · exact Or.inr rfl
    · exact Or.inr rfl

/-- A permit that is kept keeps its key. -/
theorem idempotencyKey {row row' : PermitRow} (h : Kept row row') :
    row'.idempotencyKey = row.idempotencyKey := by
  rcases h with rfl | rfl <;> rfl

end PermitRow.Kept

/-- The injector of the session may make this change. -/
def Session.MayInject (s : Session) (change : StateChange) : Prop :=
  ∃ injector, s.injector = some injector ∧
    ∃ entry ∈ injector.spec.preCommitChanges, change ∈ entry.2

/-- The permit was read from a row that stands in the table to this day. -/
def Issued (db : Database) (permit : ExecutionPermit) : Prop :=
  permit.permitId ≠ "" ∧ ∃ row row' : PermitRow, row.permit = permit ∧ row.Kept row' ∧
    db.executionPermits.find? permit.permitId = some row'

/-- The checks an execution has passed, as far as they still mean something. -/
structure Cleared (db : Database) (x : Execution) : Prop where
  issued : Issued db x.permit
  unused : x.permit.used = false
  action : x.permit.action = x.proposal.action
  amount : x.proposal.amount ≤ x.permit.maxAmountCents

/-- One statement of an issuer or an executor. -/
inductive Statement (A : StateChange → Prop) (G : World → Execution → Prop) (v v' : World) :
    Prop
  | quiet (h : v'.shared = v.shared)
  | issue (row : PermitRow) (unused : row.used = false)
      (h : v.shared.insertPermit row = .ok v'.shared)
  | inject (change : StateChange) (may : A change)
      (h : change.apply v.shared = .ok v'.shared)
  | commit (x : Execution) (cleared : Cleared v.shared x) (grounds : G v x)
      (h : x.Commits v.shared v'.shared)

/-- A relation that everybody on the database may be relied on to keep to, if the
injected changes are all among `A`. -/
structure Discipline (R : Database → Database → Prop) (A : StateChange → Prop) : Prop where
  refl : ∀ db, R db db
  trans : ∀ db db' db'', R db db' → R db' db'' → R db db''
  permits : ∀ {db db'}, R db db' → Along PermitRow.Kept db.executionPermits db'.executionPermits
  issue : ∀ {db db'} {row : PermitRow}, db.insertPermit row = .ok db' → R db db'
  inject : ∀ {db db'} {change : StateChange}, A change → change.apply db = .ok db' → R db db'
  commit : ∀ {db db'} {x : Execution}, x.Commits db db' → R db db'

/-- What every stretch of an issuer or an executor leaves as it was. -/
structure Frame (R : Database → Database → Prop) (v v' : World) : Prop where
  shared : R v.shared v'.shared
  history : v'.own.history = v.own.history
  lastExecution : v'.own.session.lastExecution = v.own.session.lastExecution
  injector : v'.own.session.injector.map FailureInjector.spec =
    v.own.session.injector.map FailureInjector.spec

/-- `p` keeps to `R` and `Statement A G` under interference along `R`, and ends in
`Q`. -/
def Py.Spec {α : Type} (R : Database → Database → Prop) (A : StateChange → Prop)
    (G : World → Execution → Prop) (p : Py α) (Q : Except PyError α → World → Prop)
    (v : World) : Prop :=
  Prog.wp (Rely R) (Guar R (Statement A G)) p Q v

namespace Frame

variable {R : Database → Database → Prop} {A : StateChange → Prop} {v v' v'' : World}

theorem refl (D : Discipline R A) (v : World) : Frame R v v :=
  ⟨D.refl _, rfl, rfl, rfl⟩

theorem trans (D : Discipline R A) (h : Frame R v v') (h' : Frame R v' v'') : Frame R v v'' :=
  ⟨D.trans _ _ _ h.shared h'.shared, h'.history.trans h.history,
    h'.lastExecution.trans h.lastExecution, h'.injector.trans h.injector⟩

/-- What others do is a frame. -/
theorem of_rely (h : Rely R v v') : Frame R v v' := by
  obtain ⟨hown, hshared⟩ := h
  exact ⟨hshared, by rw [hown], by rw [hown], by rw [hown]⟩

/-- The injector's specification does not change, so neither does what it may do. -/
theorem mayInject_iff (h : Frame R v v') (change : StateChange) :
    v'.own.session.MayInject change ↔ v.own.session.MayInject change := by
  have transfer : ∀ s s' : Session,
      s'.injector.map FailureInjector.spec = s.injector.map FailureInjector.spec →
      s'.MayInject change → s.MayInject change := by
    rintro s s' hspec ⟨injector', hi, entry, hentry, hmem⟩
    rw [hi, Option.map_some, eq_comm, Option.map_eq_some_iff] at hspec
    obtain ⟨injector, h, hs⟩ := hspec
    exact ⟨injector, h, entry, hs ▸ hentry, hmem⟩
  exact ⟨transfer _ _ h.injector, transfer _ _ h.injector.symm⟩

end Frame

/-! ## Rules -/

namespace Py.Spec

variable {α β : Type} {R : Database → Database → Prop} {A : StateChange → Prop}
variable {G : World → Execution → Prop} {Q : Except PyError α → World → Prop} {v : World}

/-- A weaker postcondition does as well. -/
theorem mono {p : Py α} {Q' : Except PyError α → World → Prop} (h : p.Spec R A G Q v)
    (hQ : ∀ r t, Q r t → Q' r t) : p.Spec R A G Q' v :=
  Prog.wp_mono hQ h

theorem ret {a : α} (h : Q (.ok a) v) : Py.Spec R A G (pure a) Q v := h

theorem throw {err : PyError} (h : Q (.error err) v) :
    Py.Spec R A G (throw err : Py α) Q v := h

/-- What follows is run on what the first part left, and an exception passes by. -/
theorem bind {p : Py α} {k : α → Py β} {Q' : Except PyError β → World → Prop}
    (hp : p.Spec R A G Q v) (hk : ∀ a t, Q (.ok a) t → (k a).Spec R A G Q' t)
    (he : ∀ err t, Q (.error err) t → Q' (.error err) t) : Py.Spec R A G (p >>= k) Q' v := by
  refine (Prog.wp_bind p k).mpr (Prog.wp_mono ?_ hp)
  rintro (err | a) t h
  · exact he err t h
  · exact hk a t h

/-- A handler is run on what the exception left, and an answer passes by. -/
theorem tryCatch {p : Py α} {k : PyError → Py α} {Q' : Except PyError α → World → Prop}
    (hp : p.Spec R A G Q v) (hk : ∀ err t, Q (.error err) t → (k err).Spec R A G Q' t)
    (ho : ∀ a t, Q (.ok a) t → Q' (.ok a) t) : Py.Spec R A G (tryCatch p k) Q' v := by
  refine (Prog.wp_tryCatch p k).mpr (Prog.wp_mono ?_ hp)
  rintro (err | a) t h
  · exact hk err t h
  · exact ho a t h

theorem raising {r : Except PyError α} (h : Q r v) : (Py.raising r).Spec R A G Q v :=
  (Prog.wp_ofExcept r).mpr h

theorem query (D : Discipline R A) {g : Database → Except PyError α}
    (h : ∀ t, Rely R v t → Q (g t.shared) t) : (Py.query g).Spec R A G Q v :=
  (Prog.wp_read _).mpr fun t ht => ⟨⟨D.refl _, .quiet rfl⟩, h t ht⟩

theorem own (D : Discipline R A) {g : Session → α}
    (h : ∀ t, Rely R v t → Q (.ok (g t.own.session)) t) : (Py.own g).Spec R A G Q v :=
  (Prog.wp_read _).mpr fun t ht => ⟨⟨D.refl _, .quiet rfl⟩, h t ht⟩

theorem update (D : Discipline R A) {f : Session → α × Session}
    (h : ∀ t, Rely R v t → Q (.ok (f t.own.session).1)
      ⟨t.shared, { t.own with session := (f t.own.session).2 }⟩) :
    (Py.update f).Spec R A G Q v :=
  (Prog.wp_atomically _).mpr fun t ht => ⟨⟨D.refl _, .quiet rfl⟩, h t ht⟩

theorem callLearns (D : Discipline R A) {f : Call → Call} {Q : Except PyError Unit → World → Prop}
    (h : ∀ t, Rely R v t →
      Q (.ok ()) ⟨t.shared, { t.own with history := t.own.history.modifyHead f }⟩) :
    (Py.callLearns f).Spec R A G Q v :=
  (Prog.wp_modify _).mpr fun t ht => ⟨⟨D.refl _, .quiet rfl⟩, h t ht⟩

theorem propose (D : Discipline R A) {attempt : Nat}
    {Q : Except PyError RawProposal → World → Prop}
    (h : ∀ t, Rely R v t → Q (.ok t.own.session.planner.propose.1)
      ⟨t.shared, { session := { t.own.session with planner := t.own.session.planner.propose.2 }
                   history := { start := ⟨t.shared, t.own.session⟩, attempt,
                                raw := t.own.session.planner.propose.1 } :: t.own.history }⟩) :
    (Py.propose attempt).Spec R A G Q v :=
  (Prog.wp_atomically _).mpr fun t ht => ⟨⟨D.refl _, .quiet rfl⟩, h t ht⟩

/-- A transaction has to account for what it does when it goes through. -/
theorem transaction (D : Discipline R A) {t : Database → Except PyError (α × Database)}
    (hok : ∀ w a db, Rely R v w → t w.shared = .ok (a, db) →
      R w.shared db ∧ Statement A G w ⟨db, w.own⟩ ∧ Q (.ok a) ⟨db, w.own⟩)
    (herr : ∀ w err, Rely R v w → t w.shared = .error err → Q (.error err) w) :
    (Py.transaction t).Spec R A G Q v := by
  refine (Prog.wp_atomically _).mpr fun w hw => ?_
  cases ht : t w.shared with
  | error err =>
      exact ⟨⟨D.refl _, .quiet rfl⟩, herr w err hw ht⟩
  | ok r =>
      obtain ⟨a, db⟩ := r
      obtain ⟨hR, hS, hQ⟩ := hok w a db hw ht
      exact ⟨⟨hR, hS⟩, hQ⟩

/-- An update of the run's own objects that leaves the framed ones alone. -/
theorem update_frame (D : Discipline R A) {f : Session → α × Session}
    (hlast : ∀ s, (f s).2.lastExecution = s.lastExecution)
    (hspec : ∀ s, (f s).2.injector.map FailureInjector.spec =
      s.injector.map FailureInjector.spec) :
    (Py.update f).Spec R A G (fun _ t => Frame R v t) v :=
  update D fun _ ht => (Frame.of_rely ht).trans D
    ⟨D.refl _, rfl, hlast _, hspec _⟩

/-- A change of the session is a frame where it keeps the last execution and the failures. -/
theorem touch_frame (D : Discipline R A) {f : Session → Session}
    (hlast : ∀ s, (f s).lastExecution = s.lastExecution)
    (hspec : ∀ s, (f s).injector.map FailureInjector.spec =
      s.injector.map FailureInjector.spec) :
    (Py.touch f).Spec R A G (fun _ t => Frame R v t) v :=
  update_frame D hlast hspec

end Py.Spec

/-! ## The statements of the model -/

section Statements

variable {R : Database → Database → Prop} {A : StateChange → Prop}
variable {G : World → Execution → Prop} {v : World}

theorem now_spec (D : Discipline R A) (clock : Clock) :
    (Py.now clock).Spec R A G (fun _ t => Frame R v t) v :=
  Py.Spec.update_frame D (fun _ => rfl) fun _ => rfl

/-- An event changes neither. -/
theorem Session.emit_frame (s : Session) (clock : Clock) (fields : EventFields) :
    (s.emit clock fields).lastExecution = s.lastExecution ∧
      (s.emit clock fields).injector = s.injector := by
  unfold Session.emit
  split <;> exact ⟨rfl, rfl⟩

theorem emit_spec (D : Discipline R A) (clock : Clock) (fields : EventFields) :
    (Py.emit clock fields).Spec R A G (fun _ t => Frame R v t) v :=
  Py.Spec.touch_frame D (fun s => (s.emit_frame clock fields).1)
    fun s => by rw [(s.emit_frame clock fields).2]

theorem record_spec (D : Discipline R A) (tool : String)
    (arguments : List (String × PlainValue)) :
    (Py.record tool arguments).Spec R A G (fun _ t => Frame R v t) v :=
  Py.Spec.touch_frame D (fun _ => rfl) fun _ => rfl

theorem note_spec (D : Discipline R A) (text : Session → String) :
    (Py.touch fun s => s.note (text s)).Spec R A G (fun _ t => Frame R v t) v :=
  Py.Spec.touch_frame D (fun _ => rfl) fun _ => rfl

theorem readShouldFail_spec (D : Discipline R A) (tool : String) :
    (Py.update fun s => s.readShouldFail tool).Spec R A G (fun _ t => Frame R v t) v := by
  refine Py.Spec.update_frame D (fun s => ?_) fun s => ?_
  · cases hi : s.injector <;> simp [Session.readShouldFail, hi]
  · cases hi : s.injector <;>
      simp [Session.readShouldFail, hi, FailureInjector.readShouldFail]

/-- Budgets are spent, the scenario stays. -/
theorem FailureInjector.spec_shouldTimeoutAfterCommit (inj : FailureInjector)
    (action : String) : (inj.shouldTimeoutAfterCommit action).2.spec = inj.spec := by
  unfold shouldTimeoutAfterCommit
  split <;> rfl

theorem shouldTimeoutAfterCommit_spec (D : Discipline R A) (action : String) :
    (Py.update fun s => s.shouldTimeoutAfterCommit action).Spec R A G
      (fun _ t => Frame R v t) v := by
  refine Py.Spec.update_frame D (fun s => ?_) fun s => ?_
  · cases hi : s.injector <;> simp [Session.shouldTimeoutAfterCommit, hi]
  · cases hi : s.injector <;> simp [Session.shouldTimeoutAfterCommit, hi,
      FailureInjector.spec_shouldTimeoutAfterCommit]

/-- Only changes of the specification are due, and asking does not change it. -/
theorem FailureInjector.preCommit_spec (inj : FailureInjector) (action : String) :
    (inj.preCommit action).2.spec = inj.spec ∧
      ∀ change ∈ (inj.preCommit action).1,
        ∃ entry ∈ inj.spec.preCommitChanges, change ∈ entry.2 := by
  unfold preCommit
  have hmem : ∀ change ∈ (inj.spec.preCommitChanges.lookup action).getD [],
      ∃ entry ∈ inj.spec.preCommitChanges, change ∈ entry.2 := by
    intro change hc
    cases hl : inj.spec.preCommitChanges.lookup action with
    | none => simp [hl] at hc
    | some changes =>
        rw [hl, Option.getD_some] at hc
        obtain ⟨l₁, l₂, heq, -⟩ := List.lookup_eq_some_iff.mp hl
        exact ⟨(action, changes), by simp [heq], hc⟩
  dsimp only
  split_ifs
  · exact ⟨rfl, by simp⟩
  · exact ⟨rfl, by simp⟩
  · exact ⟨rfl, hmem⟩

/-- Injected changes, one statement each. -/
theorem applyAll_spec (D : Discipline R A) {changes : List StateChange} {v : World}
    (hmay : ∀ change ∈ changes, v.own.session.MayInject change)
    (hA : ∀ change, v.own.session.MayInject change → A change) :
    (Py.applyPreCommit.applyAll changes).Spec R A G (fun _ t => Frame R v t) v := by
  induction changes generalizing v with
  | nil => exact Py.Spec.ret (Frame.refl D v)
  | cons change changes ih =>
      have hstep : (Py.transaction fun db => (change.apply db).map fun db => ((), db)).Spec R A G
          (fun _ t => Frame R v t) v := by
        refine Py.Spec.transaction D (fun w a db hw ht => ?_) fun w err hw _ => Frame.of_rely hw
        have hap : change.apply w.shared = .ok db := by
          cases hc : change.apply w.shared with
          | error err => simp [hc, Except.map] at ht
          | ok db' => simp only [hc, Except.map, Except.ok.injEq, Prod.mk.injEq] at ht; rw [ht.2]
        have hmayw := hmay change List.mem_cons_self
        have hR := D.inject (hA change hmayw) hap
        exact ⟨hR, .inject change (hA change hmayw) hap,
          (Frame.of_rely hw).trans D ⟨hR, rfl, rfl, rfl⟩⟩
      refine hstep.bind (fun _ t ht => ?_) fun _ _ h => h
      refine (ih (fun c hc => ?_) fun c hc => ?_).mono fun _ _ h => ht.trans D h
      · exact (ht.mayInject_iff c).mpr (hmay c (List.mem_cons_of_mem _ hc))
      · exact hA c ((ht.mayInject_iff c).mp hc)

/-- Injected changes are those the scenario may inject. -/
theorem applyPreCommit_spec (D : Discipline R A) (action : String)
    (hA : ∀ change, v.own.session.MayInject change → A change) :
    (Py.applyPreCommit action).Spec R A G (fun _ t => Frame R v t) v := by
  have hdue : (Py.update fun s => s.preCommit action).Spec R A G
      (fun r t => Frame R v t ∧
        ∀ changes, r = .ok changes → ∀ change ∈ changes, t.own.session.MayInject change) v := by
    refine Py.Spec.update D fun t ht => ?_
    cases hi : t.own.session.injector with
    | none =>
        refine ⟨(Frame.of_rely ht).trans D ⟨D.refl _, rfl, ?_, ?_⟩, ?_⟩ <;>
          simp [Session.preCommit, hi]
    | some injector =>
        obtain ⟨hspec, hmem⟩ := injector.preCommit_spec action
        refine ⟨(Frame.of_rely ht).trans D ⟨D.refl _, rfl, ?_, ?_⟩, ?_⟩
        · simp [Session.preCommit, hi]
        · simp [Session.preCommit, hi, hspec]
        · rintro changes hch change hc
          simp only [Session.preCommit, hi, Except.ok.injEq] at hch ⊢
          subst hch
          obtain ⟨entry, hentry, hin⟩ := hmem change hc
          exact ⟨_, rfl, entry, hspec ▸ hentry, hin⟩
  refine hdue.bind (fun changes t ht => ?_) fun _ _ h => h.1
  refine (applyAll_spec D (ht.2 changes rfl) fun c hc => ?_).mono fun _ _ h => ht.1.trans D h
  exact hA c ((ht.1.mayInject_iff c).mp hc)

/-! ## Issuing -/

/-- A permit that was issued stays so. -/
theorem Issued.later (D : Discipline R A) {db db' : Database} (h : R db db')
    {permit : ExecutionPermit} (hp : Issued db permit) : Issued db' permit := by
  obtain ⟨hid, row, row', hrow, hkept, hfind⟩ := hp
  obtain ⟨row'', hfind', hkept'⟩ := D.permits h _ _ hfind
  exact ⟨hid, row, row'', hrow, hkept.trans hkept', hfind'⟩

/-- **Issuing a permit**: the permit that is returned is the one that was asked for,
and it stands in the table. -/
theorem issuePermit_spec (D : Discipline R A) (issuer : PermitIssuer) (request : PermitRequest) :
    (issuer.issuePermit request).Spec R A G (fun r t => Frame R v t ∧
      ∀ permit, r = .ok permit → Issued t.shared permit ∧
        ∃ n issuedAt, permit = issuer.permitAt request n issuedAt) v := by
  have hseq : (Py.update fun s => (s.sequence + 1, { s with sequence := s.sequence + 1 })).Spec
      R A G (fun _ t => Frame R v t) v :=
    Py.Spec.update_frame D (fun _ => rfl) fun _ => rfl
  refine hseq.bind (fun sequence t ht => ?_) fun err t h => ⟨h, by simp⟩
  refine (now_spec D issuer.clock).bind (fun issuedAt u hu => ?_) fun err u h =>
    ⟨ht.trans D h, by simp⟩
  refine Py.Spec.transaction D (fun w permit db hw hins => ?_) fun w err hw _ =>
    ⟨(ht.trans D hu).trans D (Frame.of_rely hw), by simp⟩
  cases hi : w.shared.insertPermit
      ((issuer.permitAt request sequence issuedAt).row issuedAt issuer.runId) with
  | error err => simp [hi, Except.map] at hins
  | ok db' =>
      simp only [hi, Except.map, Except.ok.injEq, Prod.mk.injEq] at hins
      obtain ⟨rfl, rfl⟩ := hins
      have hR := D.issue hi
      refine ⟨hR, .issue _ rfl hi, (ht.trans D hu).trans D ((Frame.of_rely hw).trans D
        ⟨hR, rfl, rfl, rfl⟩), ?_⟩
      rintro permit hpermit
      cases hpermit
      obtain ⟨permits, hinsert, rfl⟩ := Database.insertPermit_eq_ok.mp hi
      refine ⟨⟨permitIdFor_ne_empty _ _, _, _,
        permit_row_permitAt issuer request sequence issuedAt issuer.runId,
        PermitRow.Kept.refl _, ?_⟩, sequence, issuedAt, rfl⟩
      rw [Table.find?_insert? hinsert]
      exact if_pos rfl

/-! ## Executing -/

variable {e : Executor} {proposal : ActionProposal} {texts : TicketTexts}

/-- An event of the executor is a frame. -/
theorem executor_emit_spec (D : Discipline R A) (eventType : EventType)
    (permit : Option ExecutionPermit) (result : Option ExecutionResult)
    (extra : List (String × PlainValue)) :
    (e.emit eventType proposal permit result extra).Spec R A G (fun _ t => Frame R v t) v := by
  have hown : (Py.own fun s => s.audit.isSome).Spec R A G (fun _ t => Frame R v t) v :=
    Py.Spec.own D fun t ht => Frame.of_rely ht
  refine hown.bind (fun audited t ht => ?_) fun _ _ h => h
  cases audited with
  | false => exact Py.Spec.ret ht
  | true =>
      have hquery : (Py.query fun db => db.resolveTarget proposal).Spec R A G
          (fun _ u => Frame R v u) t :=
        Py.Spec.query D fun u hu => ht.trans D (Frame.of_rely hu)
      refine hquery.bind (fun target u hu => ?_) fun _ _ h => h
      exact (emit_spec D e.clock _).mono fun _ _ h => hu.trans D h

/-- The commit: at its transaction the permit is still issued and the grounds hold,
however long ago they were established. -/
theorem commit_spec (D : Discipline R A) {permit : ExecutionPermit}
    (hG : ∀ t now, Frame R v t → Cleared t.shared (e.execution permit proposal texts now) ∧
      G t (e.execution permit proposal texts now)) :
    (e.commit permit proposal texts).Spec R A G (fun _ t => Frame R v t) v := by
  refine Py.Spec.bind (Py.Spec.raising (Q := fun r t => r = .ok (e.authorization permit) ∧
    t = v) ⟨rfl, rfl⟩) (fun auth t ht => ?_) fun _ _ h => by cases h.1
  obtain ⟨hauth, rfl⟩ := ht
  cases hauth
  refine (now_spec D e.clock).bind (fun now u hu => ?_) fun _ _ h => h
  refine (record_spec D _ _).bind (fun _ w hw => ?_) fun _ _ h => hu.trans D h
  have hframe := hu.trans D hw
  have htx : (Py.transaction
      (e.commitAll (e.authorization permit) permit proposal texts now)).Spec R A G
      (fun _ y => Frame R t y) w := by
    refine Py.Spec.transaction D (fun y result db hy hcommit => ?_) fun y err hy _ =>
      hframe.trans D (Frame.of_rely hy)
    have hy' := hframe.trans D (Frame.of_rely hy)
    obtain ⟨-, hcommits⟩ := commitAll_eq_ok.mp hcommit
    obtain ⟨hcleared, hgrounds⟩ := hG y now hy'
    have hR := D.commit hcommits
    exact ⟨hR, .commit _ hcleared hgrounds hcommits, hy'.trans D ⟨hR, rfl, rfl, rfl⟩⟩
  refine htx.tryCatch (fun err y hy => ?_) fun _ _ h => h
  cases err <;> exact hy

/-- The checks: only an execution that passed them is committed. -/
theorem runChecks_spec (D : Discipline R A) {permit : Option ExecutionPermit}
    (hissued : ∀ p ∈ permit, Issued v.shared p)
    (hA : ∀ change, v.own.session.MayInject change → A change)
    (hG : ∀ p ∈ permit, ∀ t now, Frame R v t →
      Cleared t.shared (e.execution p proposal texts now) →
      G t (e.execution p proposal texts now)) :
    (e.runChecks permit proposal texts).Spec R A G (fun _ t => Frame R v t) v := by
  cases permit with
  | none => exact Py.Spec.ret (Frame.refl D v)
  | some permit =>
      simp only [Executor.runChecks]
      split_ifs with haction
      · exact Py.Spec.ret (Frame.refl D v)
      have hquery : (Py.query fun db => db.resolveTarget proposal).Spec R A G
          (fun _ u => Frame R v u) v :=
        Py.Spec.query D fun u hu => Frame.of_rely hu
      refine hquery.bind (fun target t ht => ?_) fun _ _ h => h
      cases target with
      | none => exact Py.Spec.ret ht
      | some target =>
          dsimp only
          split_ifs with hres
          · exact Py.Spec.ret ht
          refine (now_spec D e.clock).bind (fun now u hu => ?_) fun _ _ h => ht.trans D h
          have hu' := ht.trans D hu
          refine Py.Spec.bind (Py.Spec.raising (Q := fun _ w => Frame R v w) hu')
            (fun expiresAt w hw => ?_) fun _ _ h => h
          split_ifs with hexpired
          · exact Py.Spec.ret hw
          have hstored : (Py.query fun db => .ok (db.storedResult permit.idempotencyKey)).Spec
              R A G (fun _ y => Frame R v y) w :=
            Py.Spec.query D fun y hy => hw.trans D (Frame.of_rely hy)
          refine hstored.bind (fun stored y hy => ?_) fun _ _ h => h
          refine Py.Spec.bind (Py.Spec.raising (Q := fun r z => Frame R v z ∧
            r = Executor.lateChecks permit proposal target stored) ⟨hy, rfl⟩)
            (fun answer z hz => ?_) fun _ _ h => h.1
          obtain ⟨hz, hlate⟩ := hz
          cases answer with
          | some result => exact Py.Spec.ret hz
          | none =>
              -- what was checked of the permit still holds, whatever the others do
              obtain ⟨hunused, hamount, -⟩ := Executor.lateChecks_eq_none hlate.symm
              refine (applyPreCommit_spec D _ fun c hc => hA c ((hz.mayInject_iff c).mp hc)).bind
                (fun _ b hb => ?_) fun _ _ h => hz.trans D h
              have hb' := hz.trans D hb
              refine (commit_spec D fun d now hd => ?_).mono fun _ _ h => hb'.trans D h
              have hd' := hb'.trans D hd
              have hcleared : Cleared d.shared (e.execution permit proposal texts now) :=
                ⟨(hissued permit rfl).later D hd'.shared, hunused, not_not.mp haction, hamount⟩
              exact ⟨hcleared, hG permit rfl d now hd' hcleared⟩

/-- So is an answer. -/
theorem respond_spec (D : Discipline R A) (permit : Option ExecutionPermit)
    (result : ExecutionResult) :
    (e.respond proposal permit result).Spec R A G (fun _ t => Frame R v t) v := by
  unfold Executor.respond
  split_ifs with hfresh hcommitted
  · refine (executor_emit_spec D _ _ _ _).bind (fun _ t ht => ?_) fun _ _ h => h
    refine (shouldTimeoutAfterCommit_spec D _).bind (fun lost u hu => ?_)
      fun _ _ h => ht.trans D h
    cases lost with
    | false => exact Py.Spec.ret (ht.trans D hu)
    | true => cases permit <;> exact Py.Spec.throw (ht.trans D hu)
  · refine (executor_emit_spec D _ _ _ _).bind (fun _ t ht => ?_) fun _ _ h => h
    exact Py.Spec.ret ht
  · refine (executor_emit_spec D _ _ _ _).bind (fun _ t ht => ?_) fun _ _ h => h
    exact Py.Spec.ret ht

/-- **Executing**: whatever the others do, an executor only commits executions of
the permit it was given, after the checks, on the grounds its caller vouches for. -/
theorem execute_spec (D : Discipline R A) {permitId : Option String}
    (hA : ∀ change, v.own.session.MayInject change → A change)
    (hG : ∀ t permit now, Frame R v t → permitId = some permit.permitId →
      Cleared t.shared (e.execution permit proposal texts now) →
      G t (e.execution permit proposal texts now)) :
    (e.execute permitId proposal texts).Spec R A G (fun _ t => Frame R v t) v := by
  have hload : (Py.query fun db => .ok (db.loadPermit permitId)).Spec R A G
      (fun r t => Frame R v t ∧ ∀ permit, r = .ok permit → ∀ p ∈ permit,
        permitId = some p.permitId ∧ Issued t.shared p) v := by
    refine Py.Spec.query D fun t ht => ⟨Frame.of_rely ht, ?_⟩
    rintro permit hpermit p hp
    cases hpermit
    obtain ⟨hid, hne, row, hrow, rfl⟩ := Database.loadPermit_eq_some hp
    exact ⟨hid, hne, row, row, rfl, PermitRow.Kept.refl _, hrow⟩
  refine hload.bind (fun permit t ht => ?_) fun _ _ h => h.1
  obtain ⟨ht, hpermit⟩ := ht
  refine (executor_emit_spec D _ _ _ _).bind (fun _ u hu => ?_) fun _ _ h => ht.trans D h
  have hu' := ht.trans D hu
  have hchecks : (e.runChecks permit proposal texts).Spec R A G (fun _ w => Frame R u w) u := by
    refine runChecks_spec D (fun p hp => (hpermit permit rfl p hp).2.later D hu.shared)
      (fun c hc => hA c ((hu'.mayInject_iff c).mp hc)) fun p hp w now hw hcleared => ?_
    exact hG w p now (hu'.trans D hw) (hpermit permit rfl p hp).1 hcleared
  refine hchecks.bind (fun result w hw => ?_) fun _ _ h => hu'.trans D h
  exact (respond_spec D permit result).mono fun _ _ h => (hu'.trans D hw).trans D h

end Statements

end BoundedRefund
