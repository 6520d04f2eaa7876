import BoundedRefund.Concurrent.Coupled
import BoundedRefund.Runner

/-!
# Two runs in step

Two runs of one runner that differ somewhere and end alike: the argument is the same whatever
they differ in.  `InStep R D S P` says what has to be known about the difference.  The worlds
of the two runs are related by `R`, that is, their databases by `D` and their objects by `S`;
the proposals they take up are related by `P`; and no primitive can tell related worlds apart
(`InStep.update`, `InStep.transaction`, and so on).  Every stage of a run is composed of these
primitives, so it goes from related worlds to related worlds, and with the same result
(`InStep.run`).

Databases may differ in their tickets, and objects in the script, the proposal presented last,
the recorded calls, and the failures of reads.  What looks at none of these is `Plain`.
-/

namespace BoundedRefund

open Concurrent Relational

/-! ## Where two runs may differ -/

/-- A text that may be the reason of a proposal. -/
def IsReason (text : String) : Prop := 1 ≤ text.length ∧ text.length ≤ 200

/-- The proposal, for another reason. -/
def ActionProposal.reword (p : ActionProposal) (reason : String) (h : IsReason reason) :
    ActionProposal :=
  { p with reason := reason, reason_length := h }

/-- The two proposals differ in their reasons at most. -/
def ActionProposal.Reworded (p p' : ActionProposal) : Prop :=
  ∃ reason h, p' = p.reword reason h

theorem ActionProposal.Reworded.refl (p : ActionProposal) : p.Reworded p :=
  ⟨p.reason, p.reason_length, rfl⟩

/-- A transaction that neither looks at tickets nor writes any. -/
def Database.Spares {α : Type} (t : Database → Except PyError (α × Database)) : Prop :=
  ∀ (db : Database) supportTickets, t { db with supportTickets := supportTickets } =
    (t db).map fun x => (x.1, { x.2 with supportTickets := supportTickets })

/-- The injector with other read timeouts, and another count of reads. -/
def FailureInjector.reread (inj : FailureInjector) (readTimeouts : List (String × Int))
    (readCalls : String → Nat) : FailureInjector :=
  { inj with spec := { inj.spec with readTimeouts := readTimeouts }, readCalls := readCalls }

namespace FailureInjector

variable (inj : FailureInjector) (readTimeouts : List (String × Int)) (readCalls : String → Nat)

/-- What is due before a commit, and whether its response is lost, is no matter of reads. -/
theorem reread_preCommit (action : String) :
    (inj.reread readTimeouts readCalls).preCommit action =
      ((inj.preCommit action).1, (inj.preCommit action).2.reread readTimeouts readCalls) := by
  by_cases hnone : (inj.spec.preCommitChanges.lookup action).getD [] = []
  · simp [preCommit, reread, hnone]
  by_cases hspent : (inj.spec.preCommitTimes.lookup action).getD 1 ≤ inj.preCommitFired action
  · simp [preCommit, reread, hspent]
  · simp [preCommit, reread, hnone, hspent]

/-- Whether a response is lost does not hang on the reads. -/
theorem reread_shouldTimeoutAfterCommit (action : String) :
    (inj.reread readTimeouts readCalls).shouldTimeoutAfterCommit action =
      ((inj.shouldTimeoutAfterCommit action).1,
        (inj.shouldTimeoutAfterCommit action).2.reread readTimeouts readCalls) := by
  have hleft : (inj.reread readTimeouts readCalls).timeoutLeft action = inj.timeoutLeft action :=
    rfl
  unfold shouldTimeoutAfterCommit
  rw [hleft]
  split_ifs <;> rfl

end FailureInjector

/-- The objects of a run, with other values where two runs may differ. -/
def Session.cloak (s : Session) (planner : ScriptedPlanner)
    (lastExecution : Option (String × ActionProposal)) (recorder : Option (List String))
    (readTimeouts : List (String × Int)) (readCalls : String → Nat) : Session :=
  { s with planner := planner, lastExecution := lastExecution, recorder := recorder,
           injector := s.injector.map fun inj => inj.reread readTimeouts readCalls }

/-- An update that looks at nothing in which two runs may differ, and leaves it alone. -/
def Session.Plain {α : Type} (f : Session → α × Session) : Prop :=
  ∀ (s : Session) planner lastExecution recorder readTimeouts readCalls,
    f (s.cloak planner lastExecution recorder readTimeouts readCalls) =
      ((f s).1, (f s).2.cloak planner lastExecution recorder readTimeouts readCalls)

/-- The reports differ in the recorded calls at most, and these are related by `T`. -/
def RunReport.Recalled (T : List String → List String → Prop) (report report' : RunReport) :
    Prop :=
  ∃ toolCalls, T report.toolCalls toolCalls ∧ report.toolCallCount = report.toolCalls.length ∧
    report' = { report with toolCalls := toolCalls, toolCallCount := toolCalls.length }

/-- **A difference that no primitive sees.** -/
structure InStep (R : World → World → Prop) (D : Database → Database → Prop)
    (S : Session → Session → Prop) (P : ActionProposal → ActionProposal → Prop) : Prop where
  world_iff {v v' : World} : R v v' ↔ D v.shared v'.shared ∧ S v.own.session v'.own.session
  reworded {p p' : ActionProposal} : P p p' → p.Reworded p'
  query {α : Type} {g : Database → α} {db db' : Database} :
    (∀ (db : Database) supportTickets,
      g { db with supportTickets := supportTickets } = g db) → D db db' → g db' = g db
  ticketCount {db db' : Database} (runId : String) :
    D db db' → db'.ticketCount runId = db.ticketCount runId
  transaction {α : Type} {t : Database → Except PyError (α × Database)} {db db' : Database} :
    Database.Spares t → D db db' →
      Agree (fun x x' => x'.1 = x.1 ∧ D x.2 x'.2) (t db) (t db')
  commitAll {e : Executor} {auth : WriteAuthorization} {permit : ExecutionPermit}
    {p p' : ActionProposal} {texts : TicketTexts} {now : Instant} {db db' : Database} :
    P p p' → D db db' → Agree (fun x x' => x'.1 = x.1 ∧ D x.2 x'.2)
      (e.commitAll auth permit p texts now db) (e.commitAll auth permit p' texts now db')
  update {α : Type} {f : Session → α × Session} {s s' : Session} :
    Session.Plain f → S s s' → (f s').1 = (f s).1 ∧ S (f s).2 (f s').2
  record {s s' : Session} (tool : String) (arguments : List (String × PlainValue)) :
    S s s' → S (s.record tool arguments) (s'.record tool arguments)
  present {s s' : Session} {p p' : ActionProposal} (permitId : String) :
    P p p' → S s s' → S { s with lastExecution := some (permitId, p) }
      { s' with lastExecution := some (permitId, p') }
  presented {s s' : Session} : S s s' →
    Option.Rel (fun x x' => x'.1 = x.1 ∧ P x.2 x'.2) s.lastExecution s'.lastExecution
  remaining {s s' : Session} : S s s' → s'.planner.remaining = s.planner.remaining
  exhausted {s s' : Session} : S s s' → s'.planner.exhausted = s.planner.exhausted
  propose {s s' : Session} : S s s' →
    rawOrderId s'.planner.propose.1 = rawOrderId s.planner.propose.1 ∧
      (∀ intFromText, Agree P (validate intFromText s.planner.propose.1)
        (validate intFromText s'.planner.propose.1)) ∧
      S { s with planner := s.planner.propose.2 } { s' with planner := s'.planner.propose.2 }
  read {α : Type} {fetch : Database → Except PyError α} (tool : String)
    (arguments : List (String × PlainValue)) :
    (∀ (db : Database) supportTickets,
      fetch { db with supportTickets := supportTickets } = fetch db) →
    (ReadTools.call tool arguments fetch 0 readMaxAttempts).Coupled R Eq
      (ReadTools.call tool arguments fetch 0 readMaxAttempts)

namespace InStep

variable {R : World → World → Prop} {D : Database → Database → Prop}
variable {S : Session → Session → Prop} {P : ActionProposal → ActionProposal → Prop}
variable {α : Type}

section Primitives

variable (h : InStep R D S P)

include h

theorem own {g : Session → α} (hg : ∀ s s', S s s' → g s' = g s) :
    (Py.own g).Coupled R Eq (Py.own g) := by
  refine Prog.Coupled.read fun v v' hv => ?_
  rw [hg _ _ (h.world_iff.mp hv).2]
  exact .refl _

/-- A look at what two runs have in common. -/
theorem ownPlain {g : Session → α}
    (hg : ∀ (s : Session) planner lastExecution recorder readTimeouts readCalls,
      g (s.cloak planner lastExecution recorder readTimeouts readCalls) = g s) :
    (Py.own g).Coupled R Eq (Py.own g) := by
  refine h.own fun s s' hs => ?_
  have hplain : Session.Plain fun s => (g s, s) :=
    fun s planner lastExecution recorder readTimeouts readCalls =>
      congrArg (fun a => (a, _)) (hg s planner lastExecution recorder readTimeouts readCalls)
  exact (h.update hplain hs).1

/-- A look at the database does not see the tickets. -/
theorem look {g : Database → Except PyError α}
    (hg : ∀ (db : Database) supportTickets,
      g { db with supportTickets := supportTickets } = g db) :
    (Py.query g).Coupled R Eq (Py.query g) := by
  refine Prog.Coupled.read fun v v' hv => ?_
  rw [h.query hg (h.world_iff.mp hv).1]
  exact .refl _

/-- What is made of the objects alone. -/
theorem ofSession {f f' : Session → Session} (hf : ∀ s s', S s s' → S (f s) (f' s')) :
    (Py.touch f).Coupled R Eq (Py.touch f') := by
  refine Prog.Coupled.atomically fun v v' hv => ⟨.ok rfl, ?_⟩
  obtain ⟨hshared, hsession⟩ := h.world_iff.mp hv
  exact h.world_iff.mpr ⟨hshared, hf _ _ hsession⟩

/-- A plain change of the session is made on both sides. -/
theorem updates {f : Session → α × Session} (hf : Session.Plain f) :
    (Py.update f).Coupled R Eq (Py.update f) := by
  refine Prog.Coupled.atomically fun v v' hv => ?_
  obtain ⟨hshared, hsession⟩ := h.world_iff.mp hv
  obtain ⟨hresult, hsession⟩ := h.update hf hsession
  exact ⟨.ok hresult.symm, h.world_iff.mpr ⟨hshared, hsession⟩⟩

theorem touches {f : Session → Session}
    (hf : ∀ (s : Session) planner lastExecution recorder readTimeouts readCalls,
      f (s.cloak planner lastExecution recorder readTimeouts readCalls) =
        (f s).cloak planner lastExecution recorder readTimeouts readCalls) :
    (Py.touch f).Coupled R Eq (Py.touch f) :=
  h.updates fun s planner lastExecution recorder readTimeouts readCalls =>
    congrArg (Prod.mk ()) (hf s planner lastExecution recorder readTimeouts readCalls)

/-- A transaction is carried out on both sides. -/
theorem transacts {t t' : Database → Except PyError (α × Database)}
    (ht : ∀ db db', D db db' → Agree (fun x x' => x'.1 = x.1 ∧ D x.2 x'.2) (t db) (t' db')) :
    (Py.transaction t).Coupled R Eq (Py.transaction t') := by
  refine Prog.Coupled.atomically fun v v' hv => ?_
  obtain ⟨hshared, hsession⟩ := h.world_iff.mp hv
  have hagree := ht _ _ hshared
  revert hagree
  generalize t v.shared = res
  generalize t' v'.shared = res'
  intro hagree
  cases hagree with
  | ok related => exact ⟨.ok related.1.symm, h.world_iff.mpr ⟨related.2, hsession⟩⟩
  | error err => exact ⟨.error err, hv⟩

/-- So is one that spares the tickets. -/
theorem transactsPlain {t : Database → Except PyError (α × Database)} (ht : Database.Spares t) :
    (Py.transaction t).Coupled R Eq (Py.transaction t) :=
  h.transacts fun _ _ hdb => h.transaction ht hdb

/-- A ghost is seen by nobody. -/
theorem callLearns {f f' : Call → Call} :
    (Py.callLearns f).Coupled R Eq (Py.callLearns f') := by
  refine Prog.Coupled.modify fun v v' hv => ?_
  obtain ⟨hshared, hsession⟩ := h.world_iff.mp hv
  exact h.world_iff.mpr ⟨hshared, hsession⟩

theorem now (clock : Clock) : (Py.now clock).Coupled R Eq (Py.now clock) :=
  h.updates fun _ _ _ _ _ _ => rfl

/-- A tool call is recorded on both sides. -/
theorem records (tool : String) (arguments : List (String × PlainValue)) :
    (Py.record tool arguments).Coupled R Eq (Py.record tool arguments) :=
  h.ofSession fun _ _ => h.record tool arguments

theorem emit (clock : Clock) (fields : EventFields) :
    (Py.emit clock fields).Coupled R Eq (Py.emit clock fields) := by
  refine h.touches fun s planner lastExecution recorder readTimeouts readCalls => ?_
  cases haudit : s.audit <;> simp [Session.emit, Session.cloak, haudit]

/-- The same changes are injected. -/
theorem applyPreCommit (action : String) :
    (Py.applyPreCommit action).Coupled R Eq (Py.applyPreCommit action) := by
  refine .bind_eq (h.updates fun s planner lastExecution recorder timeouts calls => ?_)
    fun changes => ?_
  · cases hi : s.injector with
    | none => simp [Session.preCommit, Session.cloak, hi]
    | some inj =>
        simp [Session.preCommit, Session.cloak, hi, FailureInjector.reread_preCommit]
  · induction changes with
    | nil => exact .ret rfl
    | cons change changes ih =>
        refine .bind_eq (h.transactsPlain fun db supportTickets => ?_) fun _ => ih
        have happly : change.apply { db with supportTickets := supportTickets } =
            (change.apply db).map fun db => { db with supportTickets := supportTickets } := by
          unfold StateChange.apply
          split
          · rfl
          · rename_i resource _
            split_ifs
            · rfl
            · rfl
            · cases resource <;> rfl
        rw [happly]
        cases change.apply db <;> rfl

/-- The same permits are issued. -/
theorem issuePermit (issuer : PermitIssuer) (request : PermitRequest) :
    (issuer.issuePermit request).Coupled R Eq (issuer.issuePermit request) := by
  refine .bind_eq (h.updates fun _ _ _ _ _ _ => rfl) fun sequence => ?_
  refine .bind_eq (h.now _) fun issuedAt => ?_
  refine h.transactsPlain fun db supportTickets => ?_
  unfold Database.insertPermit
  dsimp only
  split <;> rfl

end Primitives

/-! ## The executor -/

section Executor

variable (h : InStep R D S P) {e : Executor} {p p' : ActionProposal} {texts : TicketTexts}

include h

/-- The same commits are made. -/
theorem commit (hp : P p p') (permit : ExecutionPermit) :
    (e.commit permit p texts).Coupled R Eq (e.commit permit p' texts) := by
  obtain ⟨reason, hreason, rfl⟩ := h.reworded hp
  refine .bind_eq (Prog.Coupled.ofExcept (.refl _)) fun auth => ?_
  refine .bind_eq (h.now _) fun now => ?_
  refine .bind_eq (h.records _ _) fun _ => ?_
  refine .tryCatch (h.transacts fun db db' hdb => h.commitAll hp hdb) fun err => ?_
  cases err with
  | staleResource resourceId version => exact .ret rfl
  | _ => exact .fail _

/-- The same events are written. -/
theorem executorEmit (hp : P p p') (eventType : EventType) (permit : Option ExecutionPermit)
    (result : Option ExecutionResult) (extra : List (String × PlainValue)) :
    (e.emit eventType p permit result extra).Coupled R Eq
      (e.emit eventType p' permit result extra) := by
  obtain ⟨reason, hreason, rfl⟩ := h.reworded hp
  refine .bind_eq (h.ownPlain fun _ _ _ _ _ _ => rfl) fun audited => ?_
  split_ifs
  · exact .bind_eq (h.look fun _ _ => rfl) fun target => h.emit _ _
  · exact .ret rfl

/-- The same checks are made. -/
theorem runChecks (hp : P p p') (permit : Option ExecutionPermit) :
    (e.runChecks permit p texts).Coupled R Eq (e.runChecks permit p' texts) := by
  have hcommit : ∀ permit, (e.commit permit p texts).Coupled R Eq (e.commit permit p' texts) :=
    h.commit hp
  obtain ⟨reason, hreason, rfl⟩ := h.reworded hp
  cases permit with
  | none => exact .ret rfl
  | some permit =>
      unfold Executor.runChecks
      dsimp only
      by_cases haction : permit.action ≠ p.action
      · have haction' : permit.action ≠ (p.reword reason hreason).action := haction
        rw [if_pos haction, if_pos haction']
        exact .ret rfl
      have haction' : ¬ permit.action ≠ (p.reword reason hreason).action := haction
      rw [if_neg haction, if_neg haction']
      refine .bind_eq (h.look fun _ _ => rfl) fun target => ?_
      cases target with
      | none => exact .ret rfl
      | some target =>
          dsimp only
          split_ifs with hresource
          · exact .ret rfl
          refine .bind_eq (h.now _) fun now => ?_
          refine .bind_eq (Prog.Coupled.ofExcept (.refl _)) fun expiresAt => ?_
          split_ifs with hexpired
          · exact .ret rfl
          refine .bind_eq (h.look fun _ _ => rfl) fun stored => ?_
          refine .bind_eq (Prog.Coupled.ofExcept (.refl _)) fun answer => ?_
          cases answer with
          | some result => exact .ret rfl
          | none => exact .bind_eq (h.applyPreCommit _) fun _ => hcommit permit

/-- The same answers are given. -/
theorem respond (hp : P p p') (permit : Option ExecutionPermit) (result : ExecutionResult) :
    (e.respond p permit result).Coupled R Eq (e.respond p' permit result) := by
  have hemit : ∀ eventType extra, (e.emit eventType p permit (some result) extra).Coupled R Eq
      (e.emit eventType p' permit (some result) extra) := fun eventType =>
    h.executorEmit hp eventType permit (some result)
  obtain ⟨reason, hreason, rfl⟩ := h.reworded hp
  unfold Executor.respond
  split_ifs
  · refine .bind_eq (hemit _ _) fun _ => ?_
    refine .bind_eq (h.updates fun s planner lastExecution recorder timeouts calls => ?_)
      fun lost => ?_
    · cases hi : s.injector with
      | none => simp [Session.shouldTimeoutAfterCommit, Session.cloak, hi]
      | some inj =>
          simp [Session.shouldTimeoutAfterCommit, Session.cloak, hi,
            FailureInjector.reread_shouldTimeoutAfterCommit]
    · split_ifs
      · cases permit <;> exact .fail _
      · exact .ret rfl
  · exact .bind_eq (hemit _ _) fun _ => .ret rfl
  · exact .bind_eq (hemit _ _) fun _ => .ret rfl

/-- **The executor answers both runs alike.** -/
theorem execute (hp : P p p') (permitId : Option String) :
    (e.execute permitId p texts).Coupled R Eq (e.execute permitId p' texts) :=
  .bind_eq (h.look fun _ _ => rfl) fun permit =>
    .bind_eq (h.executorEmit hp _ _ _ _) fun _ =>
      .bind_eq (h.runChecks hp permit) fun result => h.respond hp permit result

end Executor

/-! ## The runner -/

section Runner

variable (h : InStep R D S P) {r : Runner} {p p' : ActionProposal}

include h

/-- The same responses are lost. -/
theorem executeWithRetry (hp : P p p') (permitId : String) :
    (r.executeWithRetry permitId p).Coupled R Eq (r.executeWithRetry permitId p') := by
  refine .tryCatch (h.execute hp _) fun err => ?_
  cases err with
  | responseTimeout tool key =>
      exact .bind_eq (h.touches fun _ _ _ _ _ _ => rfl) fun _ => h.execute hp _
  | _ => exact .fail _

/-- An escalation makes a proposal of its own, for reasons of its own. -/
theorem escalate (hrefl : ∀ p, P p p) (orderId : String) (reason : ReasonCode)
    (detail : String) : (r.escalate orderId reason detail).Coupled R Eq
      (r.escalate orderId reason detail) := by
  refine .bind_eq (h.look fun _ _ => rfl) fun order => ?_
  cases order with
  | none => exact .bind_eq (h.touches fun _ _ _ _ _ _ => rfl) fun _ => .ret rfl
  | some order =>
      refine .bind_eq (Prog.Coupled.ofExcept (.refl _)) fun proposal => ?_
      refine .bind_eq (h.issuePermit _ _) fun permit => ?_
      refine .bind_eq (h.emit _ _) fun _ => ?_
      exact .bind_eq (h.execute (hrefl proposal) _) fun result => .ret rfl

/-- An allowed proposal is carried out on both sides. -/
theorem executeAllowed (hp : P p p') (d : PolicyResult) (attempt : Nat) :
    (r.executeAllowed p d attempt).Coupled R Eq (r.executeAllowed p' d attempt) := by
  have haction : p'.action = p.action := by
    obtain ⟨reason, hreason, rfl⟩ := h.reworded hp
    rfl
  unfold Runner.executeAllowed
  rw [haction]
  refine .bind_eq (h.issuePermit _ _) fun permit => ?_
  refine .bind_eq h.callLearns fun _ => .bind_eq (h.emit _ _) fun _ => ?_
  -- each run remembers its own proposal
  refine .bind_eq (h.ofSession fun _ _ => h.present _ hp) fun _ => ?_
  refine .bind_eq (h.executeWithRetry hp _) fun result => ?_
  exact .bind_eq h.callLearns fun _ => .ret rfl

/-- A decision has the same consequences. -/
theorem proceed (hrefl : ∀ p, P p p) (hp : P p p') (s : PolicySnapshot) (d : PolicyResult)
    (attempt : Nat) :
    (r.proceed p s d attempt).Coupled R Eq (r.proceed p' s d attempt) := by
  have hallowed := h.executeAllowed (r := r) hp d attempt
  obtain ⟨reason, hreason, rfl⟩ := h.reworded hp
  unfold Runner.proceed
  split_ifs
  · exact .bind_eq (h.emit _ _) fun _ => .ret rfl
  · exact .bind_eq (h.emit _ _) fun _ => .bind_eq (h.escalate hrefl _ _ _) fun _ => .ret rfl
  · exact .bind_eq (h.emit _ _) fun _ => hallowed

omit h in
theorem recovering {read : Py (Option α)} (hread : read.Coupled R Eq read) :
    (ReadTools.recovering read).Coupled R Eq (ReadTools.recovering read) := by
  refine Prog.Coupled.tryCatch (Prog.Coupled.bind_eq hread fun _ => .ret rfl) fun err => ?_
  cases err with
  | readUnavailable tool attempts => exact .ret rfl
  | _ => exact .fail _

omit h in
theorem optional {read : Py (Option α)} (needed : Bool) (hread : read.Coupled R Eq read) :
    (ReadTools.optional needed read).Coupled R Eq (ReadTools.optional needed read) := by
  unfold ReadTools.optional
  split_ifs
  · exact recovering hread
  · exact .ret rfl

/-- The same records are read. -/
theorem snapshot (p : ActionProposal) :
    (r.snapshot p).Coupled R Eq (r.snapshot p) := by
  refine .bind_eq (recovering (h.read _ _ fun _ _ => rfl)) fun order => ?_
  refine .bind_eq (optional _ (h.read _ _ fun _ _ => rfl)) fun payment => ?_
  refine .bind_eq (optional _ (h.read _ _ fun _ _ => rfl)) fun shipment => ?_
  refine .bind_eq ?_ fun refundPolicy => .bind_eq (h.now _) fun now => .ret rfl
  unfold ReadTools.policyOf
  split
  · exact .ret rfl
  · exact optional _ (h.read _ _ fun _ _ => rfl)

/-- The attempts are in step. -/
theorem attempt (hrefl : ∀ p, P p p) (n : Nat) (orderId : String) :
    (r.attempt n orderId).Coupled R Eq (r.attempt n orderId) := by
  have hpropose : (Py.propose n).Coupled R (fun raw raw' => rawOrderId raw' = rawOrderId raw ∧
      ∀ intFromText, Agree P (validate intFromText raw) (validate intFromText raw'))
      (Py.propose n) := by
    refine Prog.Coupled.atomically fun v v' hv => ?_
    obtain ⟨hshared, hsession⟩ := h.world_iff.mp hv
    obtain ⟨hraw, hvalid, hnext⟩ := h.propose hsession
    exact ⟨.ok ⟨hraw, hvalid⟩, h.world_iff.mpr ⟨hshared, hnext⟩⟩
  refine Prog.Coupled.bind hpropose ?_
  rintro raw raw' ⟨hraw, hvalid⟩
  rw [hraw]
  refine .bind_eq (h.emit _ _) fun _ => ?_
  have hagree := hvalid r.intFromText
  revert hagree
  generalize validate r.intFromText raw = verdict
  generalize validate r.intFromText raw' = verdict'
  intro hagree
  cases hagree with
  | error reason => exact .bind_eq (h.emit _ _) fun _ => .ret rfl
  | @ok p p' hp =>
      have hproceed := fun s d => h.proceed (r := r) hrefl hp s d n
      obtain ⟨reason, hreason, rfl⟩ := h.reworded hp
      refine .bind_eq (h.emit _ _) fun _ => .bind_eq (h.snapshot p) fun s => ?_
      refine .bind_eq (Prog.Coupled.ofExcept (.refl (evaluate (some p) s))) fun d => ?_
      exact .bind_eq h.callLearns fun _ => .bind_eq (hproceed s d) fun step => .ret rfl

/-- So is the first loop. -/
theorem plan (hrefl : ∀ p, P p p) (attempts : List Nat) (orderId : String) :
    (r.plan attempts orderId).Coupled R Eq (r.plan attempts orderId) := by
  induction attempts generalizing orderId with
  | nil => exact .ret rfl
  | cons n rest ih =>
      refine .bind_eq (h.attempt hrefl n orderId) fun step => ?_
      dsimp only
      split_ifs
      · exact .bind_eq (h.touches fun _ _ _ _ _ _ => rfl) fun _ => ih _
      · exact .ret rfl
      · exact .ret rfl

/-- So is the hand-over. -/
theorem handOver (hrefl : ∀ p, P p p) (planned : Planned) :
    (r.handOver planned).Coupled R Eq (r.handOver planned) := by
  unfold Runner.handOver
  split
  · exact .ret rfl
  · exact .bind_eq (h.escalate hrefl _ _ _) fun _ => .ret rfl

/-- So is the second loop. -/
theorem chain (hrefl : ∀ p, P p p) (planned : Planned) (fuel : Nat) :
    (r.chain planned fuel).Coupled R Eq (r.chain planned fuel) := by
  induction fuel generalizing planned with
  | zero =>
      refine .bind_eq (h.own fun _ _ => h.exhausted) fun exhausted => ?_
      split_ifs
      · exact .fail _
      · exact .ret rfl
  | succ fuel ih =>
      refine .bind_eq (h.own fun _ _ => h.exhausted) fun exhausted => ?_
      split_ifs
      · refine .bind_eq (h.attempt hrefl 1 _) fun followUp => ?_
        dsimp only
        split_ifs
        · exact .ret rfl
        · exact ih _
      · exact .ret rfl

/-- So is the deliberate replay. -/
theorem replay : r.replay.Coupled R Eq r.replay := by
  have hlast : (Py.own fun s => s.lastExecution).Coupled R
      (Option.Rel fun x x' => x'.1 = x.1 ∧ P x.2 x'.2) (Py.own fun s => s.lastExecution) :=
    Prog.Coupled.read fun v v' hv => .ok (h.presented (h.world_iff.mp hv).2)
  refine Prog.Coupled.bind hlast fun last last' hrel => ?_
  cases hrel with
  | none => exact .ret rfl
  | @some presented presented' hpresented =>
      obtain ⟨permitId, p⟩ := presented
      obtain ⟨_, p'⟩ := presented'
      obtain ⟨rfl, hp⟩ := hpresented
      exact .bind_eq (h.execute hp _) fun result => h.touches fun _ _ _ _ _ _ => rfl

/-- The same state is found. -/
theorem verify (orderId : String) : (r.verify orderId).Coupled R Eq (r.verify orderId) := by
  refine .bind_eq (h.look fun _ _ => rfl) fun order => ?_
  refine .bind_eq (h.look fun _ _ => rfl) fun payment => ?_
  refine .bind_eq (h.look fun _ _ => rfl) fun shipment => ?_
  refine .bind_eq (h.look fun _ _ => rfl) fun refunded => ?_
  exact .bind_eq (h.emit _ _) fun _ => .ret rfl

variable {T : List String → List String → Prop}

/-- The reports are the same where the recorded calls are, and differ in them alone. -/
theorem report (hcalls : ∀ s s' : Session, S s s' → T (s.recorder.getD []) (s'.recorder.getD []))
    (outcome : Outcome) (reasonCode : ReasonCode) (state : VerifiedState) :
    (r.report outcome reasonCode state).Coupled R (RunReport.Recalled T)
      (r.report outcome reasonCode state) := by
  refine .bind_eq (h.look fun _ _ => rfl) fun rows => ?_
  refine .bind_eq (h.look fun _ _ => rfl) fun refunds => ?_
  refine .bind_eq (B := RunReport.Recalled T) ?_ fun tickets => ?_
  · refine Prog.Coupled.read fun v v' hv => .ok ?_
    exact (h.ticketCount r.runId (h.world_iff.mp hv).1).symm
  have hrecorder : (Py.own fun s => s.recorder.getD []).Coupled R T
      (Py.own fun s => s.recorder.getD []) :=
    Prog.Coupled.read fun v v' hv => .ok (hcalls _ _ (h.world_iff.mp hv).2)
  refine Prog.Coupled.bind hrecorder fun toolCalls toolCalls' hrel => ?_
  refine .bind_eq (h.ownPlain fun _ _ _ _ _ _ => rfl) fun recovered => ?_
  refine .bind_eq (h.ownPlain fun _ _ _ _ _ _ => rfl) fun notes => ?_
  exact .ret ⟨toolCalls', hrel, rfl, rfl⟩

/-- The reports agree up to the calls recorded. -/
theorem finish (hcalls : ∀ s s' : Session, S s s' →
      T (s.recorder.getD []) (s'.recorder.getD [])) (planned : Planned) :
    (r.finish planned).Coupled R (RunReport.Recalled T) (r.finish planned) := by
  refine .bind_eq (h.verify _) fun state => ?_
  refine Prog.Coupled.bind (h.report hcalls _ _ state) ?_
  rintro made made' ⟨toolCalls, hrel, hcount, rfl⟩
  exact .bind_eq (h.emit _ _) fun _ => .ret ⟨toolCalls, hrel, hcount, rfl⟩

/-- **No stage of a run sees the difference.** -/
theorem run (hrefl : ∀ p, P p p) (hcalls : ∀ s s' : Session, S s s' →
      T (s.recorder.getD []) (s'.recorder.getD [])) :
    r.run.Coupled R (RunReport.Recalled T) r.run := by
  refine .bind_eq (h.emit _ _) fun _ => .bind_eq (h.plan hrefl _ _) fun planned => ?_
  refine .bind_eq (h.handOver hrefl planned) fun _ => ?_
  refine .bind_eq (h.own fun _ _ => h.remaining) fun left => ?_
  refine .bind_eq (h.chain hrefl _ _) fun chained => ?_
  dsimp only
  split_ifs
  · exact .bind_eq h.replay fun _ => h.finish hcalls _
  · exact h.finish hcalls _

end Runner

end InStep

end BoundedRefund
