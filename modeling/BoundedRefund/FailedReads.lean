import BoundedRefund.FreeText
import BoundedRefund.Rereads

/-!
# Failed reads fail closed

A read that fails may keep a run from a decision, and can do nothing else.  Every decision is
the one on the snapshot that unfailing reads of the same database produce, or it is that the
information does not suffice (`FailsClosed`); and if every tool recovers in time, nobody but
the recorder notices (`Unnoticed`).

The first is about each call of a run, so what each call saw is followed through the run
(`Call.Sighted`, `run_sighted`).  The second compares two runs, and they are in step
(`reread_inStep`): a read costs other attempts in each of them, and comes to the same.
-/

namespace BoundedRefund

open Concurrent Relational

/-! ## What a call saw -/

section Sighted

variable {r : Runner} {v v' : World}

/-- What all calls so far saw is told. -/
structure Watched (r : Runner) (v : World) : Prop where
  audited : v.own.session.audit.isSome = true
  calls : ∀ call ∈ v.own.history, call.Sighted r

/-- A program, and what it returns or raises, keeps what the calls saw. -/
def Watches (r : Runner) {α : Type} (p : Py α) : Prop :=
  p.Triple (Watched r) (fun _ => Watched r) fun _ v => ∀ call ∈ v.own.history, call.Sighted r

/-- What keeps the watch over every run of it does so anywhere. -/
theorem watches_of_run {α : Type} {p : Py α}
    (h : ∀ v v' res, Watched r v → p.run v = (res, v') → Watched r v') : Watches r p :=
  .of_run (fun v _ v' => h v v' _) fun v _ v' hv hrun => (h v v' _ hv hrun).calls

/-- What makes no call. -/
theorem watches_aside {α : Type} {p : Py α}
    (h : ∀ v v' res, v.own.session.audit.isSome = true → p.run v = (res, v') →
      v'.own.session.audit.isSome = v.own.session.audit.isSome ∧
      v'.own.history = v.own.history) : Watches r p := by
  refine watches_of_run fun v v' res hv hrun => ?_
  obtain ⟨haudit, hhistory⟩ := h v v' res hv.audited hrun
  exact ⟨haudit.trans hv.audited, by rw [hhistory]; exact hv.calls⟩

/-- An attempt keeps the watch. -/
theorem watches_attempt (n : Nat) (orderId : String) : Watches r (r.attempt n orderId) := by
  refine watches_of_run fun v v' res hv hrun => ?_
  obtain ⟨hcarries, call, hcalled, -, hsighted⟩ := run_attempt hv.audited hrun
  refine ⟨hcarries.audited.trans hv.audited, ?_⟩
  rw [hcalled.history]
  exact List.forall_mem_cons.mpr ⟨hsighted, hv.calls⟩

/-- **It is told of every call of a run what it saw.** -/
theorem run_sighted {res : Except PyError RunReport} (hv : Watched r v)
    (h : r.run.run v = (res, v')) : ∀ call ∈ v'.own.history, call.Sighted r := by
  have hrun : r.run.Triple (Watched r) (fun _ v => ∀ call ∈ v.own.history, call.Sighted r)
      fun _ v => ∀ call ∈ v.own.history, call.Sighted r := by
    refine triple_run watches_attempt (fun fields _ => watches_aside fun v v' res haudit hrun => ?_)
      (fun text => watches_aside fun v v' res _ hrun => ?_) (fun v hv => hv.calls)
      (fun planned => watches_aside fun v v' res haudit hrun => ?_)
      (fun hasked => watches_aside fun v v' res haudit hrun => ?_) fun planned => ?_
    · obtain ⟨-, hticks⟩ := run_emit _ _ hrun
      exact ⟨hticks.audited, hticks.history⟩
    · rw [Py.run_touch, Prod.mk.injEq] at hrun
      exact hrun.2 ▸ ⟨rfl, rfl⟩
    · obtain ⟨haside, -⟩ := run_handOver haudit hrun
      exact ⟨haside.audited, haside.history⟩
    · obtain ⟨hsteady, -⟩ := run_replay hasked hrun
      exact ⟨hsteady.audited, hsteady.history⟩
    · -- the report need not leave an audited run behind
      have hcalls : ∀ v v' res, Watched r v → (r.finish planned).run v = (res, v') →
          ∀ call ∈ v'.own.history, call.Sighted r := by
        intro v v' res hv hrun
        rw [(run_finish hv.audited hrun).2.1]
        exact hv.calls
      exact .of_run (fun v _ v' => hcalls v v' _) fun v _ v' => hcalls v v' _
  cases res with
  | ok report => exact hrun.ok hv h
  | error err => exact hrun.error hv h

end Sighted

/-! ## What a failure makes of a decision -/

/-- The snapshot that unfailing reads of the database produce, the clock having been read so
often. -/
def Runner.unfailing (r : Runner) (proposal : ActionProposal) (db : Database) (readings : Nat) :
    Except PyError PolicySnapshot :=
  ((r.snapshot proposal).run ⟨db, { session := { readings := readings } }⟩).1

/-- The rules were given too little to decide. -/
def PolicyResult.Insufficient (d : PolicyResult) : Prop :=
  d.decision = .escalate ∧ d.reasonCode = .insufficientInformation

/-- **What failing reads make of the decision on a call.** -/
structure FailsClosed (r : Runner) (call : Call) (proposal : ActionProposal) (s : PolicySnapshot)
    (d : PolicyResult) : Prop where
  decided : (∃ unfailing, r.unfailing proposal call.start.shared (call.start.own.readings + 2) =
    .ok unfailing ∧ evaluate (some proposal) unfailing = .ok d) ∨ d.Insufficient
  /-- A tool that is needed and fails all its attempts is enough. -/
  gaveUp : ∀ name ∈ requiredRecords proposal.action,
    call.start.own.readsFail name.tool readMaxAttempts = true → d.Insufficient
  reported : s.readFailures ≠ [] → d.Insufficient
  /-- No failure makes a denial or an escalation a permission. -/
  allowed : ∀ unfailing d', r.unfailing proposal call.start.shared
      (call.start.own.readings + 2) = .ok unfailing →
    evaluate (some proposal) unfailing = .ok d' → d'.decision ≠ .allow → d.decision ≠ .allow

/-- Nothing fails where there is no injector. -/
theorem unfailing_eq (r : Runner) (proposal : ActionProposal) (db : Database) (readings : Nat) :
    r.unfailing proposal db readings =
      db.look (fun _ => false) proposal (r.clock readings) := by
  have hnone : (fun tool => ({ readings := readings } : Session).readsFail tool
      readMaxAttempts) = fun _ => false := rfl
  unfold Runner.unfailing
  rw [run_snapshot_eq, hnone]

/-- A call that was watched fails closed. -/
theorem Call.Sighted.failsClosed {r : Runner} {call : Call} (h : call.Sighted r)
    {s : PolicySnapshot} {d : PolicyResult} (hjudged : call.judged = some (s, d)) :
    ∃ proposal, validate r.intFromText call.raw = .ok proposal ∧
      FailsClosed r call proposal s d := by
  obtain ⟨proposal, hvalid, hlook, heval⟩ := h s d hjudged
  have hdecided : (∃ unfailing, r.unfailing proposal call.start.shared
      (call.start.own.readings + 2) = .ok unfailing ∧
      evaluate (some proposal) unfailing = .ok d) ∨ d.Insufficient := by
    by_cases hfailures : s.readFailures = []
    · refine .inl ⟨s, ?_, heval⟩
      rw [unfailing_eq]
      exact Database.look_unfailing hlook hfailures
    · exact .inr (evaluate_insufficient heval (.inl hfailures))
  refine ⟨proposal, hvalid, hdecided, fun name hneeded hfails => ?_, fun hfailures => ?_, ?_⟩
  · exact evaluate_insufficient heval (Database.look_gaveUp hlook hneeded hfails)
  · exact evaluate_insufficient heval (.inl hfailures)
  · intro unfailing d' hunfailing heval' hnot hallow
    rcases hdecided with ⟨same, hsame, hd⟩ | ⟨hescalate, -⟩
    · rw [Except.ok.inj (hsame.symm.trans hunfailing)] at hd
      rw [Except.ok.inj (hd.symm.trans heval')] at hallow
      exact hnot hallow
    · cases hallow.symm.trans hescalate

/-! ## Two runs -/

/-- Every tool recovers before it gives up. -/
def Recoverable (readTimeouts : List (String × Int)) : Prop :=
  ∀ tool, readBudget readTimeouts tool < readMaxAttempts

/-- It is enough that every budget of the scenario is small. -/
theorem recoverable_of_all {readTimeouts : List (String × Int)}
    (h : ∀ entry ∈ readTimeouts, entry.2 < readMaxAttempts) : Recoverable readTimeouts := by
  intro tool
  unfold readBudget
  cases hlookup : readTimeouts.lookup tool with
  | none => exact Int.natCast_pos.mpr (by decide)
  | some budget =>
      obtain ⟨before, after, rfl, -⟩ := List.lookup_eq_some_iff.mp hlookup
      exact h (tool, budget) (by simp)

/-- The objects of a run whose reads fail somehow, and recover. -/
inductive Session.Recovering (s : Session) : Session → Prop
  | intro (recorder : Option (List String)) (readTimeouts : List (String × Int))
      (readCalls : String → Nat) (recoverable : Recoverable readTimeouts) :
      s.Recovering (s.cloak s.planner s.lastExecution recorder readTimeouts readCalls)

/-- The objects of two runs that differ in how their reads fail, and recover. -/
def Session.Reread (s s' : Session) : Prop :=
  ∃ common : Session, common.Recovering s ∧ common.Recovering s'

/-- The same database, and sessions that differ in their reads only. -/
structure World.Reread (v v' : World) : Prop where
  shared : v.shared = v'.shared
  session : v.own.session.Reread v'.own.session

section Reread

variable {s s' : Session}

namespace Session.Recovering

/-- No tool fails all its attempts. -/
theorem readsFail (h : s.Recovering s') (tool : String) :
    s'.readsFail tool readMaxAttempts = false := by
  obtain ⟨recorder, readTimeouts, readCalls, recoverable⟩ := h
  rw [Bool.eq_false_iff, Ne, Session.readsFail_iff]
  rintro (hzero | ⟨inj, hinj, hbudget⟩)
  · cases hzero
  · obtain ⟨own, -, rfl⟩ := Option.map_eq_some_iff.mp hinj
    have hlt : readBudget readTimeouts tool < readMaxAttempts := recoverable tool
    have hle : readCalls tool + (readMaxAttempts : Int) ≤ readBudget readTimeouts tool := hbudget
    omega

/-- Reads that recover leave only notes behind. -/
theorem afterReads (h : s.Recovering s') (tool : String) (n : Nat)
    (recorder : Option (List String)) : s.Recovering (s'.afterReads tool n recorder) := by
  obtain ⟨own, readTimeouts, readCalls, recoverable⟩ := h
  have hcloak : (s.cloak s.planner s.lastExecution own readTimeouts readCalls).afterReads tool n
      recorder = s.cloak s.planner s.lastExecution recorder readTimeouts
        (Function.update readCalls tool (readCalls tool + n)) := by
    unfold Session.cloak Session.afterReads
    cases s.injector <;> rfl
  exact hcloak ▸ .intro _ _ _ recoverable

/-- An update that does not look at the reads goes with both runs. -/
theorem update {α : Type} (h : s.Recovering s') {f : Session → α × Session}
    (hf : Session.Plain f) : (f s').1 = (f s).1 ∧
      Session.Recovering { (f s).2 with planner := s.planner, lastExecution := s.lastExecution }
        (f s').2 := by
  obtain ⟨recorder, readTimeouts, readCalls, recoverable⟩ := h
  rw [hf]
  exact ⟨rfl, .intro recorder readTimeouts readCalls recoverable⟩

/-- The traces are the same. -/
theorem audit (h : s.Recovering s') : s'.audit = s.audit := by
  cases h
  rfl

end Session.Recovering

/-- Reads that recover come to the same. -/
theorem coupled_readCall {α : Type} (tool : String) (arguments : List (String × PlainValue))
    (fetch : Database → Except PyError α) :
    (ReadTools.call tool arguments fetch 0 readMaxAttempts).Coupled World.Reread Eq
      (ReadTools.call tool arguments fetch 0 readMaxAttempts) := by
  rintro v v' ⟨hshared, common, h, h'⟩
  obtain ⟨n, recorder, hrun⟩ := run_readCall_eq tool arguments fetch 0 readMaxAttempts v
  obtain ⟨n', recorder', hrun'⟩ := run_readCall_eq tool arguments fetch 0 readMaxAttempts v'
  -- whether the read gives up depends on the spec alone, and a recoverable one does not
  rw [hrun, hrun', h.readsFail, h'.readsFail, hshared]
  exact ⟨.refl _, rfl, common, h.afterReads tool n recorder, h'.afterReads tool n' recorder'⟩

/-- **Runs whose reads recover are in step.** -/
theorem reread_inStep : InStep World.Reread Eq Session.Reread Eq where
  world_iff := ⟨fun h => ⟨h.shared, h.session⟩, fun h => ⟨h.1, h.2⟩⟩
  reworded hp := hp ▸ .refl _
  query _ hdb := hdb ▸ rfl
  ticketCount _ hdb := hdb ▸ rfl
  transaction := by
    rintro α t db _ - rfl
    cases t db with
    | ok x => exact .ok ⟨rfl, rfl⟩
    | error err => exact .error err
  commitAll := by
    rintro e auth permit p _ texts now db _ rfl rfl
    cases e.commitAll auth permit p texts now db with
    | ok x => exact .ok ⟨rfl, rfl⟩
    | error err => exact .error err
  update := by
    rintro α f s s' hf ⟨common, h, h'⟩
    exact ⟨(h'.update hf).1.trans (h.update hf).1.symm, _, (h.update hf).2, (h'.update hf).2⟩
  record tool arguments := by
    rintro ⟨common, ⟨recorder, _, _, h⟩, ⟨recorder', _, _, h'⟩⟩
    exact ⟨common, .intro _ _ _ h, .intro _ _ _ h'⟩
  present {_ _ p _} permitId := by
    rintro rfl ⟨common, ⟨recorder, readTimeouts, readCalls, h⟩,
      ⟨recorder', readTimeouts', readCalls', h'⟩⟩
    exact ⟨{ common with lastExecution := some (permitId, p) },
      .intro recorder readTimeouts readCalls h, .intro recorder' readTimeouts' readCalls' h'⟩
  presented := by
    rintro _ _ ⟨common, ⟨_, _, _, -⟩, ⟨_, _, _, -⟩⟩
    exact rel_self (fun _ => ⟨rfl, rfl⟩) _
  remaining := by
    rintro _ _ ⟨common, ⟨_, _, _, -⟩, ⟨_, _, _, -⟩⟩
    rfl
  exhausted := by
    rintro _ _ ⟨common, ⟨_, _, _, -⟩, ⟨_, _, _, -⟩⟩
    rfl
  propose := by
    rintro _ _ ⟨common, ⟨recorder, readTimeouts, readCalls, h⟩,
      ⟨recorder', readTimeouts', readCalls', h'⟩⟩
    exact ⟨rfl, fun _ => .refl _, { common with planner := common.planner.propose.2 },
      .intro recorder readTimeouts readCalls h, .intro recorder' readTimeouts' readCalls' h'⟩
  read tool arguments _ := coupled_readCall tool arguments _

end Reread

/-- What the two runs have in common when they stop: all but the calls of the read tools. -/
structure Unnoticed (stopped stopped' : Except PyError RunReport × World) : Prop where
  tables : stopped'.2.shared = stopped.2.shared
  events : stopped'.2.events = stopped.2.events
  /-- The outcome and its reason, or the exception. -/
  outcome : stopped'.1.map (fun report => (report.outcome, report.reasonCode)) =
    stopped.1.map fun report => (report.outcome, report.reasonCode)
  report : Agree (RunReport.Recalled fun _ _ => True) stopped.1 stopped'.1

/-- The scenario whose reads do not fail. -/
def ScenarioSpec.unfailing (spec : ScenarioSpec) : ScenarioSpec :=
  { spec with failures := { spec.failures with readTimeouts := [] } }

/-- Reports that differ in the recorded calls say the same about the outcome. -/
theorem outcome_of_recalled {T : List String → List String → Prop}
    {made made' : Except PyError RunReport} (h : Agree (RunReport.Recalled T) made made') :
    made'.map (fun report => (report.outcome, report.reasonCode)) =
      made.map fun report => (report.outcome, report.reasonCode) := by
  cases h with
  | error err => rfl
  | ok related =>
      obtain ⟨toolCalls, -, -, rfl⟩ := related
      rfl

/-- Where all reads recover, nobody notices the failures. -/
theorem unnoticed_of_recoverable {spec : ScenarioSpec}
    (h : Recoverable spec.failures.readTimeouts) :
    Unnoticed (runScenario spec) (runScenario spec.unfailing) := by
  have hnone : Recoverable [] := recoverable_of_all fun _ hmem => nomatch hmem
  have hstart : World.Reread ⟨spec.world, spec.toRunner.start spec.proposals spec.failures⟩
      ⟨spec.world, spec.toRunner.start spec.proposals spec.unfailing.failures⟩ :=
    ⟨rfl, (spec.toRunner.start spec.proposals spec.failures).session,
      .intro _ spec.failures.readTimeouts _ h, .intro _ [] _ hnone⟩
  obtain ⟨hreport, hshared, hsession⟩ := reread_inStep.run (r := spec.toRunner)
    (T := fun _ _ => True) (fun _ => rfl) (fun _ _ _ => trivial) _ _ hstart
  obtain ⟨common, hcommon, hcommon'⟩ := hsession
  refine ⟨hshared.symm, World.events_congr (hcommon'.audit.trans hcommon.audit.symm),
    outcome_of_recalled hreport, hreport⟩

/-- **Failed reads fail closed, and recovered reads are invisible.** -/
theorem failed_reads_fail_closed (spec : ScenarioSpec) :
    (∀ call ∈ (runScenario spec).2.own.history, ∀ s d, call.judged = some (s, d) →
      ∃ proposal, validate spec.intFromText call.raw = .ok proposal ∧
        FailsClosed spec.toRunner call proposal s d) ∧
    (Recoverable spec.failures.readTimeouts →
      Unnoticed (runScenario spec) (runScenario spec.unfailing)) := by
  refine ⟨fun call hmem s d hjudged => ?_, unnoticed_of_recoverable⟩
  have hstart : Watched spec.toRunner
      ⟨spec.world, spec.toRunner.start spec.proposals spec.failures⟩ :=
    ⟨rfl, by simp [Runner.start]⟩
  exact (run_sighted hstart rfl call hmem).failsClosed hjudged

/-- A refund of a delivered order, some of the reads for which fail. -/
def patchyRefund (readTimeouts : List (String × Int)) : ScenarioSpec where
  clock := FixedClock.now { base := defaultClockBase }
  runId := "run_first"
  scenarioId := "patchy"
  defaultOrderId := "ord_0001"
  world := seedWorld [("ord_0001", .delivered)]
  proposals := [.proposal refundFirst]
  failures := { readTimeouts := readTimeouts }

/-- A payment that cannot be read ends in an escalation; an order and a payment that can be
read at the second attempt are refunded as if nothing had failed. -/
theorem failed_reads_fail_closed_refund :
    (∃ call ∈ (runScenario (patchyRefund [("get_payment", 2)])).2.own.history, ∃ proposal s d,
      FailsClosed (patchyRefund [("get_payment", 2)]).toRunner call proposal s d) ∧
    (runScenario (patchyRefund [("get_payment", 2)])).1.map
      (fun report => (report.outcome, report.reasonCode)) =
        .ok (.escalated, .insufficientInformation) ∧
    Unnoticed (runScenario (patchyRefund [("get_order", 1), ("get_payment", 1)]))
      (runScenario (patchyRefund [])) ∧
    (runScenario (patchyRefund [])).1.map
      (fun report => (report.outcome, report.reasonCode)) =
        .ok (.completed, .refundableWithinLimits) := by
  refine ⟨?_, by decide +kernel, ?_, by decide +kernel⟩
  · have hany : ((runScenario (patchyRefund [("get_payment", 2)])).2.own.history.any
        fun call => call.judged.isSome) = true := by decide +kernel
    obtain ⟨call, hmem, hjudged⟩ := List.any_eq_true.mp hany
    obtain ⟨⟨s, d⟩, hjudged⟩ := Option.isSome_iff_exists.mp hjudged
    obtain ⟨proposal, -, hfails⟩ :=
      (failed_reads_fail_closed (patchyRefund [("get_payment", 2)])).1 call hmem s d hjudged
    exact ⟨call, hmem, proposal, s, d, hfails⟩
  · exact (failed_reads_fail_closed (patchyRefund [("get_order", 1), ("get_payment", 1)])).2
      (recoverable_of_all (by decide))

end BoundedRefund
