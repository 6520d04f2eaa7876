import BoundedRefund.LoggedRuns
import BoundedRefund.Scoring

/-!
# The alarms of the stale-state gate

The evaluation takes a mutation for a stale execution if the scenario has changes for its action
(`countStaleWrongExecutions`).  Whether it was one is told by the statement that committed it: by
the version of the resource in the database that statement found, and by the version its permit
pins (`AlarmsTrue`).

Between the permit and the commit there are only the changes that are due, so a commit is foretold
when its permit is issued (`Foretold`): it finds the resource where the permit pins it if and only
if those changes leave it alone.  A run raises no false alarm if its changes move what they come
before (`alarms_true_iff_moved`).  A refund that is planned again after a stale attempt is a false
alarm (`replanned_refund_counted`): the changes were spent on the first attempt.
-/

namespace BoundedRefund

open Concurrent Relational

/-! ## Alarms -/

/-- The statement adds the row to the log and spends the permit. -/
structure Performs (a : World × World) (row : MutationRow) (permit : PermitRow) : Prop where
  logged : a.2.log = a.1.log ++ [row]
  found : a.1.shared.executionPermits.find? permit.permitId = some permit
  unused : permit.used = false
  spent : a.2.shared.executionPermits.find? permit.permitId = some permit.spend

instance (a : World × World) (row : MutationRow) (permit : PermitRow) :
    Decidable (Performs a row permit) :=
  decidable_of_iff
    ((a.2.log = a.1.log ++ [row] ∧
        a.1.shared.executionPermits.find? permit.permitId = some permit) ∧
      permit.used = false ∧
        a.2.shared.executionPermits.find? permit.permitId = some permit.spend)
    ⟨fun ⟨⟨hlogged, hfound⟩, hunused, hspent⟩ => ⟨hlogged, hfound, hunused, hspent⟩,
      fun h => ⟨⟨h.logged, h.found⟩, h.unused, h.spent⟩⟩

/-- A row of the log, as the evaluation observes it. -/
def MutationRow.observed (row : MutationRow) : ObservedMutation :=
  ⟨str row.action, row.resourceId, row.amountCents⟩

/-- The actions that have changes made before their commits. -/
def FailureSpec.disturbed (failures : FailureSpec) : List String :=
  failures.preCommitChanges.map Prod.fst

namespace ScenarioSpec

variable (spec : ScenarioSpec)

/-- The statements of the run. -/
def statements : List (World × World) :=
  spec.toRunner.run.transitions ⟨spec.world, spec.toRunner.start spec.proposals spec.failures⟩

/-- What the gate counts. -/
def alarms : List StaleWrongExecution :=
  countStaleWrongExecutions spec.failures
    ((runScenario spec).2.shared.observe spec.runId spec.defaultOrderId)

/-- What the gate counts was committed over a row that was not where its permit pins it. -/
def AlarmsTrue : Prop :=
  ∀ a ∈ spec.statements, ∀ row permit, Performs a row permit →
    .staleStateExecuted row.observed ∈ spec.alarms →
      a.1.shared.pinnedVersion row.resourceId row.action ≠ some permit.expectedResourceVersion

end ScenarioSpec

/-- The changes go through, and leave the row where it is. -/
def Unmoved (due : List StateChange) (db : Database) (key : ActionName × String) : Prop :=
  (injectAll due db).1 = .ok () ∧
    (injectAll due db).2.pinnedVersion key.2 key.1 = db.pinnedVersion key.2 key.1

instance (due : List StateChange) (db : Database) (key : ActionName × String) :
    Decidable (Unmoved due db key) :=
  inferInstanceAs (Decidable (_ ∧ _))

/-- The call writes a row of a disturbed action, and the changes due before the commit leave
what the row is about where it is. -/
def Call.CountedUnmoved (r : Runner) (failures : FailureSpec) (call : Call) : Prop :=
  ∃ key ∈ call.writes r, str key.1 ∈ failures.disturbed ∧
    Unmoved (call.start.own.due (str key.1)) call.start.shared key

instance (r : Runner) (failures : FailureSpec) (call : Call) :
    Decidable (call.CountedUnmoved r failures) :=
  inferInstanceAs (Decidable (∃ key ∈ call.writes r, _))

/-- So does the escalation behind stale state, from the world `v` on. -/
def Planned.CountedUnmoved (r : Runner) (failures : FailureSpec) (planned : Planned)
    (v : World) : Prop :=
  planned.escalateReason.isSome ∧ str ActionName.createSupportTicket ∈ failures.disturbed ∧
    r.clock.InTime v.own.session.readings (v.own.session.readings + 3) ∧
    (v.shared.orders.find? planned.orderId).isSome ∧
    Unmoved (v.own.session.due (str ActionName.createSupportTicket)) v.shared
      (.createSupportTicket, planned.orderId)

/-- The first loop of the run, from the start. -/
def ScenarioSpec.planned (spec : ScenarioSpec) : Except PyError Planned × World :=
  spec.firstLoop.run ⟨spec.world, spec.toRunner.start spec.proposals spec.failures⟩

/-- No step of the run writes a row of a disturbed action that its changes leave alone: no call,
and not the escalation behind stale state. -/
structure ScenarioSpec.Moved (spec : ScenarioSpec) : Prop where
  calls : ∀ call ∈ (runScenario spec).2.own.history,
    ¬ call.CountedUnmoved spec.toRunner spec.failures
  handOver : ∀ planned, spec.planned.1 = .ok planned →
    ¬ planned.CountedUnmoved spec.toRunner spec.failures spec.planned.2

/-! ## What a statement that logs has found -/

/-- The statement commits a row of the run, for this action and resource.  It finds the resource
where its permit pins it if and only if the changes that were due have left it where it was. -/
structure Foretold (runId : String) (due : List StateChange) (db : Database)
    (key : ActionName × String) (a : World × World) : Prop where
  performs : ∃ row permit, Performs a row permit
  told : ∀ row permit, Performs a row permit → row.runId = runId ∧ row.key = key ∧
    (a.1.shared.pinnedVersion row.resourceId row.action = some permit.expectedResourceVersion ↔
      Unmoved due db key)

section Foretold

variable {a : World × World} {x : Execution}

/-- A commit performs its row, under the permit it was given. -/
theorem Performs.of_commits {permit : PermitRow} (h : x.Commits a.1.shared a.2.shared)
    (hid : permit.permitId = x.permit.permitId)
    (hfound : a.1.shared.executionPermits.find? permit.permitId = some permit)
    (hunused : permit.used = false) : Performs a x.logRow permit where
  logged := h.mutationLog
  found := hfound
  unused := hunused
  spent := by
    rw [h.executionPermits, Database.markUsed, Table.find?_update, hfound]
    simp [hid]

/-- It performs no other one, and under no other one. -/
theorem Performs.eq_of_commits {row : MutationRow} {permit : PermitRow}
    (h : Performs a row permit) (hx : x.Commits a.1.shared a.2.shared) :
    row = x.logRow ∧ permit.permitId = x.permit.permitId := by
  constructor
  · have hlog := h.logged.symm.trans hx.mutationLog
    simpa [World.log] using hlog
  · by_contra hne
    have hspent := h.spent
    rw [hx.executionPermits, Database.markUsed, Table.find?_update, h.found] at hspent
    simp only [Option.map_some, decide_eq_true_eq, if_neg hne, Option.some.injEq] at hspent
    have hused := h.unused
    rw [hspent] at hused
    cases hused

/-- **What went through was foretold** when its permit was issued. -/
theorem Equipped.foretold {r : Runner} {request : PermitRequest} {permit : ExecutionPermit}
    {proposal : ActionProposal} {texts : TicketTexts} {n : Nat} {now : Instant} {u w : World}
    (h : Equipped r request permit u w) (hfit : Fits u.shared request proposal)
    (landed : Landed r request permit proposal texts n w now a.1.shared a.2.shared) :
    Foretold r.runId (u.own.session.due (str proposal.action)) u.shared
      (proposal.action, request.resourceId) a := by
  have hissued := h.issued
  have hinjected := Injected.of_injectAll landed.injected
  have hfind := h.find?
  rw [← hinjected.executionPermits] at hfind
  constructor
  · refine ⟨_, permit.row (r.clock u.own.session.readings) r.runId,
      .of_commits landed.commits rfl hfind ?_⟩
    rw [hissued]
    rfl
  · intro row p hp
    obtain ⟨rfl, hid⟩ := hp.eq_of_commits landed.commits
    have hkey : (r.executor.execution permit proposal texts now).logRow.key =
        (proposal.action, request.resourceId) := by
      rw [hissued]
      rfl
    have hrow : (r.executor.execution permit proposal texts now).logRow.runId = r.runId := rfl
    refine ⟨hrow, hkey, ?_⟩
    -- the permit pins the resource where it was when the permit was issued
    have hp' : p = permit.row (r.clock u.own.session.readings) r.runId := by
      have hfound := hp.found
      rw [hid] at hfound
      exact Option.some.inj (hfound.symm.trans hfind)
    have hversion : p.expectedResourceVersion = request.expectedResourceVersion := by
      rw [hp', hissued]
      rfl
    obtain ⟨target, hresolve, hresource, htarget, -⟩ := hfit.target
    have hbefore := pinnedVersion_of_resolved hresolve
    rw [hresource, htarget, ← hversion] at hbefore
    -- and the changes were made to the database of that time, but for the new permit
    obtain ⟨permits, -, heq⟩ := Database.insertPermit_eq_ok.mp h.inserted
    have hinject := landed.injected
    rw [(due_congr h.due _).1, heq, injectAll_permits, Prod.mk.injEq] at hinject
    have hpinned : a.1.shared.pinnedVersion request.resourceId proposal.action =
        (injectAll (u.own.session.due (str proposal.action)) u.shared).2.pinnedVersion
          request.resourceId proposal.action := by
      rw [← hinject.2]
      cases proposal.action <;> rfl
    have hresource' : (r.executor.execution permit proposal texts now).logRow.resourceId =
        request.resourceId := congrArg Prod.snd hkey
    change a.1.shared.pinnedVersion _ proposal.action = _ ↔ _
    rw [hresource', hpinned, ← hbefore]
    exact ⟨fun hsame => ⟨hinject.1, hsame⟩, And.right⟩

end Foretold

section Calls

variable {r : Runner} {spec : FailureSpec} {v : World} {call : Call} {a : World × World}

/-- The ticket of an escalation: it is in time, about an order, and foretold. -/
theorem WritesTicket.foretold {orderId detail : String} {reason : ReasonCode}
    (h : WritesTicket r orderId reason detail v a) :
    r.clock.InTime v.own.session.readings (v.own.session.readings + 3) ∧
      (v.shared.orders.find? orderId).isSome ∧
      Foretold r.runId (v.own.session.due (str ActionName.createSupportTicket)) v.shared
        (.createSupportTicket, orderId) a := by
  obtain ⟨order, ticket, permit, w, now, found, proposed, equipped, landed⟩ := h
  refine ⟨?_, ?_, ?_⟩
  · have hin := landed.inTime
    rwa [equipped.readings] at hin
  · rw [Database.fetchOrder_eq_some.mp found]
    rfl
  · have hforetold := equipped.foretold (Fits.ticket found proposed) landed
    rw [Runner.ticketProposal_action proposed] at hforetold
    have hresource : (ticketRequest order).resourceId = orderId := Database.fetchOrder_orderId found
    rwa [hresource] at hforetold

/-- What went through for an allowed call is what the call writes. -/
theorem Opened.writes {proposal : ActionProposal} {s : PolicySnapshot} {d : PolicyResult}
    {permit : ExecutionPermit} {u w : World} {now : Instant} {mid db' : Database}
    (h : Opened r call proposal s d permit v u w) (hu : Running r spec u)
    (landed : Landed r (allowedRequest proposal d) permit proposal {} u.own.session.readings w now
      mid db') : call.writes r = some (proposal.action, d.resourceId) := by
  have hin := landed.inTime
  rw [← h.inTime_iff 1] at hin
  have hwithin : proposal.amount ≤ d.maxAmountCents := landed.within
  have honTime : ¬ call.Overtaken proposal d := fun hpast =>
    ((h.overtaken_iff landed.injected).mp hpast).2
      (landed.pinned (h.equipped.held rfl hu.numbered)
        ((h.overtaken_iff landed.injected).mp hpast).1)
  simp only [Call.writes, Call.fate, h.valid, h.judged, h.decision, hin, honTime,
    not_true_eq_false, not_lt.mpr hwithin, or_self, if_false]
  split_ifs <;> rfl

/-- **What a call logs is what it writes**, and it was foretold when the call was made. -/
theorem Writes.foretold (h : Writes r v call a) (hrun : Running r spec v) :
    ∃ key ∈ call.writes r,
      Foretold r.runId (call.start.own.due (str key.1)) call.start.shared key a := by
  cases h with
  | ticket proposal s d w judged decision start idle written =>
      obtain ⟨hin, hfound, hforetold⟩ := written.foretold
      rw [idle.shared, (due_congr idle.due _).1] at hforetold
      rw [idle.readings] at hin
      rw [idle.shared] at hfound
      have hfate : call.fate r = .ticketed := by
        have hin' : call.InTime r 3 := by
          rw [Call.InTime, start]
          exact hin
        simp [Call.fate, judged.valid, judged.judged, decision, hin', start, hfound]
      refine ⟨(.createSupportTicket, proposal.orderId), ?_, ?_⟩
      · simp [Call.writes, judged.valid, judged.judged, hfate]
      · rw [start]
        exact hforetold
  | allowed proposal s d permit u w now opened landed =>
      have hu := hrun.quiet opened.idle.carries opened.idle.shared
      have hfit : Fits u.shared (allowedRequest proposal d) proposal := by
        have hreads := opened.reads
        rw [opened.start] at hreads
        exact opened.idle.shared ▸ hreads.fits opened.evaluated opened.decision
      refine ⟨_, opened.writes hu landed, ?_⟩
      have hforetold := opened.equipped.foretold hfit landed
      rw [opened.idle.shared, (due_congr opened.idle.due _).1] at hforetold
      rw [opened.start]
      exact hforetold

end Calls

/-! ## True alarms -/

section Alarms

variable {spec : ScenarioSpec} {c : FixedClock}

/-- Counted are the rows of the run whose action is disturbed. -/
theorem mem_alarms {alarm : StaleWrongExecution} : alarm ∈ spec.alarms ↔
    ∃ row ∈ (runScenario spec).2.log, row.runId = spec.runId ∧
      str row.action ∈ spec.failures.disturbed ∧ alarm = .staleStateExecuted row.observed := by
  have hcount : spec.alarms =
      ((((runScenario spec).2.log.filter (·.runId = spec.runId)).map MutationRow.observed).filter
        (·.action ∈ spec.failures.disturbed)).map .staleStateExecuted := by
    unfold ScenarioSpec.alarms countStaleWrongExecutions
    dsimp only
    split_ifs with hnone
    · simp [FailureSpec.disturbed, hnone]
    · rfl
  simp only [hcount, List.mem_map, List.mem_filter, decide_eq_true_eq]
  constructor
  · rintro ⟨_, ⟨⟨row, ⟨hrow, hrun⟩, rfl⟩, hdisturbed⟩, rfl⟩
    exact ⟨row, hrow, hrun, hdisturbed, rfl⟩
  · rintro ⟨row, hrow, hrun, hdisturbed, rfl⟩
    exact ⟨row.observed, ⟨⟨row, ⟨hrow, hrun⟩, rfl⟩, hdisturbed⟩, rfl⟩

/-- Where a statement of the run logs, it was foretold by a call, or by the escalation. -/
theorem statement_foretold (hclock : spec.clock = c.now) (hseeded : spec.world.Seeded)
    {a : World × World} (ha : a ∈ spec.statements) (hlog : a.2.log ≠ a.1.log) :
    (∃ call ∈ (runScenario spec).2.own.history, ∃ key ∈ call.writes spec.toRunner,
      Foretold spec.runId (call.start.own.due (str key.1)) call.start.shared key a) ∨
    ∃ planned u, spec.planned = (.ok planned, u) ∧ planned.escalateReason.isSome ∧
      spec.clock.InTime u.own.session.readings (u.own.session.readings + 3) ∧
      (u.shared.orders.find? planned.orderId).isSome ∧
      Foretold spec.runId (u.own.session.due (str ActionName.createSupportTicket)) u.shared
        (.createSupportTicket, planned.orderId) a := by
  obtain ⟨t, call, hcall, ht, hwrites⟩ | ⟨planned, u, reason, hplanned, hreason, hwritten⟩ :=
    run_logs hclock hseeded ha hlog
  · exact .inl ⟨call, hcall, hwrites.foretold ht⟩
  · exact .inr ⟨planned, u, hplanned, by rw [hreason]; rfl, hwritten.foretold⟩

/-- It performs a row, then. -/
theorem performs_of_logs (hclock : spec.clock = c.now) (hseeded : spec.world.Seeded)
    {a : World × World} (ha : a ∈ spec.statements) (hlog : a.2.log ≠ a.1.log) :
    ∃ row permit, Performs a row permit := by
  obtain ⟨_, -, _, -, hforetold⟩ | ⟨_, _, -, -, -, -, hforetold⟩ :=
    statement_foretold hclock hseeded ha hlog
  · exact hforetold.performs
  · exact hforetold.performs

/-- **Every alarm is about a commit of the run.** -/
theorem performed_of_alarm (hclock : spec.clock = c.now) (hseeded : spec.world.Seeded)
    {alarm : StaleWrongExecution} (h : alarm ∈ spec.alarms) :
    ∃ a ∈ spec.statements, ∃ row permit, Performs a row permit ∧
      alarm = .staleStateExecuted row.observed := by
  obtain ⟨row, hrow, -, -, rfl⟩ := mem_alarms.mp h
  have hfresh : row ∉ World.log ⟨spec.world, spec.toRunner.start spec.proposals spec.failures⟩ := by
    rw [World.log, hseeded.mutationLog]
    exact List.not_mem_nil
  obtain ⟨a, ha, hbefore, hbehind⟩ := Prog.exists_switch (P := fun v => row ∈ World.log v)
    hfresh hrow
  have hlog : a.2.log ≠ a.1.log := fun heq => hbefore (heq ▸ hbehind)
  obtain ⟨row', permit, hperforms⟩ := performs_of_logs hclock hseeded ha hlog
  refine ⟨a, ha, row', permit, hperforms, ?_⟩
  rw [hperforms.logged] at hbehind
  rcases List.mem_append.mp hbehind with hmem | hmem
  · exact absurd hmem hbefore
  · rw [List.mem_singleton.mp hmem]

/-- What a statement of the run logs stays in the log. -/
theorem logged_of_performs (hclock : spec.clock = c.now) (hseeded : spec.world.Seeded)
    {a : World × World} (ha : a ∈ spec.statements) {row : MutationRow} {permit : PermitRow}
    (h : Performs a row permit) : row ∈ (runScenario spec).2.log := by
  have hkeeps : ∀ b ∈ spec.statements, row ∈ b.1.log → row ∈ b.2.log := by
    intro b hb hmem
    by_cases hlog : b.2.log = b.1.log
    · rwa [hlog]
    · obtain ⟨other, permit', hother⟩ := performs_of_logs hclock hseeded hb hlog
      rw [hother.logged]
      exact List.mem_append_left _ hmem
  refine Prog.run_keeps_of_mem (P := fun v => row ∈ World.log v) hkeeps ha ?_
  rw [h.logged]
  exact List.mem_append_right _ (List.mem_singleton_self _)

/-- **No false alarm** is raised in a run whose changes move what they come before. -/
theorem alarms_true_of_moved (hclock : spec.clock = c.now) (hseeded : spec.world.Seeded)
    (hmoved : spec.Moved) : spec.AlarmsTrue := by
  intro a ha row permit hperforms halarm hpinned
  obtain ⟨other, -, -, hdisturbed, hsame⟩ := mem_alarms.mp halarm
  have haction : str row.action = str other.action :=
    congrArg ObservedMutation.action (StaleWrongExecution.staleStateExecuted.inj hsame)
  rw [← haction] at hdisturbed
  have hlog : a.2.log ≠ a.1.log := by
    rw [hperforms.logged]
    simp
  obtain ⟨call, hcall, key, hkey, hforetold⟩ | ⟨planned, u, hplanned, hasked, hin, hfound,
    hforetold⟩ := statement_foretold hclock hseeded ha hlog
  · obtain ⟨-, rfl, hunmoved⟩ := hforetold.told row permit hperforms
    exact hmoved.calls call hcall ⟨_, hkey, hdisturbed, hunmoved.mp hpinned⟩
  · obtain ⟨-, hrow, hunmoved⟩ := hforetold.told row permit hperforms
    have hticket : row.action = .createSupportTicket := congrArg Prod.fst hrow
    rw [hticket] at hdisturbed
    have hnot := hmoved.handOver planned (by rw [hplanned])
    rw [hplanned] at hnot
    exact hnot ⟨hasked, hdisturbed, hin, hfound, hunmoved.mp hpinned⟩

/-- A statement that was foretold, and found its resource unmoved, raises a false alarm. -/
theorem false_alarm (hclock : spec.clock = c.now) (hseeded : spec.world.Seeded)
    {a : World × World} (ha : a ∈ spec.statements) {due : List StateChange} {db : Database}
    {key : ActionName × String} (h : Foretold spec.runId due db key a)
    (hdisturbed : str key.1 ∈ spec.failures.disturbed) (hunmoved : Unmoved due db key) :
    ¬ spec.AlarmsTrue := by
  intro htrue
  obtain ⟨row, permit, hperforms⟩ := h.performs
  obtain ⟨hrunId, rfl, hpinned⟩ := h.told row permit hperforms
  have hlogged := logged_of_performs hclock hseeded ha hperforms
  exact htrue a ha row permit hperforms (mem_alarms.mpr ⟨row, hlogged, hrunId, hdisturbed, rfl⟩)
    (hpinned.mpr hunmoved)

/-- Where the run reports, what was to be written was written. -/
theorem moved_of_alarms_true (hclock : spec.clock = c.now) (hseeded : spec.world.Seeded)
    (hreport : (runScenario spec).1.isOk = true) (htrue : spec.AlarmsTrue) : spec.Moved := by
  obtain ⟨report, v', hrun⟩ : ∃ report v', runScenario spec = (.ok report, v') := by
    rcases hrun : runScenario spec with ⟨err | report, v'⟩
    · rw [hrun] at hreport
      cases hreport
    · exact ⟨report, v', rfl⟩
  obtain ⟨hanswered, first, u, w, hhands⟩ := run_answered hseeded hrun
  constructor
  · rintro call hcall ⟨key, hkey, hdisturbed, hunmoved⟩
    rw [hrun] at hcall
    have hsome : (call.writes spec.toRunner).isSome := by
      rw [Option.mem_def.mp hkey]
      rfl
    obtain ⟨t, a, ha, ht, hwritten⟩ := (hanswered call hcall).writes hsome
    obtain ⟨key', hkey', hforetold⟩ := hwritten.foretold ht
    obtain rfl : key' = key := Option.mem_unique hkey' hkey
    exact false_alarm hclock hseeded ha hforetold hdisturbed hunmoved htrue
  · rintro planned hplanned ⟨hasked, hdisturbed, hin, hfound, hunmoved⟩
    have hfirst : spec.planned = (.ok first, u) := hhands.first
    rw [hfirst] at hplanned hin hfound hunmoved
    cases hplanned
    obtain ⟨a, ha, reason, hwritten⟩ := hhands.writes hasked hin hfound
    exact false_alarm hclock hseeded ha hwritten.foretold.2.2 hdisturbed hunmoved htrue

/-- **The gate raises no false alarm** in a run whose changes move what they come before, and a
run that reports is such a run if no false alarm is raised.  There is a commit behind every
alarm. -/
theorem alarms_true_iff_moved (hclock : spec.clock = c.now) (hseeded : spec.world.Seeded) :
    (spec.Moved → spec.AlarmsTrue) ∧
      ((runScenario spec).1.isOk = true → spec.AlarmsTrue → spec.Moved) ∧
      ∀ alarm ∈ spec.alarms, ∃ a ∈ spec.statements, ∃ row permit, Performs a row permit ∧
        alarm = .staleStateExecuted row.observed :=
  ⟨alarms_true_of_moved hclock hseeded, moved_of_alarms_true hclock hseeded,
    fun _ halarm => performed_of_alarm hclock hseeded halarm⟩

end Alarms

/-- The order moves while the agent opens a ticket on it. -/
def overtakenTicket : ScenarioSpec where
  clock := FixedClock.now { base := defaultClockBase }
  runId := "run_first"
  scenarioId := "overtaken_ticket"
  defaultOrderId := "ord_0001"
  world := seedWorld [("ord_0001", .delivered)]
  proposals := [.proposal ticketFirst]
  failures := { preCommitChanges := [("create_support_ticket",
    [{ resource := "order", resourceId := "ord_0001" }])] }

/-- A ticket for an order that did move: the alarm is true. -/
theorem alarms_true_iff_moved_overtaken :
    overtakenTicket.alarms = [.staleStateExecuted ⟨"create_support_ticket", "ord_0001", 0⟩] ∧
    overtakenTicket.AlarmsTrue ∧ overtakenTicket.Moved := by
  have hcalls : ∀ call ∈ (runScenario overtakenTicket).2.own.history,
      ¬ call.CountedUnmoved overtakenTicket.toRunner overtakenTicket.failures := by
    decide +kernel
  have hended : overtakenTicket.planned.1.map Planned.escalateReason = .ok none := by
    decide +kernel
  have hmoved : overtakenTicket.Moved := by
    refine ⟨hcalls, fun planned hplanned hcounted => ?_⟩
    rw [hplanned] at hended
    rw [Planned.CountedUnmoved, Except.ok.inj hended] at hcounted
    cases hcounted.1
  have hclock : overtakenTicket.clock = FixedClock.now ⟨defaultClockBase, 0⟩ := rfl
  have hexact := alarms_true_iff_moved hclock (seedWorld_seeded _)
  have htrue := hexact.1 hmoved
  exact ⟨by decide +kernel, htrue, hexact.2.1 (by decide +kernel) htrue⟩

/-- The refund of the second attempt commits where its permit pins the payment, and is counted. -/
theorem replanned_refund_counted :
    (runScenario replannedRefund).1.map RunReport.notes =
      .ok ["replanning after stale state (attempt 1)"] ∧
    replannedRefund.alarms = [.staleStateExecuted ⟨"issue_refund", "pay_ord_0001", 5000⟩] ∧
    ¬ replannedRefund.AlarmsTrue := by
  have hperforms : ∃ a ∈ replannedRefund.statements, ∃ row ∈ a.2.log,
      ∃ permit ∈ a.1.shared.executionPermits.rows, Performs a row permit ∧
        .staleStateExecuted row.observed ∈ replannedRefund.alarms ∧
        a.1.shared.pinnedVersion row.resourceId row.action =
          some permit.expectedResourceVersion := by
    decide +kernel
  refine ⟨by decide +kernel, by decide +kernel, fun htrue => ?_⟩
  obtain ⟨a, ha, row, -, permit, -, hperformed, halarm, hpinned⟩ := hperforms
  exact htrue a ha row permit hperformed halarm hpinned

end BoundedRefund
