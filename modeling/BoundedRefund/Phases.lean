import BoundedRefund.Settled
import BoundedRefund.World

/-!
# Changes between the two phases of an execution

Behind clearance the write phase does not look back at anything the checks have read except
the permit, and the guard of a version is part of two of the three writes only.  A ticket
has none (`stale_refused_iff`).
-/

namespace BoundedRefund

open Concurrent Relational

/-! ## Answers -/

section Runs

variable {e : Executor} {proposal : ActionProposal} {texts : TicketTexts} {v v' : World}

/-- With a trace attached, the executor can still read the row an answer is about. -/
def World.Reportable (v : World) (proposal : ActionProposal) : Prop :=
  v.own.session.audit.isSome = true → ∃ target, v.shared.resolveTarget proposal = .ok target

section Emit

variable {eventType : EventType} {permit : Option ExecutionPermit}
variable {result : Option ExecutionResult} {extra : List (String × PlainValue)}

/-- An event of the executor is written exactly where the target can be resolved. -/
theorem run_executor_emit_iff :
    ((e.emit eventType proposal permit result extra).run v).1 = .ok () ↔
      v.Reportable proposal := by
  obtain ⟨⟨res, t⟩, hrun⟩ : ∃ out, (e.emit eventType proposal permit result extra).run v = out :=
    ⟨_, rfl⟩
  rw [hrun]
  have h := Py.run_own_bind hrun
  unfold World.Reportable
  cases haudit : v.own.session.audit.isSome with
  | false =>
      simp only [haudit, Bool.false_eq_true, if_false, Py.run_pure, Prod.mk.injEq] at h
      simp [← h.1]
  | true =>
      simp only [haudit, if_true] at h
      obtain ⟨err, hq, rfl, -⟩ | ⟨target, hq, h⟩ := Py.run_query_bind h
      · simp [hq]
      · obtain ⟨rfl, -⟩ := run_emit _ _ h
        simp [hq]

end Emit

/-- A refusal is answered exactly where it can be reported. -/
theorem run_respond_refused {permit : Option ExecutionPermit} {result : ExecutionResult}
    {res : Except PyError ExecutionResult} (hresult : result.committed = false)
    (h : (e.respond proposal permit result).run v = (res, v')) :
    res = .ok result ↔ v.Reportable proposal := by
  have hfresh : result.fresh = false := by simp [ExecutionResult.fresh, hresult]
  have hemit : ((e.emit .mutationRejected proposal permit (some result)).run v).1 = .ok () ↔
      v.Reportable proposal := run_executor_emit_iff
  simp only [Executor.respond, hfresh, hresult, Bool.false_eq_true, if_false] at h
  rw [← hemit]
  obtain ⟨err, hrun, rfl⟩ | ⟨_, t, hrun, h⟩ := Py.run_bind_cases h
  · simp [hrun]
  · rw [Py.run_pure, Prod.mk.injEq] at h
    simp [hrun, ← h.1]

end Runs

/-! ## Changes between the phases -/

/-- An execution was refused as stale: that is what it returned, and it left the ledger and
the permits as they were. -/
structure RefusedStale (permit : ExecutionPermit) (before : Database)
    (out : Except PyError ExecutionResult × World) : Prop where
  answer : out.1 = .ok (rejected .staleResourceVersion permit.resourceId)
  mutationLog : out.2.shared.mutationLog = before.mutationLog
  executionRecords : out.2.shared.executionRecords = before.executionRecords
  refunds : out.2.shared.refunds = before.refunds
  supportTickets : out.2.shared.supportTickets = before.supportTickets
  executionPermits : out.2.shared.executionPermits = before.executionPermits

section Stale

variable {e : Executor} {permitId : Option String} {permit : ExecutionPermit}
variable {proposal : ActionProposal} {v u : World} {between mid : Database}

/-- **When staleness is refused.**  The checks have cleared a permit; whatever happens to the
database then, and whatever changes are injected behind it, as long as the row the permit
pins ends up at a greater version.  The execution is refused as stale and writes nothing if
and only if its action is not a ticket and the refusal can be reported. -/
theorem stale_refused_iff (texts : TicketTexts)
    (hcheck : (e.check permitId proposal).run v = (.ok (.cleared permit), u))
    (hinject : injectAll (u.own.session.due (str proposal.action)) between = (.ok (), mid))
    (hmoved : mid.MovedPast permit proposal.action) :
    RefusedStale permit between ((e.settle proposal texts (.cleared permit)).run
        ⟨between, u.own⟩) ↔
      proposal.action ≠ .createSupportTicket ∧ World.Reportable ⟨mid, u.own⟩ proposal := by
  obtain ⟨⟨res, v'⟩, hrun⟩ : ∃ out, (e.settle proposal texts (.cleared permit)).run
      ⟨between, u.own⟩ = out := ⟨_, rfl⟩
  rw [hrun]
  obtain ⟨_, -, ⟨_, hr, -⟩ | ⟨_, hr, -⟩ | ⟨_, target, -, hr, hclear, -⟩⟩ := run_check hcheck
  · cases hr
  · cases hr
  cases hr
  have hinjected := Injected.of_injectAll hinject
  have reportable : ∀ {t : World}, Steady ⟨between, u.own⟩ t → t.shared = mid →
      (t.Reportable proposal ↔ World.Reportable ⟨mid, u.own⟩ proposal) := by
    intro t hsteady hshared
    unfold World.Reportable
    rw [hsteady.audited, hshared]
  -- a write that is guarded by a version finds the row moved
  have stale : proposal.action ≠ .createSupportTicket → ∀ now, ∃ resourceId version,
      e.commitAll (e.authorization permit) permit proposal texts now mid =
        .error (.staleResource resourceId version) := by
    intro haction now
    have htarget : proposal.action = .cancelOrder → permit.resourceId = proposal.orderId :=
      fun ha => hclear.resource.symm.trans (resolved_resource hclear.resolved (by simp [ha]))
    exact commitAll_movedPast e texts now hclear.action hclear.amount htarget haction hmoved
  obtain ⟨t, outcome, hlanding, hcommit, hanswer⟩ := run_settle_cleared hrun
  cases hcommit with
  | spoiled err injected => cases hinject.symm.trans injected
  | refused err injected hne commit =>
      cases hinject.symm.trans injected
      obtain ⟨_, he, rfl, -⟩ | ⟨_, he, -⟩ := hanswer
      · refine iff_of_false (fun h => by cases h.answer) fun h => ?_
        obtain ⟨resourceId, version, hstale⟩ := stale h.1 _
        cases hstale.symm.trans commit
        exact hne resourceId version rfl
      · cases he
  | overtaken resourceId version injected commit =>
      cases hinject.symm.trans injected
      obtain ⟨_, he, -⟩ | ⟨_, he, hrespond⟩ := hanswer
      · cases he
      cases he
      have hreported : res = .ok (rejected .staleResourceVersion permit.resourceId) ↔
          World.Reportable ⟨t.shared, u.own⟩ proposal :=
        (run_respond_refused rfl hrespond).trans (reportable hlanding.toSteady rfl)
      obtain ⟨-, hsame, -⟩ := run_respond hrespond
      constructor
      · exact fun h => ⟨action_of_stale commit, hreported.mp h.answer⟩
      · rintro ⟨-, hreport⟩
        exact ⟨hreported.mpr hreport, by rw [hsame, hinjected.mutationLog],
          by rw [hsame, hinjected.executionRecords], by rw [hsame, hinjected.refunds],
          by rw [hsame, hinjected.supportTickets], by rw [hsame, hinjected.executionPermits]⟩
  | committed mid' result injected commit =>
      cases hinject.symm.trans injected
      obtain ⟨_, he, -⟩ | ⟨_, he, hrespond⟩ := hanswer
      · cases he
      cases he
      refine iff_of_false (fun h => ?_) fun h => ?_
      · -- a commit is not answered by a refusal
        have hrefused : res = .ok (rejected .staleResourceVersion permit.resourceId) := h.answer
        obtain ⟨rfl, -⟩ := commitAll_eq_ok.mp commit
        obtain ⟨-, -, ⟨_, hr, -⟩ | ⟨hr, -⟩ | ⟨-, -, -, hr⟩⟩ := run_respond hrespond
        · cases hrefused.symm.trans hr
        · cases hrefused.symm.trans hr
        · cases hrefused.symm.trans (hr permit rfl)
      · obtain ⟨resourceId, version, hstale⟩ := stale h.1 _
        cases hstale.symm.trans commit

end Stale

/-! ## A ticket for an order that moved -/

/-- An executor under a clock that stands still. -/
def deskExecutor : Executor where
  clock := fun _ => defaultClockBase
  runId := "run_desk"

/-- A permit for the proposal that pins a row at version 1. -/
def deskPermit (proposal : ActionProposal) (resourceId : String) : ExecutionPermit :=
  PermitIssuer.permitAt { clock := deskExecutor.clock, runId := "run_desk" }
    { action := proposal.action, resourceId, expectedResourceVersion := 1,
      maxAmountCents := proposal.amount } 1 defaultClockBase

/-- The permit has just been issued, and a trace is attached. -/
def deskWorld (proposal : ActionProposal) (resourceId : String) : World where
  shared :=
    { seedWorld [("ord_0001", .paid)] with
      executionPermits :=
        .ofRows [(deskPermit proposal resourceId).row defaultClockBase "run_desk"] }
  own := { session := { audit := some { runId := "run_desk", scenarioId := "desk" } } }

/-- What the check phase leaves. -/
def deskChecked (proposal : ActionProposal) (resourceId : String) :
    Except PyError Checked × World :=
  (deskExecutor.check (some (deskPermit proposal resourceId).permitId) proposal).run
    (deskWorld proposal resourceId)

/-- The version of a row of the first order grows. -/
def moves (resource resourceId : String) : StateChange where
  resource := resource
  resourceId := resourceId

/-- The database once the row has moved. -/
def deskMoved (proposal : ActionProposal) (resource resourceId : String) : Database :=
  (injectAll [moves resource resourceId] (deskChecked proposal resourceId).2.shared).2

/-- What the write phase comes to. -/
def deskSettled (proposal : ActionProposal) (resource resourceId : String) :
    Except PyError ExecutionResult × World :=
  (deskExecutor.settle proposal {} (.cleared (deskPermit proposal resourceId))).run
    ⟨deskMoved proposal resource resourceId, (deskChecked proposal resourceId).2.own⟩

/-- A refund whose payment moved is refused. -/
theorem stale_refused_refundFirst :
    RefusedStale (deskPermit refundFirst "pay_ord_0001")
      (deskMoved refundFirst "payment" "pay_ord_0001")
      (deskSettled refundFirst "payment" "pay_ord_0001") :=
  (stale_refused_iff {} (Prod.ext (by decide +kernel) rfl) rfl
    ⟨2, by decide +kernel, by decide⟩).mpr ⟨by decide, fun _ => ⟨_, rfl⟩⟩

/-- The order moves between the checks and the write, and the ticket is written all the
same: the answer is a commit, and there is a log row. -/
theorem ticket_after_move :
    (deskChecked ticketFirst "ord_0001").1 = .ok (.cleared (deskPermit ticketFirst "ord_0001")) ∧
    (deskMoved ticketFirst "order" "ord_0001").MovedPast (deskPermit ticketFirst "ord_0001")
      .createSupportTicket ∧
    (deskSettled ticketFirst "order" "ord_0001").1 = .ok
      { committed := true, action := some .createSupportTicket, resourceId := "ord_0001",
        createdId := "tkt_prm_run_desk_001" } ∧
    (deskSettled ticketFirst "order" "ord_0001").2.shared.mutationLog.length =
      (deskMoved ticketFirst "order" "ord_0001").mutationLog.length + 1 :=
  ⟨by decide +kernel, ⟨2, by decide +kernel, by decide +kernel⟩, by decide +kernel,
    by decide +kernel⟩

end BoundedRefund
