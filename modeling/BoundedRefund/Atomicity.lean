import BoundedRefund.Race
import BoundedRefund.Verdicts
import BoundedRefund.WellFormed

/-!
# All or nothing

One execution with nothing injected into it either leaves every table as it was, or
leaves exactly one execution behind: its log row, its record, the mark on its permit,
and what its action does to the row it names (`Execution.Effect`).  The answer tells
which: a fresh commit and a lost response are the second, everything else the first.

The failures half-way through a transaction are the ones that matter: a payment is
updated before the refund is inserted, and the foreign key may still refuse it.
-/

namespace BoundedRefund

open Concurrent Relational

/-! ## The effect of an execution -/

/-- Every table after one execution, from what it was before. -/
structure Execution.Effect (x : Execution) (db db' : Database) : Prop where
  mutationLog : db'.mutationLog = db.mutationLog ++ [x.logRow]
  executionRecords : db'.executionRecords.rows = db.executionRecords.rows ++ [x.recordRow]
  executionPermits : db'.executionPermits.rows = db.executionPermits.rows.map fun row =>
    if row.permitId = x.permit.permitId then { row with used := true } else row
  orders : db'.orders.rows = db.orders.rows.map fun row =>
    if x.proposal.action = .cancelOrder ∧ row.orderId = x.proposal.orderId then
      { row with status := str OrderStatus.cancelled, version := row.version + 1 }
    else row
  shipments : db'.shipments.rows = db.shipments.rows.map fun row =>
    if x.proposal.action = .cancelOrder ∧ row.orderId = x.proposal.orderId ∧
        row.status ∈ [str ShipmentStatus.preparing, str ShipmentStatus.readyToShip] then
      { row with status := str ShipmentStatus.cancelled, version := row.version + 1 }
    else row
  payments : db'.payments.rows = db.payments.rows.map fun row =>
    if x.proposal.action = .issueRefund ∧ row.paymentId = x.permit.resourceId then
      { row with
        status := str PaymentStatus.refunded
        refundedCents := row.refundedCents + x.proposal.amount
        version := row.version + 1 }
    else row
  refunds : db'.refunds.rows = db.refunds.rows ++
    if x.proposal.action = .issueRefund then [x.refundRow] else []
  supportTickets : db'.supportTickets.rows = db.supportTickets.rows ++
    if x.proposal.action = .createSupportTicket then [x.ticketRow] else []
  refundPolicies : db'.refundPolicies = db.refundPolicies

namespace Execution.Commits

variable {x : Execution} {db db' : Database}

/-- Only a cancel changes `orders`, and in it only the row of its order. -/
theorem orders_rows (h : x.Commits db db') :
    db'.orders.rows = db.orders.rows.map fun row =>
      if x.proposal.action = .cancelOrder ∧ row.orderId = x.proposal.orderId then
        { row with status := str OrderStatus.cancelled, version := row.version + 1 }
      else row := by
  rcases h.orders with ⟨ha, horders, -⟩ | ⟨ha, horders, -⟩
  · -- the version guard adds nothing: the order stands at the pinned version
    obtain ⟨found, hfound, hversion⟩ := h.order_pinned ha
    obtain ⟨hmem, hid⟩ := Table.find?_eq_some.mp hfound
    rw [horders, Database.cancelRows, Table.rows_update]
    refine List.map_congr_left fun row hrow => ?_
    by_cases hrowId : row.orderId = x.permit.resourceId
    · have heq : row = found := Table.eq_of_key_eq hrow hmem (hrowId.trans hid.symm)
      simp [Database.orderGuard, ha, ← h.target (by simp [ha]), heq, hversion, hid,
        OrderRow.cancelled]
    · simp [Database.orderGuard, ← h.target (by simp [ha]), hrowId]
  · simp [horders, ha]

/-- Only a cancel changes `shipments`: those of its order that have not left. -/
theorem shipments_rows (h : x.Commits db db') :
    db'.shipments.rows = db.shipments.rows.map fun row =>
      if x.proposal.action = .cancelOrder ∧ row.orderId = x.proposal.orderId ∧
          row.status ∈ [str ShipmentStatus.preparing, str ShipmentStatus.readyToShip] then
        { row with status := str ShipmentStatus.cancelled, version := row.version + 1 }
      else row := by
  rcases h.orders with ⟨ha, -, hshipments⟩ | ⟨ha, -, hshipments⟩
  · rw [hshipments, Database.cancelRows, Table.rows_update, h.target (by simp [ha])]
    refine List.map_congr_left fun row _ => ?_
    simp [ha, cancellableShipmentStatuses, ShipmentRow.cancelled]
  · simp [hshipments, ha]

/-- Only a refund changes `payments`, and in it only the row of its permit. -/
theorem payments_rows (h : x.Commits db db') :
    db'.payments.rows = db.payments.rows.map fun row =>
      if x.proposal.action = .issueRefund ∧ row.paymentId = x.permit.resourceId then
        { row with
          status := str PaymentStatus.refunded
          refundedCents := row.refundedCents + x.proposal.amount
          version := row.version + 1 }
      else row := by
  rcases h.payments with ⟨ha, hpayments⟩ | ⟨ha, hpayments⟩
  · obtain ⟨found, hfound, hversion⟩ := h.payment_pinned ha
    obtain ⟨hmem, hid⟩ := Table.find?_eq_some.mp hfound
    rw [hpayments, Database.refundPayment, Table.rows_update]
    refine List.map_congr_left fun row hrow => ?_
    by_cases hrowId : row.paymentId = x.permit.resourceId
    · have heq : row = found := Table.eq_of_key_eq hrow hmem (hrowId.trans hid.symm)
      simp [Database.paymentGuard, ha, heq, hversion, hid, PaymentRow.refunded,
        Execution.amount]
    · simp [Database.paymentGuard, hrowId]
  · simp [hpayments, ha]

/-- **A commit has exactly its effect.** -/
theorem effect (h : x.Commits db db') : x.Effect db db' where
  mutationLog := h.mutationLog
  executionRecords := h.executionRecords_rows
  executionPermits := by
    rw [h.executionPermits, Database.markUsed, Table.rows_update]
    simp [PermitRow.spend]
  orders := h.orders_rows
  shipments := h.shipments_rows
  payments := h.payments_rows
  refunds := h.refunds
  supportTickets := h.supportTickets
  refundPolicies := h.refundPolicies

end Execution.Commits

/-! ## One execution -/

/-- What is left of an execution, by how it ended. -/
structure AllOrNothing (e : Executor) (permitId : Option String) (proposal : ActionProposal)
    (texts : TicketTexts) (db db' : Database) (r : Except PyError ExecutionResult) : Prop where
  /-- A rejection or a replayed result. -/
  answered : ∀ result, r = .ok result → result.fresh = false → db' = db
  raised : ∀ err, r = .error err → (∀ action key, err ≠ .responseTimeout action key) → db' = db
  fresh : ∀ result, r = .ok result → result.fresh = true →
    ∃ permit now, db.loadPermit permitId = some permit ∧
      result = (e.execution permit proposal texts now).result ∧
      (e.execution permit proposal texts now).Effect db db'
  lost : ∀ action key, r = .error (.responseTimeout action key) →
    ∃ permit now, db.loadPermit permitId = some permit ∧ key = permit.idempotencyKey ∧
      (e.execution permit proposal texts now).Effect db db'
  authorized : ∀ message, r ≠ .error (.permitRequired message)

section Causes

variable {db : Database} {permit : ExecutionPermit} {proposal : ActionProposal}
variable {target : Target} {e : Executor} {texts : TicketTexts} {now cleared : Instant}
variable {err : PyError}

/-- The authorization of a cleared permit covers the write. -/
theorem Clear.write_raises (h : Clear db cleared permit proposal target)
    (hraises : Executor.write (e.authorization permit) permit proposal texts now db =
      .error err) :
    (∃ message, err = .integrityError message) ∨
      ∃ resourceId version, err = .staleResource resourceId version := by
  have hresource : proposal.action ≠ .issueRefund → permit.resourceId = proposal.orderId :=
    fun ha => h.resource.symm.trans (resolved_resource h.resolved ha)
  cases ha : proposal.action with
  | cancelOrder =>
      simp only [Executor.write, ha] at hraises
      exact .inr ⟨_, _, cancelOrder_raises
        ⟨h.action.trans ha, hresource (by simp [ha])⟩ hraises⟩
  | issueRefund =>
      have hrequire := require_eq_ok.mpr
        ⟨rfl, show (e.authorization permit).action = .issueRefund from h.action.trans ha,
          show (e.authorization permit).resourceId = permit.resourceId from rfl⟩
      -- the permit covers the refund, so the tool has nothing to refuse but its guard and its key
      have hwithin : ¬(e.authorization permit).maxAmountCents < proposal.amount :=
        not_lt.mpr h.amount
      simp only [Executor.write, ha, issueRefund, hrequire, bind, Except.bind, hwithin,
        if_false] at hraises
      split_ifs at hraises
      · cases hraises
        exact .inr ⟨_, _, rfl⟩
      · split at hraises
        · rename_i hinsert
          cases hraises
          exact .inl (Database.insertRefund_raises hinsert)
        · cases hraises
  | createSupportTicket =>
      have hrequire := require_eq_ok.mpr
        ⟨rfl, show (e.authorization permit).action = .createSupportTicket from
          h.action.trans ha, show (e.authorization permit).resourceId = proposal.orderId from
          hresource (by simp [ha])⟩
      simp only [Executor.write, ha, createSupportTicket, hrequire, bind, Except.bind]
        at hraises
      split at hraises
      · rename_i hinsert
        cases hraises
        exact .inl (Database.insertTicket_raises hinsert)
      · cases hraises

/-- Behind the checks a commit fails over a key that is taken, or over stale state. -/
theorem Clear.commitAll_raises (h : Clear db cleared permit proposal target)
    (hraises : e.commitAll (e.authorization permit) permit proposal texts now db = .error err) :
    (∃ message, err = .integrityError message) ∨
      ∃ resourceId version, err = .staleResource resourceId version := by
  obtain hwrite | ⟨outcome, mid, -, hrecord⟩ := commitAll_eq_error hraises
  · exact h.write_raises hwrite
  · exact .inl (Database.insertRecord_raises hrecord)

end Causes

section One

variable {e : Executor} {permitId : Option String} {proposal : ActionProposal}
variable {texts : TicketTexts} {v v' : World} {r : Except PyError ExecutionResult}

/-- What raises without a commit is a value error or an integrity error. -/
theorem AllOrNothing.of_raised {err : PyError} (hdb : v'.shared = v.shared)
    (herr : (∃ message, err = .valueError message) ∨ ∃ message, err = .integrityError message) :
    AllOrNothing e permitId proposal texts v.shared v'.shared (.error err) where
  answered _ h := by cases h
  raised _ _ _ := hdb
  fresh _ h := by cases h
  lost _ _ h := by
    cases h
    rcases herr with ⟨_, h⟩ | ⟨_, h⟩ <;> cases h
  authorized _ h := by
    cases h
    rcases herr with ⟨_, h⟩ | ⟨_, h⟩ <;> cases h

/-- An answer that is no fresh commit leaves the database as it was. -/
theorem AllOrNothing.of_answered {result : ExecutionResult} (hdb : v'.shared = v.shared)
    (hresult : result.fresh = false) :
    AllOrNothing e permitId proposal texts v.shared v'.shared (.ok result) where
  answered _ _ _ := hdb
  raised _ h := by cases h
  fresh _ h hfresh := by
    cases h
    cases hresult.symm.trans hfresh
  lost _ _ h := by cases h
  authorized _ h := by cases h

/-- A fresh commit has all its effects. -/
theorem AllOrNothing.of_fresh {permit : ExecutionPermit} {now : Instant}
    {result : ExecutionResult} (hload : v.shared.loadPermit permitId = some permit)
    (hresult : result = (e.execution permit proposal texts now).result)
    (heffect : (e.execution permit proposal texts now).Effect v.shared v'.shared) :
    AllOrNothing e permitId proposal texts v.shared v'.shared (.ok result) where
  answered _ h hnot := by
    cases h
    rw [hresult] at hnot
    cases hnot
  raised _ h := by cases h
  fresh _ h _ := by
    cases h
    exact ⟨permit, now, hload, hresult, heffect⟩
  lost _ _ h := by cases h
  authorized _ h := by cases h

/-- So has one whose response is lost. -/
theorem AllOrNothing.of_lost {permit : ExecutionPermit} {now : Instant} {action : String}
    (hload : v.shared.loadPermit permitId = some permit)
    (heffect : (e.execution permit proposal texts now).Effect v.shared v'.shared) :
    AllOrNothing e permitId proposal texts v.shared v'.shared
      (.error (.responseTimeout action permit.idempotencyKey)) where
  answered _ h := by cases h
  raised _ h hne := by
    cases h
    exact absurd rfl (hne _ _)
  fresh _ h := by cases h
  lost _ _ h := by
    cases h
    exact ⟨permit, now, hload, rfl, heffect⟩
  authorized _ h := by cases h

/-- Every way an execution can end leaves all or nothing. -/
theorem Executed.allOrNothing (h : Executed e permitId proposal texts v v' r)
    (hdue : v.own.session.due (str proposal.action) = []) :
    AllOrNothing e permitId proposal texts v.shared v'.shared r := by
  cases h with
  | answered result shared assessed => exact .of_answered shared (assess_not_fresh assessed)
  | failed err shared cause =>
      refine .of_raised shared (.inl ?_)
      rcases cause with hresolve | hassess
      · exact resolveTarget_raises hresolve
      · exact assess_raises hassess
  | overtaken permit target now resourceId version loaded clear injected =>
      rw [hdue, injectAll, Prod.mk.injEq] at injected
      exact .of_answered injected.2.symm rfl
  | spoiled err permit target now res loaded clear injected cause =>
      rw [hdue, injectAll, Prod.mk.injEq] at injected
      obtain ⟨rfl, hdb⟩ := injected
      refine .of_raised hdb.symm ?_
      rcases cause with hraised | hresolve | ⟨-, hcommit, hstale⟩
      · cases hraised
      · exact .inl (resolveTarget_raises hresolve)
      · rw [← hdb] at hcommit
        rcases clear.commitAll_raises hcommit with hkey | ⟨resourceId, version, rfl⟩
        · exact .inr hkey
        · exact absurd rfl (hstale resourceId version)
  | committed permit target now mid res loaded clear injected commits responded =>
      rw [hdue, injectAll, Prod.mk.injEq] at injected
      obtain ⟨-, rfl⟩ := injected
      cases responded with
      | delivered kept => exact .of_fresh loaded rfl commits.effect
      | lost loses readings => exact .of_lost loaded commits.effect
      | unreported err cause =>
          -- the row of the commit is readable afterwards, so nothing is left to raise
          have hresolved : v.shared.resolveTarget
              (e.execution permit proposal texts now).proposal = .ok (some target) :=
            clear.resolved
          obtain ⟨target', hresolve, -⟩ := commits.resolveTarget hresolved
          simp only [Executor.execution] at hresolve
          rw [hresolve] at cause
          cases cause

/-- **An execution is all or nothing** where nothing is injected into it. -/
theorem execute_all_or_nothing (e : Executor) (permitId : Option String)
    (proposal : ActionProposal) (texts : TicketTexts) (v : World)
    (hdue : v.own.session.due (str proposal.action) = []) :
    AllOrNothing e permitId proposal texts v.shared
      ((e.execute permitId proposal texts).run v).2.shared
      ((e.execute permitId proposal texts).run v).1 :=
  (run_execute (Prod.mk.eta.symm : _ = (_, _))).2.allOrNothing hdue

/-- The refund at the desk is committed, and this is all that happens. -/
theorem execute_all_or_nothing_refund :
    AllOrNothing deskExecutor (some "prm_run_desk_001") refundFirst {}
        (deskWorld refundFirst "pay_ord_0001").shared
        ((deskExecutor.execute (some "prm_run_desk_001") refundFirst).run
          (deskWorld refundFirst "pay_ord_0001")).2.shared
        ((deskExecutor.execute (some "prm_run_desk_001") refundFirst).run
          (deskWorld refundFirst "pay_ord_0001")).1 ∧
      (((deskExecutor.execute (some "prm_run_desk_001") refundFirst).run
        (deskWorld refundFirst "pay_ord_0001")).1.toOption.map ExecutionResult.fresh) =
          some true :=
  ⟨execute_all_or_nothing deskExecutor (some "prm_run_desk_001") refundFirst {}
    (deskWorld refundFirst "pay_ord_0001") rfl, by decide +kernel⟩

end One

end BoundedRefund
