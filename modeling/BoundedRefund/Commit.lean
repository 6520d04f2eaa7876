import BoundedRefund.Runner

/-!
# What the commit transaction does

An `Execution` is one committed write, as a record of its own: who ran it, under
which permit, for which proposal, at which time.  Everything the transaction leaves
in the database is a function of it (`logRow`, `recordRow`, `refundRow`,
`ticketRow`).

`commitAll_eq_ok` says once what a transaction that goes through did and found.
The lemmas below it read off the single tables, and nothing downstream unfolds the
write tools again.
-/

namespace BoundedRefund

open Relational

/-- A committed write. -/
structure Execution where
  runId : String
  permit : ExecutionPermit
  proposal : ActionProposal
  texts : TicketTexts
  now : Instant

namespace Execution

variable (x : Execution)

/-- Only a refund moves money. -/
def amount : Int := if x.proposal.action = .issueRefund then x.proposal.amount else 0

/-- The id of what the write created. -/
def createdId : String :=
  match x.proposal.action with
  | .cancelOrder => x.permit.resourceId
  | .issueRefund => "ref_" ++ x.permit.permitId
  | .createSupportTicket => "tkt_" ++ x.permit.permitId

/-- What the write tool returns. -/
def outcome : WriteOutcome :=
  ⟨x.proposal.action, x.permit.resourceId, x.amount, x.createdId⟩

/-- What the executor answers. -/
def result : ExecutionResult := x.outcome.result

/-- The row the execution leaves in the mutation log. -/
def logRow : MutationRow :=
  ⟨x.runId, x.proposal.action, x.permit.resourceId, x.amount, toIso x.now⟩

/-- The row it leaves among the stored results. -/
def recordRow : RecordRow :=
  ⟨x.permit.idempotencyKey, x.runId, x.proposal.action, x.permit.resourceId, x.amount,
    x.result, toIso x.now⟩

/-- The row of its refund. -/
def refundRow : RefundRow :=
  ⟨"ref_" ++ x.permit.permitId, x.permit.resourceId, x.proposal.orderId, x.amount,
    toIso x.now, x.runId, x.permit.permitId⟩

/-- The row of its ticket. -/
def ticketRow : TicketRow :=
  ⟨"tkt_" ++ x.permit.permitId, x.permit.resourceId,
    textOr x.texts.reasonCode (str ReasonCode.ticketRequested),
    clip200 (textOr x.texts.summary x.proposal.reason), toIso x.now, x.runId⟩

/-- The write of an execution and its log row, action by action. -/
inductive Writes (db : Database) : Database → Prop
  | cancel (row : OrderRow) (action : x.proposal.action = .cancelOrder)
      (target : x.permit.resourceId = x.proposal.orderId)
      (found : db.orders.find? x.permit.resourceId = some row)
      (pinned : row.version = x.permit.expectedResourceVersion) :
      Writes db ((db.cancelRows x.permit.resourceId row.version).logMutation x.logRow)
  | refund (row : PaymentRow) (refunds : Table RefundRow.refundId)
      (action : x.proposal.action = .issueRefund)
      (within : x.amount ≤ x.permit.maxAmountCents)
      (found : db.payments.find? x.permit.resourceId = some row)
      (pinned : row.version = x.permit.expectedResourceVersion)
      (order : (db.orders.find? x.proposal.orderId).isSome)
      (fresh : db.refunds.insert? x.refundRow = some refunds) :
      Writes db ({ db.refundPayment x.permit.resourceId row.version x.amount with
        refunds }.logMutation x.logRow)
  | ticket (supportTickets : Table TicketRow.ticketId)
      (action : x.proposal.action = .createSupportTicket)
      (target : x.permit.resourceId = x.proposal.orderId)
      (order : (db.orders.find? x.permit.resourceId).isSome)
      (fresh : db.supportTickets.insert? x.ticketRow = some supportTickets) :
      Writes db ({ db with supportTickets }.logMutation x.logRow)

/-- Everything a commit does. -/
structure Commits (db db' : Database) : Prop where
  action : x.permit.action = x.proposal.action
  all : ∃ mid records, x.Writes db mid ∧
    mid.executionRecords.insert? x.recordRow = some records ∧
    db' = { mid with executionRecords := records }.markUsed x.permit.permitId

end Execution

/-! ## The write tools -/

section Tools

variable {auth : WriteAuthorization} {now : Instant} {db db' : Database} {outcome : WriteOutcome}

/-- The guard of a cancel matches one row exactly when the order stands at the version. -/
theorem rowcount_orderGuard {orderId : String} {version : Int} :
    db.orders.rowcount (Database.orderGuard orderId version) = 1 ↔
      ∃ row, db.orders.find? orderId = some row ∧ row.version = version := by
  have h := Table.rowcount_eq_one db.orders orderId fun row => row.version = version
  simp only [decide_eq_true_eq] at h
  exact h

/-- The guard of a refund does when the payment stands at the version. -/
theorem rowcount_paymentGuard {paymentId : String} {version : Int} :
    db.payments.rowcount (Database.paymentGuard paymentId version) = 1 ↔
      ∃ row, db.payments.find? paymentId = some row ∧ row.version = version := by
  have h := Table.rowcount_eq_one db.payments paymentId fun row => row.version = version
  simp only [decide_eq_true_eq] at h
  exact h

/-- When a cancel is written, and what it writes. -/
theorem cancelOrder_eq_ok {orderId : String} {version : Int} :
    cancelOrder (some auth) orderId version now db = .ok (outcome, db') ↔
      auth.action = .cancelOrder ∧ auth.resourceId = orderId ∧
        (∃ row, db.orders.find? orderId = some row ∧ row.version = version) ∧
        outcome = ⟨.cancelOrder, orderId, 0, orderId⟩ ∧
        db' = (db.cancelRows orderId version).logMutation
          ⟨auth.runId, .cancelOrder, orderId, 0, toIso now⟩ := by
  rw [← rowcount_orderGuard]
  cases hr : require (some auth) .cancelOrder orderId with
  | error err =>
      simp only [cancelOrder, hr, bind, Except.bind, reduceCtorEq, false_iff]
      exact fun h => require_eq_error hr ⟨h.1, h.2.1⟩
  | ok authorized =>
      obtain ⟨heq, haction, hres⟩ := require_eq_ok.mp hr
      cases heq
      by_cases hcount : db.orders.rowcount (Database.orderGuard orderId version) = 1
      · simp [cancelOrder, hr, bind, Except.bind, hcount, haction, hres, pure, Except.pure,
          eq_comm]
      · simp [cancelOrder, hr, bind, Except.bind, hcount, throw, throwThe,
          MonadExceptOf.throw]

/-- When a refund is written, and what it writes. -/
theorem issueRefund_eq_ok {paymentId orderId : String} {amount version : Int} :
    issueRefund (some auth) paymentId orderId amount version now db = .ok (outcome, db') ↔
      auth.action = .issueRefund ∧ auth.resourceId = paymentId ∧
        amount ≤ auth.maxAmountCents ∧
        (∃ row, db.payments.find? paymentId = some row ∧ row.version = version) ∧
        outcome = ⟨.issueRefund, paymentId, amount, "ref_" ++ auth.permitId⟩ ∧
        ∃ mid, (db.refundPayment paymentId version amount).insertRefund
            ⟨"ref_" ++ auth.permitId, paymentId, orderId, amount, toIso now, auth.runId,
              auth.permitId⟩ = .ok mid ∧
          db' = mid.logMutation ⟨auth.runId, .issueRefund, paymentId, amount, toIso now⟩ := by
  rw [← rowcount_paymentGuard]
  cases hr : require (some auth) .issueRefund paymentId with
  | error err =>
      simp only [issueRefund, hr, bind, Except.bind, reduceCtorEq, false_iff]
      exact fun h => require_eq_error hr ⟨h.1, h.2.1⟩
  | ok authorized =>
      obtain ⟨heq, haction, hres⟩ := require_eq_ok.mp hr
      cases heq
      by_cases hmax : auth.maxAmountCents < amount
      · simp [issueRefund, hr, bind, Except.bind, hmax, not_le.mpr hmax, throw, throwThe,
          MonadExceptOf.throw]
      by_cases hcount : db.payments.rowcount (Database.paymentGuard paymentId version) = 1
      · cases hi : (db.refundPayment paymentId version amount).insertRefund
            ⟨"ref_" ++ auth.permitId, paymentId, orderId, amount, toIso now, auth.runId,
              auth.permitId⟩ with
        | error err =>
            simp [issueRefund, hr, bind, Except.bind, hmax, hcount, hi]
        | ok mid =>
            simp [issueRefund, hr, bind, Except.bind, hmax, not_lt.mp hmax, hcount, hi, haction,
              hres, pure, Except.pure, eq_comm]
      · simp [issueRefund, hr, bind, Except.bind, hmax, hcount, throw, throwThe,
          MonadExceptOf.throw]

/-- When a ticket is written, and what it writes. -/
theorem createSupportTicket_eq_ok {orderId reasonCode summary : String} :
    createSupportTicket (some auth) orderId reasonCode summary now db = .ok (outcome, db') ↔
      auth.action = .createSupportTicket ∧ auth.resourceId = orderId ∧
        outcome = ⟨.createSupportTicket, orderId, 0, "tkt_" ++ auth.permitId⟩ ∧
        ∃ mid, db.insertTicket ⟨"tkt_" ++ auth.permitId, orderId, reasonCode, clip200 summary,
            toIso now, auth.runId⟩ = .ok mid ∧
          db' = mid.logMutation
            ⟨auth.runId, .createSupportTicket, orderId, 0, toIso now⟩ := by
  cases hr : require (some auth) .createSupportTicket orderId with
  | error err =>
      simp only [createSupportTicket, hr, bind, Except.bind, reduceCtorEq, false_iff]
      exact fun h => require_eq_error hr ⟨h.1, h.2.1⟩
  | ok authorized =>
      obtain ⟨heq, haction, hres⟩ := require_eq_ok.mp hr
      cases heq
      cases hi : db.insertTicket ⟨"tkt_" ++ auth.permitId, orderId, reasonCode,
          clip200 summary, toIso now, auth.runId⟩ with
      | error err => simp [createSupportTicket, hr, bind, Except.bind, hi]
      | ok mid =>
          simp [createSupportTicket, hr, bind, Except.bind, hi, haction, hres, pure,
            Except.pure, eq_comm]

end Tools

/-! ## The transaction commits an execution -/

section Transaction

variable {e : Executor} {permit : ExecutionPermit} {proposal : ActionProposal}
variable {texts : TicketTexts} {now : Instant} {db db' : Database}

/-- The execution a transaction of `e` commits. -/
def Executor.execution (e : Executor) (permit : ExecutionPermit) (proposal : ActionProposal)
    (texts : TicketTexts) (now : Instant) : Execution :=
  ⟨e.runId, permit, proposal, texts, now⟩

/-- A write that goes through is the write of the execution. -/
theorem write_eq_ok {outcome : WriteOutcome} :
    Executor.write (e.authorization permit) permit proposal texts now db = .ok (outcome, db') ↔
      permit.action = proposal.action ∧
        outcome = (e.execution permit proposal texts now).outcome ∧
        (e.execution permit proposal texts now).Writes db db' := by
  cases ha : proposal.action with
  | cancelOrder =>
      simp only [Executor.write, ha, cancelOrder_eq_ok, Executor.authorization]
      constructor
      · rintro ⟨hact, hres, ⟨row, hrow, hver⟩, rfl, rfl⟩
        refine ⟨hact, by simp [Executor.execution, Execution.outcome, Execution.amount,
          Execution.createdId, ha, hres], ?_⟩
        have hw := Execution.Writes.cancel (x := e.execution permit proposal texts now)
          row ha hres (by simpa only [Executor.execution, hres] using hrow) hver
        simpa [Executor.execution, Execution.logRow, Execution.amount, ha, hres, hver] using hw
      · rintro ⟨hact, rfl, hw⟩
        cases hw with
        | cancel row action target found pinned =>
            simp only [Executor.execution] at target found pinned
            refine ⟨hact, target, ⟨row, target ▸ found, pinned⟩, ?_, ?_⟩
            · simp [Executor.execution, Execution.outcome, Execution.amount,
                Execution.createdId, ha, target]
            · simp [Executor.execution, Execution.logRow, Execution.amount, ha, target, pinned]
        | refund row refunds action => simp [Executor.execution, ha] at action
        | ticket supportTickets action => simp [Executor.execution, ha] at action
  | issueRefund =>
      simp only [Executor.write, ha, issueRefund_eq_ok, Executor.authorization]
      constructor
      · rintro ⟨hact, -, hmax, ⟨row, hrow, hver⟩, rfl, mid, hmid, rfl⟩
        -- that the payment is there has been found by the guard before
        obtain ⟨refunds, hfresh, -, horder, rfl⟩ := Database.insertRefund_eq_ok.mp hmid
        refine ⟨hact, by simp [Executor.execution, Execution.outcome, Execution.amount,
          Execution.createdId, ha], ?_⟩
        have hw := Execution.Writes.refund (x := e.execution permit proposal texts now)
          row refunds ha (by simpa [Executor.execution, Execution.amount, ha] using hmax)
          hrow hver horder (by simpa [Executor.execution, Execution.refundRow,
            Execution.amount, ha, Database.refundPayment] using hfresh)
        simpa [Executor.execution, Execution.logRow, Execution.amount, ha, hver] using hw
      · rintro ⟨hact, rfl, hw⟩
        cases hw with
        | cancel row action => simp [Executor.execution, ha] at action
        | ticket supportTickets action => simp [Executor.execution, ha] at action
        | refund row refunds action within found pinned order fresh =>
            simp only [Executor.execution, Execution.amount, Execution.refundRow, ha, if_true]
              at within found pinned order fresh
            refine ⟨hact, trivial, within, ⟨row, found, pinned⟩, ?_, _,
              Database.insertRefund_eq_ok.mpr ⟨refunds, fresh, ?_, order, rfl⟩, ?_⟩
            · simp [Executor.execution, Execution.outcome, Execution.amount,
                Execution.createdId, ha]
            · simp only [Database.refundPayment, Table.find?_update, found, Option.map_some,
                Option.isSome_some]
            · simp [Executor.execution, Execution.logRow, Execution.amount, ha, pinned]
  | createSupportTicket =>
      simp only [Executor.write, ha, createSupportTicket_eq_ok, Executor.authorization]
      constructor
      · rintro ⟨hact, hres, rfl, mid, hmid, rfl⟩
        obtain ⟨tickets, hfresh, horder, rfl⟩ := Database.insertTicket_eq_ok.mp hmid
        refine ⟨hact, by simp [Executor.execution, Execution.outcome, Execution.amount,
          Execution.createdId, ha, hres], ?_⟩
        have hw := Execution.Writes.ticket (x := e.execution permit proposal texts now)
          tickets ha hres (by simpa only [Executor.execution, hres] using horder)
          (by simpa [Executor.execution, Execution.ticketRow, hres] using hfresh)
        simpa [Executor.execution, Execution.logRow, Execution.amount, ha, hres] using hw
      · rintro ⟨hact, rfl, hw⟩
        cases hw with
        | cancel row action => simp [Executor.execution, ha] at action
        | refund row refunds action => simp [Executor.execution, ha] at action
        | ticket tickets action target order fresh =>
            simp only [Executor.execution, Execution.ticketRow] at target order fresh
            refine ⟨hact, target, ?_, _,
              Database.insertTicket_eq_ok.mpr ⟨tickets, ?_, target ▸ order, rfl⟩, ?_⟩
            · simp [Executor.execution, Execution.outcome, Execution.amount,
                Execution.createdId, ha, target]
            · simpa only [target] using fresh
            · simp [Executor.execution, Execution.logRow, Execution.amount, ha, target]

/-- **What a commit that goes through does.** -/
theorem commitAll_eq_ok {result : ExecutionResult} :
    e.commitAll (e.authorization permit) permit proposal texts now db = .ok (result, db') ↔
      result = (e.execution permit proposal texts now).result ∧
        (e.execution permit proposal texts now).Commits db db' := by
  constructor
  · intro h
    cases hw : Executor.write (e.authorization permit) permit proposal texts now db with
    | error err => simp [Executor.commitAll, hw, bind, Except.bind] at h
    | ok written =>
        obtain ⟨outcome, mid⟩ := written
        obtain ⟨hact, rfl, hwrites⟩ := write_eq_ok.mp hw
        simp only [Executor.commitAll, hw, bind, Except.bind] at h
        split at h
        · cases h
        · rename_i next hnext
          obtain ⟨records, hfresh, rfl⟩ := Database.insertRecord_eq_ok.mp hnext
          cases h
          exact ⟨rfl, hact, mid, records, hwrites, hfresh, rfl⟩
  · rintro ⟨rfl, hact, mid, records, hwrites, hfresh, rfl⟩
    have hw : Executor.write (e.authorization permit) permit proposal texts now db =
        .ok ((e.execution permit proposal texts now).outcome, mid) :=
      write_eq_ok.mpr ⟨hact, rfl, hwrites⟩
    have hr : mid.insertRecord (e.recordFor permit
        (e.execution permit proposal texts now).outcome now) =
        .ok { mid with executionRecords := records } :=
      Database.insertRecord_eq_ok.mpr ⟨records, hfresh, rfl⟩
    simp only [Executor.commitAll, hw, bind, Except.bind, hr]
    rfl

end Transaction

/-! ## Table by table -/

namespace Execution.Commits

variable {x : Execution} {db db' : Database}

/-- One log row, at the end. -/
theorem mutationLog (h : x.Commits db db') :
    db'.mutationLog = db.mutationLog ++ [x.logRow] := by
  obtain ⟨-, mid, records, hw, -, rfl⟩ := h
  cases hw <;> rfl

/-- The result is stored under a key that was free. -/
theorem executionRecords (h : x.Commits db db') :
    db.executionRecords.insert? x.recordRow = some db'.executionRecords := by
  obtain ⟨-, mid, records, hw, hr, rfl⟩ := h
  cases hw <;> exact hr

/-- The key of an execution was not taken. -/
theorem record_fresh (h : x.Commits db db') :
    db.executionRecords.find? x.permit.idempotencyKey = none :=
  (Table.insert?_eq_some.mp h.executionRecords).1

/-- The stored results grow by one row. -/
theorem executionRecords_rows (h : x.Commits db db') :
    db'.executionRecords.rows = db.executionRecords.rows ++ [x.recordRow] :=
  (Table.insert?_eq_some.mp h.executionRecords).2

/-- The result is found again under the key of its permit. -/
theorem find?_executionRecords (h : x.Commits db db') :
    db'.executionRecords.find? x.permit.idempotencyKey = some x.recordRow := by
  rw [Table.find?_insert? h.executionRecords]
  exact if_pos rfl

/-- The permit of the execution is used afterwards, no other permit changes. -/
theorem executionPermits (h : x.Commits db db') :
    db'.executionPermits = (db.markUsed x.permit.permitId).executionPermits := by
  obtain ⟨-, mid, records, hw, -, rfl⟩ := h
  cases hw <;> rfl

/-- Nobody writes the policies. -/
theorem refundPolicies (h : x.Commits db db') : db'.refundPolicies = db.refundPolicies := by
  obtain ⟨-, mid, records, hw, -, rfl⟩ := h
  cases hw <;> rfl

/-- The refunds grow by a refund, and by nothing else. -/
theorem refunds (h : x.Commits db db') :
    db'.refunds.rows = db.refunds.rows ++
      if x.proposal.action = .issueRefund then [x.refundRow] else [] := by
  obtain ⟨-, mid, records, hw, -, rfl⟩ := h
  cases hw with
  | cancel row action => simp [action, Database.markUsed, Database.logMutation,
      Database.cancelRows]
  | refund row refunds action within found pinned order fresh =>
      simp [action, Database.markUsed, Database.logMutation, Database.refundPayment,
        (Table.insert?_eq_some.mp fresh).2]
  | ticket tickets action => simp [action, Database.markUsed, Database.logMutation]

/-- The tickets grow by a ticket, and by nothing else. -/
theorem supportTickets (h : x.Commits db db') :
    db'.supportTickets.rows = db.supportTickets.rows ++
      if x.proposal.action = .createSupportTicket then [x.ticketRow] else [] := by
  obtain ⟨-, mid, records, hw, -, rfl⟩ := h
  cases hw with
  | cancel row action => simp [action, Database.markUsed, Database.logMutation,
      Database.cancelRows]
  | refund row refunds action => simp [action, Database.markUsed, Database.logMutation,
      Database.refundPayment]
  | ticket tickets action target order fresh =>
      simp [action, Database.markUsed, Database.logMutation,
        (Table.insert?_eq_some.mp fresh).2]

/-- A cancellation found its order at the version the permit pins. -/
theorem order_pinned (h : x.Commits db db') (ha : x.proposal.action = .cancelOrder) :
    ∃ row, db.orders.find? x.permit.resourceId = some row ∧
      row.version = x.permit.expectedResourceVersion := by
  obtain ⟨-, mid, records, hw, -, rfl⟩ := h
  cases hw with
  | cancel row action target found pinned => exact ⟨row, found, pinned⟩
  | refund row refunds action => simp [ha] at action
  | ticket tickets action => simp [ha] at action

/-- A refund found its payment at the version the permit pins. -/
theorem payment_pinned (h : x.Commits db db') (ha : x.proposal.action = .issueRefund) :
    ∃ row, db.payments.find? x.permit.resourceId = some row ∧
      row.version = x.permit.expectedResourceVersion := by
  obtain ⟨-, mid, records, hw, -, rfl⟩ := h
  cases hw with
  | cancel row action => simp [ha] at action
  | refund row refunds action within found pinned => exact ⟨row, found, pinned⟩
  | ticket tickets action => simp [ha] at action

/-- Cancellations and tickets are aimed at the order of the proposal. -/
theorem target (h : x.Commits db db') (ha : x.proposal.action ≠ .issueRefund) :
    x.permit.resourceId = x.proposal.orderId := by
  obtain ⟨-, mid, records, hw, -, rfl⟩ := h
  cases hw with
  | cancel row action target => exact target
  | refund row refunds action => exact absurd action ha
  | ticket tickets action target => exact target

/-- Only the order of a cancellation changes. -/
theorem orders (h : x.Commits db db') :
    (x.proposal.action = .cancelOrder ∧
      db'.orders = (db.cancelRows x.permit.resourceId
        x.permit.expectedResourceVersion).orders ∧
      db'.shipments = (db.cancelRows x.permit.resourceId
        x.permit.expectedResourceVersion).shipments) ∨
    (x.proposal.action ≠ .cancelOrder ∧ db'.orders = db.orders ∧
      db'.shipments = db.shipments) := by
  obtain ⟨-, mid, records, hw, -, rfl⟩ := h
  cases hw with
  | cancel row action target found pinned =>
      rw [← pinned]
      exact Or.inl ⟨action, rfl, rfl⟩
  | refund row refunds action => exact Or.inr ⟨by simp [action], rfl, rfl⟩
  | ticket tickets action => exact Or.inr ⟨by simp [action], rfl, rfl⟩

/-- Only the payment of a refund changes. -/
theorem payments (h : x.Commits db db') :
    (x.proposal.action = .issueRefund ∧
      db'.payments = (db.refundPayment x.permit.resourceId
        x.permit.expectedResourceVersion x.amount).payments) ∨
    (x.proposal.action ≠ .issueRefund ∧ db'.payments = db.payments) := by
  obtain ⟨-, mid, records, hw, -, rfl⟩ := h
  cases hw with
  | cancel row action => exact Or.inr ⟨by simp [action], rfl⟩
  | refund row refunds action within found pinned =>
      rw [← pinned]
      exact Or.inl ⟨action, rfl⟩
  | ticket tickets action => exact Or.inr ⟨by simp [action], rfl⟩

end Execution.Commits

end BoundedRefund
