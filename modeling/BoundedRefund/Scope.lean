import BoundedRefund.Kept
import BoundedRefund.Trace
import BoundedRefund.World

/-!
# The order a run is opened for

A run is opened for one order and its planner names another one in every proposal it
likes.  No stage compares the two: snapshot, permit and executor all follow the order id of
the proposal.  What a run writes is therefore about its own order exactly as far as the
proposals behind its rows are (`names_own_order_iff`), and one foreign proposal is enough
for a foreign cancellation (`foreign_order_cancelled`).
-/

namespace BoundedRefund

open Concurrent Relational

/-- The order a payment belongs to. -/
def Database.paymentOrder (db : Database) (paymentId : String) : Option String :=
  (db.payments.find? paymentId).map PaymentRow.orderId

/-- The row is about the order: a refund names one of its payments, any other row the order
itself. -/
def MutationRow.Names (row : MutationRow) (db : Database) (orderId : String) : Prop :=
  match row.action with
  | .issueRefund => db.paymentOrder row.resourceId = some orderId
  | .cancelOrder | .createSupportTicket => row.resourceId = orderId

/-! ## Payments stay with their order -/

section Kept

variable {db db' : Database}

/-- Which order a payment is for hangs on the payments only. -/
theorem paymentOrder_of_eq (h : db'.payments = db.payments) :
    db'.paymentOrder = db.paymentOrder := by
  funext paymentId
  rw [Database.paymentOrder, Database.paymentOrder, h]

/-- An update of payments that keeps their orders keeps the order of every payment. -/
theorem paymentOrder_update {p : PaymentRow → Bool} {f : PaymentRow → PaymentRow}
    (hid : ∀ row, (f row).paymentId = row.paymentId)
    (horder : ∀ row, (f row).orderId = row.orderId)
    (h : db'.payments = db.payments.update p f hid) : db'.paymentOrder = db.paymentOrder := by
  funext paymentId
  rw [Database.paymentOrder, Database.paymentOrder, h, Table.find?_update]
  cases db.payments.find? paymentId with
  | none => rfl
  | some row =>
      simp only [Option.map_some, Option.some.injEq]
      split_ifs
      · exact horder row
      · rfl

/-- No step of a run moves a payment to another order. -/
theorem paymentOrder_kept (r : Runner) (spec : FailureSpec) (db₀ : Database) :
    Kept r spec fun db => db.paymentOrder = db₀.paymentOrder where
  issue db db' row expiresAt _ h hJ := by
    obtain ⟨permits, -, rfl⟩ := Database.insertPermit_eq_ok.mp h
    exact hJ
  inject db db' c _ h hJ := by
    rcases StateChange.apply_eq_ok h with ⟨-, -, rfl⟩ | ⟨resource, -, -, rfl⟩
    · exact hJ
    · rw [← hJ]
      cases resource with
      | order => exact paymentOrder_of_eq rfl
      | payment =>
          exact paymentOrder_update (fun row => (c.editPayment_kept row).1)
            (fun row => (c.editPayment_kept row).2.1) rfl
      | shipment => exact paymentOrder_of_eq rfl
  commit db db' x _ _ hx hJ := by
    rw [← hJ]
    rcases hx.payments with ⟨-, hpayments⟩ | ⟨-, hpayments⟩
    · exact paymentOrder_update (fun row => row.refunded_paymentId x.amount) (fun _ => rfl)
        hpayments
    · exact paymentOrder_of_eq hpayments

end Kept

/-! ## Rows and the proposals behind them -/

section Rows

variable {r : Runner} {row : MutationRow} {call : Call} {db : Database}

/-- A row is about an order if and only if the proposal it goes back to is. -/
theorem Justified.names_iff (h : Justified r row call)
    (hpayments : db.paymentOrder = call.start.shared.paymentOrder) :
    ∃ proposal, validate r.intFromText call.raw = .ok proposal ∧
      ∀ orderId, row.Names db orderId ↔ proposal.orderId = orderId := by
  cases h with
  | allowed proposal s d judged decision action resource amount =>
      refine ⟨proposal, judged.valid, fun orderId => ?_⟩
      obtain ⟨ha, order, shipment, hcancel⟩ | ⟨ha, order, payment, policy, amount, hrefund⟩ |
        ⟨ha, order, hticket⟩ := evaluate_allow_cases judged.evaluated decision
      · have hread := judged.reads.order order hcancel.order_read
        simp only [MutationRow.Names, action, ha, resource, hcancel.decided,
          Database.fetchOrder_orderId hread]
      · have hread := judged.reads.payment payment hrefund.payment_read
        obtain ⟨hfind, horder⟩ := Database.fetchPaymentForOrder_eq_some hread
        have hpayment : db.paymentOrder payment.paymentId = some proposal.orderId := by
          rw [hpayments, Database.paymentOrder, hfind, ← horder]
          rfl
        simp only [MutationRow.Names, action, ha, resource, hrefund.decided, hpayment,
          Option.some.injEq]
      · have hread := judged.reads.order order hticket.order_read
        simp only [MutationRow.Names, action, ha, resource, hticket.decided,
          Database.fetchOrder_orderId hread]
  | ticket proposal s d judged cause action resource amount =>
      refine ⟨proposal, judged.valid, fun orderId => ?_⟩
      simp only [MutationRow.Names, action, resource]

/-- The rows are about an order if and only if the proposals behind them are. -/
theorem rows_name_iff {rows : List MutationRow} {calls : List Call} {orderId : String}
    (h : List.Forall₂ (Justified r) rows calls)
    (hpayments : ∀ call ∈ calls, db.paymentOrder = call.start.shared.paymentOrder) :
    (∀ row ∈ rows, row.Names db orderId) ↔ ∀ call ∈ calls, ∀ proposal,
      validate r.intFromText call.raw = .ok proposal → proposal.orderId = orderId := by
  induction h with
  | nil => simp
  | @cons row call rows calls hrow _ ih =>
      obtain ⟨proposal, hvalid, hnames⟩ :=
        hrow.names_iff (hpayments call List.mem_cons_self)
      have hcall : row.Names db orderId ↔ ∀ p, validate r.intFromText call.raw = .ok p →
          p.orderId = orderId := by
        rw [hnames orderId, hvalid]
        simp
      simp only [List.forall_mem_cons, hcall,
        ih fun call hmem => hpayments call (List.mem_cons_of_mem _ hmem)]

end Rows

/-! ## Whose order a run touches -/

/-- **A run touches its own order exactly as far as its planner does.**  However the run
stops: its log rows go back, one by one, to calls of the planner, and all of them are about
the order the run was opened for if and only if the proposals of these calls are.  So they
are where every proposal of the script that passes the schema names that order. -/
theorem names_own_order_iff (r : Runner) (proposals : List RawProposal)
    (failures : FailureSpec) (db : Database) :
    let stopped := (r.run.run ⟨db, r.start proposals failures⟩).2
    ∃ calls rows, calls.Sublist stopped.own.history.reverse ∧
      stopped.shared.mutationLog = db.mutationLog ++ rows ∧
      List.Forall₂ (Justified r) rows calls ∧
      ((∀ row ∈ rows, row.Names stopped.shared r.defaultOrderId) ↔
        ∀ call ∈ calls, ∀ proposal, validate r.intFromText call.raw = .ok proposal →
          proposal.orderId = r.defaultOrderId) ∧
      ((∀ raw ∈ proposals, ∀ proposal, validate r.intFromText raw = .ok proposal →
          proposal.orderId = r.defaultOrderId) →
        ∀ row ∈ rows, row.Names stopped.shared r.defaultOrderId) := by
  intro stopped
  obtain ⟨calls, rows, _, hsub, htrace⟩ := run_traced r proposals failures db
  have halong : Along proposals (fun db' => db'.paymentOrder = db.paymentOrder)
      (r.run.run ⟨db, r.start proposals failures⟩).2 :=
    kept_run (paymentOrder_kept r failures db) rfl
  have hmem : ∀ call ∈ calls, call ∈ stopped.own.history := fun call hcall =>
    List.mem_reverse.mp (hsub.subset hcall)
  have hiff : (∀ row ∈ rows, row.Names stopped.shared r.defaultOrderId) ↔ _ :=
    rows_name_iff htrace.justified fun call hcall =>
      halong.now.trans (halong.calls call (hmem call hcall)).1.symm
  refine ⟨calls, rows, hsub, htrace.log, htrace.justified, hiff, fun hscript => hiff.mpr ?_⟩
  intro call hcall proposal hvalid
  rcases (halong.calls call (hmem call hcall)).2 with hnone | hraw
  · rw [hnone] at hvalid
    cases hvalid
  · exact hscript call.raw hraw proposal hvalid

/-! ## A foreign cancellation -/

/-- A run for the first order. -/
def firstOrderRunner : Runner where
  clock := fun _ => defaultClockBase
  runId := "run_first"
  scenarioId := "foreign"
  defaultOrderId := "ord_0001"

/-- Where the run stops when its planner names the second order. -/
def foreignStopped : World :=
  (firstOrderRunner.run.run ⟨seedWorld [("ord_0001", .paid), ("ord_0002", .paid)],
    firstOrderRunner.start [.proposal cancelSecond] {}⟩).2

/-- The run for the first order cancels the second: its only row names neither its own order
nor a payment of it. -/
theorem foreign_order_cancelled :
    foreignStopped.shared.mutationLog =
      [⟨"run_first", .cancelOrder, "ord_0002", 0, toIso defaultClockBase⟩] ∧
    ¬ ∀ row ∈ foreignStopped.shared.mutationLog,
      row.resourceId = firstOrderRunner.defaultOrderId ∨
        foreignStopped.shared.paymentOrder row.resourceId =
          some firstOrderRunner.defaultOrderId := by
  constructor <;> decide +kernel

end BoundedRefund
