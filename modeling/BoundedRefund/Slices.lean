import BoundedRefund.Relational.Slice
import BoundedRefund.Commit

/-!
# Slices of the database

`Database.slice` keeps the rows of some orders and what some runs have booked, and the refund
policies.  Below are the statements of the model on it: what is about an order of the slice is
found on it as in the whole database, and what a run of the slice books is booked on it as in
the whole database, provided no row outside carries an id or a key the run would use.
-/

namespace BoundedRefund

open Relational

namespace Database

variable {orders runs : String → Bool} {db db' : Database}

/-- The rows of some orders, and what some runs have booked. -/
def slice (orders runs : String → Bool) (db : Database) : Database where
  refundPolicies := db.refundPolicies
  orders := db.orders.filter fun row => orders row.orderId
  payments := db.payments.filter fun row => orders row.orderId
  shipments := db.shipments.filter fun row => orders row.orderId
  supportTickets := db.supportTickets.filter fun row => runs row.runId
  refunds := db.refunds.filter fun row => runs row.runId
  executionPermits := db.executionPermits.filter fun row => runs row.runId
  executionRecords := db.executionRecords.filter fun row => runs row.runId
  mutationLog := db.mutationLog.filter fun row => runs row.runId

/-- A slice of a slice. -/
theorem slice_slice {orders' runs' : String → Bool} :
    (db.slice orders runs).slice orders' runs' =
      db.slice (fun o => orders o && orders' o) fun r => runs r && runs' r := by
  simp only [slice, Table.filter_filter, List.filter_filter, Bool.and_comm]

/-! ## Queries -/

section Queries

variable {orderId runId : String}

/-- An order of the slice is read in it. -/
theorem fetchOrder_slice (h : orders orderId = true) :
    (db.slice orders runs).fetchOrder orderId = db.fetchOrder orderId := by
  unfold fetchOrder
  rw [slice, Table.find?_filter]
  rintro row - rfl
  exact h

/-- So is its payment. -/
theorem fetchPaymentForOrder_slice (h : orders orderId = true) :
    (db.slice orders runs).fetchPaymentForOrder orderId = db.fetchPaymentForOrder orderId := by
  unfold fetchPaymentForOrder
  rw [slice, Table.first?_filter]
  intro row hrow
  rw [of_decide_eq_true hrow]
  exact h

/-- So is its shipment. -/
theorem fetchShipmentForOrder_slice (h : orders orderId = true) :
    (db.slice orders runs).fetchShipmentForOrder orderId =
      db.fetchShipmentForOrder orderId := by
  unfold fetchShipmentForOrder
  rw [slice, Table.first?_filter]
  intro row hrow
  rw [of_decide_eq_true hrow]
  exact h

/-- So is the target of a proposal. -/
theorem resolveTarget_slice {proposal : ActionProposal} (h : orders proposal.orderId = true) :
    (db.slice orders runs).resolveTarget proposal = db.resolveTarget proposal := by
  unfold resolveTarget
  rw [fetchOrder_slice h, fetchPaymentForOrder_slice h]

/-- Stored results of its runs are found in the slice. -/
theorem storedResult_slice {idempotencyKey : String}
    (h : ∀ row ∈ db.executionRecords.rows, row.idempotencyKey = idempotencyKey →
      runs row.runId = true) :
    (db.slice orders runs).storedResult idempotencyKey = db.storedResult idempotencyKey := by
  unfold storedResult
  rw [slice, Table.find?_filter h]

/-- So are their permits. -/
theorem loadPermit_slice {permitId : String}
    (h : ∀ row ∈ db.executionPermits.rows, row.permitId = permitId → runs row.runId = true) :
    (db.slice orders runs).loadPermit (some permitId) = db.loadPermit (some permitId) := by
  have hfound : (db.slice orders runs).executionPermits.find? permitId =
      db.executionPermits.find? permitId := Table.find?_filter h
  simp only [loadPermit, hfound]

theorem filter_slice {ρ : Type} {rows : List ρ} {f : ρ → String} (h : runs runId = true) :
    (rows.filter fun row => runs (f row)).filter (fun row => f row = runId) =
      rows.filter fun row => f row = runId := by
  rw [List.filter_filter]
  refine List.filter_congr fun row _ => ?_
  by_cases hrow : f row = runId
  · simp [hrow, h]
  · simp [hrow]

/-- So are their log rows. -/
theorem mutationLogRows_slice (h : runs runId = true) :
    (db.slice orders runs).mutationLogRows runId = db.mutationLogRows runId :=
  filter_slice h

/-- Their refunds add up to the same. -/
theorem refundTotal_slice (h : runs runId = true) :
    (db.slice orders runs).refundTotal runId = db.refundTotal runId := by
  unfold refundTotal
  rw [slice, Table.rows_filter, filter_slice h]

/-- There are as many. -/
theorem refundCount_slice (h : runs runId = true) :
    (db.slice orders runs).refundCount runId = db.refundCount runId := by
  unfold refundCount
  rw [slice, Table.rows_filter, filter_slice h]

/-- There are as many tickets. -/
theorem ticketCount_slice (h : runs runId = true) :
    (db.slice orders runs).ticketCount runId = db.ticketCount runId := by
  unfold ticketCount
  rw [slice, Table.rows_filter, filter_slice h]

end Queries

/-! ## Updates -/

section Updates

variable {orderId paymentId : String} {version amount : Int}

/-- The guard of a cancel matches as many rows. -/
theorem rowcount_orderGuard_slice (h : orders orderId = true) :
    (db.slice orders runs).orders.rowcount (orderGuard orderId version) =
      db.orders.rowcount (orderGuard orderId version) := by
  refine Table.rowcount_filter fun row _ hrow => ?_
  simp only [orderGuard, Bool.and_eq_true, decide_eq_true_eq] at hrow
  rw [hrow.1]
  exact h

/-- So does the guard of a refund. -/
theorem rowcount_paymentGuard_slice
    (h : ∀ row ∈ db.payments.rows, row.paymentId = paymentId → orders row.orderId = true) :
    (db.slice orders runs).payments.rowcount (paymentGuard paymentId version) =
      db.payments.rowcount (paymentGuard paymentId version) := by
  refine Table.rowcount_filter fun row hmem hrow => ?_
  simp only [paymentGuard, Bool.and_eq_true, decide_eq_true_eq] at hrow
  exact h row hmem hrow.1

/-- A cancel works on the slice as on the whole. -/
theorem slice_cancelRows :
    (db.cancelRows orderId version).slice orders runs =
      (db.slice orders runs).cancelRows orderId version := by
  unfold cancelRows slice
  congr 1
  · exact Table.filter_update _ fun _ => rfl
  · exact Table.filter_update _ fun _ => rfl

/-- A cancellation touches no other order. -/
theorem slice_cancelRows_of_not (h : orders orderId = false) :
    (db.cancelRows orderId version).slice orders runs = db.slice orders runs := by
  unfold cancelRows slice
  congr 1
  · refine Table.filter_update_of_notMem OrderRow.cancelled_orderId (fun _ => rfl)
      fun row _ hrow => ?_
    simp only [orderGuard, Bool.and_eq_true, decide_eq_true_eq] at hrow
    rw [hrow.1]
    exact h
  · refine Table.filter_update_of_notMem ShipmentRow.cancelled_shipmentId (fun _ => rfl)
      fun row _ hrow => ?_
    simp only [Bool.and_eq_true, decide_eq_true_eq] at hrow
    rw [hrow.1]
    exact h

/-- So does a refund. -/
theorem slice_refundPayment :
    (db.refundPayment paymentId version amount).slice orders runs =
      (db.slice orders runs).refundPayment paymentId version amount := by
  unfold refundPayment slice
  congr 1
  exact Table.filter_update _ fun _ => rfl

/-- A refund elsewhere does not reach the slice. -/
theorem slice_refundPayment_of_not
    (h : ∀ row ∈ db.payments.rows, row.paymentId = paymentId → orders row.orderId = false) :
    (db.refundPayment paymentId version amount).slice orders runs = db.slice orders runs := by
  unfold refundPayment slice
  congr 1
  refine Table.filter_update_of_notMem (fun row => row.refunded_paymentId amount)
    (fun _ => rfl) fun row hmem hrow => ?_
  simp only [paymentGuard, Bool.and_eq_true, decide_eq_true_eq] at hrow
  exact h row hmem hrow.1

/-- A permit is used in the slice as in the whole. -/
theorem slice_markUsed {permitId : String} :
    (db.markUsed permitId).slice orders runs = (db.slice orders runs).markUsed permitId := by
  unfold markUsed slice
  congr 1
  exact Table.filter_update _ fun _ => rfl

/-- A permit of others is not in it. -/
theorem slice_markUsed_of_not {permitId : String}
    (h : ∀ row ∈ db.executionPermits.rows, row.permitId = permitId → runs row.runId = false) :
    (db.markUsed permitId).slice orders runs = db.slice orders runs := by
  unfold markUsed slice
  congr 1
  exact Table.filter_update_of_notMem PermitRow.spend_permitId (fun _ => rfl)
    fun row hmem hrow => h row hmem (of_decide_eq_true hrow)

/-- An injected change works on the slice as on the whole. -/
theorem slice_applyTo {change : StateChange} {resource : Resource} :
    (change.applyTo db resource).slice orders runs =
      change.applyTo (db.slice orders runs) resource := by
  cases resource <;> unfold StateChange.applyTo slice <;> congr 1
  · exact Table.filter_update _ fun row => by rw [(change.editOrder_kept row).1]
  · exact Table.filter_update _ fun row => by rw [(change.editPayment_kept row).2.1]
  · exact Table.filter_update _ fun row => by rw [(change.editShipment_kept row).2.1]

/-- A change of rows that are not in the slice. -/
theorem slice_applyTo_of_not {change : StateChange} {resource : Resource}
    (horder : resource = .order → orders change.resourceId = false)
    (hpayment : resource = .payment → ∀ row ∈ db.payments.rows,
      row.paymentId = change.resourceId → orders row.orderId = false)
    (hshipment : resource = .shipment → ∀ row ∈ db.shipments.rows,
      row.shipmentId = change.resourceId → orders row.orderId = false) :
    (change.applyTo db resource).slice orders runs = db.slice orders runs := by
  cases resource with
  | order =>
      unfold StateChange.applyTo slice
      congr 1
      refine Table.filter_update_of_notMem (fun row => (change.editOrder_kept row).1)
        (fun row => by rw [(change.editOrder_kept row).1]) fun row _ hrow => ?_
      rw [of_decide_eq_true hrow]
      exact horder rfl
  | payment =>
      unfold StateChange.applyTo slice
      congr 1
      exact Table.filter_update_of_notMem (fun row => (change.editPayment_kept row).1)
        (fun row => by rw [(change.editPayment_kept row).2.1])
        fun row hmem hrow => hpayment rfl row hmem (of_decide_eq_true hrow)
  | shipment =>
      unfold StateChange.applyTo slice
      congr 1
      exact Table.filter_update_of_notMem (fun row => (change.editShipment_kept row).1)
        (fun row => by rw [(change.editShipment_kept row).2.1])
        fun row hmem hrow => hshipment rfl row hmem (of_decide_eq_true hrow)

end Updates

/-! ## Insertions -/

section Insertions

/-- A log row of its runs is in the slice. -/
theorem slice_logMutation {row : MutationRow} (h : runs row.runId = true) :
    (db.logMutation row).slice orders runs = (db.slice orders runs).logMutation row := by
  unfold logMutation slice
  congr 1
  simp [List.filter_append, h]

/-- One of others is not. -/
theorem slice_logMutation_of_not {row : MutationRow} (h : runs row.runId = false) :
    (db.logMutation row).slice orders runs = db.slice orders runs := by
  unfold logMutation slice
  congr 1
  simp [List.filter_append, h]

/-- A permit goes in as in the whole. -/
theorem insertPermit_slice {row : PermitRow} (hrow : runs row.runId = true)
    (h : ∀ other ∈ db.executionPermits.rows, other.permitId = row.permitId →
      runs other.runId = true) :
    (db.slice orders runs).insertPermit row =
      (db.insertPermit row).map fun db => db.slice orders runs := by
  unfold insertPermit
  rw [show (db.slice orders runs).executionPermits.insert? row = _ from
    Table.insert?_filter (s := fun row : PermitRow => runs row.runId) hrow h]
  cases db.executionPermits.insert? row <;> rfl

/-- So does a stored result. -/
theorem insertRecord_slice (row : RecordRow) (hrow : runs row.runId = true)
    (h : ∀ other ∈ db.executionRecords.rows, other.idempotencyKey = row.idempotencyKey →
      runs other.runId = true) :
    (db.slice orders runs).insertRecord row =
      (db.insertRecord row).map fun db => db.slice orders runs := by
  unfold insertRecord
  rw [show (db.slice orders runs).executionRecords.insert? row = _ from
    Table.insert?_filter (s := fun row : RecordRow => runs row.runId) hrow h]
  cases db.executionRecords.insert? row <;> rfl

/-- So does a refund. -/
theorem insertRefund_slice {row : RefundRow} (hrow : runs row.runId = true)
    (h : ∀ other ∈ db.refunds.rows, other.refundId = row.refundId → runs other.runId = true)
    (hpayment : ∀ other ∈ db.payments.rows, other.paymentId = row.paymentId →
      orders other.orderId = true) (horder : orders row.orderId = true) :
    (db.slice orders runs).insertRefund row =
      (db.insertRefund row).map fun db => db.slice orders runs := by
  have hfoundPayment : (db.slice orders runs).payments.find? row.paymentId =
      db.payments.find? row.paymentId := Table.find?_filter hpayment
  have hfoundOrder : (db.slice orders runs).orders.find? row.orderId =
      db.orders.find? row.orderId := by
    refine Table.find?_filter fun other _ hother => ?_
    rw [hother]
    exact horder
  unfold insertRefund
  rw [show (db.slice orders runs).refunds.insert? row = _ from
    Table.insert?_filter (s := fun row : RefundRow => runs row.runId) hrow h, hfoundPayment,
    hfoundOrder]
  cases db.refunds.insert? row with
  | none => rfl
  | some refunds =>
      simp only [Option.map_some]
      split_ifs <;> rfl

/-- So does a ticket. -/
theorem insertTicket_slice {row : TicketRow} (hrow : runs row.runId = true)
    (h : ∀ other ∈ db.supportTickets.rows, other.ticketId = row.ticketId →
      runs other.runId = true) (horder : orders row.orderId = true) :
    (db.slice orders runs).insertTicket row =
      (db.insertTicket row).map fun db => db.slice orders runs := by
  have hfoundOrder : (db.slice orders runs).orders.find? row.orderId =
      db.orders.find? row.orderId := by
    refine Table.find?_filter fun other _ hother => ?_
    rw [hother]
    exact horder
  unfold insertTicket
  rw [show (db.slice orders runs).supportTickets.insert? row = _ from
    Table.insert?_filter (s := fun row : TicketRow => runs row.runId) hrow h, hfoundOrder]
  cases db.supportTickets.insert? row with
  | none => rfl
  | some supportTickets =>
      simp only [Option.map_some]
      split_ifs <;> rfl

end Insertions

/-! ## The commit -/

section Commit

/-- What comes of a statement, on the slice. -/
def sliced {α : Type} (orders runs : String → Bool) :
    Except PyError (α × Database) → Except PyError (α × Database) :=
  Except.map fun r => (r.1, r.2.slice orders runs)

@[simp] theorem sliced_ok {α : Type} (a : α) :
    sliced orders runs (.ok (a, db)) = .ok (a, db.slice orders runs) := rfl

@[simp] theorem sliced_error {α : Type} (err : PyError) :
    (sliced orders runs (.error err) : Except PyError (α × Database)) = .error err := rfl

variable {auth : WriteAuthorization} {now : Instant} {version amount : Int}
variable {orderId paymentId : String}

/-- A cancel in the slice. -/
theorem cancelOrder_slice (horder : orders orderId = true) (hrun : runs auth.runId = true) :
    cancelOrder (some auth) orderId version now (db.slice orders runs) =
      sliced orders runs (cancelOrder (some auth) orderId version now db) := by
  cases hrequire : require (some auth) .cancelOrder orderId with
  | error err => simp [cancelOrder, hrequire, bind, Except.bind]
  | ok authorized =>
      obtain ⟨heq, -⟩ := require_eq_ok.mp hrequire
      cases heq
      simp only [cancelOrder, hrequire, bind, Except.bind, rowcount_orderGuard_slice horder]
      split_ifs
      · rfl
      · simp only [pure, Except.pure, sliced_ok]
        rw [slice_logMutation hrun, slice_cancelRows]

/-- A refund in the slice. -/
theorem issueRefund_slice (horder : orders orderId = true) (hrun : runs auth.runId = true)
    (hpayment : ∀ row ∈ db.payments.rows, row.paymentId = paymentId →
      orders row.orderId = true)
    (hrefund : ∀ row ∈ db.refunds.rows, row.refundId = "ref_" ++ auth.permitId →
      runs row.runId = true) :
    issueRefund (some auth) paymentId orderId amount version now (db.slice orders runs) =
      sliced orders runs (issueRefund (some auth) paymentId orderId amount version now db) := by
  cases hrequire : require (some auth) .issueRefund paymentId with
  | error err => simp [issueRefund, hrequire, bind, Except.bind]
  | ok authorized =>
      obtain ⟨heq, -⟩ := require_eq_ok.mp hrequire
      cases heq
      -- the update leaves every payment with its order
      have hupdated : ∀ row ∈ (db.refundPayment paymentId version amount).payments.rows,
          row.paymentId = paymentId → orders row.orderId = true :=
        Table.forall_update (fun row => row.refunded_paymentId amount) hpayment fun _ h => h
      simp only [issueRefund, hrequire, bind, Except.bind, rowcount_paymentGuard_slice hpayment]
      split_ifs
      · rfl
      · rfl
      · rw [← slice_refundPayment, insertRefund_slice hrun hrefund hupdated horder]
        cases (db.refundPayment paymentId version amount).insertRefund _ with
        | error err => rfl
        | ok mid =>
            simp only [Except.map, pure, Except.pure, sliced_ok]
            rw [slice_logMutation hrun]

/-- A ticket in the slice. -/
theorem createSupportTicket_slice {reasonCode summary : String}
    (horder : orders orderId = true) (hrun : runs auth.runId = true)
    (hticket : ∀ row ∈ db.supportTickets.rows, row.ticketId = "tkt_" ++ auth.permitId →
      runs row.runId = true) :
    createSupportTicket (some auth) orderId reasonCode summary now (db.slice orders runs) =
      sliced orders runs
        (createSupportTicket (some auth) orderId reasonCode summary now db) := by
  cases hrequire : require (some auth) .createSupportTicket orderId with
  | error err => simp [createSupportTicket, hrequire, bind, Except.bind]
  | ok authorized =>
      obtain ⟨heq, -⟩ := require_eq_ok.mp hrequire
      cases heq
      simp only [createSupportTicket, hrequire, bind, Except.bind]
      rw [insertTicket_slice hrun hticket horder]
      cases db.insertTicket _ with
      | error err => rfl
      | ok mid =>
          simp only [Except.map, pure, Except.pure, sliced_ok]
          rw [slice_logMutation hrun]

variable {e : Executor} {permit : ExecutionPermit} {proposal : ActionProposal}
variable {texts : TicketTexts}

/-- What a commit touches lies in the slice. -/
structure Holds (orders runs : String → Bool) (db : Database) (permit : ExecutionPermit)
    (proposal : ActionProposal) : Prop where
  order : orders proposal.orderId = true
  payment : proposal.action = .issueRefund → ∀ row ∈ db.payments.rows,
    row.paymentId = permit.resourceId → orders row.orderId = true
  refund : ∀ row ∈ db.refunds.rows, row.refundId = "ref_" ++ permit.permitId →
    runs row.runId = true
  ticket : ∀ row ∈ db.supportTickets.rows, row.ticketId = "tkt_" ++ permit.permitId →
    runs row.runId = true
  record : ∀ row ∈ db.executionRecords.rows, row.idempotencyKey = permit.idempotencyKey →
    runs row.runId = true

/-- A write tool does in the slice what it does in the whole. -/
theorem write_slice (h : db.Holds orders runs permit proposal) (hrun : runs e.runId = true) :
    Executor.write (e.authorization permit) permit proposal texts now (db.slice orders runs) =
      sliced orders runs
        (Executor.write (e.authorization permit) permit proposal texts now db) := by
  cases haction : proposal.action with
  | cancelOrder =>
      simp only [Executor.write, haction]
      exact cancelOrder_slice h.order hrun
  | issueRefund =>
      simp only [Executor.write, haction]
      exact issueRefund_slice h.order hrun (h.payment haction) h.refund
  | createSupportTicket =>
      simp only [Executor.write, haction]
      exact createSupportTicket_slice h.order hrun h.ticket

/-- **A commit on the slice** raises what it raises on the database, and makes of the slice
what it makes of the database. -/
theorem commitAll_slice (h : db.Holds orders runs permit proposal)
    (hrun : runs e.runId = true) :
    e.commitAll (e.authorization permit) permit proposal texts now (db.slice orders runs) =
      sliced orders runs
        (e.commitAll (e.authorization permit) permit proposal texts now db) := by
  unfold Executor.commitAll
  rw [write_slice h hrun]
  cases hwrite : Executor.write (e.authorization permit) permit proposal texts now db with
  | error err => rfl
  | ok written =>
      obtain ⟨outcome, mid⟩ := written
      obtain ⟨-, -, hwrites⟩ := write_eq_ok.mp hwrite
      -- the write has left the records alone
      have hrecord : ∀ row ∈ mid.executionRecords.rows,
          row.idempotencyKey = permit.idempotencyKey → runs row.runId = true := by
        cases hwrites <;> exact h.record
      simp only [bind, Except.bind, sliced_ok]
      rw [insertRecord_slice (e.recordFor permit outcome now) hrun hrecord]
      cases mid.insertRecord _ with
      | error err => rfl
      | ok next => simp only [Except.map, pure, Except.pure, sliced_ok, slice_markUsed]

/-! Rows of runs outside are not seen. -/

theorem slice_executionPermits {permits : Table PermitRow.permitId} {row : PermitRow}
    (h : db.executionPermits.insert? row = some permits) (hrow : runs row.runId = false) :
    { db with executionPermits := permits }.slice orders runs = db.slice orders runs := by
  unfold slice
  rw [Table.filter_insert? h hrow]

theorem slice_executionRecords {records : Table RecordRow.idempotencyKey} {row : RecordRow}
    (h : db.executionRecords.insert? row = some records) (hrow : runs row.runId = false) :
    { db with executionRecords := records }.slice orders runs = db.slice orders runs := by
  unfold slice
  rw [Table.filter_insert? h hrow]

theorem slice_refunds {refunds : Table RefundRow.refundId} {row : RefundRow}
    (h : db.refunds.insert? row = some refunds) (hrow : runs row.runId = false) :
    { db with refunds }.slice orders runs = db.slice orders runs := by
  unfold slice
  rw [Table.filter_insert? h hrow]

theorem slice_supportTickets {supportTickets : Table TicketRow.ticketId} {row : TicketRow}
    (h : db.supportTickets.insert? row = some supportTickets) (hrow : runs row.runId = false) :
    { db with supportTickets }.slice orders runs = db.slice orders runs := by
  unfold slice
  rw [Table.filter_insert? h hrow]

/-- What a commit touches lies outside the slice. -/
structure Misses (orders runs : String → Bool) (db : Database) (x : Execution) : Prop where
  order : orders x.proposal.orderId = false
  payment : x.proposal.action = .issueRefund → ∀ row ∈ db.payments.rows,
    row.paymentId = x.permit.resourceId → orders row.orderId = false
  run : runs x.runId = false
  permit : ∀ row ∈ db.executionPermits.rows, row.permitId = x.permit.permitId →
    runs row.runId = false

/-- A write that misses the slice leaves it as it was. -/
theorem slice_of_writes {x : Execution} (h : db.Misses orders runs x)
    (hx : x.Writes db db') : db'.slice orders runs = db.slice orders runs := by
  cases hx with
  | cancel row action target found pinned =>
      rw [slice_logMutation_of_not h.run, slice_cancelRows_of_not (target ▸ h.order)]
  | refund row refunds action within found pinned order fresh =>
      rw [slice_logMutation_of_not h.run]
      rw [← slice_refundPayment_of_not (h.payment action)]
      exact slice_refunds fresh h.run
  | ticket supportTickets action target order fresh =>
      rw [slice_logMutation_of_not h.run]
      exact slice_supportTickets fresh h.run

/-- **A commit outside the slice** leaves it as it is. -/
theorem slice_of_commits {x : Execution} (h : db.Misses orders runs x)
    (hx : x.Commits db db') : db'.slice orders runs = db.slice orders runs := by
  obtain ⟨-, mid, records, hwrites, hrecords, rfl⟩ := hx
  have hpermit : ∀ row ∈ { mid with executionRecords := records }.executionPermits.rows,
      row.permitId = x.permit.permitId → runs row.runId = false := by
    cases hwrites <;> exact h.permit
  calc ({ mid with executionRecords := records }.markUsed x.permit.permitId).slice orders runs
      = { mid with executionRecords := records }.slice orders runs :=
        slice_markUsed_of_not hpermit
    _ = mid.slice orders runs := slice_executionRecords hrecords h.run
    _ = db.slice orders runs := slice_of_writes h hwrites

/-- So does a permit of others. -/
theorem slice_insertPermit_of_not {row : PermitRow} (h : db.insertPermit row = .ok db')
    (hrow : runs row.runId = false) : db'.slice orders runs = db.slice orders runs := by
  obtain ⟨permits, hins, rfl⟩ := insertPermit_eq_ok.mp h
  exact slice_executionPermits hins hrow

end Commit

end Database

end BoundedRefund
