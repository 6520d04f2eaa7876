import BoundedRefund.Schemas
import BoundedRefund.Relational.Versioned
import Mathlib.Data.String.Basic

/-!
# The database

The nine tables of the schema and the access layer over them.  A status column
holds a text, not a status: the simulator may write any text into it, and reading
the row then raises, exactly where the source calls the enumeration.  Integer
columns hold unbounded integers; `WithinRanges` says which runs never leave the 64 bits
of the source's.

`mutationLog` is a list: its `seq` column is the position.  The result column of
an execution record is the result itself rather than its JSON, and the action
columns of permits, records and the log hold the action rather than its text; the
source writes these columns itself, from values of these types, and reads them
back unchanged.

A statement that can violate a primary or a foreign key returns in `Except`.  A
transaction is a chain of such statements from the state at `BEGIN IMMEDIATE`; if
it ends in an exception its last state is dropped, which is `ROLLBACK`.
-/

namespace BoundedRefund

open Relational

/-! ## Rows -/

/-- A row of `orders`.  The status is a text, as in the column. -/
structure OrderRow where
  orderId : String
  customerId : String
  policyId : String
  status : String
  totalCents : Int
  placedAt : String
  deliveredAt : Option IsoText
  version : Int
deriving DecidableEq, Repr

/-- A row of `payments`. -/
structure PaymentRow where
  paymentId : String
  orderId : String
  status : String
  capturedCents : Int
  refundedCents : Int
  version : Int
deriving DecidableEq, Repr

/-- A row of `shipments`. -/
structure ShipmentRow where
  shipmentId : String
  orderId : String
  status : String
  carrier : String
  version : Int
deriving DecidableEq, Repr

/-- A row of `support_tickets`. -/
structure TicketRow where
  ticketId : String
  orderId : String
  reasonCode : String
  summary : String
  createdAt : IsoText
  runId : String
deriving DecidableEq, Repr

/-- A row of `refunds`. -/
structure RefundRow where
  refundId : String
  paymentId : String
  orderId : String
  amountCents : Int
  createdAt : IsoText
  runId : String
  permitId : String
deriving DecidableEq, Repr

/-- A row of `execution_permits`. -/
structure PermitRow where
  permitId : String
  action : ActionName
  resourceId : String
  expectedResourceVersion : Int
  maxAmountCents : Int
  expiresAt : IsoText
  idempotencyKey : String
  used : Bool
  createdAt : IsoText
  runId : String
deriving DecidableEq, Repr

/-- The row of a permit once it was used. -/
def PermitRow.spend (row : PermitRow) : PermitRow := { row with used := true }

/-- A used permit keeps its id. -/
theorem PermitRow.spend_permitId (row : PermitRow) : row.spend.permitId = row.permitId := rfl

/-- A row of `execution_records`: a stored result under its idempotency key. -/
structure RecordRow where
  idempotencyKey : String
  runId : String
  action : ActionName
  resourceId : String
  amountCents : Int
  result : ExecutionResult
  createdAt : IsoText
deriving DecidableEq, Repr

/-- A row of `mutation_log`.  It has no key of its own but its place. -/
structure MutationRow where
  runId : String
  action : ActionName
  resourceId : String
  amountCents : Int
  createdAt : IsoText
deriving DecidableEq, Repr

/-- One database. -/
@[ext] structure Database where
  refundPolicies : Table RefundPolicy.policyId
  orders : Table OrderRow.orderId
  payments : Table PaymentRow.paymentId
  shipments : Table ShipmentRow.shipmentId
  supportTickets : Table TicketRow.ticketId := .empty
  refunds : Table RefundRow.refundId := .empty
  executionPermits : Table PermitRow.permitId := .empty
  executionRecords : Table RecordRow.idempotencyKey := .empty
  mutationLog : List MutationRow := []
deriving DecidableEq

/-! ## From rows to records -/

/-- `row_to_order`: a text that names no status raises. -/
def rowToOrder (row : OrderRow) : Except PyError Order :=
  (StrEnum.parse row.status).map fun status =>
    { orderId := row.orderId, customerId := row.customerId, policyId := row.policyId,
      status, totalCents := row.totalCents, placedAt := row.placedAt,
      deliveredAt := row.deliveredAt, version := row.version }

/-- `row_to_payment`. -/
def rowToPayment (row : PaymentRow) : Except PyError Payment :=
  (StrEnum.parse row.status).map fun status =>
    { paymentId := row.paymentId, orderId := row.orderId, status,
      capturedCents := row.capturedCents, refundedCents := row.refundedCents,
      version := row.version }

/-- `row_to_shipment`. -/
def rowToShipment (row : ShipmentRow) : Except PyError Shipment :=
  (StrEnum.parse row.status).map fun status =>
    { shipmentId := row.shipmentId, orderId := row.orderId, status,
      carrier := row.carrier, version := row.version }

/-- The row a record was read from. -/
def Order.row (o : Order) : OrderRow where
  orderId := o.orderId
  customerId := o.customerId
  policyId := o.policyId
  status := str o.status
  totalCents := o.totalCents
  placedAt := o.placedAt
  deliveredAt := o.deliveredAt
  version := o.version

/-- The row a payment is read from. -/
def Payment.row (p : Payment) : PaymentRow where
  paymentId := p.paymentId
  orderId := p.orderId
  status := str p.status
  capturedCents := p.capturedCents
  refundedCents := p.refundedCents
  version := p.version

/-- The row a shipment is read from. -/
def Shipment.row (s : Shipment) : ShipmentRow where
  shipmentId := s.shipmentId
  orderId := s.orderId
  status := str s.status
  carrier := s.carrier
  version := s.version

/-- A record determines the row it was read from, in every field. -/
theorem rowToOrder_eq_ok {row : OrderRow} {o : Order} :
    rowToOrder row = .ok o ↔ row = o.row := by
  constructor
  · intro h
    cases hs : (StrEnum.parse row.status : Except PyError OrderStatus) with
    | error e => simp [rowToOrder, hs, Except.map] at h
    | ok status =>
        simp only [rowToOrder, hs, Except.map, Except.ok.injEq] at h
        subst h
        simp [Order.row, StrEnum.value_of_parse hs]
  · rintro rfl
    simp [rowToOrder, Order.row, Except.map]

/-- A payment is read from its row and from no other. -/
theorem rowToPayment_eq_ok {row : PaymentRow} {p : Payment} :
    rowToPayment row = .ok p ↔ row = p.row := by
  constructor
  · intro h
    cases hs : (StrEnum.parse row.status : Except PyError PaymentStatus) with
    | error e => simp [rowToPayment, hs, Except.map] at h
    | ok status =>
        simp only [rowToPayment, hs, Except.map, Except.ok.injEq] at h
        subst h
        simp [Payment.row, StrEnum.value_of_parse hs]
  · rintro rfl
    simp [rowToPayment, Payment.row, Except.map]

/-- A shipment is read from its row and from no other. -/
theorem rowToShipment_eq_ok {row : ShipmentRow} {s : Shipment} :
    rowToShipment row = .ok s ↔ row = s.row := by
  constructor
  · intro h
    cases hs : (StrEnum.parse row.status : Except PyError ShipmentStatus) with
    | error e => simp [rowToShipment, hs, Except.map] at h
    | ok status =>
        simp only [rowToShipment, hs, Except.map, Except.ok.injEq] at h
        subst h
        simp [Shipment.row, StrEnum.value_of_parse hs]
  · rintro rfl
    simp [rowToShipment, Shipment.row, Except.map]

/-! ## Queries -/

namespace Database

/-- `row_to_x(row) if row else None`. -/
def readRow {ρ α : Type} (convert : ρ → Except PyError α) : Option ρ → Except PyError (Option α)
  | none => .ok none
  | some row => (convert row).map some

/-- `fetch_order`. -/
def fetchOrder (db : Database) (orderId : String) : Except PyError (Option Order) :=
  readRow rowToOrder (db.orders.find? orderId)

/-- `fetch_payment_for_order`: the first row of the order, in the order of the keys. -/
def fetchPaymentForOrder (db : Database) (orderId : String) : Except PyError (Option Payment) :=
  readRow rowToPayment (db.payments.first? fun row => row.orderId = orderId)

/-- `fetch_shipment_for_order`: the first row of the order, whatever the others hold. -/
def fetchShipmentForOrder (db : Database) (orderId : String) :
    Except PyError (Option Shipment) :=
  readRow rowToShipment (db.shipments.first? fun row => row.orderId = orderId)

/-- `fetch_refund_policy`. -/
def fetchRefundPolicy (db : Database) (policyId : String) :
    Except PyError (Option RefundPolicy) :=
  .ok (db.refundPolicies.find? policyId)

/-- The log rows of one run, in the order they were written. -/
def mutationLogRows (db : Database) (runId : String) : List MutationRow :=
  db.mutationLog.filter fun row => row.runId = runId

/-- What was read was read from a row that is there. -/
theorem readRow_eq_some {ρ α : Type} {convert : ρ → Except PyError α} {row : Option ρ} {a : α}
    (h : readRow convert row = .ok (some a)) : ∃ r, row = some r ∧ convert r = .ok a := by
  cases row with
  | none => simp [readRow] at h
  | some r =>
      cases hc : convert r with
      | error e => simp [readRow, hc, Except.map] at h
      | ok b =>
          simp only [readRow, hc, Except.map, Except.ok.injEq, Option.some.injEq] at h
          exact ⟨r, rfl, by rw [hc, h]⟩

/-- Nothing is read only where there is no row. -/
theorem readRow_eq_none {ρ α : Type} {convert : ρ → Except PyError α} {row : Option ρ}
    (h : readRow convert row = .ok none) : row = none := by
  cases row with
  | none => rfl
  | some r => cases hc : convert r <;> simp [readRow, hc, Except.map] at h

/-- A row that is there raises where its conversion does. -/
theorem readRow_raises {ρ α : Type} {convert : ρ → Except PyError α} {row : Option ρ}
    {err : PyError} (h : readRow convert row = .error err) :
    ∃ r, convert r = .error err := by
  cases row with
  | none => cases h
  | some r => exact ⟨r, map_eq_error.mp h⟩

variable {db : Database}

/-- The order that is fetched stands in the table, in every field. -/
theorem fetchOrder_eq_some {orderId : String} {o : Order} :
    db.fetchOrder orderId = .ok (some o) ↔ db.orders.find? orderId = some o.row := by
  constructor
  · intro h
    obtain ⟨row, hrow, ho⟩ := readRow_eq_some h
    rw [hrow, rowToOrder_eq_ok.mp ho]
  · intro h
    simp [fetchOrder, readRow, h, rowToOrder_eq_ok.mpr rfl, Except.map]

/-- The order that is read is the one that was asked for. -/
theorem fetchOrder_orderId {orderId : String} {o : Order}
    (h : db.fetchOrder orderId = .ok (some o)) : o.orderId = orderId :=
  (Table.find?_eq_some.mp (fetchOrder_eq_some.mp h)).2

/-- No order is read only where there is none. -/
theorem fetchOrder_eq_none {orderId : String} :
    db.fetchOrder orderId = .ok none ↔ db.orders.find? orderId = none := by
  constructor
  · exact readRow_eq_none
  · intro h
    simp [fetchOrder, readRow, h]

/-- The payment that is fetched stands in the table, and is a payment of the order. -/
theorem fetchPaymentForOrder_eq_some {orderId : String} {p : Payment}
    (h : db.fetchPaymentForOrder orderId = .ok (some p)) :
    db.payments.find? p.paymentId = some p.row ∧ p.orderId = orderId := by
  obtain ⟨row, hrow, hp⟩ := readRow_eq_some h
  obtain ⟨hmem, horder⟩ := Table.first?_eq_some hrow
  rw [rowToPayment_eq_ok.mp hp] at hmem horder
  exact ⟨Table.find?_of_mem hmem, of_decide_eq_true horder⟩

/-- The shipment that is read is one of the order. -/
theorem fetchShipmentForOrder_eq_some {orderId : String} {s : Shipment}
    (h : db.fetchShipmentForOrder orderId = .ok (some s)) :
    db.shipments.find? s.shipmentId = some s.row ∧ s.orderId = orderId := by
  obtain ⟨row, hrow, hs⟩ := readRow_eq_some h
  obtain ⟨hmem, horder⟩ := Table.first?_eq_some hrow
  rw [rowToShipment_eq_ok.mp hs] at hmem horder
  exact ⟨Table.find?_of_mem hmem, of_decide_eq_true horder⟩

/-! ## Insertions -/

/-- The error of a taken primary key. -/
def uniqueViolation (column : String) : PyError :=
  .integrityError ("UNIQUE constraint failed: " ++ column)

/-- The error of a reference to a row that is not there. -/
def foreignKeyViolation : PyError := .integrityError "FOREIGN KEY constraint failed"

/-- `INSERT INTO support_tickets`, with its key and its reference to an order. -/
def insertTicket (db : Database) (row : TicketRow) : Except PyError Database :=
  match db.supportTickets.insert? row with
  | none => .error (uniqueViolation "support_tickets.ticket_id")
  | some supportTickets =>
      if (db.orders.find? row.orderId).isNone then .error foreignKeyViolation
      else .ok { db with supportTickets }

/-- `INSERT INTO refunds`, with its key and its references to a payment and an order. -/
def insertRefund (db : Database) (row : RefundRow) : Except PyError Database :=
  match db.refunds.insert? row with
  | none => .error (uniqueViolation "refunds.refund_id")
  | some refunds =>
      if (db.payments.find? row.paymentId).isNone || (db.orders.find? row.orderId).isNone then
        .error foreignKeyViolation
      else .ok { db with refunds }

/-- `INSERT INTO execution_permits`. -/
def insertPermit (db : Database) (row : PermitRow) : Except PyError Database :=
  match db.executionPermits.insert? row with
  | none => .error (uniqueViolation "execution_permits.permit_id")
  | some executionPermits => .ok { db with executionPermits }

/-- `INSERT INTO execution_records`: a second row under one key is refused. -/
def insertRecord (db : Database) (row : RecordRow) : Except PyError Database :=
  match db.executionRecords.insert? row with
  | none => .error (uniqueViolation "execution_records.idempotency_key")
  | some executionRecords => .ok { db with executionRecords }

/-- The row is appended; its `seq` is its position. -/
def logMutation (db : Database) (row : MutationRow) : Database :=
  { db with mutationLog := db.mutationLog ++ [row] }

/-- `UPDATE execution_permits SET used = 1 WHERE permit_id = ?`. -/
def markUsed (db : Database) (permitId : String) : Database :=
  let executionPermits := db.executionPermits.update (fun row => row.permitId = permitId)
    PermitRow.spend PermitRow.spend_permitId
  { db with executionPermits }

/-- A ticket is inserted under a free key, for an order that is there. -/
theorem insertTicket_eq_ok {db' : Database} {row : TicketRow} :
    db.insertTicket row = .ok db' ↔ ∃ t, db.supportTickets.insert? row = some t ∧
      (db.orders.find? row.orderId).isSome ∧ db' = { db with supportTickets := t } := by
  cases ht : db.supportTickets.insert? row with
  | none => simp [insertTicket, ht]
  | some t =>
      cases ho : db.orders.find? row.orderId with
      | none => simp [insertTicket, ht, ho]
      | some o => simp [insertTicket, ht, ho, eq_comm]

/-- A refund is inserted under a free key, for a payment and an order that are there. -/
theorem insertRefund_eq_ok {db' : Database} {row : RefundRow} :
    db.insertRefund row = .ok db' ↔ ∃ t, db.refunds.insert? row = some t ∧
      (db.payments.find? row.paymentId).isSome ∧ (db.orders.find? row.orderId).isSome ∧
      db' = { db with refunds := t } := by
  cases ht : db.refunds.insert? row with
  | none => simp [insertRefund, ht]
  | some t =>
      cases hp : db.payments.find? row.paymentId with
      | none => simp [insertRefund, ht, hp]
      | some p =>
          cases ho : db.orders.find? row.orderId with
          | none => simp [insertRefund, ht, hp, ho]
          | some o => simp [insertRefund, ht, hp, ho, eq_comm]

/-- A permit is inserted under a free key. -/
theorem insertPermit_eq_ok {db' : Database} {row : PermitRow} :
    db.insertPermit row = .ok db' ↔ ∃ t, db.executionPermits.insert? row = some t ∧
      db' = { db with executionPermits := t } := by
  cases ht : db.executionPermits.insert? row with
  | none => simp [insertPermit, ht]
  | some t => simp [insertPermit, ht, eq_comm]

/-- A result is stored under a free key. -/
theorem insertRecord_eq_ok {db' : Database} {row : RecordRow} :
    db.insertRecord row = .ok db' ↔ ∃ t, db.executionRecords.insert? row = some t ∧
      db' = { db with executionRecords := t } := by
  cases ht : db.executionRecords.insert? row with
  | none => simp [insertRecord, ht]
  | some t => simp [insertRecord, ht, eq_comm]

/-! An insertion raises over a key, and over nothing else. -/

theorem insertTicket_raises {row : TicketRow} {err : PyError}
    (h : db.insertTicket row = .error err) : ∃ message, err = .integrityError message := by
  unfold insertTicket at h
  split at h
  · cases h
    exact ⟨_, rfl⟩
  · split_ifs at h
    cases h
    exact ⟨_, rfl⟩

theorem insertRefund_raises {row : RefundRow} {err : PyError}
    (h : db.insertRefund row = .error err) : ∃ message, err = .integrityError message := by
  unfold insertRefund at h
  split at h
  · cases h
    exact ⟨_, rfl⟩
  · split_ifs at h
    cases h
    exact ⟨_, rfl⟩

theorem insertRecord_raises {row : RecordRow} {err : PyError}
    (h : db.insertRecord row = .error err) : ∃ message, err = .integrityError message := by
  unfold insertRecord at h
  split at h
  · cases h
    exact ⟨_, rfl⟩
  · cases h

end Database

end BoundedRefund
