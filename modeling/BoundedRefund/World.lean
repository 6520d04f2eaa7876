import BoundedRefund.Database

/-!
# Seeded worlds

The fixtures the simulator builds for a list of orders: one refund policy, and for
each order a captured payment and a shipment whose status fits the order's.  The
customers and carriers, which the simulator draws from a seeded generator, are fixed
texts here; no rule looks at them.
-/

namespace BoundedRefund

open Relational

/-- `default_policy_spec`. -/
def defaultPolicy : RefundPolicy where
  policyId := "pol_standard"
  name := "standard synthetic refund policy"
  autoRefundLimitCents := 25000
  postDeliveryWindowDays := 14
  version := 1

/-- `_ORDER_TO_SHIPMENT`. -/
def orderToShipment : OrderStatus → ShipmentStatus
  | .paid => .preparing
  | .readyToShip => .readyToShip
  | .shipped => .shipped
  | .delivered => .delivered
  | .cancelled => .cancelled

/-- An order of the seed, at its first version. -/
def seedOrder (orderId : String) (status : OrderStatus) : OrderRow where
  orderId := orderId
  customerId := "cus_000001"
  policyId := defaultPolicy.policyId
  status := str status
  totalCents := 10000
  placedAt := "2026-03-01T09:00:00+00:00"
  deliveredAt := none
  version := 1

/-- Its payment, captured in full. -/
def seedPayment (orderId : String) : PaymentRow where
  paymentId := "pay_" ++ orderId
  orderId := orderId
  status := str PaymentStatus.captured
  capturedCents := 10000
  refundedCents := 0
  version := 1

/-- Its shipment, as far on its way as the order. -/
def seedShipment (orderId : String) (status : OrderStatus) : ShipmentRow where
  shipmentId := "shp_" ++ orderId
  orderId := orderId
  status := str (orderToShipment status)
  carrier := "SYNTHETIC_POST"
  version := 1

/-- `seed_world` for orders that leave everything but id and status to the defaults. -/
def seedWorld (orders : List (String × OrderStatus)) : Database where
  refundPolicies := .ofRows [defaultPolicy]
  orders := .ofRows (orders.map fun o => seedOrder o.1 o.2)
  payments := .ofRows (orders.map fun o => seedPayment o.1)
  shipments := .ofRows (orders.map fun o => seedShipment o.1 o.2)

/-- The first order, as it is read when it is paid. -/
def paidOrder : Order where
  orderId := "ord_0001"
  customerId := "cus_000001"
  policyId := defaultPolicy.policyId
  status := .paid
  totalCents := 10000
  placedAt := "2026-03-01T09:00:00+00:00"
  deliveredAt := none
  version := 1

/-- Nothing was issued or executed yet. -/
structure Database.Seeded (db : Database) : Prop where
  mutationLog : db.mutationLog = []
  executionRecords : db.executionRecords.rows = []
  executionPermits : db.executionPermits.rows = []
  refunds : db.refunds.rows = []
  supportTickets : db.supportTickets.rows = []

/-- A seed has no history. -/
theorem seedWorld_seeded (orders : List (String × OrderStatus)) : (seedWorld orders).Seeded :=
  ⟨rfl, rfl, rfl, rfl, rfl⟩

/-! ## Requests on it -/

/-- The customer asks for a cancellation. -/
def cancelFirst : ActionProposal where
  action := .cancelOrder
  orderId := "ord_0001"
  reason := "changed my mind"
  amountCents_range := ActionProposal.range_of_none

/-- The customer asks for half of the money back. -/
def refundFirst : ActionProposal where
  action := .issueRefund
  orderId := "ord_0001"
  amountCents := some 5000
  reason := "arrived broken"

/-- The customer asks for more than was paid. -/
def refundTooMuch : ActionProposal where
  action := .issueRefund
  orderId := "ord_0001"
  amountCents := some 30000
  reason := "arrived broken"

/-- The customer asks for a person. -/
def ticketFirst : ActionProposal where
  action := .createSupportTicket
  orderId := "ord_0001"
  reason := "please call me"
  amountCents_range := ActionProposal.range_of_none

/-- A cancellation of the second order. -/
def cancelSecond : ActionProposal where
  action := .cancelOrder
  orderId := "ord_0002"
  reason := "changed my mind"
  amountCents_range := ActionProposal.range_of_none

/-- `DEFAULT_CLOCK_BASE`: noon of 2026-04-01, UTC. -/
def defaultClockBase : Instant := seconds 1775044800

end BoundedRefund
