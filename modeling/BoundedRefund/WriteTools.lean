import BoundedRefund.Permits

/-!
# Write tools

Unreachable without an authorization the executor minted.  The tools do not open
transactions: each maps the database inside the executor's transaction to the one
after it, and a tool that raises leaves nothing behind.
-/

namespace BoundedRefund

open Relational

/-! ## The authority -/

/-- An object somebody presents as the executor's authority. -/
inductive Token
  | executor
  | other
deriving DecidableEq, Repr

/-- `_EXECUTOR_TOKEN`. -/
def executorToken : Token := .executor

/-- Proof that the executor cleared this specific write. -/
structure WriteAuthorization where
  permitId : String
  action : ActionName
  resourceId : String
  maxAmountCents : Int
  runId : String
deriving DecidableEq, Repr

/-- `WriteAuthorization(token, …)`. -/
def WriteAuthorization.mint (token : Token) (auth : WriteAuthorization) :
    Except PyError WriteAuthorization :=
  if token = executorToken then .ok auth
  else .error (.permitRequired "WriteAuthorization can only be created by the executor")

/-- What a write tool returns. -/
structure WriteOutcome where
  action : ActionName
  resourceId : String
  amountCents : Int
  createdId : String
deriving DecidableEq, Repr

/-- `_require`.  What is presented need not be an authorization at all. -/
def require (auth : Option WriteAuthorization) (action : ActionName) (resourceId : String) :
    Except PyError WriteAuthorization :=
  match auth with
  | none => .error (.permitRequired (str action ++ " requires an executor-issued authorization"))
  | some auth =>
      if auth.action ≠ action then
        .error (.permitRequired
          ("authorization is for " ++ str auth.action ++ ", not " ++ str action))
      else if auth.resourceId ≠ resourceId then
        .error (.permitRequired
          ("authorization is for " ++ auth.resourceId ++ ", not " ++ resourceId))
      else .ok auth

/-- Authorised is the action and the resource of the permit. -/
theorem require_eq_ok {auth : Option WriteAuthorization} {action : ActionName}
    {resourceId : String} {authorized : WriteAuthorization} :
    require auth action resourceId = .ok authorized ↔
      auth = some authorized ∧ authorized.action = action ∧
        authorized.resourceId = resourceId := by
  cases auth with
  | none => simp [require]
  | some a =>
      simp only [require, Option.some.injEq]
      split_ifs with h₁ h₂
      · constructor
        · intro h
          cases h
        · rintro ⟨rfl, rfl, -⟩
          exact absurd rfl h₁
      · constructor
        · intro h
          cases h
        · rintro ⟨rfl, -, rfl⟩
          exact absurd rfl h₂
      · simp only [ne_eq, not_not] at h₁ h₂
        constructor
        · intro h
          cases h
          exact ⟨rfl, h₁, h₂⟩
        · rintro ⟨rfl, -⟩
          rfl

/-- A refusal is about the action or about the resource. -/
theorem require_eq_error {auth : WriteAuthorization} {action : ActionName} {resourceId : String}
    {err : PyError} (h : require (some auth) action resourceId = .error err) :
    ¬(auth.action = action ∧ auth.resourceId = resourceId) := by
  intro hauth
  rw [require_eq_ok.mpr ⟨rfl, hauth⟩] at h
  cases h

/-- What is not authorised asks for a permit. -/
theorem require_raises {auth : Option WriteAuthorization} {action : ActionName}
    {resourceId : String} {err : PyError} (h : require auth action resourceId = .error err) :
    ∃ message, err = .permitRequired message := by
  cases auth with
  | none =>
      cases h
      exact ⟨_, rfl⟩
  | some auth =>
      simp only [require] at h
      split_ifs at h
      all_goals
        cases h
        exact ⟨_, rfl⟩

/-! ## The tools -/

/-- `_CANCELLABLE_SHIPMENT_STATUSES`. -/
def cancellableShipmentStatuses : List String :=
  [str ShipmentStatus.preparing, str ShipmentStatus.readyToShip]

/-- The row of an order after it was cancelled. -/
def OrderRow.cancelled (row : OrderRow) : OrderRow :=
  { row with status := str OrderStatus.cancelled, version := row.version + 1 }

@[simp] theorem OrderRow.cancelled_orderId (row : OrderRow) :
    row.cancelled.orderId = row.orderId := rfl

/-- The row of a shipment after its order was cancelled. -/
def ShipmentRow.cancelled (row : ShipmentRow) : ShipmentRow :=
  { row with status := str ShipmentStatus.cancelled, version := row.version + 1 }

@[simp] theorem ShipmentRow.cancelled_shipmentId (row : ShipmentRow) :
    row.cancelled.shipmentId = row.shipmentId := rfl

/-- The row of a payment after it was refunded. -/
def PaymentRow.refunded (row : PaymentRow) (amountCents : Int) : PaymentRow :=
  { row with
    status := str PaymentStatus.refunded
    refundedCents := row.refundedCents + amountCents
    version := row.version + 1 }

@[simp] theorem PaymentRow.refunded_paymentId (row : PaymentRow) (amountCents : Int) :
    (row.refunded amountCents).paymentId = row.paymentId := rfl

namespace Database

/-- The row a version-guarded `UPDATE orders` selects. -/
def orderGuard (orderId : String) (expectedVersion : Int) (row : OrderRow) : Bool :=
  row.orderId = orderId && row.version = expectedVersion

/-- The row a version-guarded `UPDATE payments` selects. -/
def paymentGuard (paymentId : String) (expectedVersion : Int) (row : PaymentRow) : Bool :=
  row.paymentId = paymentId && row.version = expectedVersion

/-- The two updates of a cancellation. -/
def cancelRows (db : Database) (orderId : String) (expectedVersion : Int) : Database :=
  let orders := db.orders.update (orderGuard orderId expectedVersion) OrderRow.cancelled
    OrderRow.cancelled_orderId
  let shipments := db.shipments.update
    (fun row => row.orderId = orderId && row.status ∈ cancellableShipmentStatuses)
    ShipmentRow.cancelled ShipmentRow.cancelled_shipmentId
  { db with orders, shipments }

/-- The update of a refund. -/
def refundPayment (db : Database) (paymentId : String) (expectedVersion amountCents : Int) :
    Database :=
  let payments := db.payments.update (paymentGuard paymentId expectedVersion)
    (PaymentRow.refunded · amountCents) fun row => row.refunded_paymentId amountCents
  { db with payments }

end Database

/-- `cancel_order`: the order's version is the guard, the shipments follow. -/
def cancelOrder (auth : Option WriteAuthorization) (orderId : String) (expectedVersion : Int)
    (now : Instant) (db : Database) : Except PyError (WriteOutcome × Database) := do
  let authorized ← require auth .cancelOrder orderId
  -- the only version compared is the order's
  if db.orders.rowcount (Database.orderGuard orderId expectedVersion) ≠ 1 then
    throw (.staleResource orderId expectedVersion)
  else
    let db := db.cancelRows orderId expectedVersion
    return (⟨.cancelOrder, orderId, 0, orderId⟩,
      db.logMutation ⟨authorized.runId, .cancelOrder, orderId, 0, toIso now⟩)

/-- `issue_refund`: the amount is checked against the permit, the payment's version is the guard. -/
def issueRefund (auth : Option WriteAuthorization) (paymentId orderId : String)
    (amountCents expectedVersion : Int) (now : Instant) (db : Database) :
    Except PyError (WriteOutcome × Database) := do
  let authorized ← require auth .issueRefund paymentId
  if authorized.maxAmountCents < amountCents then
    throw (.permitRequired (toString amountCents ++ " exceeds the authorized " ++
      toString authorized.maxAmountCents))
  else if db.payments.rowcount (Database.paymentGuard paymentId expectedVersion) ≠ 1 then
    throw (.staleResource paymentId expectedVersion)
  else
    let db := db.refundPayment paymentId expectedVersion amountCents
    -- so a permit has one refund row at most
    let refundId := "ref_" ++ authorized.permitId
    let db ← db.insertRefund ⟨refundId, paymentId, orderId, amountCents, toIso now,
      authorized.runId, authorized.permitId⟩
    return (⟨.issueRefund, paymentId, amountCents, refundId⟩,
      db.logMutation ⟨authorized.runId, .issueRefund, paymentId, amountCents, toIso now⟩)

/-- `text[:200]`. -/
def clip200 (text : String) : String := String.ofList (text.toList.take 200)

/-- `create_support_ticket`: no version is compared. -/
def createSupportTicket (auth : Option WriteAuthorization) (orderId reasonCode summary : String)
    (now : Instant) (db : Database) : Except PyError (WriteOutcome × Database) := do
  let authorized ← require auth .createSupportTicket orderId
  let ticketId := "tkt_" ++ authorized.permitId
  let db ← db.insertTicket ⟨ticketId, orderId, reasonCode, clip200 summary, toIso now,
    authorized.runId⟩
  return (⟨.createSupportTicket, orderId, 0, ticketId⟩,
    db.logMutation ⟨authorized.runId, .createSupportTicket, orderId, 0, toIso now⟩)

/-! ## What the tools raise -/

section Raises

variable {auth : Option WriteAuthorization} {orderId paymentId reasonCode summary : String}
variable {amount version : Int} {now : Instant} {db : Database} {err : PyError}

/-- Why a cancel is refused. -/
theorem cancelOrder_eq_error (h : cancelOrder auth orderId version now db = .error err) :
    (∃ message, err = .permitRequired message) ∨
      (err = .staleResource orderId version ∧
        db.orders.rowcount (Database.orderGuard orderId version) ≠ 1) := by
  cases hrequire : require auth .cancelOrder orderId with
  | error err' =>
      simp only [cancelOrder, hrequire, bind, Except.bind, Except.error.injEq] at h
      exact Or.inl (require_raises (h ▸ hrequire))
  | ok authorized =>
      simp only [cancelOrder, hrequire, bind, Except.bind] at h
      split_ifs at h with hcount
      · cases h
        exact Or.inr ⟨rfl, hcount⟩
      · cases h

/-- Why a refund is refused. -/
theorem issueRefund_eq_error
    (h : issueRefund auth paymentId orderId amount version now db = .error err) :
    (∃ message, err = .permitRequired message) ∨ (∃ message, err = .integrityError message) ∨
      (err = .staleResource paymentId version ∧
        db.payments.rowcount (Database.paymentGuard paymentId version) ≠ 1) := by
  cases hrequire : require auth .issueRefund paymentId with
  | error err' =>
      simp only [issueRefund, hrequire, bind, Except.bind, Except.error.injEq] at h
      exact Or.inl (require_raises (h ▸ hrequire))
  | ok authorized =>
      simp only [issueRefund, hrequire, bind, Except.bind] at h
      split_ifs at h with hamount hcount
      · cases h
        exact Or.inl ⟨_, rfl⟩
      · cases h
        exact Or.inr (Or.inr ⟨rfl, hcount⟩)
      · split at h
        · rename_i hinsert
          cases h
          exact Or.inr (Or.inl (Database.insertRefund_raises hinsert))
        · cases h

/-- Why a ticket is refused. -/
theorem createSupportTicket_eq_error
    (h : createSupportTicket auth orderId reasonCode summary now db = .error err) :
    (∃ message, err = .permitRequired message) ∨ ∃ message, err = .integrityError message := by
  cases hrequire : require auth .createSupportTicket orderId with
  | error err' =>
      simp only [createSupportTicket, hrequire, bind, Except.bind, Except.error.injEq] at h
      exact Or.inl (require_raises (h ▸ hrequire))
  | ok authorized =>
      simp only [createSupportTicket, hrequire, bind, Except.bind] at h
      split at h
      · rename_i hinsert
        cases h
        exact Or.inr (Database.insertTicket_raises hinsert)
      · cases h

end Raises

end BoundedRefund
