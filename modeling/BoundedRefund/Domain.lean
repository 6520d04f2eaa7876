import BoundedRefund.Clock
import Mathlib.Data.List.Basic

/-!
# The closed domain model

The enumerations, the transition tables and the records of the source.  The
planner cannot introduce a status or a transition: a status is a constructor, and
a text that names none of them does not parse.
-/

namespace BoundedRefund

/-- A closed enumeration of texts.  `find_value` is what makes reading a value
back from its own text unambiguous. -/
class StrEnum (α : Type) where
  className : String
  members : List α
  value : α → String
  find_value : ∀ a, members.find? (fun b => value b = value a) = some a

namespace StrEnum

variable {α : Type} [StrEnum α]

/-- `Enum(text)`. -/
def parse (text : String) : Except PyError α :=
  match (members : List α).find? (fun b => value b = text) with
  | some a => .ok a
  | none => .error (notAValid text (className α))

/-- A status is read from its own text. -/
@[simp] theorem parse_value (a : α) : parse (value a) = .ok a := by
  simp [parse, find_value]

/-- What is no member raises. -/
theorem parse_raises {text : String} {err : PyError}
    (h : (parse text : Except PyError α) = .error err) : ∃ message, err = .valueError message := by
  unfold parse at h
  split at h
  · cases h
  · cases h
    exact ⟨_, rfl⟩

/-- Only the text of a member parses to it. -/
theorem value_of_parse {text : String} {a : α} (h : parse text = .ok a) : value a = text := by
  simp only [parse] at h
  split at h
  · rename_i b hb
    cases h
    simpa using List.find?_some hb
  · cases h

/-- Members are told apart by their texts. -/
theorem value_injective : Function.Injective (value : α → String) := by
  intro a b h
  have ha := find_value a
  rw [h, find_value b] at ha
  exact (Option.some.inj ha).symm

end StrEnum

/-- Where an order is on its way. -/
inductive OrderStatus
  | paid | readyToShip | shipped | delivered | cancelled
deriving DecidableEq, Repr

instance : StrEnum OrderStatus where
  className := "OrderStatus"
  members := [.paid, .readyToShip, .shipped, .delivered, .cancelled]
  value
    | .paid => "PAID"
    | .readyToShip => "READY_TO_SHIP"
    | .shipped => "SHIPPED"
    | .delivered => "DELIVERED"
    | .cancelled => "CANCELLED"
  find_value a := by cases a <;> decide

/-- Whether a payment has been given back in full. -/
inductive PaymentStatus
  | captured | refunded
deriving DecidableEq, Repr

instance : StrEnum PaymentStatus where
  className := "PaymentStatus"
  members := [.captured, .refunded]
  value
    | .captured => "CAPTURED"
    | .refunded => "REFUNDED"
  find_value a := by cases a <;> decide

/-- Where a shipment is on its way. -/
inductive ShipmentStatus
  | preparing | readyToShip | shipped | delivered | cancelled
deriving DecidableEq, Repr

instance : StrEnum ShipmentStatus where
  className := "ShipmentStatus"
  members := [.preparing, .readyToShip, .shipped, .delivered, .cancelled]
  value
    | .preparing => "PREPARING"
    | .readyToShip => "READY_TO_SHIP"
    | .shipped => "SHIPPED"
    | .delivered => "DELIVERED"
    | .cancelled => "CANCELLED"
  find_value a := by cases a <;> decide

/-! ## Transitions -/

/-- `ORDER_TRANSITIONS`. -/
def orderTransitions : OrderStatus → List OrderStatus
  | .paid => [.readyToShip, .cancelled]
  | .readyToShip => [.shipped, .cancelled]
  | .shipped => [.delivered]
  | .delivered => []
  | .cancelled => []

/-- `PAYMENT_TRANSITIONS`. -/
def paymentTransitions : PaymentStatus → List PaymentStatus
  | .captured => [.refunded]
  | .refunded => []

/-- `order_transition_allowed`. -/
def orderTransitionAllowed (current target : OrderStatus) : Bool :=
  target ∈ orderTransitions current

/-- `payment_transition_allowed`. -/
def paymentTransitionAllowed (current target : PaymentStatus) : Bool :=
  target ∈ paymentTransitions current

/-! ## Records -/

/-- An order as the tools read it. -/
structure Order where
  orderId : String
  customerId : String
  policyId : String
  status : OrderStatus
  totalCents : Int
  placedAt : String
  deliveredAt : Option IsoText
  version : Int
deriving DecidableEq, Repr

/-- A payment as the tools read it. -/
structure Payment where
  paymentId : String
  orderId : String
  status : PaymentStatus
  capturedCents : Int
  refundedCents : Int
  version : Int
deriving DecidableEq, Repr

/-- A shipment as the tools read it. -/
structure Shipment where
  shipmentId : String
  orderId : String
  status : ShipmentStatus
  carrier : String
  version : Int
deriving DecidableEq, Repr

/-- A refund policy: what is refunded without a person, and for how long. -/
structure RefundPolicy where
  policyId : String
  name : String
  autoRefundLimitCents : Int
  postDeliveryWindowDays : Int
  version : Int
deriving DecidableEq, Repr

end BoundedRefund
