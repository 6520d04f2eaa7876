import BoundedRefund.Database
import Mathlib.Data.List.Sort
import Mathlib.Logic.Function.Basic

/-!
# Failure injection

The three failures of the simulator.  Every decision is a bounded counter: the
injector holds how often each failure fired, keyed by tool or by action, and asks
the specification for the budget.

An `Edit` assigns a column a value of the type the schema declares for it; the
text of a status column is arbitrary.  A dictionary is a list of pairs, read at
the first pair with the key.
-/

namespace BoundedRefund

open Relational

/-- One entry of `set_values`. -/
inductive Edit
  | status (text : String)
  | deliveredAt (text : Option IsoText)
  | totalCents (n : Int)
  | capturedCents (n : Int)
  | refundedCents (n : Int)
  | carrier (text : String)
  | unknown (column : String)
deriving DecidableEq, Repr

/-- The column an edit is about. -/
def Edit.column : Edit → String
  | .status _ => "status"
  | .deliveredAt _ => "delivered_at"
  | .totalCents _ => "total_cents"
  | .capturedCents _ => "captured_cents"
  | .refundedCents _ => "refunded_cents"
  | .carrier _ => "carrier"
  | .unknown column => column

/-- The resources with a table behind them. -/
inductive Resource
  | order | payment | shipment
deriving DecidableEq, Repr

/-- The key of `_RESOURCE_TABLES` a text is. -/
def Resource.ofString? (text : String) : Option Resource :=
  if text = "order" then some .order
  else if text = "payment" then some .payment
  else if text = "shipment" then some .shipment
  else none

/-- `_EDITABLE_COLUMNS`. -/
def Resource.editableColumns : Resource → List String
  | .order => ["status", "delivered_at", "total_cents"]
  | .payment => ["status", "captured_cents", "refunded_cents"]
  | .shipment => ["status", "carrier"]

/-- One edit of a row of `orders`. -/
def OrderRow.edit (row : OrderRow) : Edit → OrderRow
  | .status text => { row with status := text }
  | .deliveredAt text => { row with deliveredAt := text }
  | .totalCents n => { row with totalCents := n }
  | _ => row

/-- One edit of a row of `payments`. -/
def PaymentRow.edit (row : PaymentRow) : Edit → PaymentRow
  | .status text => { row with status := text }
  | .capturedCents n => { row with capturedCents := n }
  | .refundedCents n => { row with refundedCents := n }
  | _ => row

/-- One edit of a row of `shipments`. -/
def ShipmentRow.edit (row : ShipmentRow) : Edit → ShipmentRow
  | .status text => { row with status := text }
  | .carrier text => { row with carrier := text }
  | _ => row

/-- One declarative edit made behind the agent's back. -/
structure StateChange where
  resource : String
  resourceId : String
  setValues : List Edit := []
  bumpVersion : Bool := true
deriving DecidableEq, Repr

namespace StateChange

/-- By how much the version of the row grows. -/
def bump (c : StateChange) : Int := if c.bumpVersion then 1 else 0

/-- A change on a row of `orders`: its edits, and the version bumped where the change asks for it.
-/
def editOrder (c : StateChange) (row : OrderRow) : OrderRow :=
  let edited := c.setValues.foldl OrderRow.edit row
  { edited with version := edited.version + c.bump }

/-- A change on a row of `payments`. -/
def editPayment (c : StateChange) (row : PaymentRow) : PaymentRow :=
  let edited := c.setValues.foldl PaymentRow.edit row
  { edited with version := edited.version + c.bump }

/-- A change on a row of `shipments`. -/
def editShipment (c : StateChange) (row : ShipmentRow) : ShipmentRow :=
  let edited := c.setValues.foldl ShipmentRow.edit row
  { edited with version := edited.version + c.bump }

/-- Edits keep everything an edit cannot name. -/
theorem editOrder_kept (c : StateChange) (row : OrderRow) :
    (c.editOrder row).orderId = row.orderId ∧ (c.editOrder row).policyId = row.policyId ∧
      (c.editOrder row).version = row.version + c.bump := by
  obtain ⟨h₁, h₂, h₃⟩ := List.foldlRecOn c.setValues OrderRow.edit
    (motive := fun edited => edited.orderId = row.orderId ∧ edited.policyId = row.policyId ∧
      edited.version = row.version)
    ⟨rfl, rfl, rfl⟩ fun edited h edit _ => by cases edit <;> exact h
  exact ⟨h₁, h₂, by simp [editOrder, h₃]⟩

/-- A change keeps the keys of a payment, and bumps its version or leaves it. -/
theorem editPayment_kept (c : StateChange) (row : PaymentRow) :
    (c.editPayment row).paymentId = row.paymentId ∧
      (c.editPayment row).orderId = row.orderId ∧
      (c.editPayment row).version = row.version + c.bump := by
  obtain ⟨h₁, h₂, h₃⟩ := List.foldlRecOn c.setValues PaymentRow.edit
    (motive := fun edited => edited.paymentId = row.paymentId ∧ edited.orderId = row.orderId ∧
      edited.version = row.version)
    ⟨rfl, rfl, rfl⟩ fun edited h edit _ => by cases edit <;> exact h
  exact ⟨h₁, h₂, by simp [editPayment, h₃]⟩

/-- So it does with a shipment. -/
theorem editShipment_kept (c : StateChange) (row : ShipmentRow) :
    (c.editShipment row).shipmentId = row.shipmentId ∧
      (c.editShipment row).orderId = row.orderId ∧
      (c.editShipment row).version = row.version + c.bump := by
  obtain ⟨h₁, h₂, h₃⟩ := List.foldlRecOn c.setValues ShipmentRow.edit
    (motive := fun edited => edited.shipmentId = row.shipmentId ∧ edited.orderId = row.orderId ∧
      edited.version = row.version)
    ⟨rfl, rfl, rfl⟩ fun edited h edit _ => by cases edit <;> exact h
  exact ⟨h₁, h₂, by simp [editShipment, h₃]⟩

/-- The single statement a change of this resource issues. -/
def applyTo (c : StateChange) (db : Database) : Resource → Database
  | .order =>
      let orders := db.orders.update (fun row => row.orderId = c.resourceId) c.editOrder
        fun row => (c.editOrder_kept row).1
      { db with orders }
  | .payment =>
      let payments := db.payments.update (fun row => row.paymentId = c.resourceId)
        c.editPayment fun row => (c.editPayment_kept row).1
      { db with payments }
  | .shipment =>
      let shipments := db.shipments.update (fun row => row.shipmentId = c.resourceId)
        c.editShipment fun row => (c.editShipment_kept row).1
      { db with shipments }

/-- The columns of a change its resource does not let be edited. -/
def unknownColumns (c : StateChange) (resource : Resource) : List String :=
  ((c.setValues.map Edit.column).filter (· ∉ resource.editableColumns)).insertionSort (· ≤ ·)

/-- `_apply`: an unknown resource or column raises, and a change that sets nothing does nothing. -/
def apply (c : StateChange) (db : Database) : Except PyError Database :=
  match Resource.ofString? c.resource with
  | none => .error (.valueError ("unknown resource " ++ pyRepr c.resource))
  | some resource =>
      if c.unknownColumns resource ≠ [] then
        .error (.valueError ("cannot change [" ++
          ", ".intercalate ((c.unknownColumns resource).map pyRepr) ++ "] on " ++ c.resource))
      else if c.setValues = [] ∧ c.bumpVersion = false then .ok db
      else .ok (c.applyTo db resource)

/-- A change that goes through is one statement on one table, or none at all. -/
theorem apply_eq_ok {c : StateChange} {db db' : Database} (h : c.apply db = .ok db') :
    (c.setValues = [] ∧ c.bumpVersion = false ∧ db' = db) ∨
      ∃ resource, Resource.ofString? c.resource = some resource ∧
        ¬(c.setValues = [] ∧ c.bumpVersion = false) ∧ db' = c.applyTo db resource := by
  unfold apply at h
  split at h
  · cases h
  · rename_i resource hr
    split_ifs at h with hcolumns hquiet
    · cases h
      exact Or.inl ⟨hquiet.1, hquiet.2, rfl⟩
    · cases h
      exact Or.inr ⟨resource, hr, hquiet, rfl⟩

end StateChange

/-- What a scenario asks to go wrong. -/
structure FailureSpec where
  readTimeouts : List (String × Int) := []
  preCommitChanges : List (String × List StateChange) := []
  preCommitTimes : List (String × Int) := []
  postCommitTimeoutActions : List (String × Int) := []
deriving DecidableEq, Repr

/-- The scenario asks for this change. -/
def FailureSpec.Asks (spec : FailureSpec) (change : StateChange) : Prop :=
  ∃ entry ∈ spec.preCommitChanges, change ∈ entry.2

/-- Stateful but fully deterministic. -/
structure FailureInjector where
  spec : FailureSpec
  readCalls : String → Nat := fun _ => 0
  preCommitFired : String → Nat := fun _ => 0
  postCommitFired : String → Nat := fun _ => 0

namespace FailureInjector

/-- `counter[key] = counter[key] + 1`. -/
def count (counter : String → Nat) (key : String) : String → Nat :=
  Function.update counter key (counter key + 1)

/-- Whether this read fails, and the injector afterwards. -/
def readShouldFail (inj : FailureInjector) (tool : String) : Bool × FailureInjector :=
  let budget := (inj.spec.readTimeouts.lookup tool).getD 0
  -- the call is counted whether it fails or not
  (inj.readCalls tool < budget, { inj with readCalls := count inj.readCalls tool })

/-- The changes to make before this commit, and the injector afterwards. -/
def preCommit (inj : FailureInjector) (action : String) : List StateChange × FailureInjector :=
  let changes := (inj.spec.preCommitChanges.lookup action).getD []
  -- once, where the spec does not say how often
  let budget := (inj.spec.preCommitTimes.lookup action).getD 1
  if changes = [] then ([], inj)
  else if budget ≤ inj.preCommitFired action then ([], inj)
  else (changes, { inj with preCommitFired := count inj.preCommitFired action })

/-- Whether a post-commit timeout is left for the action. -/
def timeoutLeft (inj : FailureInjector) (action : String) : Bool :=
  inj.postCommitFired action < (inj.spec.postCommitTimeoutActions.lookup action).getD 0

/-- Whether the response to this commit is lost, and the injector afterwards. -/
def shouldTimeoutAfterCommit (inj : FailureInjector) (action : String) :
    Bool × FailureInjector :=
  if inj.timeoutLeft action then
    (true, { inj with postCommitFired := count inj.postCommitFired action })
  else (false, inj)

end FailureInjector

end BoundedRefund
