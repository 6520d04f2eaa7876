import BoundedRefund.Guard
import BoundedRefund.Stages

/-!
# What is left alone

An undisturbed execution makes the changes its injector asks for, and possibly one
write behind them.  Rows of the order of that write aside, whatever is different
afterwards is the doing of those changes (`Untouched`).  They reach no permit, no record
and no log row (`Injected`).
-/

namespace BoundedRefund

open Concurrent Relational

/-! ## Rows under changes -/

/-- The change as it is seen from a row of the orders. -/
def StateChange.onOrder (row : OrderRow) (c : StateChange) : OrderRow :=
  if Resource.ofString? c.resource = some .order ∧ row.orderId = c.resourceId then
    c.editOrder row
  else row

/-- What a change makes of one row of `payments`. -/
def StateChange.onPayment (row : PaymentRow) (c : StateChange) : PaymentRow :=
  if Resource.ofString? c.resource = some .payment ∧ row.paymentId = c.resourceId then
    c.editPayment row
  else row

/-- What a change makes of one row of `shipments`. -/
def StateChange.onShipment (row : ShipmentRow) (c : StateChange) : ShipmentRow :=
  if Resource.ofString? c.resource = some .shipment ∧ row.shipmentId = c.resourceId then
    c.editShipment row
  else row

/-- Changes leave the key of an order. -/
theorem foldl_onOrder_kept (changes : List StateChange) (row : OrderRow) :
    (changes.foldl StateChange.onOrder row).orderId = row.orderId := by
  induction changes generalizing row with
  | nil => rfl
  | cons c changes ih =>
      rw [List.foldl_cons, ih]
      unfold StateChange.onOrder
      split_ifs
      · exact (c.editOrder_kept row).1
      · rfl

/-- They leave the keys of a payment. -/
theorem foldl_onPayment_kept (changes : List StateChange) (row : PaymentRow) :
    (changes.foldl StateChange.onPayment row).paymentId = row.paymentId ∧
      (changes.foldl StateChange.onPayment row).orderId = row.orderId := by
  induction changes generalizing row with
  | nil => exact ⟨rfl, rfl⟩
  | cons c changes ih =>
      obtain ⟨hid, horder⟩ := ih (StateChange.onPayment row c)
      rw [List.foldl_cons, hid, horder]
      unfold StateChange.onPayment
      split_ifs
      · exact ⟨(c.editPayment_kept row).1, (c.editPayment_kept row).2.1⟩
      · exact ⟨rfl, rfl⟩

/-- They leave the keys of a shipment. -/
theorem foldl_onShipment_kept (changes : List StateChange) (row : ShipmentRow) :
    (changes.foldl StateChange.onShipment row).shipmentId = row.shipmentId ∧
      (changes.foldl StateChange.onShipment row).orderId = row.orderId := by
  induction changes generalizing row with
  | nil => exact ⟨rfl, rfl⟩
  | cons c changes ih =>
      obtain ⟨hid, horder⟩ := ih (StateChange.onShipment row c)
      rw [List.foldl_cons, hid, horder]
      unfold StateChange.onShipment
      split_ifs
      · exact ⟨(c.editShipment_kept row).1, (c.editShipment_kept row).2.1⟩
      · exact ⟨rfl, rfl⟩

/-! ## Untouched rows -/

/-- Rows of the orders in `S` aside, nothing but the injected changes was made. -/
structure Untouched (S : String → Prop) (changes : List StateChange) (db db' : Database) :
    Prop where
  orders : ∀ id row, db.orders.find? id = some row → ¬ S row.orderId →
    db'.orders.find? id = some (changes.foldl StateChange.onOrder row)
  payments : ∀ id row, db.payments.find? id = some row → ¬ S row.orderId →
    db'.payments.find? id = some (changes.foldl StateChange.onPayment row)
  shipments : ∀ id row, db.shipments.find? id = some row → ¬ S row.orderId →
    db'.shipments.find? id = some (changes.foldl StateChange.onShipment row)

namespace Untouched

variable {S S' : String → Prop} {changes changes' : List StateChange} {db db' db'' : Database}

/-- Where no row changed nothing was touched. -/
theorem of_eq (horders : db'.orders = db.orders) (hpayments : db'.payments = db.payments)
    (hshipments : db'.shipments = db.shipments) : Untouched S [] db db' where
  orders _ _ h _ := horders ▸ h
  payments _ _ h _ := hpayments ▸ h
  shipments _ _ h _ := hshipments ▸ h

theorem refl (db : Database) : Untouched S [] db db := of_eq rfl rfl rfl

theorem mono (h : Untouched S changes db db') (hS : ∀ id, S id → S' id) :
    Untouched S' changes db db' where
  orders id row hrow hnot := h.orders id row hrow fun hs => hnot (hS _ hs)
  payments id row hrow hnot := h.payments id row hrow fun hs => hnot (hS _ hs)
  shipments id row hrow hnot := h.shipments id row hrow fun hs => hnot (hS _ hs)

theorem trans (h : Untouched S changes db db') (h' : Untouched S changes' db' db'') :
    Untouched S (changes ++ changes') db db'' where
  orders id row hrow hnot := by
    rw [List.foldl_append]
    refine h'.orders id _ (h.orders id row hrow hnot) ?_
    rwa [foldl_onOrder_kept]
  payments id row hrow hnot := by
    rw [List.foldl_append]
    refine h'.payments id _ (h.payments id row hrow hnot) ?_
    rwa [(foldl_onPayment_kept changes row).2]
  shipments id row hrow hnot := by
    rw [List.foldl_append]
    refine h'.shipments id _ (h.shipments id row hrow hnot) ?_
    rwa [(foldl_onShipment_kept changes row).2]

/-- An injected change is seen by its row. -/
theorem apply {c : StateChange} (h : c.apply db = .ok db') : Untouched S [c] db db' := by
  rcases StateChange.apply_eq_ok h with ⟨hvalues, hbump, rfl⟩ | ⟨resource, hres, -, rfl⟩
  · have horder : ∀ row : OrderRow, c.editOrder row = row := by
      simp [StateChange.editOrder, StateChange.bump, hvalues, hbump]
    have hpayment : ∀ row : PaymentRow, c.editPayment row = row := by
      simp [StateChange.editPayment, StateChange.bump, hvalues, hbump]
    have hshipment : ∀ row : ShipmentRow, c.editShipment row = row := by
      simp [StateChange.editShipment, StateChange.bump, hvalues, hbump]
    constructor
    · intro id row hrow _
      simp [StateChange.onOrder, horder, hrow]
    · intro id row hrow _
      simp [StateChange.onPayment, hpayment, hrow]
    · intro id row hrow _
      simp [StateChange.onShipment, hshipment, hrow]
  · constructor
    · intro id row hrow _
      cases resource <;> simp [StateChange.applyTo, StateChange.onOrder, hres, hrow]
    · intro id row hrow _
      cases resource <;> simp [StateChange.applyTo, StateChange.onPayment, hres, hrow]
    · intro id row hrow _
      cases resource <;> simp [StateChange.applyTo, StateChange.onShipment, hres, hrow]

/-- A commit touches rows of its order only. -/
theorem commits {x : Execution} (hx : x.Commits db db')
    (hpayment : x.proposal.action = .issueRefund → ∀ row,
      db.payments.find? x.permit.resourceId = some row → row.orderId = x.proposal.orderId) :
    Untouched (· = x.proposal.orderId) [] db db' where
  orders id row hrow hnot := by
    have hid : row.orderId = id := (Table.find?_eq_some.mp hrow).2
    rcases hx.orders with ⟨ha, horders, -⟩ | ⟨-, horders, -⟩
    · have hne : row.orderId ≠ x.permit.resourceId := by
        rw [hx.target (by simp [ha])]
        exact hnot
      simp [horders, Database.cancelRows, Database.orderGuard, hrow, hne]
    · rw [horders]
      exact hrow
  payments id row hrow hnot := by
    rcases hx.payments with ⟨ha, hpayments⟩ | ⟨-, hpayments⟩
    · have hne : row.paymentId ≠ x.permit.resourceId := by
        intro heq
        have hid : row.paymentId = id := (Table.find?_eq_some.mp hrow).2
        exact hnot (hpayment ha row (heq ▸ hid ▸ hrow))
      simp [hpayments, Database.refundPayment, Database.paymentGuard, hrow, hne]
    · rw [hpayments]
      exact hrow
  shipments id row hrow hnot := by
    rcases hx.orders with ⟨ha, -, hshipments⟩ | ⟨-, -, hshipments⟩
    · have hne : row.orderId ≠ x.permit.resourceId := by
        rw [hx.target (by simp [ha])]
        exact hnot
      simp [hshipments, Database.cancelRows, hrow, hne]
    · rw [hshipments]
      exact hrow

end Untouched

/-! ## Injected changes -/

/-- Some of the changes that are due were made, and nothing else. -/
structure Injected (due : List StateChange) (db db' : Database) : Prop where
  changes : ∃ changes, (∀ c ∈ changes, c ∈ due) ∧
    Untouched (fun _ => False) changes db db'
  aging : Aging db db'
  refundPolicies : db'.refundPolicies = db.refundPolicies
  supportTickets : db'.supportTickets = db.supportTickets
  refunds : db'.refunds = db.refunds
  executionPermits : db'.executionPermits = db.executionPermits
  executionRecords : db'.executionRecords = db.executionRecords
  mutationLog : db'.mutationLog = db.mutationLog

namespace Injected

variable {due : List StateChange} {db db' db'' : Database}

theorem refl (due : List StateChange) (db : Database) : Injected due db db :=
  ⟨⟨[], by simp, Untouched.refl db⟩, Aging.refl db, rfl, rfl, rfl, rfl, rfl, rfl⟩

theorem trans (h : Injected due db db') (h' : Injected due db' db'') :
    Injected due db db'' := by
  obtain ⟨changes, hdue, huntouched⟩ := h.changes
  obtain ⟨changes', hdue', huntouched'⟩ := h'.changes
  refine ⟨⟨changes ++ changes', fun c hc => ?_, huntouched.trans huntouched'⟩,
    h.aging.trans h'.aging, h'.refundPolicies.trans h.refundPolicies,
    h'.supportTickets.trans h.supportTickets, h'.refunds.trans h.refunds,
    h'.executionPermits.trans h.executionPermits, h'.executionRecords.trans h.executionRecords,
    h'.mutationLog.trans h.mutationLog⟩
  exact (List.mem_append.mp hc).elim (hdue c) (hdue' c)

/-- A change that is due touches its own row. -/
theorem apply {c : StateChange} (hc : c ∈ due) (h : c.apply db = .ok db') :
    Injected due db db' := by
  have hchanges : ∃ changes, (∀ c ∈ changes, c ∈ due) ∧
      Untouched (fun _ => False) changes db db' :=
    ⟨[c], by simpa using hc, Untouched.apply h⟩
  have haging := Aging.inject h
  rcases StateChange.apply_eq_ok h with ⟨-, -, rfl⟩ | ⟨resource, -, -, heq⟩
  · exact ⟨hchanges, haging, rfl, rfl, rfl, rfl, rfl, rfl⟩
  · subst heq
    cases resource <;> exact ⟨hchanges, haging, rfl, rfl, rfl, rfl, rfl, rfl⟩

theorem mono {due' : List StateChange} (h : Injected due db db') (hdue : ∀ c ∈ due, c ∈ due') :
    Injected due' db db' := by
  obtain ⟨changes, hall, huntouched⟩ := h.changes
  exact { h with changes := ⟨changes, fun c hc => hdue c (hall c hc), huntouched⟩ }

/-- The changes before a commit, as far as they get. -/
theorem of_injectAll {res : Except PyError Unit} (h : injectAll due db = (res, db')) :
    Injected due db db' := by
  induction due generalizing db with
  | nil =>
      cases h
      exact refl [] _
  | cons c due ih =>
      rw [injectAll] at h
      cases hap : c.apply db with
      | error err =>
          simp only [hap, Prod.mk.injEq] at h
          obtain ⟨-, rfl⟩ := h
          exact refl _ db
      | ok mid =>
          simp only [hap] at h
          exact (apply List.mem_cons_self hap).trans
            ((ih h).mono fun c hc => List.mem_cons_of_mem _ hc)

/-- Which order a payment belongs to does not change. -/
theorem payment_order (h : Injected due db db') {id : String} {row row' : PaymentRow}
    (hrow : db.payments.find? id = some row) (hrow' : db'.payments.find? id = some row') :
    row'.orderId = row.orderId := by
  obtain ⟨changes, -, huntouched⟩ := h.changes
  have hfound := huntouched.payments id row hrow (by simp)
  obtain rfl := Option.some.inj (hrow'.symm.trans hfound)
  exact (foldl_onPayment_kept changes row).2

end Injected

/-- The changes neither look at the permits nor touch them. -/
theorem injectAll_permits (due : List StateChange) (db : Database)
    (permits : Table PermitRow.permitId) :
    injectAll due { db with executionPermits := permits } =
      ((injectAll due db).1, { (injectAll due db).2 with executionPermits := permits }) := by
  induction due generalizing db with
  | nil => rfl
  | cons c due ih =>
      have hap : c.apply { db with executionPermits := permits } =
          (c.apply db).map fun db' => { db' with executionPermits := permits } := by
        unfold StateChange.apply
        cases hres : Resource.ofString? c.resource with
        | none => rfl
        | some resource =>
            dsimp only
            split_ifs
            · rfl
            · rfl
            · cases resource <;> rfl
      simp only [injectAll, hap]
      cases c.apply db with
      | error err => rfl
      | ok mid => exact ih mid

/-! ## Targets -/

/-- No order comes or goes, and the payment of an order stays its payment. -/
structure SameKeys (db db' : Database) : Prop where
  orders : ∀ id, (db'.orders.find? id).isSome = (db.orders.find? id).isSome
  payments : ∀ orderId, (db'.payments.first? fun row => row.orderId = orderId).map
    PaymentRow.paymentId = (db.payments.first? fun row => row.orderId = orderId).map
      PaymentRow.paymentId

namespace SameKeys

variable {db db' db'' : Database}

theorem of_eq (horders : db'.orders = db.orders) (hpayments : db'.payments = db.payments) :
    SameKeys db db' :=
  ⟨fun _ => by rw [horders], fun _ => by rw [hpayments]⟩

theorem refl (db : Database) : SameKeys db db := of_eq rfl rfl

theorem trans (h : SameKeys db db') (h' : SameKeys db' db'') : SameKeys db db'' :=
  ⟨fun id => (h'.orders id).trans (h.orders id),
    fun orderId => (h'.payments orderId).trans (h.payments orderId)⟩

theorem apply {c : StateChange} (h : c.apply db = .ok db') : SameKeys db db' := by
  rcases StateChange.apply_eq_ok h with ⟨-, -, rfl⟩ | ⟨resource, -, -, rfl⟩
  · exact refl _
  · cases resource with
    | order => exact ⟨fun id => by simp [StateChange.applyTo], fun _ => rfl⟩
    | payment =>
        refine ⟨fun _ => rfl, fun orderId => Table.first?_update
          (fun row => (c.editPayment_kept row).1) fun row => ?_⟩
        simp only [(c.editPayment_kept row).2.1]
    | shipment => exact ⟨fun _ => rfl, fun _ => rfl⟩

/-- Injected changes leave the keys. -/
theorem of_injectAll {due : List StateChange} {res : Except PyError Unit}
    (h : injectAll due db = (res, db')) : SameKeys db db' := by
  induction due generalizing db with
  | nil =>
      cases h
      exact refl _
  | cons c due ih =>
      rw [injectAll] at h
      cases hap : c.apply db with
      | error err =>
          simp only [hap, Prod.mk.injEq] at h
          obtain ⟨-, rfl⟩ := h
          exact refl db
      | ok mid =>
          simp only [hap] at h
          exact (apply hap).trans (ih h)

/-- So does an execution. -/
theorem commits {x : Execution} (hx : x.Commits db db') : SameKeys db db' where
  orders id := by
    rcases hx.orders with ⟨-, horders, -⟩ | ⟨-, horders, -⟩
    · simp [horders, Database.cancelRows]
    · rw [horders]
  payments orderId := by
    rcases hx.payments with ⟨-, hpayments⟩ | ⟨-, hpayments⟩
    · rw [hpayments, Database.refundPayment]
      exact Table.first?_update (fun row => row.refunded_paymentId x.amount) fun _ => rfl
    · rw [hpayments]

/-- An order that was there is there. -/
theorem fetchOrder (h : SameKeys db db') {orderId : String} {o : Order} {found : Option Order}
    (hfetch : db.fetchOrder orderId = .ok (some o))
    (hfetch' : db'.fetchOrder orderId = .ok found) :
    ∃ o', found = some o' ∧ o'.orderId = o.orderId := by
  cases found with
  | none =>
      have hsome := h.orders orderId
      rw [Database.fetchOrder_eq_some.mp hfetch, Database.fetchOrder_eq_none.mp hfetch'] at hsome
      cases hsome
  | some o' =>
      exact ⟨o', rfl, (Database.fetchOrder_orderId hfetch').trans
        (Database.fetchOrder_orderId hfetch).symm⟩

/-- The payment of an order is the one it was. -/
theorem fetchPayment (h : SameKeys db db') {orderId : String} {p : Payment}
    {found : Option Payment} (hfetch : db.fetchPaymentForOrder orderId = .ok (some p))
    (hfetch' : db'.fetchPaymentForOrder orderId = .ok found) :
    ∃ p', found = some p' ∧ p'.paymentId = p.paymentId := by
  have hkeys := h.payments orderId
  obtain ⟨row, hrow, hp⟩ := Database.readRow_eq_some hfetch
  rw [hrow, rowToPayment_eq_ok.mp hp] at hkeys
  cases found with
  | none =>
      rw [Database.readRow_eq_none hfetch'] at hkeys
      cases hkeys
  | some p' =>
      obtain ⟨row', hrow', hp'⟩ := Database.readRow_eq_some hfetch'
      rw [hrow', rowToPayment_eq_ok.mp hp'] at hkeys
      exact ⟨p', rfl, Option.some.inj hkeys⟩

/-- A proposal that can still be resolved is aimed at the same row. -/
theorem resolveTarget (h : SameKeys db db') {proposal : ActionProposal} {target : Target}
    (hresolve : db.resolveTarget proposal = .ok (some target)) {found : Option Target}
    (hfound : db'.resolveTarget proposal = .ok found) :
    ∃ target', found = some target' ∧ target'.resourceId = target.resourceId := by
  have order : ∀ {o : Order}, db.fetchOrder proposal.orderId = .ok (some o) →
      (db'.fetchOrder proposal.orderId).map (fun order => order.map fun o =>
        (⟨o.orderId, o.version, str o.status⟩ : Target)) = .ok found →
      ∃ target', found = some target' ∧ target'.resourceId = o.orderId := by
    intro o hfetch hfound
    obtain ⟨order, hfetch', rfl⟩ := map_eq_ok.mp hfound
    obtain ⟨o', rfl, hid⟩ := h.fetchOrder hfetch hfetch'
    exact ⟨_, rfl, hid⟩
  obtain ⟨ha, p, hfetch, rfl⟩ | ⟨ha, o, hfetch, rfl⟩ :=
    Database.resolveTarget_eq_some.mp hresolve
  · simp only [Database.resolveTarget, ha] at hfound
    obtain ⟨payment, hfetch', rfl⟩ := map_eq_ok.mp hfound
    obtain ⟨p', rfl, hid⟩ := h.fetchPayment hfetch hfetch'
    exact ⟨_, rfl, hid⟩
  · cases hact : proposal.action with
    | issueRefund => exact absurd hact ha
    | cancelOrder =>
        simp only [Database.resolveTarget, hact] at hfound
        exact order hfetch hfound
    | createSupportTicket =>
        simp only [Database.resolveTarget, hact] at hfound
        exact order hfetch hfound

end SameKeys

/-! ## Executions -/

section Executions

variable {e : Executor} {permitId : Option String} {proposal : ActionProposal}
variable {texts : TicketTexts} {v v' : World} {res : Except PyError ExecutionResult}

/-- **What an execution does to the database**: injected changes, or a commit behind
them. -/
theorem Executed.effects (h : Executed e permitId proposal texts v v' res) :
    Injected (v.own.session.due (str proposal.action)) v.shared v'.shared ∨
      ∃ permit target now mid, v.shared.loadPermit permitId = some permit ∧
        Clear v.shared (e.clock (v.own.session.readings + v.own.session.tick)) permit proposal
          target ∧
        Injected (v.own.session.due (str proposal.action)) v.shared mid ∧
        (e.execution permit proposal texts now).Commits mid v'.shared := by
  cases h with
  | answered result shared => exact Or.inl (shared ▸ Injected.refl _ _)
  | failed err shared => exact Or.inl (shared ▸ Injected.refl _ _)
  | overtaken permit target now resourceId version loaded clear injected =>
      exact Or.inl (Injected.of_injectAll injected)
  | spoiled err permit target now r loaded clear injected =>
      exact Or.inl (Injected.of_injectAll injected)
  | committed permit target now mid r loaded clear injected commits =>
      exact Or.inr ⟨permit, target, now, mid, loaded, clear, Injected.of_injectAll injected,
        commits⟩

end Executions

/-- The payment of a cleared refund belongs to the order of the proposal. -/
theorem Clear.payment_order {db : Database} {now : Instant} {permit : ExecutionPermit}
    {proposal : ActionProposal} {target : Target} (h : Clear db now permit proposal target)
    (ha : proposal.action = .issueRefund) :
    ∃ row, db.payments.find? permit.resourceId = some row ∧ row.orderId = proposal.orderId := by
  obtain ⟨-, p, hfetch, htarget⟩ | ⟨hne, -⟩ := Database.resolveTarget_eq_some.mp h.resolved
  · obtain ⟨hfind, horder⟩ := Database.fetchPaymentForOrder_eq_some hfetch
    refine ⟨p.row, ?_, horder⟩
    rw [← h.resource, htarget]
    exact hfind
  · exact absurd ha hne

end BoundedRefund
