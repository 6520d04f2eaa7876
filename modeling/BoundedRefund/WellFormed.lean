import BoundedRefund.Kept
import BoundedRefund.Numbered
import BoundedRefund.World

/-!
# Well-formed worlds

The status columns hold statuses, the time columns hold times, and the order of a payment is
there (`Database.WellFormed`).  On such a database nothing that a run evaluates raises: no
read, no check, no rule of the policy (`WellFormed.evaluate`), and behind clearance no commit
except over a row that has moved (`Numbered.commitAll_raises`).

The changes of a scenario keep it, as long as they write such values themselves
(`FailureSpec.Valid`), and so does everything else a run does (`wellFormed_kept`).
-/

namespace BoundedRefund

open Concurrent Relational

/-! ## What well-formed means -/

/-- The text is the text of a member. -/
def Names (α : Type) [StrEnum α] (text : String) : Prop := ∃ a : α, str a = text

/-- The text reads as a time. -/
def IsoText.Valid (text : IsoText) : Prop := ∃ value, parseIso text = .ok value

/-- The status has a name, and the time of delivery can be read. -/
structure OrderRow.WellFormed (row : OrderRow) : Prop where
  status : Names OrderStatus row.status
  deliveredAt : ∀ text, row.deliveredAt = some text → text.Valid

/-- Every text that is parsed has a value, and every payment has its order. -/
structure Database.WellFormed (db : Database) : Prop where
  orders : ∀ row ∈ db.orders.rows, row.WellFormed
  payments : ∀ row ∈ db.payments.rows, Names PaymentStatus row.status
  shipments : ∀ row ∈ db.shipments.rows, Names ShipmentStatus row.status
  paid : ∀ row ∈ db.payments.rows, (db.orders.find? row.orderId).isSome
  permits : ∀ row ∈ db.executionPermits.rows, row.expiresAt.Valid

/-- The edit writes a value its column may hold. -/
def Edit.Valid : Resource → Edit → Prop
  | .order, .status text => Names OrderStatus text
  | .payment, .status text => Names PaymentStatus text
  | .shipment, .status text => Names ShipmentStatus text
  | _, .deliveredAt (some text) => text.Valid
  | _, _ => True

/-- The change writes such values, and to editable columns only. -/
def StateChange.Valid (c : StateChange) : Prop :=
  ∃ resource, Resource.ofString? c.resource = some resource ∧ c.unknownColumns resource = [] ∧
    ∀ edit ∈ c.setValues, edit.Valid resource

/-- All changes of the scenario do. -/
def FailureSpec.Valid (spec : FailureSpec) : Prop := ∀ c, spec.Asks c → c.Valid

/-- What is written as a time can be read. -/
theorem IsoText.valid_toIso (value : Instant) : (toIso value).Valid :=
  ⟨value, parseIso_toIso value⟩

/-- A text that names a status is parsed. -/
theorem Names.parse {α : Type} [StrEnum α] {text : String} (h : Names α text) :
    ∃ a : α, StrEnum.parse text = .ok a := by
  obtain ⟨a, rfl⟩ := h
  exact ⟨a, StrEnum.parse_value a⟩

/-- A status is named by its text. -/
theorem names_str {α : Type} [StrEnum α] (a : α) : Names α (str a) := ⟨a, rfl⟩

/-- The worlds of the simulator are well formed. -/
theorem seedWorld_wellFormed (orders : List (String × OrderStatus)) :
    (seedWorld orders).WellFormed where
  orders row hrow := by
    obtain ⟨o, -, rfl⟩ := List.mem_map.mp (Table.mem_of_mem_ofRows hrow)
    exact ⟨names_str o.2, fun text htext => by cases htext⟩
  payments row hrow := by
    obtain ⟨o, -, rfl⟩ := List.mem_map.mp (Table.mem_of_mem_ofRows hrow)
    exact names_str PaymentStatus.captured
  shipments row hrow := by
    obtain ⟨o, -, rfl⟩ := List.mem_map.mp (Table.mem_of_mem_ofRows hrow)
    exact names_str (orderToShipment o.2)
  paid row hrow := by
    obtain ⟨o, ho, rfl⟩ := List.mem_map.mp (Table.mem_of_mem_ofRows hrow)
    have hmem : seedOrder o.1 o.2 ∈ orders.map fun o => seedOrder o.1 o.2 :=
      List.mem_map.mpr ⟨o, ho, rfl⟩
    exact Table.find?_ofRows_isSome hmem
  permits row hrow := by cases hrow

/-! ## Reads -/

/-- A row that can be converted is read. -/
theorem readRow_ok {ρ α : Type} {convert : ρ → Except PyError α} {row : Option ρ}
    (h : ∀ r, row = some r → ∃ a, convert r = .ok a) :
    ∃ found, Database.readRow convert row = .ok found := by
  cases row with
  | none => exact ⟨none, rfl⟩
  | some r =>
      obtain ⟨a, ha⟩ := h r rfl
      exact ⟨some a, by rw [Database.readRow, ha]; rfl⟩

namespace Database.WellFormed

variable {db : Database}

/-- Every order can be read. -/
theorem fetchOrder (h : db.WellFormed) (orderId : String) :
    ∃ found, db.fetchOrder orderId = .ok found := by
  refine readRow_ok fun row hrow => ?_
  obtain ⟨status, hstatus⟩ := (h.orders row (Table.find?_eq_some.mp hrow).1).status.parse
  exact ⟨_, by rw [rowToOrder, hstatus]; rfl⟩

/-- So can every payment. -/
theorem fetchPayment (h : db.WellFormed) (orderId : String) :
    ∃ found, db.fetchPaymentForOrder orderId = .ok found := by
  refine readRow_ok fun row hrow => ?_
  obtain ⟨status, hstatus⟩ := (h.payments row (Table.first?_eq_some hrow).1).parse
  exact ⟨_, by rw [rowToPayment, hstatus]; rfl⟩

/-- So can every shipment. -/
theorem fetchShipment (h : db.WellFormed) (orderId : String) :
    ∃ found, db.fetchShipmentForOrder orderId = .ok found := by
  refine readRow_ok fun row hrow => ?_
  obtain ⟨status, hstatus⟩ := (h.shipments row (Table.first?_eq_some hrow).1).parse
  exact ⟨_, by rw [rowToShipment, hstatus]; rfl⟩

/-- Every record can be read. -/
theorem readable (h : db.WellFormed) (orderId : String) (err : PyError) :
    ¬ Unreadable db orderId err := by
  obtain ⟨order, horder⟩ := h.fetchOrder orderId
  obtain ⟨payment, hpayment⟩ := h.fetchPayment orderId
  obtain ⟨shipment, hshipment⟩ := h.fetchShipment orderId
  rintro (hraise | hraise | hraise)
  · cases horder.symm.trans hraise
  · cases hpayment.symm.trans hraise
  · cases hshipment.symm.trans hraise

end Database.WellFormed

/-! ## Checks -/

/-- A target carries the text of a status. -/
theorem transitionAllowed_ok {db : Database} {proposal : ActionProposal} {target : Target}
    (h : db.resolveTarget proposal = .ok (some target)) :
    ∃ allowed, transitionAllowed proposal target = .ok allowed := by
  unfold transitionAllowed
  obtain ⟨ha, p, -, rfl⟩ | ⟨ha, o, -, rfl⟩ := Database.resolveTarget_eq_some.mp h
  · simp [ha, Except.map]
  · cases hact : proposal.action with
    | cancelOrder => simp [Except.map]
    | issueRefund => exact absurd hact ha
    | createSupportTicket => exact ⟨true, rfl⟩

/-- The late checks do not raise on a target. -/
theorem lateChecks_ok {db : Database} {proposal : ActionProposal} {target : Target}
    (h : db.resolveTarget proposal = .ok (some target)) (permit : ExecutionPermit)
    (stored : Option ExecutionResult) :
    ∃ answer, Executor.lateChecks permit proposal target stored = .ok answer := by
  obtain ⟨allowed, hallowed⟩ := transitionAllowed_ok h
  unfold Executor.lateChecks
  split_ifs
  · exact ⟨_, rfl⟩
  · exact ⟨_, rfl⟩
  · exact ⟨_, rfl⟩
  · cases stored with
    | some result => exact ⟨_, rfl⟩
    | none => exact ⟨_, by rw [hallowed]; rfl⟩

namespace Database.WellFormed

variable {db : Database}

/-- Every target can be resolved. -/
theorem resolveTarget (h : db.WellFormed) (proposal : ActionProposal) :
    ∃ found, db.resolveTarget proposal = .ok found := by
  obtain ⟨order, horder⟩ := h.fetchOrder proposal.orderId
  obtain ⟨payment, hpayment⟩ := h.fetchPayment proposal.orderId
  unfold Database.resolveTarget
  rw [horder, hpayment]
  cases proposal.action <;> exact ⟨_, rfl⟩

/-- The checks answer. -/
theorem assess (h : db.WellFormed) (now : Instant) (permitId : Option String)
    (proposal : ActionProposal) :
    ∃ answer, db.assess now (db.loadPermit permitId) proposal = .ok answer := by
  cases hload : db.loadPermit permitId with
  | none => exact ⟨_, rfl⟩
  | some permit =>
      obtain ⟨-, -, row, hrow, rfl⟩ := Database.loadPermit_eq_some hload
      obtain ⟨expiresAt, hexpires⟩ := h.permits row (Table.find?_eq_some.mp hrow).1
      obtain ⟨found, hfound⟩ := h.resolveTarget proposal
      have hexpires : parseIso row.permit.expiresAt = .ok expiresAt := hexpires
      simp only [Database.assess, hfound, hexpires]
      cases found with
      | none => split_ifs <;> exact ⟨_, rfl⟩
      | some target =>
          dsimp only
          split_ifs
          · exact ⟨_, rfl⟩
          · exact ⟨_, rfl⟩
          · exact ⟨_, rfl⟩
          · exact lateChecks_ok hfound _ _

end Database.WellFormed

/-! ## The policy -/

/-- The window is measured where the time of delivery can be read. -/
theorem evaluateWindow_ok {snapshot : PolicySnapshot} {order : Order} {policy : RefundPolicy}
    {allowed : PolicyResult}
    (h : ∀ text, order.deliveredAt = some text → text.Valid) :
    ∃ d, evaluateWindow snapshot order policy allowed = .ok d := by
  unfold evaluateWindow
  split
  · exact ⟨_, rfl⟩
  · rename_i text htext
    obtain ⟨value, hvalue⟩ := h text htext
    simp only [hvalue, bind, Except.bind, pure, Except.pure]
    split_ifs <;> exact ⟨_, rfl⟩

/-- **The policy decides**, whatever it was that could be read. -/
theorem Database.WellFormed.evaluate {db : Database} (h : db.WellFormed)
    {proposal : ActionProposal} {snapshot : PolicySnapshot}
    (hreads : Reads db proposal snapshot) :
    ∃ d, BoundedRefund.evaluate (some proposal) snapshot = .ok d := by
  have some_of : ∀ {α : Type} {o : Option α}, o.isNone = false → ∃ a, o = some a := by
    intro α o ho
    cases o with
    | none => cases ho
    | some a => exact ⟨a, rfl⟩
  simp only [BoundedRefund.evaluate]
  split_ifs with hmissing
  · exact ⟨_, rfl⟩
  -- nothing that is required is missing, so no `assert` of the rules fails
  have hread : ∀ {name : RecordName}, name ∈ requiredRecords proposal.action →
      snapshot.lacks name = false :=
    read_of_missingRecords (not_not.mp (not_or.mp hmissing).2)
  cases ha : proposal.action with
  | cancelOrder =>
      rw [ha] at hread
      obtain ⟨order, horder⟩ := some_of (hread (show RecordName.order ∈ _ by decide))
      obtain ⟨shipment, hshipment⟩ := some_of (hread (show RecordName.shipment ∈ _ by decide))
      simp only [evaluateCancel, horder, hshipment]
      split_ifs <;> exact ⟨_, rfl⟩
  | issueRefund =>
      rw [ha] at hread
      obtain ⟨order, horder⟩ := some_of (hread (show RecordName.order ∈ _ by decide))
      obtain ⟨payment, hpayment⟩ := some_of (hread (show RecordName.payment ∈ _ by decide))
      obtain ⟨policy, hpolicy⟩ := some_of (hread (show RecordName.refundPolicy ∈ _ by decide))
      have hrow := (Table.find?_eq_some.mp
        (Database.fetchOrder_eq_some.mp (hreads.order order horder))).1
      simp only [evaluateRefund, horder, hpayment, hpolicy]
      split_ifs
      · exact ⟨_, rfl⟩
      cases proposal.amountCents with
      | none => exact ⟨_, rfl⟩
      | some amount =>
          dsimp only
          split_ifs
          · exact ⟨_, rfl⟩
          · exact ⟨_, rfl⟩
          · exact ⟨_, rfl⟩
          · exact evaluateWindow_ok (h.orders _ hrow).deliveredAt
  | createSupportTicket =>
      rw [ha] at hread
      obtain ⟨order, horder⟩ := some_of (hread (show RecordName.order ∈ _ by decide))
      exact ⟨_, by rw [evaluateTicket, horder]⟩

/-! ## What keeps it -/

/-- A valid edit keeps an order readable. -/
theorem OrderRow.WellFormed.edit {row : OrderRow} (h : row.WellFormed) {edit : Edit}
    (hvalid : edit.Valid .order) : (row.edit edit).WellFormed := by
  cases edit with
  | status text => exact ⟨hvalid, h.deliveredAt⟩
  | deliveredAt text =>
      refine ⟨h.status, fun other hother => ?_⟩
      cases text with
      | none => cases hother
      | some text =>
          cases hother
          exact hvalid
  | _ => exact ⟨h.status, h.deliveredAt⟩

/-- So does a valid change. -/
theorem OrderRow.WellFormed.editOrder {row : OrderRow} (h : row.WellFormed) {c : StateChange}
    (hvalid : ∀ edit ∈ c.setValues, edit.Valid .order) : (c.editOrder row).WellFormed := by
  obtain ⟨hstatus, hdelivered⟩ := List.foldlRecOn c.setValues OrderRow.edit
    (motive := OrderRow.WellFormed) h fun edited hedited edit hedit =>
      hedited.edit (hvalid edit hedit)
  exact ⟨hstatus, hdelivered⟩

/-- It keeps the status of a payment named. -/
theorem Names.editPayment {row : PaymentRow} (h : Names PaymentStatus row.status)
    {c : StateChange} (hvalid : ∀ edit ∈ c.setValues, edit.Valid .payment) :
    Names PaymentStatus (c.editPayment row).status := by
  refine List.foldlRecOn c.setValues PaymentRow.edit
    (motive := fun edited => Names PaymentStatus edited.status) h
    fun edited hedited edit hedit => ?_
  cases edit with
  | status text => exact hvalid _ hedit
  | _ => exact hedited

/-- It keeps the status of a shipment named. -/
theorem Names.editShipment {row : ShipmentRow} (h : Names ShipmentStatus row.status)
    {c : StateChange} (hvalid : ∀ edit ∈ c.setValues, edit.Valid .shipment) :
    Names ShipmentStatus (c.editShipment row).status := by
  refine List.foldlRecOn c.setValues ShipmentRow.edit
    (motive := fun edited => Names ShipmentStatus edited.status) h
    fun edited hedited edit hedit => ?_
  cases edit with
  | status text => exact hvalid _ hedit
  | _ => exact hedited

/-- A valid change does not raise. -/
theorem StateChange.Valid.apply_ok {c : StateChange} (h : c.Valid) (db : Database) :
    ∃ db', c.apply db = .ok db' := by
  obtain ⟨resource, hresource, hcolumns, -⟩ := h
  simp only [StateChange.apply, hresource, hcolumns, ne_eq, not_true_eq_false, if_false]
  split_ifs <;> exact ⟨_, rfl⟩

namespace Database.WellFormed

variable {db db' : Database}

/-- It keeps the database well formed. -/
theorem apply (h : db.WellFormed) {c : StateChange} (hc : c.Valid)
    (happly : c.apply db = .ok db') : db'.WellFormed := by
  have hkeys := SameKeys.apply happly
  obtain ⟨resource, hresource, -, hvalid⟩ := hc
  rcases StateChange.apply_eq_ok happly with ⟨-, -, rfl⟩ | ⟨resource', hresource', -, rfl⟩
  · exact h
  cases hresource.symm.trans hresource'
  cases resource with
  | order =>
      exact
        { orders := Table.forall_update (fun row => (c.editOrder_kept row).1) h.orders
            fun row hrow => hrow.editOrder hvalid
          payments := h.payments
          shipments := h.shipments
          paid := fun row hrow => (hkeys.orders row.orderId).trans (h.paid row hrow)
          permits := h.permits }
  | payment =>
      exact
        { orders := h.orders
          payments := Table.forall_update (fun row => (c.editPayment_kept row).1) h.payments
            fun row hrow => hrow.editPayment hvalid
          shipments := h.shipments
          paid := Table.forall_update (fun row => (c.editPayment_kept row).1) h.paid
            fun row hrow => by rwa [(c.editPayment_kept row).2.1]
          permits := h.permits }
  | shipment =>
      exact
        { orders := h.orders
          payments := h.payments
          shipments := Table.forall_update (fun row => (c.editShipment_kept row).1) h.shipments
            fun row hrow => hrow.editShipment hvalid
          paid := h.paid
          permits := h.permits }

/-- So does a permit. -/
theorem issue (h : db.WellFormed) {row : PermitRow} (hexpires : row.expiresAt.Valid)
    (hins : db.insertPermit row = .ok db') : db'.WellFormed := by
  obtain ⟨permits, hpermits, rfl⟩ := Database.insertPermit_eq_ok.mp hins
  refine ⟨h.orders, h.payments, h.shipments, h.paid, ?_⟩
  show ∀ row ∈ permits.rows, _
  rw [(Table.insert?_eq_some.mp hpermits).2]
  intro other hother
  rcases List.mem_append.mp hother with hother | hother
  · exact h.permits other hother
  · rw [List.mem_singleton.mp hother]
    exact hexpires

/-- So does an execution. -/
theorem commits (h : db.WellFormed) {x : Execution} (hx : x.Commits db db') :
    db'.WellFormed := by
  have hkeys := SameKeys.commits hx
  have hpermits : ∀ row ∈ db'.executionPermits.rows, row.expiresAt.Valid := by
    rw [hx.executionPermits]
    exact Table.forall_update PermitRow.spend_permitId h.permits fun row hrow => hrow
  have hpayments : (∀ row ∈ db'.payments.rows, Names PaymentStatus row.status) ∧
      ∀ row ∈ db'.payments.rows, (db.orders.find? row.orderId).isSome := by
    rcases hx.payments with ⟨-, hpayments⟩ | ⟨-, hpayments⟩
    · rw [hpayments]
      have hkept := fun row : PaymentRow => row.refunded_paymentId x.amount
      exact ⟨Table.forall_update hkept h.payments fun row _ => names_str PaymentStatus.refunded,
        Table.forall_update hkept h.paid fun row hrow => hrow⟩
    · rw [hpayments]
      exact ⟨h.payments, h.paid⟩
  have horders : (∀ row ∈ db'.orders.rows, row.WellFormed) ∧
      ∀ row ∈ db'.shipments.rows, Names ShipmentStatus row.status := by
    rcases hx.orders with ⟨-, horders, hshipments⟩ | ⟨-, horders, hshipments⟩
    · rw [horders, hshipments]
      exact ⟨Table.forall_update OrderRow.cancelled_orderId h.orders fun row hrow =>
          ⟨names_str OrderStatus.cancelled, hrow.deliveredAt⟩,
        Table.forall_update ShipmentRow.cancelled_shipmentId h.shipments
          fun row _ => names_str ShipmentStatus.cancelled⟩
    · rw [horders, hshipments]
      exact ⟨h.orders, h.shipments⟩
  exact ⟨horders.1, hpayments.1, horders.2,
    fun row hrow => (hkeys.orders row.orderId).trans (hpayments.2 row hrow), hpermits⟩

end Database.WellFormed

/-- **A run keeps its database well formed.** -/
theorem wellFormed_kept (r : Runner) {spec : FailureSpec} (hspec : spec.Valid) :
    Kept r spec Database.WellFormed where
  issue _ _ _ _ hexpires hins h := h.issue (hexpires ▸ IsoText.valid_toIso _) hins
  inject _ _ c hasks happly h := h.apply (hspec c hasks) happly
  commit _ _ _ _ _ hx h := h.commits hx

/-- The changes of a scenario go through. -/
theorem injectAll_ok {due : List StateChange} (hdue : ∀ c ∈ due, c.Valid) (db : Database) :
    (injectAll due db).1 = .ok () := by
  induction due generalizing db with
  | nil => rfl
  | cons c due ih =>
      obtain ⟨hc, hdue⟩ := List.forall_mem_cons.mp hdue
      obtain ⟨db', hdb'⟩ := hc.apply_ok db
      simp only [injectAll, hdb']
      exact ih hdue db'

/-! ## Commits -/

/-- What is aimed at belongs to an order that is there. -/
theorem order_of_resolved {db : Database} (h : db.WellFormed) {proposal : ActionProposal}
    {target : Target} (hresolved : db.resolveTarget proposal = .ok (some target)) :
    (db.orders.find? proposal.orderId).isSome := by
  obtain ⟨-, p, hfetch, -⟩ | ⟨-, o, hfetch, -⟩ := Database.resolveTarget_eq_some.mp hresolved
  · -- the payment names the order it belongs to
    obtain ⟨hrow, horder⟩ := Database.fetchPaymentForOrder_eq_some hfetch
    rw [← horder]
    exact h.paid p.row (Table.find?_eq_some.mp hrow).1
  · rw [Database.fetchOrder_eq_some.mp hfetch]
    rfl

section Commits

variable {auth : WriteAuthorization} {now : Instant} {db mid : Database} {err : PyError}

/-- An authorized cancellation raises if the order has moved. -/
theorem cancelOrder_raises {orderId : String} {version : Int}
    (hauth : auth.action = .cancelOrder ∧ auth.resourceId = orderId)
    (h : cancelOrder (some auth) orderId version now db = .error err) :
    err = .staleResource orderId version := by
  have hrequire := require_eq_ok.mpr ⟨rfl, hauth⟩
  simp only [cancelOrder, hrequire, bind, Except.bind] at h
  split_ifs at h
  · cases h
    rfl
  · cases h

/-- An authorized refund within its limit raises if the payment has moved. -/
theorem issueRefund_raises {paymentId orderId : String} {amount version : Int}
    (hauth : auth.action = .issueRefund ∧ auth.resourceId = paymentId)
    (hwithin : amount ≤ auth.maxAmountCents)
    (hfresh : db.refunds.find? ("ref_" ++ auth.permitId) = none)
    (horder : (db.orders.find? orderId).isSome)
    (h : issueRefund (some auth) paymentId orderId amount version now db = .error err) :
    err = .staleResource paymentId version := by
  have hrequire := require_eq_ok.mpr ⟨rfl, hauth⟩
  simp only [issueRefund, hrequire, bind, Except.bind, not_lt.mpr hwithin, if_false] at h
  split_ifs at h with hcount
  · cases h
    rfl
  · -- the row is there, so the foreign keys hold
    obtain ⟨row, hrow, -⟩ := rowcount_paymentGuard.mp (not_not.mp hcount)
    obtain ⟨refunds, hrefunds⟩ := Option.isSome_iff_exists.mp (Table.insert?_isSome.mpr
      (show db.refunds.find? (RefundRow.refundId ⟨"ref_" ++ auth.permitId, paymentId, orderId,
        amount, toIso now, auth.runId, auth.permitId⟩) = none from hfresh))
    have hpayment : ((db.refundPayment paymentId version amount).payments.find?
        paymentId).isSome := by
      simp only [Database.refundPayment, Table.find?_update, hrow, Option.map_some,
        Option.isSome_some]
    have hinsert : (db.refundPayment paymentId version amount).insertRefund
        ⟨"ref_" ++ auth.permitId, paymentId, orderId, amount, toIso now, auth.runId,
          auth.permitId⟩ = .ok _ :=
      Database.insertRefund_eq_ok.mpr ⟨refunds, hrefunds, hpayment, horder, rfl⟩
    rw [hinsert] at h
    cases h

/-- An authorized ticket is always written. -/
theorem createSupportTicket_ok {orderId reasonCode summary : String}
    (hauth : auth.action = .createSupportTicket ∧ auth.resourceId = orderId)
    (hfresh : db.supportTickets.find? ("tkt_" ++ auth.permitId) = none)
    (horder : (db.orders.find? orderId).isSome) :
    ∃ written, createSupportTicket (some auth) orderId reasonCode summary now db =
      .ok written := by
  obtain ⟨tickets, htickets⟩ := Option.isSome_iff_exists.mp (Table.insert?_isSome.mpr
    (show db.supportTickets.find? (TicketRow.ticketId ⟨"tkt_" ++ auth.permitId, orderId,
      reasonCode, clip200 summary, toIso now, auth.runId⟩) = none from hfresh))
  exact ⟨_, createSupportTicket_eq_ok.mpr ⟨hauth.1, hauth.2, rfl, _,
    Database.insertTicket_eq_ok.mpr ⟨tickets, htickets, horder, rfl⟩, rfl⟩⟩

variable {runId : String} {n : Nat} {proposal : ActionProposal} {permit : ExecutionPermit}
variable {target : Target} {due : List StateChange} {e : Executor} {texts : TicketTexts}
variable {cleared : Instant}

/-- The names a write derives from its permit are not taken. -/
structure Database.Free (db : Database) (permit : ExecutionPermit) (action : ActionName) :
    Prop where
  record : db.executionRecords.find? permit.idempotencyKey = none
  refund : action = .issueRefund → db.refunds.find? ("ref_" ++ permit.permitId) = none
  ticket : action = .createSupportTicket →
    db.supportTickets.find? ("tkt_" ++ permit.permitId) = none

/-- A cleared write with free names raises for one reason: its row has moved. -/
theorem Clear.commitAll_stale (hclear : Clear db cleared permit proposal target)
    (hfree : mid.Free permit proposal.action)
    (horder : (mid.orders.find? proposal.orderId).isSome)
    (h : e.commitAll (e.authorization permit) permit proposal texts now mid = .error err) :
    ∃ resourceId version, err = .staleResource resourceId version := by
  have hresource : proposal.action ≠ .issueRefund → permit.resourceId = proposal.orderId :=
    fun ha => hclear.resource.symm.trans (resolved_resource hclear.resolved ha)
  obtain hwrite | ⟨outcome, written, hwrite, hrecord⟩ := commitAll_eq_error h
  · cases ha : proposal.action with
    | cancelOrder =>
        simp only [Executor.write, ha] at hwrite
        exact ⟨_, _, cancelOrder_raises ⟨hclear.action.trans ha, hresource (by simp [ha])⟩ hwrite⟩
    | issueRefund =>
        simp only [Executor.write, ha] at hwrite
        exact ⟨_, _, issueRefund_raises ⟨hclear.action.trans ha, rfl⟩ hclear.amount
          (hfree.refund ha) horder hwrite⟩
    | createSupportTicket =>
        simp only [Executor.write, ha] at hwrite
        have hauth : (e.authorization permit).action = .createSupportTicket ∧
            (e.authorization permit).resourceId = proposal.orderId :=
          ⟨hclear.action.trans ha, hresource (by simp [ha])⟩
        obtain ⟨written, hok⟩ := createSupportTicket_ok hauth (hfree.ticket ha) horder
        rw [hok] at hwrite
        cases hwrite
  · -- the key is free, so the record is inserted
    exfalso
    obtain ⟨-, -, hwrites⟩ := write_eq_ok.mp hwrite
    have hrecords : written.executionRecords = mid.executionRecords := by
      cases hwrites <;> rfl
    have hkey : written.executionRecords.find? permit.idempotencyKey = none := by
      rw [hrecords]
      exact hfree.record
    obtain ⟨records, hinsert⟩ := Option.isSome_iff_exists.mp (Table.insert?_isSome.mpr
      (show written.executionRecords.find?
        (e.recordFor permit outcome now).idempotencyKey = none from hkey))
    rw [Database.insertRecord_eq_ok.mpr ⟨records, hinsert, rfl⟩] at hrecord
    cases hrecord

/-- **Behind clearance a commit raises for one reason**: the row it is aimed at has moved. -/
theorem Numbered.commitAll_raises (hn : Numbered runId n db) (hformed : db.WellFormed)
    (hload : db.loadPermit (some permit.permitId) = some permit)
    (hclear : Clear db cleared permit proposal target)
    (hinjected : injectAll due db = (.ok (), mid))
    (h : e.commitAll (e.authorization permit) permit proposal texts now mid = .error err) :
    ∃ resourceId version, err = .staleResource resourceId version := by
  have hinj := Injected.of_injectAll hinjected
  obtain ⟨hrefund, hticket⟩ := hn.unnamed hload hclear.fresh
  have hfree : mid.Free permit proposal.action :=
    { record := by
        rw [hinj.executionRecords]
        exact Option.map_eq_none_iff.mp hclear.fresh
      refund := fun _ => by rw [hinj.refunds]; exact hrefund
      ticket := fun _ => by rw [hinj.supportTickets]; exact hticket }
  refine hclear.commitAll_stale hfree ?_ h
  rw [(SameKeys.of_injectAll hinjected).orders]
  exact order_of_resolved hformed hclear.resolved

end Commits

end BoundedRefund
