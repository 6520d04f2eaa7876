import BoundedRefund.Concurrent.Isolation
import BoundedRefund.Guard
import BoundedRefund.Slices

/-!
# Orders of their own

Runs that are opened each for an order of its own, on one database.  The order, its payments
and its shipments, and what the run has booked under its run id, are the rows of its own
(`Runs.own`).  Nothing in the database keeps a run from the rows of the others: a permit is
looked up by its id, a stored result by its key, a payment by the id the permit names.  That
the run finds none but its own there rests on how ids and keys are derived from the run id
(`Runs.Unmixed`), and on the checks of the executor.

Below are the statements of a run: each finds on the rows of its own what it finds in the
database, and leaves the other rows alone.
-/

namespace BoundedRefund

open Concurrent Relational

/-! ## Whose is what -/

namespace Database

variable {db db' : Database} {orderId resourceId : String}

/-- The payments and the shipments, each with its order. -/
def places (db : Database) : List (String × String) × List (String × String) :=
  (db.payments.rows.map fun row => (row.paymentId, row.orderId),
    db.shipments.rows.map fun row => (row.shipmentId, row.orderId))

/-- The row of this id, if there is one, is of the order. -/
def Belongs (db : Database) (orderId resourceId : String) : Resource → Prop
  | .order => resourceId = orderId
  | .payment => ∀ place ∈ db.places.1, place.1 = resourceId → place.2 = orderId
  | .shipment => ∀ place ∈ db.places.2, place.1 = resourceId → place.2 = orderId

/-- Payments under an id belong to their order. -/
theorem belongs_payment : db.Belongs orderId resourceId .payment ↔
    ∀ row ∈ db.payments.rows, row.paymentId = resourceId → row.orderId = orderId :=
  List.forall_mem_map

/-- Shipments under an id belong to theirs. -/
theorem belongs_shipment : db.Belongs orderId resourceId .shipment ↔
    ∀ row ∈ db.shipments.rows, row.shipmentId = resourceId → row.orderId = orderId :=
  List.forall_mem_map

/-- What belongs where hangs on the places of the rows. -/
theorem Belongs.congr (h : db'.places = db.places) {resource : Resource} :
    db'.Belongs orderId resourceId resource ↔ db.Belongs orderId resourceId resource := by
  cases resource
  · exact Iff.rfl
  · simp only [Belongs, h]
  · simp only [Belongs, h]

/-- The target of a proposal is of its order. -/
theorem belongs_target {proposal : ActionProposal} {target : Target}
    (h : db.resolveTarget proposal = .ok (some target)) (haction : proposal.action = .issueRefund) :
    db.Belongs proposal.orderId target.resourceId .payment := by
  obtain ⟨-, payment, hpayment, rfl⟩ | ⟨hne, -⟩ := resolveTarget_eq_some.mp h
  · obtain ⟨hfind, horder⟩ := fetchPaymentForOrder_eq_some hpayment
    rw [belongs_payment]
    intro row hrow hid
    rw [← horder]
    obtain ⟨hmem, -⟩ := Table.find?_eq_some.mp hfind
    rw [Table.eq_of_key_eq hrow hmem hid]
    rfl
  · exact absurd haction hne

/-- A change moves no row. -/
theorem places_applyTo {change : StateChange} {resource : Resource} :
    (change.applyTo db resource).places = db.places := by
  cases resource
  · rfl
  · refine Prod.ext ?_ rfl
    refine Table.map_update (fun row => (change.editPayment_kept row).1) fun row => ?_
    rw [(change.editPayment_kept row).1, (change.editPayment_kept row).2.1]
  · refine Prod.ext rfl ?_
    refine Table.map_update (fun row => (change.editShipment_kept row).1) fun row => ?_
    rw [(change.editShipment_kept row).1, (change.editShipment_kept row).2.1]

/-- Nor does one that is injected. -/
theorem places_apply {change : StateChange} (h : change.apply db = .ok db') :
    db'.places = db.places := by
  rcases StateChange.apply_eq_ok h with ⟨-, -, rfl⟩ | ⟨resource, -, -, rfl⟩
  · rfl
  · exact places_applyTo

/-- Nor does an execution. -/
theorem places_commits {x : Execution} (hx : x.Commits db db') : db'.places = db.places := by
  have hpayments : db'.places.1 = db.places.1 := by
    rcases hx.payments with ⟨-, h⟩ | ⟨-, h⟩
    · unfold places
      rw [h]
      exact Table.map_update (fun row => row.refunded_paymentId x.amount) fun _ => rfl
    · unfold places
      rw [h]
  have hshipments : db'.places.2 = db.places.2 := by
    rcases hx.orders with ⟨-, -, h⟩ | ⟨-, -, h⟩
    · unfold places
      rw [h]
      exact Table.map_update ShipmentRow.cancelled_shipmentId fun _ => rfl
    · unfold places
      rw [h]
  exact Prod.ext hpayments hshipments

end Database

/-! ## Names that are derived from the run id -/

/-- The run can be read off a permit id. -/
theorem permitIdFor_runId {runId runId' : String} {m n : Nat}
    (h : permitIdFor runId m = permitIdFor runId' n) : runId = runId' := by
  have hl := congrArg (fun text => text.toList.reverse) h
  simp only [permitIdFor, String.toList_append, List.reverse_append, List.append_assoc] at hl
  -- the sequence number is what stands behind the last underscore
  have hm : '_' ∉ (pad3 m).toList.reverse := by simpa using underscore_notMem_pad3 m
  have hn : '_' ∉ (pad3 n).toList.reverse := by simpa using underscore_notMem_pad3 n
  have digits : ∀ (k : Nat) (tail : List Char), '_' ∉ (pad3 k).toList.reverse →
      ((pad3 k).toList.reverse ++ '_' :: tail).dropWhile (· ≠ '_') = '_' :: tail := by
    intro k tail hk
    rw [List.dropWhile_append_of_pos]
    · simp
    · intro c hc
      simpa using fun hcu : c = '_' => hk (hcu ▸ hc)
  have hrest := congrArg (List.dropWhile (· ≠ '_')) hl
  have hunderscore : "_".toList.reverse = ['_'] := rfl
  rw [hunderscore, List.cons_append, List.nil_append, List.cons_append, List.nil_append,
    digits m _ hm, digits n _ hn] at hrest
  have hruns := List.append_cancel_right (List.cons.inj hrest).2
  exact String.toList_inj.mp (List.reverse_injective hruns)

/-! ## Runs with orders of their own -/

namespace Runs

variable {ι : Type} (runs : Runs ι)

/-- The order a run is opened for. -/
def orderId (i : ι) : String := (runs.runners i).defaultOrderId

/-- The id of a run. -/
def runId (i : ι) : String := (runs.runners i).runId

/-- Run `i` derives this permit id. -/
def PermitId (i : ι) (permitId : String) : Prop :=
  ∃ sequence, permitId = permitIdFor (runs.runId i) sequence

/-- Run `i` derives this key. -/
def Key (i : ι) (idempotencyKey : String) : Prop :=
  ∃ sequence action resourceId,
    idempotencyKey = idempotencyKeyFor (runs.runId i) sequence action resourceId

/-- The permit is one of the run's own. -/
structure OwnPermit (i : ι) (permit : ExecutionPermit) : Prop where
  id : runs.PermitId i permit.permitId
  key : runs.Key i permit.idempotencyKey

/-- Each run is opened for an order of its own: its planner names this order in every valid
proposal, and its scenario changes rows of this order only.  No two runs derive a key in
common. -/
structure Separate (world : Database) : Prop where
  orders : Function.Injective runs.orderId
  keys : ∀ i j key, runs.Key i key → runs.Key j key → i = j
  proposals : ∀ i, ∀ raw ∈ runs.proposals i, ∀ proposal,
    validate (runs.runners i).intFromText raw = .ok proposal → proposal.orderId = runs.orderId i
  changes : ∀ i, ∀ entry ∈ (runs.failures i).preCommitChanges, ∀ change ∈ entry.2,
    ∀ resource, Resource.ofString? change.resource = some resource →
      world.Belongs (runs.orderId i) change.resourceId resource

/-- The rows under the ids and keys a run derives are the run's own, and the payments and
shipments are where they were. -/
structure Unmixed (world db : Database) : Prop where
  places : db.places = world.places
  permits : ∀ row ∈ db.executionPermits.rows, ∀ i, runs.PermitId i row.permitId →
    row.runId = runs.runId i
  permitKeys : ∀ row ∈ db.executionPermits.rows, ∀ i, row.runId = runs.runId i →
    runs.Key i row.idempotencyKey
  records : ∀ row ∈ db.executionRecords.rows, ∀ i, runs.Key i row.idempotencyKey →
    row.runId = runs.runId i
  refunds : ∀ row ∈ db.refunds.rows, ∀ i permitId, runs.PermitId i permitId →
    row.refundId = "ref_" ++ permitId → row.runId = runs.runId i
  tickets : ∀ row ∈ db.supportTickets.rows, ∀ i permitId, runs.PermitId i permitId →
    row.ticketId = "tkt_" ++ permitId → row.runId = runs.runId i

/-- The rows of the run's own. -/
def own (i : ι) (db : Database) : Database :=
  db.slice (fun orderId => orderId = runs.orderId i) fun runId => runId = runs.runId i

/-- All other rows. -/
def others (i : ι) (db : Database) : Database :=
  db.slice (fun orderId => orderId ≠ runs.orderId i) fun runId => runId ≠ runs.runId i

/-- What comes of a statement, on the rows of the run's own. -/
def onOwn {α : Type} (i : ι) :
    Except PyError (α × Database) → Except PyError (α × Database) :=
  Except.map fun r => (r.1, runs.own i r.2)

variable {runs} {world db db' : Database} {i j : ι}

/-- The id of a permit names its run. -/
theorem PermitId.runId {permitId : String} (h : runs.PermitId i permitId)
    (h' : runs.PermitId j permitId) : runs.runId i = runs.runId j := by
  obtain ⟨m, rfl⟩ := h
  obtain ⟨n, hn⟩ := h'
  exact permitIdFor_runId hn

/-- Separate runs have ids of their own. -/
theorem Separate.runId (h : runs.Separate world) (heq : runs.runId i = runs.runId j) :
    i = j :=
  h.keys i j (idempotencyKeyFor (runs.runId i) 0 .cancelOrder "") ⟨0, _, _, rfl⟩
    ⟨0, _, _, by rw [heq]⟩

/-- A seeded database is unmixed. -/
theorem Unmixed.seeded (h : db.Seeded) : runs.Unmixed db db where
  places := rfl
  permits row hrow := by
    rw [h.executionPermits] at hrow
    cases hrow
  permitKeys row hrow := by
    rw [h.executionPermits] at hrow
    cases hrow
  records row hrow := by
    rw [h.executionRecords] at hrow
    cases hrow
  refunds row hrow := by
    rw [h.refunds] at hrow
    cases hrow
  tickets row hrow := by
    rw [h.supportTickets] at hrow
    cases hrow

/-- The rows of one run's own are none of another's. -/
theorem own_of_others (h : runs.Separate world) (hne : i ≠ j)
    (heq : runs.others i db' = runs.others i db) : runs.own j db' = runs.own j db := by
  have horders : ∀ orderId : String, (decide (orderId ≠ runs.orderId i) &&
      decide (orderId = runs.orderId j)) = decide (orderId = runs.orderId j) := by
    intro orderId
    have horder : runs.orderId j ≠ runs.orderId i := fun heq => hne (h.orders heq).symm
    by_cases hj : orderId = runs.orderId j
    · simp [hj, horder]
    · simp [hj]
  have hrunIds : ∀ runId : String, (decide (runId ≠ runs.runId i) &&
      decide (runId = runs.runId j)) = decide (runId = runs.runId j) := by
    intro runId
    have hrun : runs.runId j ≠ runs.runId i := fun heq => hne (h.runId heq).symm
    by_cases hj : runId = runs.runId j
    · simp [hj, hrun]
    · simp [hj]
  have hslice : ∀ db : Database, runs.own j db = runs.own j (runs.others i db) := by
    intro db
    simp only [own, others, Database.slice_slice, horders, hrunIds]
  rw [hslice, heq, ← hslice]

/-! ### What a statement of a run leaves -/

/-- Rows are where they were in the beginning. -/
theorem Unmixed.belongs (h : runs.Unmixed world db) {orderId resourceId : String}
    {resource : Resource} :
    db.Belongs orderId resourceId resource ↔ world.Belongs orderId resourceId resource :=
  Database.Belongs.congr h.places

/-- What stands in the tables of the runs has not changed. -/
theorem Unmixed.congr (h : runs.Unmixed world db) (hplaces : db'.places = db.places)
    (hpermits : db'.executionPermits = db.executionPermits)
    (hrecords : db'.executionRecords = db.executionRecords) (hrefunds : db'.refunds = db.refunds)
    (htickets : db'.supportTickets = db.supportTickets) : runs.Unmixed world db' where
  places := hplaces.trans h.places
  permits := hpermits ▸ h.permits
  permitKeys := hpermits ▸ h.permitKeys
  records := hrecords ▸ h.records
  refunds := hrefunds ▸ h.refunds
  tickets := htickets ▸ h.tickets

/-- An injected change mixes nothing. -/
theorem Unmixed.inject (h : runs.Unmixed world db) {change : StateChange}
    (happ : change.apply db = .ok db') : runs.Unmixed world db' := by
  refine h.congr (Database.places_apply happ) ?_ ?_ ?_ ?_
  all_goals
    rcases StateChange.apply_eq_ok happ with ⟨-, -, rfl⟩ | ⟨resource, -, -, rfl⟩
    · rfl
    · cases resource <;> rfl

/-- Nor does a permit of one of the runs. -/
theorem Unmixed.insertPermit (h : runs.Unmixed world db) {row : PermitRow}
    (hins : db.insertPermit row = .ok db') (hid : runs.PermitId i row.permitId)
    (hrun : row.runId = runs.runId i) (hkey : runs.Key i row.idempotencyKey)
    (hsep : runs.Separate world) : runs.Unmixed world db' := by
  obtain ⟨permits, hinsert, rfl⟩ := Database.insertPermit_eq_ok.mp hins
  have hrows := (Table.insert?_eq_some.mp hinsert).2
  refine { h with
    permits := fun other hother j hj => ?_
    permitKeys := fun other hother j hj => ?_ }
  · simp only [hrows, List.mem_append, List.mem_singleton] at hother
    rcases hother with hother | rfl
    · exact h.permits other hother j hj
    · exact hrun.trans (hid.runId hj)
  · simp only [hrows, List.mem_append, List.mem_singleton] at hother
    rcases hother with hother | rfl
    · exact h.permitKeys other hother j hj
    · obtain rfl := hsep.runId (hrun.symm.trans hj)
      exact hkey

/-- An execution of run `i`, on a permit of its own for a proposal about its order. -/
structure OwnExecution (runs : Runs ι) (world : Database) (i : ι) (x : Execution) : Prop where
  run : x.runId = runs.runId i
  permit : runs.OwnPermit i x.permit
  order : x.proposal.orderId = runs.orderId i
  payment : x.proposal.action = .issueRefund →
    world.Belongs (runs.orderId i) x.permit.resourceId .payment

/-- Nor does an execution of one of them. -/
theorem Unmixed.commits (h : runs.Unmixed world db) {x : Execution} (hx : x.Commits db db')
    (hown : runs.OwnExecution world i x) (hsep : runs.Separate world) :
    runs.Unmixed world db' where
  places := (Database.places_commits hx).trans h.places
  permits := by
    rw [hx.executionPermits]
    exact Table.forall_update PermitRow.spend_permitId h.permits fun _ h => h
  permitKeys := by
    rw [hx.executionPermits]
    exact Table.forall_update PermitRow.spend_permitId h.permitKeys fun _ h => h
  records := by
    intro row hrow j hj
    rw [hx.executionRecords_rows, List.mem_append, List.mem_singleton] at hrow
    rcases hrow with hrow | rfl
    · exact h.records row hrow j hj
    -- the new record is under a key of this run, and no other run has that key
    · obtain rfl := hsep.keys i j _ hown.permit.key hj
      exact hown.run
  refunds := by
    intro row hrow j permitId hid hrefund
    rw [hx.refunds, List.mem_append] at hrow
    rcases hrow with hrow | hrow
    · exact h.refunds row hrow j permitId hid hrefund
    · split_ifs at hrow
      · obtain rfl := List.mem_singleton.mp hrow
        have heq : x.permit.permitId = permitId := by simpa [Execution.refundRow] using hrefund
        subst heq
        exact hown.run.trans (hown.permit.id.runId hid)
      · cases hrow
  tickets := by
    intro row hrow j permitId hid hticket
    rw [hx.supportTickets, List.mem_append] at hrow
    rcases hrow with hrow | hrow
    · exact h.tickets row hrow j permitId hid hticket
    · split_ifs at hrow
      · obtain rfl := List.mem_singleton.mp hrow
        have heq : x.permit.permitId = permitId := by simpa [Execution.ticketRow] using hticket
        subst heq
        exact hown.run.trans (hown.permit.id.runId hid)
      · cases hrow

/-- A permit of a run is nothing to the others. -/
theorem others_insertPermit {row : PermitRow} (hins : db.insertPermit row = .ok db')
    (hrun : row.runId = runs.runId i) : runs.others i db' = runs.others i db :=
  Database.slice_insertPermit_of_not hins (by simp [hrun])

/-- The commit of a run leaves the other rows alone. -/
theorem others_commits (h : runs.Unmixed world db) {x : Execution} (hx : x.Commits db db')
    (hown : runs.OwnExecution world i x) : runs.others i db' = runs.others i db := by
  refine Database.slice_of_commits ⟨?_, fun haction row hrow hid => ?_, ?_, ?_⟩ hx
  · simpa using hown.order
  · have hpayment := Database.belongs_payment.mp (h.belongs.mpr (hown.payment haction))
    simpa using hpayment row hrow hid
  · simpa using hown.run
  · intro row hrow hid
    have hpermit := hown.permit.id
    rw [← hid] at hpermit
    simpa using h.permits row hrow i hpermit

/-- A change of rows of the order leaves the other rows alone. -/
theorem others_apply (h : runs.Unmixed world db) {change : StateChange}
    (happ : change.apply db = .ok db')
    (hchange : ∀ resource, Resource.ofString? change.resource = some resource →
      world.Belongs (runs.orderId i) change.resourceId resource) :
    runs.others i db' = runs.others i db := by
  rcases StateChange.apply_eq_ok happ with ⟨-, -, rfl⟩ | ⟨resource, hresource, -, rfl⟩
  · rfl
  · have hbelongs := h.belongs.mpr (hchange resource hresource)
    refine Database.slice_applyTo_of_not ?_ ?_ ?_
    · rintro rfl
      have horder : change.resourceId = runs.orderId i := hbelongs
      simpa using horder
    · rintro rfl row hrow hid
      simpa using Database.belongs_payment.mp hbelongs row hrow hid
    · rintro rfl row hrow hid
      simpa using Database.belongs_shipment.mp hbelongs row hrow hid

/-! ### What a statement of a run finds -/

section Own

variable {orderId permitId idempotencyKey : String} {proposal : ActionProposal}

/-- A run reads its order in its own part. -/
theorem own_fetchOrder (h : orderId = runs.orderId i) :
    (runs.own i db).fetchOrder orderId = db.fetchOrder orderId :=
  Database.fetchOrder_slice (decide_eq_true h)

/-- It reads its payment there. -/
theorem own_fetchPaymentForOrder (h : orderId = runs.orderId i) :
    (runs.own i db).fetchPaymentForOrder orderId = db.fetchPaymentForOrder orderId :=
  Database.fetchPaymentForOrder_slice (decide_eq_true h)

/-- It reads its shipment there. -/
theorem own_fetchShipmentForOrder (h : orderId = runs.orderId i) :
    (runs.own i db).fetchShipmentForOrder orderId = db.fetchShipmentForOrder orderId :=
  Database.fetchShipmentForOrder_slice (decide_eq_true h)

/-- It resolves its target there. -/
theorem own_resolveTarget (h : proposal.orderId = runs.orderId i) :
    (runs.own i db).resolveTarget proposal = db.resolveTarget proposal :=
  Database.resolveTarget_slice (decide_eq_true h)

/-- It finds its log rows there. -/
theorem own_mutationLogRows :
    (runs.own i db).mutationLogRows (runs.runId i) = db.mutationLogRows (runs.runId i) :=
  Database.mutationLogRows_slice (decide_eq_true rfl)

/-- It adds up its refunds there. -/
theorem own_refundTotal :
    (runs.own i db).refundTotal (runs.runId i) = db.refundTotal (runs.runId i) :=
  Database.refundTotal_slice (decide_eq_true rfl)

/-- It counts them there. -/
theorem own_refundCount :
    (runs.own i db).refundCount (runs.runId i) = db.refundCount (runs.runId i) :=
  Database.refundCount_slice (decide_eq_true rfl)

/-- It counts its tickets there. -/
theorem own_ticketCount :
    (runs.own i db).ticketCount (runs.runId i) = db.ticketCount (runs.runId i) :=
  Database.ticketCount_slice (decide_eq_true rfl)

/-- It finds its stored results there. -/
theorem Unmixed.own_storedResult (h : runs.Unmixed world db)
    (hkey : runs.Key i idempotencyKey) :
    (runs.own i db).storedResult idempotencyKey = db.storedResult idempotencyKey := by
  refine Database.storedResult_slice ?_
  rintro row hrow rfl
  exact decide_eq_true (h.records row hrow i hkey)

/-- It loads its permits there. -/
theorem Unmixed.own_loadPermit (h : runs.Unmixed world db) (hid : runs.PermitId i permitId) :
    (runs.own i db).loadPermit (some permitId) = db.loadPermit (some permitId) := by
  refine Database.loadPermit_slice ?_
  rintro row hrow rfl
  exact decide_eq_true (h.permits row hrow i hid)

/-- A permit under an id of the run carries a key of the run. -/
theorem Unmixed.ownPermit (h : runs.Unmixed world db) (hid : runs.PermitId i permitId)
    {permit : ExecutionPermit} (hload : db.loadPermit (some permitId) = some permit) :
    runs.OwnPermit i permit := by
  obtain ⟨heq, -, row, hrow, rfl⟩ := Database.loadPermit_eq_some hload
  cases heq
  obtain ⟨hmem, -⟩ := Table.find?_eq_some.mp hrow
  exact ⟨hid, h.permitKeys row hmem i (h.permits row hmem i hid)⟩

/-- A change works on the part as it does on the whole. -/
theorem own_apply {change : StateChange} :
    change.apply (runs.own i db) = (change.apply db).map (runs.own i) := by
  unfold StateChange.apply
  cases Resource.ofString? change.resource with
  | none => rfl
  | some resource =>
      dsimp only
      split_ifs
      · rfl
      · rfl
      · exact congrArg Except.ok Database.slice_applyTo.symm

/-- A permit is issued in the part as it is in the whole. -/
theorem Unmixed.own_insertPermit (h : runs.Unmixed world db) {row : PermitRow}
    (hrun : row.runId = runs.runId i) (hid : runs.PermitId i row.permitId) :
    (runs.own i db).insertPermit row = (db.insertPermit row).map (runs.own i) := by
  refine Database.insertPermit_slice (decide_eq_true hrun) fun other hother heq => ?_
  rw [← heq] at hid
  exact decide_eq_true (h.permits other hother i hid)

/-- **The commit of a run** raises what it would raise if its own rows were all there is, and
makes of them the same. -/
theorem Unmixed.own_commitAll (h : runs.Unmixed world db) {e : Executor}
    {permit : ExecutionPermit} {texts : TicketTexts} {now : Instant}
    (hown : runs.OwnExecution world i (e.execution permit proposal texts now)) :
    e.commitAll (e.authorization permit) permit proposal texts now (runs.own i db) =
      runs.onOwn i
        (e.commitAll (e.authorization permit) permit proposal texts now db) := by
  refine Database.commitAll_slice ⟨decide_eq_true hown.order, fun haction row hrow hid => ?_,
    fun row hrow hid => ?_, fun row hrow hid => ?_, fun row hrow hkey => ?_⟩
    (decide_eq_true hown.run)
  · have hpayment := Database.belongs_payment.mp (h.belongs.mpr (hown.payment haction))
    exact decide_eq_true (hpayment row hrow hid)
  · exact decide_eq_true (h.refunds row hrow i _ hown.permit.id hid)
  · exact decide_eq_true (h.tickets row hrow i _ hown.permit.id hid)
  · have hkeyed := hown.permit.key
    exact decide_eq_true (h.records row hrow i (hkey ▸ hkeyed))

end Own

end Runs

end BoundedRefund
