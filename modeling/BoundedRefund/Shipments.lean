import BoundedRefund.AtMostOnce
import BoundedRefund.Scope

/-!
# The shipments of a cancelled order

The policy looks at one shipment of the order, the first by its id; the write cancels those
that are still in the house, by a filter on their status.  Runs that are the only writers
change shipments in no other way (`Settles`), so a cancellation leaves the whole order
cancelled exactly where none of its shipments had left the house to begin with
(`all_cancelled_iff`).  A second shipment on the road is seen by neither
(`cancelled_on_the_road`).
-/

namespace BoundedRefund

open Concurrent Relational

/-! ## What happens to a shipment -/

/-- Nothing happens to a shipment, or it is cancelled before it was shipped. -/
def ShipmentRow.Settles (row row' : ShipmentRow) : Prop :=
  row'.orderId = row.orderId ∧ (row'.status = row.status ∨
    (row.status ∈ cancellableShipmentStatuses ∧ row'.status = str ShipmentStatus.cancelled))

/-- The shipment is in the house, or cancelled. -/
def ShipmentRow.Held (row : ShipmentRow) : Prop :=
  row.status ∈ cancellableShipmentStatuses ∨ row.status = str ShipmentStatus.cancelled

/-- Every shipment of the order is. -/
def Database.AllHeld (db : Database) (orderId : String) : Prop :=
  ∀ row ∈ db.shipments.rows, row.orderId = orderId → row.Held

/-- Every shipment of the order is cancelled. -/
def Database.AllCancelled (db : Database) (orderId : String) : Prop :=
  ∀ row ∈ db.shipments.rows, row.orderId = orderId → row.status = str ShipmentStatus.cancelled

instance (row : ShipmentRow) : Decidable row.Held :=
  inferInstanceAs (Decidable (_ ∨ _))

instance (db : Database) (orderId : String) : Decidable (db.AllHeld orderId) :=
  inferInstanceAs (Decidable (∀ row ∈ db.shipments.rows, row.orderId = orderId → row.Held))

instance (db : Database) (orderId : String) : Decidable (db.AllCancelled orderId) :=
  inferInstanceAs (Decidable (∀ row ∈ db.shipments.rows, row.orderId = orderId →
    row.status = str ShipmentStatus.cancelled))

namespace ShipmentRow.Settles

variable {row row' row'' : ShipmentRow}

theorem refl (row : ShipmentRow) : row.Settles row := ⟨rfl, Or.inl rfl⟩

theorem trans (h : row.Settles row') (h' : row'.Settles row'') : row.Settles row'' := by
  obtain ⟨hid, hstatus⟩ := h
  obtain ⟨hid', hstatus'⟩ := h'
  refine ⟨hid'.trans hid, ?_⟩
  rcases hstatus with hsame | ⟨hin, hcancelled⟩
  · rw [hsame] at hstatus'
    exact hstatus'
  · right
    refine ⟨hin, ?_⟩
    rcases hstatus' with hsame | ⟨-, hcancelled'⟩
    · rw [hsame, hcancelled]
    · exact hcancelled'

/-- What is held settles as held, and what is on the road stays there. -/
theorem held_iff (h : row.Settles row') : row'.Held ↔ row.Held := by
  rcases h.2 with hsame | ⟨hin, hcancelled⟩
  · rw [Held, Held, hsame]
  · exact ⟨fun _ => Or.inl hin, fun _ => Or.inr hcancelled⟩

end ShipmentRow.Settles

/-- Row by row, the shipments of `db` have settled into those of `db'`. -/
def Settling (db db' : Database) : Prop :=
  List.Forall₂ ShipmentRow.Settles db.shipments.rows db'.shipments.rows

namespace Settling

variable {db db' db'' : Database}

theorem refl (db : Database) : Settling db db :=
  List.forall₂_same.mpr fun row _ => ShipmentRow.Settles.refl row

theorem trans (h : Settling db db') (h' : Settling db' db'') : Settling db db'' := by
  unfold Settling at h h' ⊢
  generalize db.shipments.rows = first at h ⊢
  generalize db'.shipments.rows = middle at h h'
  generalize db''.shipments.rows = last at h' ⊢
  induction h generalizing last with
  | nil =>
      cases h'
      exact .nil
  | cons hrow _ ih =>
      obtain _ | ⟨hrow', hrest⟩ := h'
      exact .cons (hrow.trans hrow') (ih _ hrest)

/-- Where no shipment changed all settle. -/
theorem of_eq (h : db'.shipments = db.shipments) : Settling db db' := by
  unfold Settling
  rw [h]
  exact refl db

/-- An execution settles the shipments. -/
theorem commits {x : Execution} (hx : x.Commits db db') : Settling db db' := by
  rcases hx.orders with ⟨-, -, hshipments⟩ | ⟨-, -, hshipments⟩
  · unfold Settling
    rw [hshipments]
    simp only [Database.cancelRows, Table.rows_update, List.forall₂_map_right_iff,
      List.forall₂_same]
    intro row _
    split_ifs with hcancel
    · refine ⟨rfl, Or.inr ⟨?_, rfl⟩⟩
      simp only [Bool.and_eq_true, decide_eq_true_eq] at hcancel
      exact hcancel.2
    · exact ShipmentRow.Settles.refl row
  · exact of_eq hshipments

/-- No statement of a run without injected changes does anything else to a shipment. -/
theorem statement {G : World → Execution → Prop} {v v' : World}
    (h : Statement (fun _ => False) G v v') : Settling v.shared v'.shared := by
  cases h with
  | quiet h => exact of_eq (by rw [h])
  | issue permit unused h =>
      obtain ⟨permits, -, heq⟩ := Database.insertPermit_eq_ok.mp h
      exact of_eq (by rw [heq])
  | inject change may => exact may.elim
  | commit x cleared grounds hx => exact commits hx

/-- Whether an order is held does not change. -/
theorem allHeld_iff (h : Settling db db') (orderId : String) :
    db'.AllHeld orderId ↔ db.AllHeld orderId := by
  unfold Settling at h
  unfold Database.AllHeld
  generalize db.shipments.rows = rows at h ⊢
  generalize db'.shipments.rows = rows' at h ⊢
  induction h with
  | nil => simp
  | cons hrow _ ih =>
      simp only [List.forall_mem_cons, hrow.held_iff, hrow.1, ih]

end Settling

/-! ## What a cancellation makes of them -/

/-- A cancellation cancels all that is held, and only that. -/
theorem Execution.Commits.allCancelled_iff {x : Execution} {db db' : Database}
    (hx : x.Commits db db') (ha : x.proposal.action = .cancelOrder) :
    db'.AllCancelled x.permit.resourceId ↔ db.AllHeld x.permit.resourceId := by
  have hrow : ∀ row : ShipmentRow, row.orderId = x.permit.resourceId →
      ((if decide (row.orderId = x.permit.resourceId) &&
          decide (row.status ∈ cancellableShipmentStatuses) then row.cancelled else row).status =
        str ShipmentStatus.cancelled ↔ row.Held) := by
    intro row horder
    by_cases hin : row.status ∈ cancellableShipmentStatuses
    · simp [horder, hin, ShipmentRow.Held, ShipmentRow.cancelled]
    · simp [hin, ShipmentRow.Held]
  rcases hx.orders with ⟨-, -, hshipments⟩ | ⟨hne, -⟩
  · unfold Database.AllCancelled Database.AllHeld
    rw [hshipments]
    simp only [Database.cancelRows, Table.rows_update, List.forall_mem_map]
    refine forall₂_congr fun row _ => ?_
    have horder : (if decide (row.orderId = x.permit.resourceId) &&
        decide (row.status ∈ cancellableShipmentStatuses) then row.cancelled
        else row).orderId = row.orderId := by
      split_ifs <;> rfl
    rw [horder]
    exact forall_congr' (hrow row)
  · exact absurd ha hne

section Reachable

variable {ι : Type} [DecidableEq ι] {runs : Runs ι} {db : Database}
variable {c c' : Pool ι PyError Database Local RunReport} {i : ι} {row : MutationRow}

/-- **When a cancelled order has nothing on the road.**  Runs are the only writers, and their
statements interleave in any order.  Immediately after a cancellation every shipment of the
order is cancelled if and only if every one of them was still in the house, or cancelled, in
the world the runs began in. -/
theorem all_cancelled_iff (hquiet : runs.Injecting fun _ => False)
    (hreach : Pool.Reaches Nobody (runs.pool db) c) (hact : Pool.Act i c c')
    (hlog : c'.shared.mutationLog = c.shared.mutationLog ++ [row])
    (hrow : row.action = .cancelOrder) :
    c'.shared.AllCancelled row.resourceId ↔ db.AllHeld row.resourceId := by
  have hverified := Runs.verified (fun _ h => h.elim) hquiet db
  have hsettling := invariant_of_statement (J := Settling db)
    (fun _ _ hs h => h.trans (Settling.statement hs)) hverified hreach (Settling.refl db)
  have hstill := (Pool.reachable_sound Later.refl (fun _ _ _ => Later.trans)
    (fun _ _ h => h.elim) hverified hreach).2
  obtain ⟨x, -, -, hx, rfl⟩ := (hact.guarantee Later.refl hstill).2.commit_of_log hlog
  have hiff := hx.allCancelled_iff hrow
  exact hiff.trans (hsettling.allHeld_iff x.permit.resourceId)

end Reachable

/-! ## A second parcel -/

/-- An order that was sent in two parcels, the first still in the house. -/
def twoParcels (second : ShipmentStatus) : Database :=
  { seedWorld [("ord_0001", .paid)] with
    shipments := .ofRows [seedShipment "ord_0001" .paid,
      { seedShipment "ord_0001" .paid with
        shipmentId := "shp_ord_0001_b", status := str second }] }

/-- One run, asked for a cancellation. -/
def cancelRuns : Runs Unit where
  runners _ := firstOrderRunner
  proposals _ := [.proposal cancelFirst]
  failures _ := {}

/-- The run stands before its commit. -/
def beforeCancel (second : ShipmentStatus) : Pool Unit PyError Database Local RunReport :=
  (fun c => c.next ())^[29] (cancelRuns.pool (twoParcels second))

/-- The run gets to its cancel. -/
theorem beforeCancel_reached (second : ShipmentStatus) :
    Pool.Reaches Nobody (cancelRuns.pool (twoParcels second)) (beforeCancel second) :=
  Pool.reaches_iterate _ () 29

/-- The row the commit writes. -/
def cancelledFirst : MutationRow :=
  ⟨"run_first", .cancelOrder, "ord_0001", 0, toIso defaultClockBase⟩

/-- With both parcels held back, both are cancelled. -/
theorem all_cancelled_twoParcels :
    ((beforeCancel .readyToShip).next ()).shared.AllCancelled cancelledFirst.resourceId ↔
      (twoParcels .readyToShip).AllHeld cancelledFirst.resourceId :=
  all_cancelled_iff (fun _ _ hentry => by cases hentry) (beforeCancel_reached .readyToShip)
    (Pool.act_next (by decide +kernel)) (by decide +kernel) rfl

/-- The second parcel is on the road, and the order is cancelled all the same. -/
theorem cancelled_on_the_road :
    Pool.Reaches Nobody (cancelRuns.pool (twoParcels .shipped)) (beforeCancel .shipped) ∧
    Pool.Act () (beforeCancel .shipped) ((beforeCancel .shipped).next ()) ∧
    ((beforeCancel .shipped).next ()).shared.mutationLog =
      (beforeCancel .shipped).shared.mutationLog ++ [cancelledFirst] ∧
    ¬ ((beforeCancel .shipped).next ()).shared.AllCancelled "ord_0001" :=
  ⟨beforeCancel_reached .shipped, Pool.act_next (by decide +kernel), by decide +kernel,
    by decide +kernel⟩

end BoundedRefund
