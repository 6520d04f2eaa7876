import BoundedRefund.Bounded
import BoundedRefund.Walk

/-!
# Where the numbers of the code end

The model computes with unbounded integers and instants.  The code does not: an integer column
holds 64 bits, a `datetime` the years 1 to 9999, and what leaves these ranges raises.  A run
computes the versions and the refunded amounts it writes from those it finds, and the instants
from its clock.  It performs boundedly many statements and reads its clock boundedly often, so
where there is room for as many at the beginning (`WithinRanges`), it never gets to an end
(`WithinRanges.alone`), and computes what the model computes.

The other integer columns hold copies of these numbers, or amounts, which are bounded where they
are validated.  Texts are sequences of Unicode scalar values.
-/

namespace BoundedRefund

open Concurrent Relational

/-! ## Ranges -/

/-- The integer fits a column, and so does every one up to `room` more. -/
def InColumn (room n : Int) : Prop := -2 ^ 63 ≤ n ∧ n + room < 2 ^ 63

instance (room n : Int) : Decidable (InColumn room n) :=
  inferInstanceAs (Decidable (_ ∧ _))

theorem InColumn.of_le {room room' n : Int} (h : InColumn room n) (hroom : room' ≤ room) :
    InColumn room' n := by
  unfold InColumn at h ⊢
  omega

/-- Part of the room is used. -/
theorem InColumn.add {room n k : Int} (h : InColumn (room + k) n) (hk : 0 ≤ k) :
    InColumn room (n + k) := by
  unfold InColumn at h ⊢
  omega

/-- The largest amount a proposal may name. -/
def maxAmountCents : Int := 100000000

/-- The instant is within the years 1 to 9999, in every time zone. -/
def Instant.InCalendar (t : Instant) : Prop :=
  seconds (-62135596800 + 86400) ≤ t ∧ t < seconds (253402300800 - 86400)

instance (t : Instant) : Decidable t.InCalendar := inferInstanceAs (Decidable (_ ∧ _))

/-- The limit, the window and the version of a policy fit.  Nobody writes them. -/
def RefundPolicy.Fits (row : RefundPolicy) : Prop :=
  InColumn 0 row.autoRefundLimitCents ∧ InColumn 0 row.postDeliveryWindowDays ∧
    InColumn 0 row.version

/-- The integers of an order fit, with room for so many statements more. -/
def OrderRow.Fits (room : Nat) (row : OrderRow) : Prop :=
  InColumn 0 row.totalCents ∧ InColumn room row.version

/-- Those of a payment, with room for as many refunds. -/
def PaymentRow.Fits (room : Nat) (row : PaymentRow) : Prop :=
  InColumn 0 row.capturedCents ∧ InColumn (room * maxAmountCents) row.refundedCents ∧
    InColumn room row.version

/-- The version of a shipment. -/
def ShipmentRow.Fits (room : Nat) (row : ShipmentRow) : Prop := InColumn room row.version

instance (row : RefundPolicy) : Decidable row.Fits := inferInstanceAs (Decidable (_ ∧ _))

instance (room : Nat) (row : OrderRow) : Decidable (row.Fits room) :=
  inferInstanceAs (Decidable (_ ∧ _))

instance (room : Nat) (row : PaymentRow) : Decidable (row.Fits room) :=
  inferInstanceAs (Decidable (_ ∧ _))

instance (room : Nat) (row : ShipmentRow) : Decidable (row.Fits room) :=
  inferInstanceAs (Decidable (InColumn _ _))

/-- What the columns hold fits them, with room for so many statements more. -/
structure Database.Fits (room : Nat) (db : Database) : Prop where
  refundPolicies : ∀ row ∈ db.refundPolicies.rows, row.Fits
  orders : ∀ row ∈ db.orders.rows, row.Fits room
  payments : ∀ row ∈ db.payments.rows, row.Fits room
  shipments : ∀ row ∈ db.shipments.rows, row.Fits room

/-- What an injected change writes fits its column, with room for so many statements more. -/
def Edit.Fits (room : Nat) : Edit → Prop
  | .totalCents n => InColumn 0 n
  | .capturedCents n => InColumn 0 n
  | .refundedCents n => InColumn (room * maxAmountCents) n
  | _ => True

/-- All it writes does. -/
def StateChange.Fits (room : Nat) (c : StateChange) : Prop :=
  ∀ edit ∈ c.setValues, edit.Fits room

/-! ## One statement -/

/-- What a statement of a run makes of the database, under a scenario. -/
inductive FailureSpec.Moves (spec : FailureSpec) (db db' : Database) : Prop
  | quiet (h : db' = db)
  | issue (row : PermitRow) (h : db.insertPermit row = .ok db')
  | inject (change : StateChange) (asked : spec.Asks change) (h : change.apply db = .ok db')
  | commit (x : Execution) (h : x.Commits db db')

/-- A proposal names at most the largest amount. -/
theorem ActionProposal.amount_le (proposal : ActionProposal) :
    proposal.amount ≤ maxAmountCents := by
  unfold ActionProposal.amount
  cases h : proposal.amountCents with
  | none => decide
  | some a => exact (proposal.amountCents_range a h).2

/-- A change bumps a version once at most. -/
theorem StateChange.bump_le (c : StateChange) : 0 ≤ c.bump ∧ c.bump ≤ 1 := by
  unfold StateChange.bump
  split_ifs <;> omega

section Rows

variable {room bound : Nat} {c : StateChange}

theorem OrderRow.Fits.of_succ {row : OrderRow} (h : row.Fits (room + 1)) : row.Fits room :=
  ⟨h.1, h.2.of_le (by omega)⟩

theorem PaymentRow.Fits.of_succ {row : PaymentRow} (h : row.Fits (room + 1)) : row.Fits room :=
  ⟨h.1, h.2.1.of_le (by simp only [maxAmountCents]; omega), h.2.2.of_le (by omega)⟩

theorem ShipmentRow.Fits.of_succ {row : ShipmentRow} (h : row.Fits (room + 1)) :
    row.Fits room := InColumn.of_le h (by omega)

/-- A version takes one of the room. -/
theorem InColumn.bumped {n : Int} (h : InColumn ((room + 1 : Nat) : Int) n) (c : StateChange) :
    InColumn room (n + c.bump) :=
  (h.of_le (by have := c.bump_le.2; push_cast; omega)).add c.bump_le.1

/-- A change of an order takes one of its room. -/
theorem OrderRow.Fits.editOrder {row : OrderRow} (h : row.Fits (room + 1)) (hc : c.Fits bound) :
    (c.editOrder row).Fits room := by
  refine ⟨?_, ?_⟩
  · refine List.foldlRecOn c.setValues OrderRow.edit
      (motive := fun edited => InColumn 0 edited.totalCents) h.1 fun edited hedited edit hedit => ?_
    cases edit with
    | totalCents n => exact hc _ hedit
    | _ => exact hedited
  · rw [(c.editOrder_kept row).2.2]
    exact h.2.bumped c

/-- So does a change of a payment. -/
theorem PaymentRow.Fits.editPayment {row : PaymentRow} (h : row.Fits (room + 1))
    (hc : c.Fits bound) (hbound : room ≤ bound) : (c.editPayment row).Fits room := by
  have hedits : InColumn 0 (c.editPayment row).capturedCents ∧
      InColumn (room * maxAmountCents) (c.editPayment row).refundedCents := by
    refine List.foldlRecOn c.setValues PaymentRow.edit
      (motive := fun edited => InColumn 0 edited.capturedCents ∧
        InColumn (room * maxAmountCents) edited.refundedCents) ⟨h.of_succ.1, h.of_succ.2.1⟩
      fun edited hedited edit hedit => ?_
    have hwrites := hc edit hedit
    cases edit with
    | capturedCents n => exact ⟨hwrites, hedited.2⟩
    | refundedCents n =>
        exact ⟨hedited.1, InColumn.of_le hwrites (by simp only [maxAmountCents]; omega)⟩
    | _ => exact hedited
  refine ⟨hedits.1, hedits.2, ?_⟩
  rw [(c.editPayment_kept row).2.2]
  exact h.2.2.bumped c

/-- A refund takes one as well. -/
theorem PaymentRow.Fits.refunded {row : PaymentRow} (h : row.Fits (room + 1)) {amount : Int}
    (hnonneg : 0 ≤ amount) (hle : amount ≤ maxAmountCents) : (row.refunded amount).Fits room := by
  refine ⟨h.1, InColumn.add (h.2.1.of_le ?_) hnonneg, InColumn.add (h.2.2.of_le ?_) one_pos.le⟩
  · simp only [maxAmountCents] at hle ⊢
    push_cast
    omega
  · push_cast
    omega

end Rows

namespace Database.Fits

variable {room bound : Nat} {db db' : Database}

/-- Room that is not used is left. -/
theorem of_succ (h : db.Fits (room + 1)) : db.Fits room where
  refundPolicies := h.refundPolicies
  orders row hrow := (h.orders row hrow).of_succ
  payments row hrow := (h.payments row hrow).of_succ
  shipments row hrow := (h.shipments row hrow).of_succ

/-- An injected change takes one of the room. -/
theorem apply {c : StateChange} (h : db.Fits (room + 1)) (hc : c.Fits bound)
    (hbound : room ≤ bound) (happly : c.apply db = .ok db') : db'.Fits room := by
  rcases StateChange.apply_eq_ok happly with ⟨-, -, rfl⟩ | ⟨resource, -, -, rfl⟩
  · exact h.of_succ
  cases resource with
  | order =>
      exact { h.of_succ with
        orders := Table.forall_update_of (fun row => (c.editOrder_kept row).1) h.orders
          (fun _ h => h.of_succ) fun _ h => h.editOrder hc }
  | payment =>
      exact { h.of_succ with
        payments := Table.forall_update_of (fun row => (c.editPayment_kept row).1) h.payments
          (fun _ h => h.of_succ) fun _ h => h.editPayment hc hbound }
  | shipment =>
      refine { h.of_succ with
        shipments := Table.forall_update_of (fun row => (c.editShipment_kept row).1) h.shipments
          (fun _ h => h.of_succ) fun row h => ?_ }
      show InColumn room (c.editShipment row).version
      rw [(c.editShipment_kept row).2.2]
      exact InColumn.bumped h c

/-- So does an execution. -/
theorem commits {x : Execution} (h : db.Fits (room + 1)) (hx : x.Commits db db') :
    db'.Fits room := by
  have horders : (∀ row ∈ db'.orders.rows, row.Fits room) ∧
      ∀ row ∈ db'.shipments.rows, row.Fits room := by
    rcases hx.orders with ⟨-, horders, hshipments⟩ | ⟨-, horders, hshipments⟩
    · rw [horders, hshipments]
      exact ⟨Table.forall_update_of OrderRow.cancelled_orderId h.orders (fun _ h => h.of_succ)
          fun _ h => ⟨h.1, InColumn.add h.2 one_pos.le⟩,
        Table.forall_update_of ShipmentRow.cancelled_shipmentId h.shipments
          (fun _ h => h.of_succ) fun _ h => InColumn.add h one_pos.le⟩
    · rw [horders, hshipments]
      exact ⟨h.of_succ.orders, h.of_succ.shipments⟩
  have hpayments : ∀ row ∈ db'.payments.rows, row.Fits room := by
    rcases hx.payments with ⟨hrefund, hpayments⟩ | ⟨-, hpayments⟩
    · rw [hpayments]
      -- a refund is of the amount of a proposal, and that was validated
      have hamount : 0 ≤ x.amount ∧ x.amount ≤ maxAmountCents := by
        rw [Execution.amount, if_pos hrefund]
        exact ⟨x.proposal.amount_nonneg, x.proposal.amount_le⟩
      exact Table.forall_update_of (fun row => row.refunded_paymentId x.amount) h.payments
        (fun _ h => h.of_succ) fun _ h => h.refunded hamount.1 hamount.2
    · rw [hpayments]
      exact h.of_succ.payments
  exact ⟨hx.refundPolicies ▸ h.refundPolicies, horders.1, hpayments, horders.2⟩

/-- **One statement** takes one of the room. -/
theorem moves {spec : FailureSpec} (h : db.Fits (room + 1))
    (hspec : ∀ change, spec.Asks change → change.Fits bound) (hbound : room ≤ bound)
    (hmoves : spec.Moves db db') : db'.Fits room := by
  cases hmoves with
  | quiet h' => exact h' ▸ h.of_succ
  | issue row hins =>
      obtain ⟨permits, -, rfl⟩ := Database.insertPermit_eq_ok.mp hins
      exact { h.of_succ with }
  | inject change asked happly => exact h.apply (hspec change asked) hbound happly
  | commit x hx => exact h.commits hx

end Database.Fits

/-! ## Every statement of a run -/

section Moving

variable {spec : FailureSpec} {α : Type}

/-- The injector of the run follows the scenario. -/
def World.Follows (spec : FailureSpec) (v : World) : Prop :=
  v.own.session.injector.map FailureInjector.spec = some spec

/-- Whatever the others make of the database meanwhile, each statement of the program is one of a
run under the scenario. -/
def Moving (spec : FailureSpec) (p : Py α) : Prop :=
  ∀ v : World, v.Follows spec → p.wp (Rely fun _ _ => True)
    (Guar (fun _ _ => True) fun v v' => spec.Moves v.shared v'.shared)
    (fun _ t => World.Follows spec t) v

/-- Others do not change the scenario. -/
theorem World.Follows.rely {v v' : World} (h : v.Follows spec)
    (hrely : Rely (fun _ _ => True) v v') : v'.Follows spec := by
  unfold World.Follows
  rw [hrely.1]
  exact h

namespace Moving

/-- What follows moves as allowed as well. -/
theorem bind {β : Type} {p : Py α} {k : α → Py β} (hp : Moving spec p)
    (hk : ∀ a, Moving spec (k a)) : Moving spec (p >>= k) := by
  refine fun v hv => (Prog.wp_bind p k).mpr (Prog.wp_mono ?_ (hp v hv))
  rintro (err | a) t ht
  · exact ht
  · exact hk a t ht

/-- So does a handler. -/
theorem tryCatch {p : Py α} {handler : PyError → Py α} (hp : Moving spec p)
    (hh : ∀ e, Moving spec (handler e)) : Moving spec (MonadExcept.tryCatch p handler) := by
  refine fun v hv => (Prog.wp_tryCatch p handler).mpr (Prog.wp_mono ?_ (hp v hv))
  rintro (err | a) t ht
  · exact hh err t ht
  · exact ht

theorem read (g : World → Except PyError α) : Moving spec (Prog.read g) := fun _ hv =>
  (Prog.wp_read _).mpr fun _ ht => ⟨⟨trivial, .quiet rfl⟩, hv.rely ht⟩

theorem update {f : Session → α × Session} (hf : Session.Aloof f) :
    Moving spec (Py.update f) := by
  refine fun v hv => (Prog.wp_atomically _).mpr fun t ht => ⟨⟨trivial, .quiet rfl⟩, ?_⟩
  exact (hf.scenario _).trans (hv.rely ht)

/-- A transaction whose effect is accounted for. -/
theorem transaction {t : Database → Except PyError (α × Database)}
    (h : ∀ db a db', t db = .ok (a, db') → spec.Moves db db') :
    Moving spec (Py.transaction t) := by
  refine fun v hv => (Prog.wp_atomically _).mpr fun w hw => ?_
  cases ht : t w.shared with
  | error err => exact ⟨⟨trivial, .quiet rfl⟩, hv.rely hw⟩
  | ok r => exact ⟨⟨trivial, h _ _ _ ht⟩, hv.rely hw⟩

/-- What is injected is what the scenario asks for. -/
theorem applyPreCommit (action : String) : Moving spec (Py.applyPreCommit action) := by
  have hall : ∀ changes : List StateChange, (∀ change ∈ changes, spec.Asks change) →
      Moving spec (Py.applyPreCommit.applyAll changes) := by
    intro changes hasked
    induction changes with
    | nil => exact fun _ hv => hv
    | cons change changes ih =>
        obtain ⟨hchange, hrest⟩ := List.forall_mem_cons.mp hasked
        refine bind (transaction fun db _ db' h => ?_) fun _ => ih hrest
        obtain ⟨db'', happ, h⟩ := map_eq_ok.mp h
        cases h
        exact .inject change hchange happ
  -- the injector hands out changes of its own spec
  refine fun v hv => (Prog.wp_bind _ _).mpr ((Prog.wp_atomically _).mpr fun t ht => ?_)
  have hfollows := hv.rely ht
  have hnext := ((Session.Aloof.preCommit action).scenario _).trans hfollows
  refine ⟨⟨trivial, .quiet rfl⟩, hall _ ?_ _ hnext⟩
  obtain ⟨injector, hi, hspec⟩ := Option.map_eq_some_iff.mp hfollows
  intro change hdue
  simp only [Session.preCommit, hi] at hdue
  rw [← hspec]
  exact (injector.preCommit_spec action).2 change hdue

end Moving

/-- Every statement of a run is one that is accounted for. -/
theorem moving : Scripted fun _ p => Moving spec p where
  ret _ := fun _ hv => hv
  fail _ := fun _ hv => hv
  bind := Moving.bind
  tryCatch := Moving.tryCatch
  query _ := .read _
  own _ := .read _
  update := Moving.update
  callLearns _ := fun _ hv =>
    (Prog.wp_modify _).mpr fun t ht =>
      ⟨⟨trivial, .quiet rfl⟩, (hv.rely ht : World.Follows spec t)⟩
  issue permit row := by
    refine Moving.transaction fun db _ db' h => ?_
    obtain ⟨db'', hinsert, h⟩ := map_eq_ok.mp h
    cases h
    exact .issue row hinsert
  applyPreCommit := Moving.applyPreCommit
  commit e permit proposal texts now :=
    Moving.transaction fun db _ db' h => .commit _ (commitAll_eq_ok.mp h).2
  propose _ := fun _ hv =>
    (Prog.wp_atomically _).mpr fun t ht =>
      ⟨⟨trivial, .quiet rfl⟩, (hv.rely ht : World.Follows spec t)⟩
  look _ := .read _

end Moving

/-! ## A run by itself -/

/-- One run, with nobody next to it. -/
def Runner.alone (r : Runner) (proposals : List RawProposal) (spec : FailureSpec) :
    Runs Unit where
  runners _ := r
  proposals _ := proposals
  failures _ := spec

section Alone

variable {r : Runner} {proposals : List RawProposal} {spec : FailureSpec} {db : Database}
variable {n : Unit → ℕ} {c : Pool Unit PyError Database Local RunReport}

/-- The database fits for as long as there is room: a statement takes one of it. -/
theorem Runner.fits (h : Pool.Walks (fun _ _ => False) ((r.alone proposals spec).pool db) n c)
    {room bound : Nat} (hspec : ∀ change, spec.Asks change → change.Fits bound)
    (hbound : room + n () ≤ bound) (hdb : db.Fits (room + n ())) : c.shared.Fits room := by
  induction h generalizing room with
  | start => exact hdb
  | env _ move => exact move.elim
  | @act k b d i hwalk hact ih =>
      have hcount : Function.update k i (k i + 1) () = k () + 1 := Function.update_self ..
      rw [hcount] at hbound hdb
      have hverified : ((r.alone proposals spec).pool db).Verified (fun _ _ => True)
          fun v v' => spec.Moves v.shared v'.shared := fun _ =>
        Prog.wp_mono (fun _ _ _ => trivial) (moving.run r _ rfl)
      -- every statement the thread has still to make is accounted for
      have hb := (Pool.reachable_sound (fun _ => trivial) (fun _ _ _ _ _ => trivial)
        (fun _ _ h => h.elim) hverified (Pool.reaches_iff_walks.mpr ⟨_, hwalk⟩)).2
      have hmoves := (hact.guarantee (fun _ => trivial) hb).2
      -- the statement takes one of the room that was there before it
      refine Database.Fits.moves (ih (by omega : room + 1 + k () ≤ bound) ?_) hspec
        (by omega) hmoves
      rwa [show room + 1 + k () = room + (k () + 1) by omega]

/-- There is room in the columns for all a run may write, and in the calendar for all it may read
off its clock, the expiry of a permit included. -/
structure WithinRanges (r : Runner) (clock : FixedClock) (proposals : List RawProposal)
    (spec : FailureSpec) (db : Database) : Prop where
  columns : db.Fits ((r.alone proposals spec).statements ())
  changes : ∀ change, spec.Asks change →
    change.Fits ((r.alone proposals spec).statements ())
  instants : ∀ n ≤ (r.alone proposals spec).readings (),
    Instant.InCalendar (clock.now n) ∧
      Instant.InCalendar (clock.now n + seconds permitTtlSeconds)

/-- **Nothing leaves its range.**  Wherever the run has got to, every integer fits its column,
and every instant it has computed is one of the calendar: those it has read, the one its clock
stands at, and the expiry of a permit that was issued at one of them. -/
theorem WithinRanges.alone {clock : FixedClock} (h : WithinRanges r clock proposals spec db)
    (hwalk : Pool.Walks (fun _ _ => False) ((r.alone proposals spec).pool db) n c) :
    c.shared.Fits 0 ∧ ∀ k ≤ (c.threads ()).own.session.readings,
      Instant.InCalendar (clock.now k) ∧
        Instant.InCalendar (clock.now k + seconds permitTtlSeconds) := by
  -- the walk has at most as many steps as the run has statements
  have hstatements : n () ≤ (r.alone proposals spec).statements () := by
    have hspent := (Runs.spent { statement := 1 } hwalk ()).2
    rw [Runs.price_statement] at hspent
    simp only [Rates.tariff] at hspent
    omega
  refine ⟨?_, fun k hk => h.instants k (hk.trans (Runs.readings_le hwalk ()))⟩
  have hroom : ∀ {room : Nat}, db.Fits room → n () ≤ room → db.Fits (0 + n ()) := by
    intro room hfits hle
    induction hle with
    | refl => rwa [Nat.zero_add]
    | step _ ih => exact ih hfits.of_succ
  exact Runner.fits hwalk h.changes (by omega) (hroom h.columns hstatements)

end Alone

end BoundedRefund
