import BoundedRefund.Grounds

/-!
# The guarded row

Runs next to each other on one database, and others next to them.  The only thing a
run checks inside its commit transaction is the version of one row: the order of a
cancellation, the payment of a refund.

That is enough for that row.  Since everybody increments the version of what they
change, the row that is found at the version of the snapshot is the row of the
snapshot, in every field (`guarded_row_as_judged`).

A row that has moved on is refused, whatever else the transaction would have found
(`commit_refused`).
-/

namespace BoundedRefund

open Concurrent Relational

/-! ## Runs next to each other -/

/-- Runs with what each of them is given. -/
structure Runs (ι : Type) where
  runners : ι → Runner
  proposals : ι → List RawProposal
  failures : ι → FailureSpec

namespace Runs

variable {ι : Type} (runs : Runs ι)

/-- The pool of the runs, before any of them has begun. -/
def pool (db : Database) : Pool ι PyError Database Local RunReport where
  shared := db
  threads i := ⟨(runs.runners i).start (runs.proposals i) (runs.failures i), (runs.runners i).run⟩

/-- All the changes the injectors make are among `A`. -/
def Injecting (A : StateChange → Prop) : Prop :=
  ∀ i, ∀ entry ∈ (runs.failures i).preCommitChanges, ∀ change ∈ entry.2, A change

variable {runs} {A : StateChange → Prop} {i : ι}

/-- A run whose scenario only asks for changes among `A` commits on grounds. -/
theorem stands (hA : ∀ change, A change → change.Bumps)
    (hi : ∀ change, (runs.failures i).Asks change → A change) (db : Database) :
    (runs.pool db).Stands Later (Statement A (Grounded db)) i := by
  have hsound : Sound A db ((runs.pool db).view i) := by
    refine ⟨Later.refl db, ?_, ?_⟩
    · rintro change ⟨injector, hinjector, hasked⟩
      cases hinjector
      exact hi change hasked
    · intro permitId proposal hl
      cases hl
  exact (run_spec hA hsound).mono fun _ _ _ => trivial

/-- Every run of the pool commits on grounds. -/
theorem verified (hA : ∀ change, A change → change.Bumps) (hinj : runs.Injecting A)
    (db : Database) : (runs.pool db).Verified Later (Statement A (Grounded db)) :=
  fun i => stands hA (fun _ ⟨entry, hentry, hmem⟩ => hinj i entry hentry _ hmem) db

/-- What one statement of a run does, wherever it stands: it commits on grounds, and what it
injects is what its own scenario asks for. -/
theorem statement [DecidableEq ι] {E : Database → Database → Prop} {db : Database}
    {c c' : Pool ι PyError Database Local RunReport} (hE : ∀ db db', E db db' → Later db db')
    (hinj : runs.Injecting StateChange.Bumps) (hreach : Pool.Reaches E (runs.pool db) c)
    (hact : Pool.Act i c c') :
    Later c.shared c'.shared ∧ Statement (fun change => (runs.failures i).Asks change ∧
      change.Bumps) (Grounded db) (c.view i) (c'.view i) := by
  have hasks : ∀ change, (runs.failures i).Asks change →
      (runs.failures i).Asks change ∧ change.Bumps := by
    rintro change ⟨entry, hentry, hmem⟩
    exact ⟨⟨entry, hentry, hmem⟩, hinj i entry hentry change hmem⟩
  have hstands := Pool.reachable_stands Later.refl (fun _ _ _ => Later.trans) hE
    (verified (fun _ h => h) hinj db) (stands (fun _ h => h.2) hasks db) hreach
  exact hact.guaranteed Later.refl hstands

end Runs

/-- A statement that writes a row of the log is a commit, on grounds. -/
theorem Statement.commit_of_log {A : StateChange → Prop} {G : World → Execution → Prop}
    {v v' : World} (h : Statement A G v v') {row : MutationRow}
    (hlog : v'.shared.mutationLog = v.shared.mutationLog ++ [row]) :
    ∃ x, Cleared v.shared x ∧ G v x ∧ x.Commits v.shared v'.shared ∧ x.logRow = row := by
  have silent : v'.shared.mutationLog ≠ v.shared.mutationLog := by
    rw [hlog]
    simp
  cases h with
  | quiet h => exact absurd (congrArg Database.mutationLog h) silent
  | issue permit unused h =>
      obtain ⟨permits, -, heq⟩ := Database.insertPermit_eq_ok.mp h
      exact absurd (congrArg Database.mutationLog heq) silent
  | inject change may h =>
      rcases StateChange.apply_eq_ok h with ⟨-, -, heq⟩ | ⟨resource, -, -, heq⟩
      · exact absurd (congrArg Database.mutationLog heq) silent
      · cases resource <;> exact absurd (congrArg Database.mutationLog heq) silent
  | commit x cleared grounds h =>
      refine ⟨x, cleared, grounds, h, ?_⟩
      simpa [h.mutationLog] using hlog

/-! ## The row of the snapshot -/

section Guard

variable {since : Database} {v : World} {db' : Database} {x : Execution}
variable {s : PolicySnapshot} {d : PolicyResult}

/-- The order a warranted cancellation finds is the order of the snapshot. -/
theorem Warrant.order_row (hw : Warrant since v x.permit x.proposal s d)
    (hx : x.Commits v.shared db') (ha : x.proposal.action = .cancelOrder) :
    ∃ order shipment, CancelAllowed s d order shipment ∧
      v.shared.orders.find? x.permit.resourceId = some order.row ∧
      db'.orders.find? x.permit.resourceId = some order.row.cancelled := by
  obtain ⟨-, order, shipment, hallow⟩ | ⟨ha', -⟩ | ⟨ha', -⟩ :=
    evaluate_allow_cases hw.evaluated hw.allowed
  · have hres : x.permit.resourceId = order.orderId := by rw [hw.resource, hallow.decided]
    have hver : x.permit.expectedResourceVersion = order.version := by
      rw [hw.version, hallow.decided]
    obtain ⟨row, hfind, hpinned⟩ := hx.order_pinned ha
    have hrow : row = order.row := by
      refine (hw.read.order order hallow.order_read).find?_of_version_eq ?_ (hpinned.trans hver)
      exact (congrArg v.shared.orders.find? hres).symm.trans hfind
    subst hrow
    refine ⟨order, shipment, hallow, hfind, ?_⟩
    rcases hx.orders with ⟨-, horders, -⟩ | ⟨hne, -⟩
    · simp only [horders, Database.cancelRows, Table.find?_update, hfind, Option.map_some]
      simp [Database.orderGuard, hres, hver, Order.row]
    · exact absurd ha hne
  · rw [ha] at ha'
    cases ha'
  · rw [ha] at ha'
    cases ha'

/-- The payment a warranted refund finds is the payment of the snapshot. -/
theorem Warrant.payment_row (hw : Warrant since v x.permit x.proposal s d)
    (hx : x.Commits v.shared db') (ha : x.proposal.action = .issueRefund) :
    ∃ order payment policy amount, RefundAllowed x.proposal s d order payment policy amount ∧
      x.amount = amount ∧
      v.shared.payments.find? x.permit.resourceId = some payment.row ∧
      db'.payments.find? x.permit.resourceId = some (payment.row.refunded amount) := by
  obtain ⟨ha', -⟩ | ⟨-, order, payment, policy, amount, hallow⟩ | ⟨ha', -⟩ :=
    evaluate_allow_cases hw.evaluated hw.allowed
  · rw [ha] at ha'
    cases ha'
  · have hres : x.permit.resourceId = payment.paymentId := by rw [hw.resource, hallow.decided]
    have hver : x.permit.expectedResourceVersion = payment.version := by
      rw [hw.version, hallow.decided]
    have hamount : x.amount = amount := by
      simp [Execution.amount, ha, ActionProposal.amount, hallow.amount_eq]
    obtain ⟨row, hfind, hpinned⟩ := hx.payment_pinned ha
    have hrow : row = payment.row := by
      refine (hw.read.payment payment hallow.payment_read).find?_of_version_eq ?_
        (hpinned.trans hver)
      exact (congrArg v.shared.payments.find? hres).symm.trans hfind
    subst hrow
    refine ⟨order, payment, policy, amount, hallow, hamount, hfind, ?_⟩
    rcases hx.payments with ⟨-, hpayments⟩ | ⟨hne, -⟩
    · simp only [hpayments, Database.refundPayment, Table.find?_update, hfind, Option.map_some]
      simp [Database.paymentGuard, hres, hver, Payment.row, hamount]
    · exact absurd ha hne
  · rw [ha] at ha'
    cases ha'

end Guard

section Reachable

variable {ι : Type} [DecidableEq ι] {runs : Runs ι} {db : Database}
variable {c c' : Pool ι PyError Database Local RunReport} {i : ι} {row : MutationRow}

/-- A log row of a run that is no ticket stands for a warranted execution. -/
theorem warrant_of_logged (hinj : runs.Injecting StateChange.Bumps)
    (hreach : Pool.Reaches Later (runs.pool db) c) (hact : Pool.Act i c c')
    (hlog : c'.shared.mutationLog = c.shared.mutationLog ++ [row])
    (hrow : row.action ≠ .createSupportTicket) :
    ∃ (x : Execution) (s : PolicySnapshot) (d : PolicyResult),
      x.Commits c.shared c'.shared ∧ x.logRow = row ∧
        Warrant db (c.view i) x.permit x.proposal s d := by
  obtain ⟨-, hstatement⟩ := Runs.statement (fun _ _ h => h) hinj hreach hact
  obtain ⟨x, -, hgrounds, hcommits, rfl⟩ := hstatement.commit_of_log hlog
  rcases hgrounds with hticket | ⟨s, d, hwarrant⟩
  · exact absurd hticket hrow
  · exact ⟨x, s, d, hcommits, rfl, hwarrant⟩

/-- The history has a call in which the policy answered `ALLOW` on this snapshot, for a
proposal of this action. -/
def AllowedOn (history : List Call) (action : ActionName) (s : PolicySnapshot) : Prop :=
  ∃ call ∈ history, ∃ proposal d, call.judged = some (s, d) ∧
    evaluate (some proposal) s = .ok d ∧ d.decision = .allow ∧ proposal.action = action

/-- The row behind a log row, before and after: the order of a cancellation and the
payment of a refund are those of the snapshot, and go from an open status to the closed
one. -/
def PolicySnapshot.Guarded (s : PolicySnapshot) (row : MutationRow)
    (before after : Database) : Prop :=
  (row.action = .cancelOrder ∧ ∃ order, s.order = some order ∧
    (order.status = .paid ∨ order.status = .readyToShip) ∧
    before.orders.find? row.resourceId = some order.row ∧
    after.orders.find? row.resourceId = some { order.row with
      status := str OrderStatus.cancelled, version := order.version + 1 }) ∨
  (row.action = .issueRefund ∧ ∃ payment, s.payment = some payment ∧
    payment.status = .captured ∧ row.amountCents ≤ payment.capturedCents ∧
    before.payments.find? row.resourceId = some payment.row ∧
    after.payments.find? row.resourceId = some { payment.row with
      status := str PaymentStatus.refunded
      refundedCents := payment.refundedCents + row.amountCents
      version := payment.version + 1 })

/-- A warrant is a call of the history that allowed the action on its snapshot. -/
theorem Warrant.allowedOn {since : Database} {v : World} {permit : ExecutionPermit}
    {proposal : ActionProposal} {s : PolicySnapshot} {d : PolicyResult}
    (hw : Warrant since v permit proposal s d) :
    AllowedOn v.own.history proposal.action s := by
  obtain ⟨call, hmem, hcall⟩ := hw.judged
  exact ⟨call, hmem, proposal, d, hcall, hw.evaluated, hw.allowed, rfl⟩

/-- **The guarded row is the judged row.**  A run next to others, everybody
incrementing the version of what they change: when a cancellation or a refund is
committed, the row it updates equals the row of the snapshot on which the policy
answered `ALLOW`, in every field.  So the order goes from `PAID` or `READY_TO_SHIP`
to `CANCELLED`, the payment from `CAPTURED` to `REFUNDED` by no more than it captured,
and the version grows by one. -/
theorem guarded_row_as_judged (hinj : runs.Injecting StateChange.Bumps)
    (hreach : Pool.Reaches Later (runs.pool db) c) (hact : Pool.Act i c c')
    (hlog : c'.shared.mutationLog = c.shared.mutationLog ++ [row])
    (hrow : row.action ≠ .createSupportTicket) :
    ∃ s, AllowedOn (c.threads i).own.history row.action s ∧
      s.Guarded row c.shared c'.shared := by
  obtain ⟨x, s, d, hcommits, rfl, hwarrant⟩ := warrant_of_logged hinj hreach hact hlog hrow
  refine ⟨s, hwarrant.allowedOn, ?_⟩
  cases ha : x.proposal.action with
  | cancelOrder =>
      obtain ⟨order, shipment, hallow, hbefore, hafter⟩ := hwarrant.order_row hcommits ha
      exact Or.inl ⟨ha, order, hallow.order_read, hallow.status, hbefore, hafter⟩
  | issueRefund =>
      obtain ⟨order, payment, policy, amount, hallow, hamount, hbefore, hafter⟩ :=
        hwarrant.payment_row hcommits ha
      have hlogged : x.logRow.amountCents = amount := hamount
      refine Or.inr ⟨ha, payment, hallow.payment_read, hallow.status, ?_, hbefore, ?_⟩
      · rw [hlogged]
        exact hallow.within_captured
      · rw [hlogged]
        exact hafter
  | createSupportTicket => exact absurd ha hrow

end Reachable

/-! ## A parcel that is picked up on the way -/

/-- The carrier picks the parcel up. -/
def pickUp : StateChange where
  resource := "shipment"
  resourceId := "shp_ord_0001"
  setValues := [.status (str ShipmentStatus.shipped)]

/-- Two runs on one order; the parcel of each is picked up on the way. -/
def overtakenRuns : Runs Bool where
  runners b :=
    { clock := fun _ => defaultClockBase, runId := if b then "run_b" else "run_a"
      scenarioId := "overtaken" }
  proposals _ := [.proposal cancelFirst]
  failures _ := { preCommitChanges := [(str ActionName.cancelOrder, [pickUp])] }

/-- The order overtaken there is bumped. -/
theorem overtakenRuns_bump : overtakenRuns.Injecting StateChange.Bumps := by
  intro i entry hentry change hmem
  obtain rfl := List.mem_singleton.mp hentry
  obtain rfl := List.mem_singleton.mp hmem
  exact Or.inl rfl

/-- The first run stands before its commit, the parcel is gone. -/
def shippedMeanwhile : Pool Bool PyError Database Local RunReport :=
  (fun c => c.next false)^[30] (overtakenRuns.pool (seedWorld [("ord_0001", .paid)]))

/-- The row the commit writes. -/
def cancelledRow : MutationRow where
  runId := "run_a"
  action := .cancelOrder
  resourceId := "ord_0001"
  amountCents := 0
  createdAt := toIso defaultClockBase

/-- The next statement of the run is a step. -/
theorem shippedMeanwhile_act :
    Pool.Act false shippedMeanwhile (shippedMeanwhile.next false) :=
  Pool.act_next (by decide +kernel)

/-- It is the commit of the cancel. -/
theorem shippedMeanwhile_logs : (shippedMeanwhile.next false).shared.mutationLog =
    shippedMeanwhile.shared.mutationLog ++ [cancelledRow] := by
  decide +kernel

theorem guarded_row_shippedMeanwhile :
    ∃ s, AllowedOn (shippedMeanwhile.threads false).own.history cancelledRow.action s ∧
      s.Guarded cancelledRow shippedMeanwhile.shared (shippedMeanwhile.next false).shared :=
  guarded_row_as_judged overtakenRuns_bump (Pool.reaches_iterate _ false 30)
    shippedMeanwhile_act shippedMeanwhile_logs (by decide)

/-! ## The pinned version -/

/-- The record whose version a permit for the action pins. -/
def pinnedRecord : ActionName → RecordName
  | .issueRefund => .payment
  | .cancelOrder | .createSupportTicket => .order

/-- The version of the row that permits for the action and the resource pin. -/
def Database.pinnedVersion (db : Database) (resourceId : String) : ActionName → Option Int
  | .issueRefund => (db.payments.find? resourceId).map PaymentRow.version
  | .cancelOrder | .createSupportTicket => (db.orders.find? resourceId).map OrderRow.version

/-- The version only grows. -/
theorem Aging.pinnedVersion {db db' : Database} (h : Aging db db') {resourceId : String}
    {action : ActionName} {version : Int}
    (hversion : db.pinnedVersion resourceId action = some version) :
    ∃ version', db'.pinnedVersion resourceId action = some version' ∧ version ≤ version' := by
  cases action <;> simp only [Database.pinnedVersion, Option.map_eq_some_iff] at hversion ⊢ <;>
    obtain ⟨row, hrow, rfl⟩ := hversion
  · obtain ⟨row', hrow', hle⟩ := h.orders _ _ hrow
    exact ⟨row'.version, ⟨row', hrow', rfl⟩, hle⟩
  · obtain ⟨row', hrow', hle⟩ := h.payments _ _ hrow
    exact ⟨row'.version, ⟨row', hrow', rfl⟩, hle⟩
  · obtain ⟨row', hrow', hle⟩ := h.orders _ _ hrow
    exact ⟨row'.version, ⟨row', hrow', rfl⟩, hle⟩

/-- The row the permit pins has moved past the pinned version. -/
def Database.MovedPast (db : Database) (permit : ExecutionPermit) (action : ActionName) : Prop :=
  ∃ version, db.pinnedVersion permit.resourceId action = some version ∧
    permit.expectedResourceVersion < version

/-- There is no way back. -/
theorem Database.MovedPast.aging {db db' : Database} {permit : ExecutionPermit}
    {action : ActionName} (h : db.MovedPast permit action) (haging : Aging db db') :
    db'.MovedPast permit action := by
  obtain ⟨version, hversion, hlt⟩ := h
  obtain ⟨version', hversion', hle⟩ := haging.pinnedVersion hversion
  exact ⟨version', hversion', hlt.trans_le hle⟩

/-- The transaction of an execution whose row has moved is refused. -/
theorem commitAll_movedPast (e : Executor) (texts : TicketTexts) (now : Instant)
    {permit : ExecutionPermit} {proposal : ActionProposal} {db : Database}
    (haction : permit.action = proposal.action)
    (hamount : proposal.amount ≤ permit.maxAmountCents)
    (htarget : proposal.action = .cancelOrder → permit.resourceId = proposal.orderId)
    (ha : proposal.action ≠ .createSupportTicket)
    (hmoved : db.MovedPast permit proposal.action) :
    ∃ resourceId version, e.commitAll (e.authorization permit) permit proposal texts now db =
      .error (.staleResource resourceId version) := by
  cases hact : proposal.action with
  | cancelOrder =>
      rw [hact] at hmoved
      obtain ⟨_, hversion, hlt⟩ := hmoved
      obtain ⟨row, hrow, rfl⟩ := Option.map_eq_some_iff.mp hversion
      have hrows : db.orders.rowcount
          (Database.orderGuard proposal.orderId permit.expectedResourceVersion) ≠ 1 := by
        rw [Ne, rowcount_orderGuard]
        rintro ⟨row', hrow', hver⟩
        -- the guard asks for the version of the permit, and the row is past it
        rw [← htarget hact, hrow] at hrow'
        cases hrow'
        omega
      refine ⟨proposal.orderId, permit.expectedResourceVersion, ?_⟩
      simp [Executor.commitAll, Executor.write, hact, cancelOrder, require, Executor.authorization,
        haction, htarget hact, hrows, bind, Except.bind, throw, throwThe, MonadExceptOf.throw]
  | issueRefund =>
      rw [hact] at hmoved
      obtain ⟨_, hversion, hlt⟩ := hmoved
      obtain ⟨row, hrow, rfl⟩ := Option.map_eq_some_iff.mp hversion
      have hrows : db.payments.rowcount
          (Database.paymentGuard permit.resourceId permit.expectedResourceVersion) ≠ 1 := by
        rw [Ne, rowcount_paymentGuard]
        rintro ⟨row', hrow', hver⟩
        rw [hrow] at hrow'
        cases hrow'
        omega
      refine ⟨permit.resourceId, permit.expectedResourceVersion, ?_⟩
      simp [Executor.commitAll, Executor.write, hact, issueRefund, require,
        Executor.authorization, haction, not_lt.mpr hamount, hrows, bind, Except.bind, throw,
        throwThe, MonadExceptOf.throw]
  | createSupportTicket => exact absurd hact ha

end BoundedRefund
