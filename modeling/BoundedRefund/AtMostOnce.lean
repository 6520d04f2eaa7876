import BoundedRefund.Guard

/-!
# At most once per resource

Runs that are the only writers of a database.  Two of them may hold valid permits for
one payment; only one can use it.  A refund finds its payment as the policy judged it,
which is `CAPTURED`, and leaves it `REFUNDED`; nothing a run does takes a payment back
(`Closing`).  So a payment with a refund is closed, and no second refund finds it
open.  Orders and cancellations are the same story.
-/

namespace BoundedRefund

open Concurrent Relational

/-- No one else writes. -/
def Nobody (_db _db' : Database) : Prop := False

/-! ## Closed rows stay closed -/

/-- Once cancelled, always cancelled. -/
def OrderRow.Closes (row row' : OrderRow) : Prop :=
  row.status = str OrderStatus.cancelled → row'.status = str OrderStatus.cancelled

/-- Once refunded, always refunded; and what was captured is not touched. -/
def PaymentRow.Closes (row row' : PaymentRow) : Prop :=
  (row.status = str PaymentStatus.refunded → row'.status = str PaymentStatus.refunded) ∧
    row'.capturedCents = row.capturedCents

/-- From one database to a later one, no closed row of an order or a payment is opened again. -/
structure Closing (db db' : Database) : Prop where
  orders : Along OrderRow.Closes db.orders db'.orders
  payments : Along PaymentRow.Closes db.payments db'.payments

namespace Closing

variable {db db' : Database}

theorem refl (db : Database) : Closing db db :=
  ⟨Along.refl (fun _ h => h) _, Along.refl (fun _ => ⟨id, rfl⟩) _⟩

/-- What is closed stays closed over two steps. -/
theorem trans {db'' : Database} (h : Closing db db') (h' : Closing db' db'') :
    Closing db db'' :=
  ⟨h.orders.trans (fun _ _ _ s s' h => s' (s h)) h'.orders,
    h.payments.trans (fun _ _ _ s s' => ⟨fun h => s'.1 (s.1 h), s'.2.trans s.2⟩) h'.payments⟩

/-- A step that leaves both tables alone closes nothing and opens nothing. -/
theorem of_eq (horders : db'.orders = db.orders) (hpayments : db'.payments = db.payments) :
    Closing db db' :=
  ⟨horders ▸ (refl db).orders, hpayments ▸ (refl db).payments⟩

/-- An execution cancels an order or refunds a payment, and opens no closed row. -/
theorem commits {x : Execution} (h : x.Commits db db') : Closing db db' where
  orders := by
    rcases h.orders with ⟨-, ho, -⟩ | ⟨-, ho, -⟩ <;> rw [ho]
    · exact Along.update (fun _ h => h) OrderRow.cancelled_orderId fun row _ _ _ => rfl
    · exact (refl db).orders
  payments := by
    rcases h.payments with ⟨-, hp⟩ | ⟨-, hp⟩ <;> rw [hp]
    · exact Along.update (fun _ => ⟨id, rfl⟩) (fun row => row.refunded_paymentId x.amount)
        fun row _ _ => ⟨fun _ => rfl, rfl⟩
    · exact (refl db).payments

/-- No statement of a run without injected changes reopens anything. -/
theorem statement {G : World → Execution → Prop} {v v' : World}
    (h : Statement (fun _ => False) G v v') : Closing v.shared v'.shared := by
  cases h with
  | quiet h => exact h ▸ refl _
  | issue permit unused h =>
      obtain ⟨permits, -, heq⟩ := Database.insertPermit_eq_ok.mp h
      rw [heq]
      exact of_eq rfl rfl
  | inject change may => exact may.elim
  | commit x cleared grounds h => exact commits h

end Closing

/-- The order is cancelled. -/
def Database.Cancelled (db : Database) (orderId : String) : Prop :=
  ∃ order, db.orders.find? orderId = some order ∧ order.status = str OrderStatus.cancelled

/-- The payment is refunded, and captured no less than the amount. -/
def Database.Refunded (db : Database) (paymentId : String) (amountCents : Int) : Prop :=
  ∃ payment, db.payments.find? paymentId = some payment ∧
    payment.status = str PaymentStatus.refunded ∧ amountCents ≤ payment.capturedCents

/-- A cancelled order stays cancelled. -/
theorem Closing.cancelled {db db' : Database} (h : Closing db db') {orderId : String}
    (hc : db.Cancelled orderId) : db'.Cancelled orderId := by
  obtain ⟨order, hfind, hstatus⟩ := hc
  obtain ⟨order', hfind', hcloses⟩ := h.orders _ _ hfind
  exact ⟨order', hfind', hcloses hstatus⟩

/-- A refunded payment stays refunded, with the amount. -/
theorem Closing.refunded {db db' : Database} (h : Closing db db') {paymentId : String}
    {amountCents : Int} (hr : db.Refunded paymentId amountCents) :
    db'.Refunded paymentId amountCents := by
  obtain ⟨payment, hfind, hstatus, hle⟩ := hr
  obtain ⟨payment', hfind', hcloses, hcaptured⟩ := h.payments _ _ hfind
  exact ⟨payment', hfind', hcloses hstatus, hcaptured ▸ hle⟩

/-! ## The invariant -/

/-- The refunds of a payment. -/
def Database.refundsOf (db : Database) (paymentId : String) : List RefundRow :=
  db.refunds.rows.filter fun row => row.paymentId = paymentId

/-- The log rows of the cancellations of an order. -/
def Database.cancelsOf (db : Database) (orderId : String) : List MutationRow :=
  db.mutationLog.filter fun row => row.action = .cancelOrder ∧ row.resourceId = orderId

/-- What the runs have done to `db₀` so far. -/
structure AtMostOnce (db₀ db : Database) : Prop where
  closing : Closing db₀ db
  refunds_nodup : (db.refunds.rows.map RefundRow.paymentId).Nodup
  refunded : ∀ refund ∈ db.refunds.rows, db.Refunded refund.paymentId refund.amountCents
  cancels : ∀ orderId, db.cancelsOf orderId = db₀.cancelsOf orderId ∨
    (db.Cancelled orderId ∧ ¬ db₀.Cancelled orderId ∧
      (db.cancelsOf orderId).length = (db₀.cancelsOf orderId).length + 1)

namespace AtMostOnce

variable {db₀ db db' : Database}

/-- Where nothing was refunded yet, the bound holds. -/
theorem init (h : db.refunds.rows = []) : AtMostOnce db db where
  closing := Closing.refl db
  refunds_nodup := by simp [h]
  refunded := by simp [h]
  cancels _ := Or.inl rfl

/-- A statement that cancels nothing. -/
theorem cancels_kept (h : AtMostOnce db₀ db) (hclosing : Closing db db') {orderId : String}
    (heq : db'.cancelsOf orderId = db.cancelsOf orderId) :
    db'.cancelsOf orderId = db₀.cancelsOf orderId ∨
      (db'.Cancelled orderId ∧ ¬ db₀.Cancelled orderId ∧
        (db'.cancelsOf orderId).length = (db₀.cancelsOf orderId).length + 1) := by
  rw [heq]
  exact (h.cancels orderId).imp_right fun ⟨hc, hrest⟩ => ⟨hclosing.cancelled hc, hrest⟩

/-- A statement that neither refunds nor cancels. -/
theorem step (h : AtMostOnce db₀ db) (hclosing : Closing db db')
    (hrefunds : db'.refunds.rows = db.refunds.rows)
    (hcancels : ∀ orderId, db'.cancelsOf orderId = db.cancelsOf orderId) :
    AtMostOnce db₀ db' where
  closing := h.closing.trans hclosing
  refunds_nodup := hrefunds ▸ h.refunds_nodup
  refunded refund hmem := hclosing.refunded (h.refunded refund (hrefunds ▸ hmem))
  cancels orderId := h.cancels_kept hclosing (hcancels orderId)

/-- An execution adds its own row to the cancels of its order. -/
theorem cancelsOf_commits {x : Execution} (hx : x.Commits db db') (orderId : String) :
    db'.cancelsOf orderId = db.cancelsOf orderId ++
      if x.proposal.action = .cancelOrder ∧ x.permit.resourceId = orderId then [x.logRow]
      else [] := by
  rw [Database.cancelsOf, hx.mutationLog, List.filter_append]
  congr 1
  by_cases hp : x.proposal.action = .cancelOrder ∧ x.permit.resourceId = orderId
  · simp [Execution.logRow, hp]
  · rw [if_neg hp, List.filter_singleton]
    simp only [Execution.logRow] at hp ⊢
    simp [hp]

/-- The cancellation of an open order. -/
theorem cancel (h : AtMostOnce db₀ db) {x : Execution} (hx : x.Commits db db')
    (ha : x.proposal.action = .cancelOrder) (hopen : ¬ db.Cancelled x.permit.resourceId)
    (hclosed : db'.Cancelled x.permit.resourceId) : AtMostOnce db₀ db' := by
  have hclosing := Closing.commits hx
  have hrefunds : db'.refunds.rows = db.refunds.rows := by simp [hx.refunds, ha]
  refine { closing := h.closing.trans hclosing, refunds_nodup := hrefunds ▸ h.refunds_nodup,
           refunded := ?_, cancels := fun orderId => ?_ }
  · exact fun refund hmem => hclosing.refunded (h.refunded refund (hrefunds ▸ hmem))
  have hcancels := cancelsOf_commits hx orderId
  by_cases hid : x.permit.resourceId = orderId
  · subst hid
    refine Or.inr ⟨hclosed, fun hstart => hopen (h.closing.cancelled hstart), ?_⟩
    rcases h.cancels x.permit.resourceId with heq | ⟨hcancelled, -⟩
    · simp [hcancels, ha, heq]
    · exact absurd hcancelled hopen
  · exact h.cancels_kept hclosing (by simpa [hid] using hcancels)

/-- The refund of an open payment. -/
theorem refund (h : AtMostOnce db₀ db) {x : Execution} (hx : x.Commits db db')
    (ha : x.proposal.action = .issueRefund)
    (hopen : ∀ amountCents, ¬ db.Refunded x.permit.resourceId amountCents)
    (hclosed : db'.Refunded x.permit.resourceId x.amount) : AtMostOnce db₀ db' := by
  have hclosing := Closing.commits hx
  have hrefunds : db'.refunds.rows = db.refunds.rows ++ [x.refundRow] := by
    simp [hx.refunds, ha]
  refine { closing := h.closing.trans hclosing, refunds_nodup := ?_, refunded := ?_,
           cancels := fun orderId => ?_ }
  · rw [hrefunds, List.map_append, List.map_singleton]
    refine h.refunds_nodup.append (List.nodup_singleton _) ?_
    rw [List.disjoint_singleton, List.mem_map]
    rintro ⟨other, hmem, hid⟩
    have hother := h.refunded other hmem
    rw [hid] at hother
    exact hopen _ hother
  · intro refund hmem
    rw [hrefunds, List.mem_append, List.mem_singleton] at hmem
    rcases hmem with hmem | rfl
    · exact hclosing.refunded (h.refunded refund hmem)
    · exact hclosed
  · exact h.cancels_kept hclosing (by simp [cancelsOf_commits hx, ha])

/-- Every statement of a run keeps the invariant. -/
theorem statement {since : Database} {v v' : World}
    (hs : Statement (fun _ => False) (Grounded since) v v')
    (h : AtMostOnce db₀ v.shared) : AtMostOnce db₀ v'.shared := by
  have hclosing := Closing.statement hs
  cases hs with
  | quiet heq => exact heq ▸ h
  | issue permit unused hins =>
      obtain ⟨permits, -, heq⟩ := Database.insertPermit_eq_ok.mp hins
      exact h.step hclosing (by rw [heq]) fun _ => by rw [heq]; rfl
  | inject change may => exact may.elim
  | commit x cleared grounds hx =>
      cases ha : x.proposal.action with
      | createSupportTicket =>
          exact h.step hclosing (by simp [hx.refunds, ha]) fun _ => by
            simp [cancelsOf_commits hx, ha]
      | cancelOrder =>
          rcases grounds with hticket | ⟨s, d, hw⟩
          · simp [ha] at hticket
          obtain ⟨order, shipment, hallow, hbefore, hafter⟩ := hw.order_row hx ha
          refine h.cancel hx ha ?_ ⟨_, hafter, rfl⟩
          -- the row is at the version it was judged at, and was judged open
          rintro ⟨row, hfind, hstatus⟩
          rw [hbefore] at hfind
          cases hfind
          rcases hallow.status with hs | hs <;> simp [Order.row, hs, str, StrEnum.value] at hstatus
      | issueRefund =>
          rcases grounds with hticket | ⟨s, d, hw⟩
          · simp [ha] at hticket
          obtain ⟨order, payment, policy, amount, hallow, hamount, hbefore, hafter⟩ :=
            hw.payment_row hx ha
          refine h.refund hx ha ?_ ⟨_, hafter, rfl, hamount ▸ hallow.within_captured⟩
          rintro amountCents ⟨row, hfind, hstatus, -⟩
          rw [hbefore] at hfind
          cases hfind
          simp [Payment.row, hallow.status, str, StrEnum.value] at hstatus

/-- No payment has two refunds. -/
theorem refundsOf_length (h : AtMostOnce db₀ db) (paymentId : String) :
    (db.refundsOf paymentId).length ≤ 1 := by
  have hcount := List.nodup_iff_count_le_one.mp h.refunds_nodup paymentId
  rw [List.count, List.countP_map, List.countP_eq_length_filter] at hcount
  simpa [Database.refundsOf, Function.comp_def, beq_eq_decide] using hcount

/-- The one refund of a payment is within what the payment captured. -/
theorem refundsOf_sum (h : AtMostOnce db₀ db) (payment : PaymentRow)
    (hmem : payment ∈ db.payments.rows) (hcaptured : 0 ≤ payment.capturedCents) :
    ((db.refundsOf payment.paymentId).map RefundRow.amountCents).sum ≤
      payment.capturedCents := by
  have hlen := h.refundsOf_length payment.paymentId
  match hrefunds : db.refundsOf payment.paymentId with
  | [] => simpa using hcaptured
  | [refund] =>
      have hmem' : refund ∈ db.refundsOf payment.paymentId := by simp [hrefunds]
      obtain ⟨hrefund, hid⟩ := List.mem_filter.mp hmem'
      obtain ⟨row, hfind, -, hle⟩ := h.refunded refund hrefund
      rw [of_decide_eq_true hid, Table.find?_of_mem hmem] at hfind
      cases hfind
      simpa using hle
  | _ :: _ :: _ => simp [hrefunds] at hlen

end AtMostOnce

/-! ## Every interleaving -/

section Reachable

variable {ι : Type} [DecidableEq ι] {runs : Runs ι} {db : Database}
variable {c c' : Pool ι PyError Database Local RunReport}

/-- What holds of the store and is kept by every statement of the runs, holds of
whatever they reach. -/
theorem invariant_of_statement {since : Database} {J : Database → Prop}
    (hact : ∀ v v' : World, Statement (fun _ => False) (Grounded since) v v' → J v.shared →
      J v'.shared)
    (hc : c.Verified Later (Statement (fun _ => False) (Grounded since)))
    (h : Pool.Reaches Nobody c c') (hJ : J c.shared) : J c'.shared :=
  Pool.reachable_invariant Later.refl (fun _ _ _ => Later.trans) (fun _ _ h => h.elim)
    (fun _ _ h => h.elim) (fun v v' _ => hact v v') hc h hJ

/-- **Money and cancellation, once per resource.**  Runs are the only writers, and no
refund has been made yet.  However their statements interleave: a payment has at most
one refund, and its refunds sum to at most what it captured; the runs log at most one
cancellation of an order, and none of an order that was cancelled before; and what is
`CANCELLED` or `REFUNDED` stays so. -/
theorem at_most_once (hquiet : runs.Injecting fun _ => False) (hrefunds : db.refunds.rows = [])
    (hreach : Pool.Reaches Nobody (runs.pool db) c) :
    (∀ paymentId, (c.shared.refundsOf paymentId).length ≤ 1) ∧
    (∀ payment ∈ c.shared.payments.rows, 0 ≤ payment.capturedCents →
      ((c.shared.refundsOf payment.paymentId).map RefundRow.amountCents).sum ≤
        payment.capturedCents) ∧
    (∀ orderId, (c.shared.cancelsOf orderId).length ≤ (db.cancelsOf orderId).length + 1 ∧
      (db.Cancelled orderId → c.shared.cancelsOf orderId = db.cancelsOf orderId)) ∧
    ∀ c', Pool.Reaches Nobody c c' →
      (∀ orderId, c.shared.Cancelled orderId → c'.shared.Cancelled orderId) ∧
      ∀ payment ∈ c.shared.payments.rows, payment.status = str PaymentStatus.refunded →
        ∃ payment', c'.shared.payments.find? payment.paymentId = some payment' ∧
          payment'.status = str PaymentStatus.refunded := by
  have hverified := Runs.verified (fun _ h => h.elim) hquiet db
  have hinv := invariant_of_statement (J := AtMostOnce db) (fun _ _ hs h => h.statement hs)
    hverified hreach (AtMostOnce.init hrefunds)
  refine ⟨hinv.refundsOf_length, hinv.refundsOf_sum, fun orderId => ?_, fun c' hlater => ?_⟩
  · rcases hinv.cancels orderId with heq | ⟨-, hopen, hlen⟩
    · exact ⟨by rw [heq]; omega, fun _ => heq⟩
    · exact ⟨hlen.le, fun hstart => absurd hstart hopen⟩
  · have hstill := (Pool.reachable_sound Later.refl (fun _ _ _ => Later.trans)
      (fun _ _ h => h.elim) hverified hreach).2
    have hclosing := invariant_of_statement (J := Closing c.shared)
      (fun _ _ hs h => h.trans (Closing.statement hs)) hstill hlater (Closing.refl _)
    refine ⟨fun orderId => hclosing.cancelled, fun payment hmem hstatus => ?_⟩
    obtain ⟨payment', hfind, hcloses, -⟩ := hclosing.payments _ _ (Table.find?_of_mem hmem)
    exact ⟨payment', hfind, hcloses hstatus⟩

end Reachable

/-- Two runs that are asked for the same refund. -/
def rivalRuns : Runs Bool where
  runners b :=
    { clock := fun _ => defaultClockBase, runId := if b then "run_b" else "run_a"
      scenarioId := "rivals" }
  proposals _ := [.proposal refundFirst]
  failures _ := {}

/-- The first run has its permit and waits while the second one runs to its end. -/
def rivals : Pool Bool PyError Database Local RunReport :=
  (((fun c => c.next false)^[25] (rivalRuns.pool (seedWorld [("ord_0001", .paid)]))).finish
    true).finish false

theorem at_most_once_rivals : (rivals.shared.refundsOf "pay_ord_0001").length ≤ 1 :=
  (at_most_once (fun i entry hentry => by cases i <;> cases hentry) rfl
    ((Pool.reaches_iterate _ false 25).trans ((Pool.reaches_finish _ true).trans
      (Pool.reaches_finish _ false)))).1 _

/-- Both had a permit, one was refused. -/
example : rivals.shared.executionPermits.rows.map PermitRow.used = [false, true] ∧
    (rivals.shared.refundsOf "pay_ord_0001").map RefundRow.runId = ["run_b"] := by
  decide +kernel

end BoundedRefund
