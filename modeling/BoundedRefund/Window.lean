import BoundedRefund.DecisionTable
import BoundedRefund.Limits

/-!
# The window of automatic refunds

A delivered order is to be refunded automatically only inside its window.  The rule
does not ask whether the order was delivered, it asks whether a delivery time is
recorded, and the two are columns of their own.  So an order that is `DELIVERED`
without a time is refunded however long ago that was (`refunded_without_date`), and
`refunds_inside_window` says that this, and a window blurred by doubles, is all.
-/

namespace BoundedRefund

open Concurrent Relational

/-! ## The rule -/

/-- An order that was delivered was delivered at a recorded time, at most the window of
its policy before `now`. -/
def InsideWindow (now : Instant) (order : Order) (policy : RefundPolicy) : Prop :=
  order.status = .delivered → ∃ text deliveredAt, order.deliveredAt = some text ∧
    parseIso text = .ok deliveredAt ∧
    exactDays (now - deliveredAt) ≤ policy.postDeliveryWindowDays

/-- An order that was delivered has a delivery time, and if the window is over, it is over
by a double. -/
def Dated (now : Instant) (order : Order) (policy : RefundPolicy) : Prop :=
  order.status = .delivered → order.deliveredAt.isSome = true ∧
    (overdue exactDays now order policy = true → overdue elapsedDays now order policy = true)

section Rule

variable {proposal : ActionProposal} {s : PolicySnapshot} {d : PolicyResult} {order : Order}
variable {payment : Payment} {policy : RefundPolicy} {amount : Int}

/-- What is allowed is a refund, and its window was looked at. -/
theorem RefundAllowed.window (h : RefundAllowed proposal s d order payment policy amount)
    (heval : evaluate (some proposal) s = .ok d) :
    evaluateWindow s order policy d = .ok d := by
  have hallow : d.decision = .allow := by rw [h.decided]
  obtain ⟨-, o, sh, hcancel⟩ | ⟨ha, -⟩ | ⟨-, o, hticket⟩ := evaluate_allow_cases heval hallow
  · cases h.decided.symm.trans hcancel.decided
  · simp only [evaluate] at heval
    split_ifs at heval
    · cases heval
      cases hallow
    · have hcaptured : ¬payment.status = .refunded := by rw [h.status]; decide
      simp only [ha, evaluateRefund, h.order_read, h.payment_read, h.policy_read, h.amount_eq,
        if_neg hcaptured, if_neg (not_le.mpr h.amount_pos), if_neg (not_lt.mpr h.within_captured),
        if_neg (not_lt.mpr h.within_limit)] at heval
      rwa [← h.decided] at heval
  · cases h.decided.symm.trans hticket.decided

/-- **When an automatic refund is inside its window.** -/
theorem RefundAllowed.inside_iff (h : RefundAllowed proposal s d order payment policy amount)
    (heval : evaluate (some proposal) s = .ok d) :
    InsideWindow s.now order policy ↔ Dated s.now order policy := by
  have hwindow := h.window heval
  refine imp_congr_right fun _ => ?_
  cases htext : order.deliveredAt with
  | none => simp
  | some text =>
      cases hparse : parseIso text with
      | error err => simp [evaluateWindow, htext, hparse, bind, Except.bind] at hwindow
      | ok deliveredAt =>
          have hinside : overdue elapsedDays s.now order policy = false := by
            by_contra hover
            have hdue : overdue elapsedDays s.now order policy = true := by simpa using hover
            obtain ⟨d', hd', hreason⟩ := evaluateWindow_of_overdue hdue
            rw [hd'] at hwindow
            cases hwindow
            simp [h.decided] at hreason
          have hnot : ¬(policy.postDeliveryWindowDays : ℚ) <
              elapsedDays (s.now - deliveredAt) := by
            simpa [overdue, htext, hparse] using hinside
          simp [overdue, htext, hparse, hnot]

end Rule

/-! ## Runs -/

/-- **When a run refunds delivered orders inside their windows.**  However a run stops: each
refund it has made was decided for the order of its payment, on records that were read for
it, and that order is inside its window exactly where it is dated. -/
theorem refunds_inside_window (r : Runner) (proposals : List RawProposal)
    (failures : FailureSpec) (db : Database) :
    let stopped := (r.run.run ⟨db, r.start proposals failures⟩).2
    ∃ added, stopped.shared.refunds.rows = db.refunds.rows ++ added ∧
      ∀ refund ∈ added, ∃ call ∈ stopped.own.history, ∃ proposal s d order payment policy,
        Judged r call proposal s d ∧
        RefundAllowed proposal s d order payment policy refund.amountCents ∧
        refund.orderId = order.orderId ∧ policy.policyId = order.policyId ∧
        (InsideWindow s.now order policy ↔ Dated s.now order policy) := by
  intro stopped
  obtain ⟨added, hadded, hdecided⟩ := refunds_decided r proposals failures db
  refine ⟨added, hadded, fun refund hmem => ?_⟩
  obtain ⟨order, payment, policy, hdecided⟩ := hdecided refund hmem
  obtain ⟨call, hcall, proposal, s, d, hjudged, hallowed⟩ := hdecided.judged
  exact ⟨call, hcall, proposal, s, d, order, payment, policy, hjudged, hallowed,
    hdecided.orderId, hdecided.policyId, hallowed.inside_iff hjudged.evaluated⟩

/-! ## Delivered, and nobody wrote down when -/

/-- The first order was delivered, and its delivery time is missing. -/
def undatedWorld : Database := seedWorld [("ord_0001", .delivered)]

/-- Where a run stops that asks for a refund there. -/
def undatedStopped : World :=
  (firstOrderRunner.run.run ⟨undatedWorld,
    firstOrderRunner.start [.proposal refundFirst] {}⟩).2

/-- The decision was an `ALLOW` on a snapshot whose order is `DELIVERED` at no known time. -/
def Call.allowedUndated (call : Call) : Bool :=
  call.judged.any fun judged => judged.2.decision = .allow &&
    judged.1.order.any fun order => order.status = .delivered && order.deliveredAt.isNone

/-- It is refunded, without a human. -/
theorem refunded_without_date :
    undatedStopped.shared.refunds.rows.map (fun row => (row.orderId, row.amountCents)) =
        [("ord_0001", 5000)] ∧
      undatedStopped.own.history.map Call.allowedUndated = [true] ∧
      undatedStopped.shared.supportTickets.rows = [] := by
  refine ⟨?_, ?_, ?_⟩ <;> decide +kernel

end BoundedRefund
