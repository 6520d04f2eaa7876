import BoundedRefund.Policy
import BoundedRefund.World
import BoundedRefund.Tabular.FirstMatch

/-!
# The documented decision table

The table of the design document, row by row and in its order, with the limit and
the window of the refund policy in place of the constants.  A row is established by
the records the snapshot holds; a record that could not be read establishes
nothing.

The two rows below `insufficient_information` are not about a snapshot: stale state
is found by the executor, and a validated proposal passes the schema.
-/

namespace BoundedRefund

open Tabular

/-! ## The table -/

/-- What a row is matched against. -/
structure Situation where
  proposal : ActionProposal
  snapshot : PolicySnapshot

/-- A row of the table: when it applies, and what is decided then. -/
abbrev DecisionRow := Row Situation (Decision × ReasonCode)

/-- Delivered more than the window of the policy ago, as `days` measures it.  A time
that is not recorded or cannot be read tells nothing. -/
def overdue (days : Int → ℚ) (now : Instant) (order : Order) (policy : RefundPolicy) : Bool :=
  match order.deliveredAt.map parseIso with
  | some (.ok deliveredAt) =>
      decide ((policy.postDeliveryWindowDays : ℚ) < days (now - deliveredAt))
  | _ => false

/-- For a window of up to 2 ^ 16 days the two measures agree. -/
theorem overdue_elapsedDays {now : Instant} {order : Order} {policy : RefundPolicy}
    (hw : |policy.postDeliveryWindowDays| < 2 ^ 16) :
    overdue elapsedDays now order policy = overdue exactDays now order policy := by
  unfold overdue
  split
  · simp only [lt_elapsedDays_iff hw]
  · rfl

namespace Situation

variable (s : Situation)

/-- The proposal is one of the action. -/
def asks (action : ActionName) : Bool := s.proposal.action = action

/-- A required record could not be read. -/
def unread : Bool :=
  decide (s.snapshot.readFailures ≠ [] ∨ missingRecords s.proposal s.snapshot ≠ [])

/-- The proposal names an amount above `bound`. -/
def above (bound : Int) : Bool := s.proposal.amountCents.any (bound < ·)

end Situation

/-- Cancel, while nothing has left the warehouse. -/
def cancellableRow : DecisionRow where
  applies s := s.asks .cancelOrder &&
    s.snapshot.order.any (·.status ∈ cancellableOrderStatuses) &&
    s.snapshot.shipment.any (·.status ∉ [ShipmentStatus.shipped, .delivered])
  verdict := (.allow, .cancellableBeforeShipment)

/-- Cancel, but the order has left. -/
def shippedRow : DecisionRow where
  applies s := s.asks .cancelOrder &&
    s.snapshot.order.any (·.status ∈ [OrderStatus.shipped, .delivered])
  verdict := (.escalate, .cancelAfterShipment)

/-- Cancel, but the order is cancelled already. -/
def alreadyCancelledRow : DecisionRow where
  applies s := s.asks .cancelOrder && s.snapshot.order.any (·.status = .cancelled)
  verdict := (.deny, .orderAlreadyCancelled)

/-- Refund, but the payment is refunded already. -/
def alreadyRefundedRow : DecisionRow where
  applies s := s.asks .issueRefund && s.snapshot.payment.any (·.status = .refunded)
  verdict := (.deny, .paymentAlreadyRefunded)

/-- Refund of more than was captured. -/
def capturedRow : DecisionRow where
  applies s := s.asks .issueRefund && s.snapshot.payment.any (s.above ·.capturedCents)
  verdict := (.deny, .amountExceedsCaptured)

/-- Refund of more than the policy lets through by itself. -/
def limitRow : DecisionRow where
  applies s := s.asks .issueRefund &&
    s.snapshot.refundPolicy.any (s.above ·.autoRefundLimitCents)
  verdict := (.escalate, .aboveAutoRefundLimit)

/-- Refund of an order delivered too long ago, in days as the calendar counts them. -/
def windowRow : DecisionRow where
  applies s := s.asks .issueRefund && s.snapshot.order.any fun order =>
    s.snapshot.refundPolicy.any (overdue exactDays s.snapshot.now order)
  verdict := (.escalate, .outsideReturnWindow)

/-- A required record is missing or was not read. -/
def unreadRow : DecisionRow where
  applies s := s.unread
  verdict := (.escalate, .insufficientInformation)

/-- The rows about the order and the payment. -/
def statusRows : List DecisionRow :=
  [cancellableRow, shippedRow, alreadyCancelledRow, alreadyRefundedRow, capturedRow]

/-- Every row above `insufficient_information`. -/
def decidedRows : List DecisionRow := statusRows ++ [limitRow, windowRow]

/-- The table of the design: what was decided first, what was not read last. -/
def designTable : List DecisionRow := decidedRows ++ [unreadRow]

/-! ## The rules of the source as a table

With every record read, the refund rules are a table of their own: their limit is
never nothing, and their window is measured in doubles. -/

/-- The row of the limit as the code has it, where a limit of zero is none. -/
def effectiveLimitRow : DecisionRow where
  applies s := s.snapshot.refundPolicy.any (s.above ·.limit)
  verdict := (.escalate, .aboveAutoRefundLimit)

/-- The row of the window as the code has it, with the days it measures. -/
def measuredWindowRow : DecisionRow where
  applies s := s.snapshot.order.any fun order =>
    s.snapshot.refundPolicy.any (overdue elapsedDays s.snapshot.now order)
  verdict := (.escalate, .outsideReturnWindow)

/-- What is left of the refunds. -/
def refundableRow : DecisionRow where
  applies _ := true
  verdict := (.allow, .refundableWithinLimits)

/-- The rules of a refund, in the order the code asks them. -/
def refundRules : List DecisionRow :=
  [alreadyRefundedRow, capturedRow, effectiveLimitRow, measuredWindowRow, refundableRow]

/-- `evaluate` returns this decision with this reason. -/
def Decides (s : Situation) (v : Decision × ReasonCode) : Prop :=
  ∃ d, evaluate (some s.proposal) s.snapshot = .ok d ∧ (d.decision, d.reasonCode) = v

variable {s : Situation} {v : Decision × ReasonCode}

/-- The rows of the table decide one thing. -/
theorem Decides.unique {w : Decision × ReasonCode} (hv : Decides s v) (hw : Decides s w) :
    v = w := by
  obtain ⟨d, hd, rfl⟩ := hv
  obtain ⟨d', hd', rfl⟩ := hw
  rw [hd] at hd'
  cases hd'
  rfl

/-- Where a record was not read, the row for that decides. -/
theorem decides_of_unread (h : s.unread = true) :
    Decides s (.escalate, .insufficientInformation) := by
  have hunread : s.snapshot.readFailures ≠ [] ∨ missingRecords s.proposal s.snapshot ≠ [] := by
    simpa only [Situation.unread, decide_eq_true_eq] using h
  have heval : evaluate (some s.proposal) s.snapshot =
      .ok (escalateResult .insufficientInformation s.snapshot
        (joinSorted (s.snapshot.readFailures ++ missingRecords s.proposal s.snapshot))) := by
    simp only [evaluate, if_pos hunread]
  exact ⟨_, heval, rfl⟩

/-- Where all was read, the rules of the action decide. -/
theorem evaluate_of_read (h : s.unread = false) :
    evaluate (some s.proposal) s.snapshot =
      match s.proposal.action with
      | .cancelOrder => evaluateCancel s.snapshot
      | .issueRefund => evaluateRefund s.proposal s.snapshot
      | .createSupportTicket => evaluateTicket s.snapshot := by
  have hread : ¬(s.snapshot.readFailures ≠ [] ∨ missingRecords s.proposal s.snapshot ≠ []) := by
    simpa only [Situation.unread, decide_eq_false_iff_not] using h
  exact if_neg hread

/-- With nothing unread, every required record is there. -/
theorem lacks_of_read (h : s.unread = false) :
    ∀ name ∈ requiredRecords s.proposal.action, s.snapshot.lacks name = false := by
  have hread : missingRecords s.proposal s.snapshot = [] := by
    simp only [Situation.unread, decide_eq_false_iff_not, not_or, not_not] at h
    exact h.2
  simpa [missingRecords, List.filter_eq_nil_iff] using hread

/-- A cancel that was read has its order and its shipment. -/
theorem cancel_records (h : s.unread = false) (ha : s.proposal.action = .cancelOrder) :
    ∃ order shipment, s.snapshot.order = some order ∧ s.snapshot.shipment = some shipment := by
  have hread := lacks_of_read h
  simp only [ha, requiredRecords, List.mem_cons, List.not_mem_nil, or_false, forall_eq_or_imp,
    forall_eq, PolicySnapshot.lacks, Option.isNone_eq_false_iff, Option.isSome_iff_exists]
    at hread
  obtain ⟨⟨order, horder⟩, ⟨shipment, hshipment⟩⟩ := hread
  exact ⟨order, shipment, horder, hshipment⟩

/-- A refund that was read has its order, its payment and its policy. -/
theorem refund_records (h : s.unread = false) (ha : s.proposal.action = .issueRefund) :
    ∃ order payment policy, s.snapshot.order = some order ∧
      s.snapshot.payment = some payment ∧ s.snapshot.refundPolicy = some policy := by
  have hread := lacks_of_read h
  simp only [ha, requiredRecords, List.mem_cons, List.not_mem_nil, or_false, forall_eq_or_imp,
    forall_eq, PolicySnapshot.lacks, Option.isNone_eq_false_iff, Option.isSome_iff_exists]
    at hread
  obtain ⟨⟨order, horder⟩, ⟨payment, hpayment⟩, ⟨policy, hpolicy⟩⟩ := hread
  exact ⟨order, payment, policy, horder, hpayment, hpolicy⟩

/-- Behind the window a refund is handed over. -/
theorem evaluateWindow_of_overdue {snapshot : PolicySnapshot} {order : Order}
    {policy : RefundPolicy} {allowed : PolicyResult}
    (h : overdue elapsedDays snapshot.now order policy = true) :
    ∃ d, evaluateWindow snapshot order policy allowed = .ok d ∧
      (d.decision, d.reasonCode) = (.escalate, .outsideReturnWindow) := by
  unfold overdue at h
  split at h
  · rename_i deliveredAt hparse
    obtain ⟨text, htext, hparse⟩ := Option.map_eq_some_iff.mp hparse
    have hover : (policy.postDeliveryWindowDays : ℚ) <
        elapsedDays (snapshot.now - deliveredAt) := by simpa using h
    simp only [evaluateWindow, htext, hparse, bind, Except.bind, pure, Except.pure,
      if_pos hover]
    exact ⟨_, rfl, rfl⟩
  · cases h

/-- Inside it what was allowed stays so. -/
theorem evaluateWindow_of_not_overdue {snapshot : PolicySnapshot} {order : Order}
    {policy : RefundPolicy} {allowed d : PolicyResult}
    (h : overdue elapsedDays snapshot.now order policy = false)
    (hd : evaluateWindow snapshot order policy allowed = .ok d) : d = allowed := by
  unfold evaluateWindow at hd
  split at hd
  · cases hd
    rfl
  · rename_i text htext
    cases hparse : parseIso text with
    | error e => simp [hparse, bind, Except.bind] at hd
    | ok deliveredAt =>
        have hnot : ¬(policy.postDeliveryWindowDays : ℚ) <
            elapsedDays (snapshot.now - deliveredAt) := by
          simpa [overdue, htext, hparse] using h
        simp only [hparse, bind, Except.bind, pure, Except.pure, if_neg hnot] at hd
        cases hd
        rfl

/-- A refund is asked for with a positive amount. -/
def Situation.Valid (s : Situation) : Prop :=
  s.proposal.action = .issueRefund → ∃ amount, s.proposal.amountCents = some amount ∧ 0 < amount

/-- **The rules are a table.**  What is returned for a refund is the first match, and
a match that is no `ALLOW` is returned. -/
theorem decides_refund (h : s.unread = false) (ha : s.proposal.action = .issueRefund)
    (hvalid : s.Valid) :
    (Decides s v → firstMatch refundRules s = some v) ∧
      (firstMatch refundRules s = some v → v.1 ≠ .allow → Decides s v) := by
  obtain ⟨order, payment, policy, horder, hpayment, hpolicy⟩ := refund_records h ha
  obtain ⟨amount, hamount, hpos⟩ := hvalid ha
  simp only [Decides, evaluate_of_read h, ha, evaluateRefund, horder, hpayment, hpolicy,
    hamount, refundRules, firstMatch_cons, alreadyRefundedRow, capturedRow, effectiveLimitRow,
    measuredWindowRow, refundableRow, Situation.asks, Situation.above, Option.any_some,
    decide_true, Bool.true_and, decide_eq_true_eq, if_neg (not_le.mpr hpos)]
  by_cases hrefunded : payment.status = .refunded
  · simp +contextual [hrefunded, denyResult]
  by_cases hcaptured : payment.capturedCents < amount
  · simp +contextual [hrefunded, hcaptured, denyResult]
  by_cases hlimit : policy.limit < amount
  · simp +contextual [hrefunded, hcaptured, hlimit, escalateResult]
  simp only [hrefunded, hcaptured, hlimit, if_false]
  cases hwindow : overdue elapsedDays s.snapshot.now order policy with
  | true =>
      obtain ⟨d, hd, hv⟩ := evaluateWindow_of_overdue hwindow
      rw [hd]
      simp +contextual [← hv]
  | false =>
      constructor
      · rintro ⟨d, hd, rfl⟩
        rw [evaluateWindow_of_not_overdue hwindow hd]
        simp
      · intro hv hallow
        simp only [Bool.false_eq_true, if_false, if_true, Option.some.injEq] at hv
        exact absurd (by rw [← hv]) hallow

/-! ## Following the table -/

/-- The policy is the table: the first row that is established decides.  Where no row
is, the table says nothing. -/
structure FollowsTable (s : Situation) : Prop where
  first_match : ∀ v, firstMatch designTable s = some v → Decides s v
  cancelled : s.proposal.action = .cancelOrder →
    ∀ order, s.snapshot.order = some order → order.status = .cancelled →
      Decides s (.deny, .orderAlreadyCancelled)
  refunded : s.proposal.action = .issueRefund →
    ∀ payment, s.snapshot.payment = some payment → payment.status = .refunded →
      Decides s (.deny, .paymentAlreadyRefunded)
  insufficient_last : ∀ decision, Decides s (decision, .insufficientInformation) →
    firstMatch decidedRows s = none

/-- Where the rules agree with the table: nothing is established if anything is
unread; a limit of nothing is as good as the default for this amount; a window that
is over is over by a double, too. -/
structure Aligned (s : Situation) : Prop where
  unread : s.unread = true → firstMatch decidedRows s = none
  limit : s.unread = false → s.proposal.action = .issueRefund →
    firstMatch statusRows s = none →
    ∀ policy, s.snapshot.refundPolicy = some policy → policy.autoRefundLimitCents = 0 →
      s.above autoRefundLimitDefault = true
  window : s.unread = false → firstMatch (statusRows ++ [limitRow]) s = none →
    windowRow.applies s = true → measuredWindowRow.applies s = true

/-- Only the last row speaks of insufficient information. -/
theorem decidedRows_reason (h : firstMatch decidedRows s = some v) :
    v.2 ≠ .insufficientInformation := by
  obtain ⟨row, hmem, -, rfl⟩ := exists_row_of_firstMatch h
  simp only [decidedRows, statusRows, List.cons_append, List.nil_append, List.mem_cons,
    List.not_mem_nil, or_false] at hmem
  rcases hmem with rfl | rfl | rfl | rfl | rfl | rfl | rfl <;> decide

/-- The table is its decided rows, and the row for what was not read. -/
theorem firstMatch_designTable (s : Situation) :
    firstMatch designTable s = (firstMatch decidedRows s).or
      (if s.unread then some (.escalate, .insufficientInformation) else none) := by
  simp [designTable, firstMatch_append, unreadRow]

/-- Where all was read, the decided rows decide. -/
theorem firstMatch_designTable_of_read (h : s.unread = false) :
    firstMatch designTable s = firstMatch decidedRows s := by
  simp [firstMatch_designTable, h]

/-- With something unread the policy escalates, whatever the rows above say. -/
theorem first_match_of_unread (h : s.unread = true) :
    (∀ v, firstMatch designTable s = some v → Decides s v) ↔
      firstMatch decidedRows s = none := by
  constructor
  · intro hfirst
    by_contra hsome
    obtain ⟨v, hv⟩ := Option.ne_none_iff_exists'.mp hsome
    have hdecides := hfirst v (by simp [firstMatch_designTable, hv])
    exact decidedRows_reason hv (congrArg Prod.snd (hdecides.unique (decides_of_unread h)))
  · intro hnone v hv
    simp only [firstMatch_designTable, hnone, h, if_true, Option.none_or, Option.some.injEq]
      at hv
    exact hv ▸ decides_of_unread h

/-- A cancellation follows its three rows. -/
theorem first_match_cancel (h : s.unread = false) (ha : s.proposal.action = .cancelOrder)
    (hv : firstMatch decidedRows s = some v) : Decides s v := by
  obtain ⟨order, shipment, horder, hshipment⟩ := cancel_records h ha
  simp only [Decides, evaluate_of_read h, ha, evaluateCancel, horder, hshipment]
  simp only [decidedRows, statusRows, List.cons_append, List.nil_append, firstMatch_cons,
    cancellableRow, shippedRow, alreadyCancelledRow, alreadyRefundedRow, capturedRow, limitRow,
    windowRow, Situation.asks, ha, horder, hshipment, Option.any_some] at hv
  cases horderStatus : order.status <;> cases hshipmentStatus : shipment.status <;>
    simp [horderStatus, hshipmentStatus, cancellableOrderStatuses] at hv ⊢ <;>
    simp [← hv, denyResult, escalateResult]

/-- No row is about tickets. -/
theorem firstMatch_decidedRows_ticket (ha : s.proposal.action = .createSupportTicket) :
    firstMatch decidedRows s = none := by
  simp [decidedRows, statusRows, cancellableRow, shippedRow, alreadyCancelledRow,
    alreadyRefundedRow, capturedRow, limitRow, windowRow, Situation.asks, ha]

/-- The rows of a refund. -/
theorem firstMatch_refund (ha : s.proposal.action = .issueRefund) :
    firstMatch statusRows s = firstMatch [alreadyRefundedRow, capturedRow] s ∧
      firstMatch decidedRows s =
        firstMatch [alreadyRefundedRow, capturedRow, limitRow, windowRow] s := by
  simp [decidedRows, statusRows, cancellableRow, shippedRow, alreadyCancelledRow,
    Situation.asks, ha]

/-- What is no `ALLOW` is returned exactly if it is the first match of the rules. -/
theorem decides_refund_iff (h : s.unread = false) (ha : s.proposal.action = .issueRefund)
    (hvalid : s.Valid) (hallow : v.1 ≠ .allow) :
    Decides s v ↔ firstMatch refundRules s = some v :=
  ⟨(decides_refund h ha hvalid).1, fun hv => (decides_refund h ha hvalid).2 hv hallow⟩

/-- **A refund follows the table** unless its limit is nothing or its window is blurred. -/
theorem first_match_refund (h : s.unread = false) (ha : s.proposal.action = .issueRefund)
    (hvalid : s.Valid) :
    (∀ v, firstMatch decidedRows s = some v → Decides s v) ↔
      (firstMatch statusRows s = none →
        ∀ policy, s.snapshot.refundPolicy = some policy → policy.autoRefundLimitCents = 0 →
          s.above autoRefundLimitDefault = true) ∧
      (firstMatch (statusRows ++ [limitRow]) s = none → windowRow.applies s = true →
        measuredWindowRow.applies s = true) := by
  obtain ⟨order, payment, policy, horder, hpayment, hpolicy⟩ := refund_records h ha
  obtain ⟨amount, hamount, hpos⟩ := hvalid ha
  obtain ⟨hstatus, hdecided⟩ := firstMatch_refund ha
  have hlimit : limitRow.applies s = decide (policy.autoRefundLimitCents < amount) := by
    simp [limitRow, Situation.asks, Situation.above, ha, hpolicy, hamount]
  have heffective : effectiveLimitRow.applies s = decide (policy.limit < amount) := by
    simp [effectiveLimitRow, Situation.above, hpolicy, hamount]
  have hdecides : (∀ v, firstMatch decidedRows s = some v → Decides s v) ↔
      ∀ v, firstMatch decidedRows s = some v → firstMatch refundRules s = some v := by
    refine forall_congr' fun v => imp_congr_right fun hv => decides_refund_iff h ha hvalid ?_
    -- no row of a refund allows it
    obtain ⟨row, hmem, -, rfl⟩ := exists_row_of_firstMatch (hdecided ▸ hv)
    simp only [List.mem_cons, List.not_mem_nil, or_false] at hmem
    rcases hmem with rfl | rfl | rfl | rfl <;> decide
  rw [hdecides, firstMatch_append, hstatus, hdecided]
  simp only [hpolicy, Option.some.injEq, forall_eq', Situation.above, hamount, Option.any_some]
  simp only [refundRules, firstMatch_cons, firstMatch_nil, hlimit, heffective]
  cases alreadyRefundedRow.applies s with
  | true => simp
  | false =>
    cases capturedRow.applies s with
    | true => simp
    | false =>
      by_cases hzero : policy.autoRefundLimitCents = 0
      · -- the table escalates every amount, the rules those above the default
        have hlimit' : policy.limit = autoRefundLimitDefault := by
          simp [RefundPolicy.limit, hzero]
        simp only [hzero, hpos, hlimit']
        by_cases hdefault : autoRefundLimitDefault < amount
        · simp [hdefault, limitRow, effectiveLimitRow]
        · cases measuredWindowRow.applies s <;>
            simp [hdefault, measuredWindowRow, refundableRow, limitRow]
      · have hlimit' : policy.limit = policy.autoRefundLimitCents := by
          simp [RefundPolicy.limit, hzero]
        simp only [hzero, hlimit']
        by_cases habove : policy.autoRefundLimitCents < amount
        · simp [habove, limitRow, effectiveLimitRow]
        · cases windowRow.applies s <;> cases measuredWindowRow.applies s <;>
            simp [habove, windowRow, measuredWindowRow, refundableRow]

/-- Everything the table promises follows from its first match. -/
theorem FollowsTable.of_first_match
    (hfirst : ∀ v, firstMatch designTable s = some v → Decides s v) : FollowsTable s where
  first_match := hfirst
  cancelled ha order horder hstatus := hfirst _ <| by
    simp [firstMatch_designTable, decidedRows, statusRows, cancellableRow, shippedRow,
      alreadyCancelledRow, Situation.asks, ha, horder, hstatus, cancellableOrderStatuses]
  refunded ha payment hpayment hstatus := hfirst _ <| by
    rw [firstMatch_designTable, (firstMatch_refund ha).2]
    simp [alreadyRefundedRow, Situation.asks, ha, hpayment, hstatus]
  insufficient_last decision hdecides := by
    by_contra hsome
    obtain ⟨v, hv⟩ := Option.ne_none_iff_exists'.mp hsome
    have hv' := hfirst v (by simp [firstMatch_designTable, hv])
    exact decidedRows_reason hv (congrArg Prod.snd (hv'.unique hdecides))

/-- **The policy is the documented table**, first match first, exactly where it is
aligned with it. -/
theorem evaluate_follows_design_table (s : Situation) (hvalid : s.Valid) :
    FollowsTable s ↔ Aligned s := by
  have hfirst : FollowsTable s ↔ ∀ v, firstMatch designTable s = some v → Decides s v :=
    ⟨FollowsTable.first_match, FollowsTable.of_first_match⟩
  rw [hfirst]
  cases hunread : s.unread with
  | true =>
      rw [first_match_of_unread hunread]
      exact ⟨fun hnone => ⟨fun _ => hnone, by simp [hunread], by simp [hunread]⟩,
        fun haligned => haligned.unread hunread⟩
  | false =>
      rw [firstMatch_designTable_of_read hunread]
      cases ha : s.proposal.action with
      | cancelOrder =>
          refine ⟨fun _ => ⟨by simp [hunread], by simp [ha], fun _ _ hrow => ?_⟩,
            fun _ v hv => first_match_cancel hunread ha hv⟩
          simp [windowRow, Situation.asks, ha] at hrow
      | issueRefund =>
          rw [first_match_refund hunread ha hvalid]
          exact ⟨fun ⟨hlimit, hwindow⟩ =>
              ⟨by simp [hunread], fun _ _ => hlimit, fun _ => hwindow⟩,
            fun haligned => ⟨haligned.limit hunread ha, haligned.window hunread⟩⟩
      | createSupportTicket =>
          refine ⟨fun _ => ⟨by simp [hunread], by simp [ha], fun _ _ hrow => ?_⟩,
            fun _ v hv => ?_⟩
          · simp [windowRow, Situation.asks, ha] at hrow
          · simp [firstMatch_decidedRows_ticket ha] at hv

/-- The first order once it was cancelled. -/
def cancelledOrder : Order := { paidOrder with status := .cancelled, version := 2 }

/-- A second cancellation, with the shipment unread: the order is there and cancelled. -/
def cancelledUnread : Situation where
  proposal := cancelFirst
  snapshot :=
    { now := defaultClockBase, order := some cancelledOrder, readFailures := ["get_shipment"] }

/-- It ought to be refused, and is escalated. -/
theorem unread_record_overrides_cancelled :
    ¬∀ s : Situation, s.Valid → FollowsTable s := by
  intro h
  have hrefused := (h cancelledUnread (by simp [Situation.Valid, cancelledUnread, cancelFirst])
    ).cancelled rfl cancelledOrder rfl rfl
  have hescalated := decides_of_unread (s := cancelledUnread) (by decide)
  cases hrefused.unique hescalated

/-- A refund with everything read. -/
def refundRead : Situation where
  proposal := refundFirst
  snapshot :=
    { now := defaultClockBase
      order := some paidOrder
      payment := some
        { paymentId := "pay_ord_0001", orderId := "ord_0001", status := .captured,
          capturedCents := 10000, refundedCents := 0, version := 1 }
      refundPolicy := some defaultPolicy }

theorem refundRead_aligned : Aligned refundRead where
  unread := by decide
  limit _ _ _ policy hpolicy hzero := by
    cases hpolicy
    cases hzero
  window _ _ hrow := by cases hrow

theorem refundRead_follows_design_table : FollowsTable refundRead :=
  (evaluate_follows_design_table refundRead fun _ => ⟨5000, rfl, by decide⟩).mpr
    refundRead_aligned

end BoundedRefund
