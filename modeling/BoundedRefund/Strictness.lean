import BoundedRefund.DecisionTable
import Mathlib.Order.Basic

/-!
# Refund decisions are monotone

`ALLOW < ESCALATE < DENY`.  A refund that asks for more, is asked for later, or is
asked of a payment that captured less, is decided at least as strictly.

The rules for refunds are a table (`refundRules`) whose rows get no stricter from top
to bottom and whose conditions are monotone in all three respects, so this is the
monotonicity of tables.  An escalation set above a denial would break it.
-/

namespace BoundedRefund

open Tabular

/-! ## Strictness -/

/-- The order of the decisions, from the freest to the strictest. -/
def Decision.strictness : Decision → Nat
  | .allow => 0
  | .escalate => 1
  | .deny => 2

/-- Decisions are told apart by their strictness. -/
theorem Decision.strictness_injective : Function.Injective Decision.strictness := by
  intro d d' h
  cases d <;> cases d' <;> first | rfl | cases h

instance : PartialOrder Decision :=
  PartialOrder.lift Decision.strictness Decision.strictness_injective

theorem Decision.le_def {d d' : Decision} : d ≤ d' ↔ d.strictness ≤ d'.strictness := Iff.rfl

/-- No row of the refund rules is stricter than a row above it. -/
theorem refundRules_ordered :
    refundRules.Pairwise fun above below => below.verdict.1 ≤ above.verdict.1 := by
  simp [refundRules, alreadyRefundedRow, capturedRow, effectiveLimitRow, measuredWindowRow,
    refundableRow, Decision.le_def, Decision.strictness]

/-! ## Harder situations -/

/-- `p'` is `p` with no more captured. -/
structure Payment.CapturedLess (p p' : Payment) : Prop where
  status : p'.status = p.status
  captured : p'.capturedCents ≤ p.capturedCents

/-- `s'` asks for no less than `s`, no earlier, and of a payment that captured no more. -/
structure NoEasier (s s' : Situation) : Prop where
  action : s'.proposal.action = s.proposal.action
  amount : s'.proposal.amountCents = s.proposal.amountCents ∨
    ∃ a b, s.proposal.amountCents = some a ∧ s'.proposal.amountCents = some b ∧ 0 < a ∧ a ≤ b
  now : s.snapshot.now ≤ s'.snapshot.now
  order : s'.snapshot.order = s.snapshot.order
  payment : Option.Rel Payment.CapturedLess s.snapshot.payment s'.snapshot.payment
  shipment : s'.snapshot.shipment = s.snapshot.shipment
  refundPolicy : s'.snapshot.refundPolicy = s.snapshot.refundPolicy
  readFailures : s'.snapshot.readFailures = s.snapshot.readFailures

variable {s s' : Situation} {v w : Decision × ReasonCode}

/-- The same records are missing. -/
theorem NoEasier.lacks (h : NoEasier s s') : s'.snapshot.lacks = s.snapshot.lacks := by
  funext name
  cases name with
  | order => simp [PolicySnapshot.lacks, h.order]
  | payment =>
      have hrel := h.payment
      cases hp : s.snapshot.payment <;> cases hp' : s'.snapshot.payment <;>
        simp [PolicySnapshot.lacks, hp, hp'] at hrel ⊢
  | shipment => simp [PolicySnapshot.lacks, h.shipment]
  | refundPolicy => simp [PolicySnapshot.lacks, h.refundPolicy]

/-- The same records were not read. -/
theorem NoEasier.unread (h : NoEasier s s') : s'.unread = s.unread := by
  simp [Situation.unread, missingRecords, h.action, h.lacks, h.readFailures]

/-- The same action is asked for. -/
theorem NoEasier.asks (h : NoEasier s s') (action : ActionName) :
    s'.asks action = s.asks action := by
  simp [Situation.asks, h.action]

/-- What is above a bound is above a lower one, from a harder situation too. -/
theorem NoEasier.above (h : NoEasier s s') {bound bound' : Int} (hbound : bound' ≤ bound)
    (habove : s.above bound = true) : s'.above bound' = true := by
  rcases h.amount with hsame | ⟨a, b, ha, hb, -, hle⟩
  · cases ha : s.proposal.amountCents with
    | none => simp [Situation.above, ha] at habove
    | some a =>
        simp only [Situation.above, ha, hsame, Option.any_some, decide_eq_true_eq]
          at habove ⊢
        omega
  · simp only [Situation.above, ha, hb, Option.any_some, decide_eq_true_eq] at habove ⊢
    omega

/-- What is overdue stays so. -/
theorem overdue_mono {days : Int → ℚ} (hdays : Monotone days) {now now' : Instant}
    (h : now ≤ now') {order : Order} {policy : RefundPolicy}
    (hover : overdue days now order policy = true) : overdue days now' order policy = true := by
  unfold overdue at hover ⊢
  split at hover
  · rename_i deliveredAt hparse
    simp only [decide_eq_true_eq] at hover ⊢
    exact hover.trans_le (hdays (sub_le_sub_right h deliveredAt))
  · cases hover

/-- Every condition of the refund rules is monotone. -/
theorem NoEasier.refundRules (h : NoEasier s s') :
    ∀ row ∈ refundRules, row.applies s = true → row.applies s' = true := by
  have hpayment : ∀ {p : Payment}, s.snapshot.payment = some p →
      ∃ p', s'.snapshot.payment = some p' ∧ p.CapturedLess p' := by
    intro p hp
    have hrel := h.payment
    rw [hp] at hrel
    cases hp' : s'.snapshot.payment with
    | none => rw [hp'] at hrel; cases hrel
    | some p' =>
        rw [hp'] at hrel
        cases hrel with
        | some hless => exact ⟨p', rfl, hless⟩
  intro row hmem
  simp only [BoundedRefund.refundRules, List.mem_cons, List.not_mem_nil, or_false] at hmem
  rcases hmem with rfl | rfl | rfl | rfl | rfl
  · simp only [alreadyRefundedRow, h.asks, Bool.and_eq_true, Option.any_eq_true]
    rintro ⟨hasks, p, hp, hstatus⟩
    obtain ⟨p', hp', hless⟩ := hpayment hp
    exact ⟨hasks, p', hp', by simpa [hless.status] using hstatus⟩
  · simp only [capturedRow, h.asks, Bool.and_eq_true, Option.any_eq_true]
    rintro ⟨hasks, p, hp, habove⟩
    obtain ⟨p', hp', hless⟩ := hpayment hp
    exact ⟨hasks, p', hp', h.above hless.captured habove⟩
  · simp only [effectiveLimitRow, h.refundPolicy, Option.any_eq_true]
    rintro ⟨policy, hpolicy, habove⟩
    exact ⟨policy, hpolicy, h.above (le_refl _) habove⟩
  · simp only [measuredWindowRow, h.order, h.refundPolicy, Option.any_eq_true]
    rintro ⟨order, horder, policy, hpolicy, hover⟩
    exact ⟨order, horder, policy, hpolicy, overdue_mono elapsedDays_mono h.now hover⟩
  · exact id

/-! ## Decisions -/

/-- A refund without a positive amount is denied. -/
theorem decides_invalid_refund (h : s.unread = false) (ha : s.proposal.action = .issueRefund)
    (hvalid : ¬s.Valid) (hv : Decides s v) : v.1 = .deny := by
  obtain ⟨order, payment, policy, horder, hpayment, hpolicy⟩ := refund_records h ha
  obtain ⟨d, hd, rfl⟩ := hv
  simp only [evaluate_of_read h, ha, evaluateRefund, horder, hpayment, hpolicy] at hd
  by_cases hrefunded : payment.status = .refunded
  · rw [if_pos hrefunded] at hd
    cases hd
    rfl
  rw [if_neg hrefunded] at hd
  cases hamount : s.proposal.amountCents with
  | none =>
      simp only [hamount] at hd
      cases hd
      rfl
  | some amount =>
      have hnot : amount ≤ 0 := by
        by_contra hpos
        exact hvalid fun _ => ⟨amount, hamount, not_le.mp hpos⟩
      simp only [hamount, if_pos hnot] at hd
      cases hd
      rfl

/-- Only a refund looks at the amount, the time and the payment. -/
theorem NoEasier.evaluate_eq (h : NoEasier s s') (hread : s.unread = false)
    (ha : s.proposal.action ≠ .issueRefund) :
    evaluate (some s'.proposal) s'.snapshot = evaluate (some s.proposal) s.snapshot := by
  rw [evaluate_of_read hread, evaluate_of_read (h.unread.trans hread), h.action]
  cases hact : s.proposal.action with
  | cancelOrder => simp [evaluateCancel, escalateResult, h.order, h.shipment]
  | issueRefund => exact absurd hact ha
  | createSupportTicket => simp [evaluateTicket, h.order]

/-- Times can be read on both sides alike. -/
theorem NoEasier.valid_iff (h : NoEasier s s') : s'.Valid ↔ s.Valid := by
  simp only [Situation.Valid, h.action]
  refine imp_congr_right fun _ => ?_
  rcases h.amount with hsame | ⟨a, b, hsa, hsb, hpos, hle⟩
  · rw [hsame]
  · exact ⟨fun _ => ⟨a, hsa, hpos⟩, fun _ => ⟨b, hsb, hpos.trans_le hle⟩⟩

/-- **A harder situation is decided at least as strictly.** -/
theorem NoEasier.decision_le (h : NoEasier s s') (hv : Decides s v) (hw : Decides s' w) :
    v.1 ≤ w.1 := by
  cases hread : s.unread with
  | true =>
      have hescalated := decides_of_unread (h.unread.trans hread)
      rw [hv.unique (decides_of_unread hread), hw.unique hescalated]
  | false =>
      have hread' := h.unread.trans hread
      by_cases ha : s.proposal.action = .issueRefund
      · by_cases hvalid : s.Valid
        · obtain ⟨w', hw', hle⟩ := firstMatch_mono Prod.fst refundRules_ordered h.refundRules
            ((decides_refund hread ha hvalid).1 hv)
          rw [(decides_refund hread' (h.action.trans ha) (h.valid_iff.mpr hvalid)).1 hw] at hw'
          cases hw'
          exact hle
        · rw [decides_invalid_refund hread ha hvalid hv,
            decides_invalid_refund hread' (h.action.trans ha) (h.valid_iff.not.mpr hvalid) hw]
      · obtain ⟨d, hd, rfl⟩ := hw
        rw [h.evaluate_eq hread ha] at hd
        exact (congrArg Prod.fst (hv.unique ⟨d, hd, rfl⟩)).le

theorem Payment.CapturedLess.refl (p : Payment) : p.CapturedLess p := ⟨rfl, le_refl _⟩

/-- Every payment is captured as much as itself. -/
theorem capturedLess_refl (payment : Option Payment) :
    Option.Rel Payment.CapturedLess payment payment := by
  cases payment with
  | none => exact .none
  | some p => exact .some (.refl p)

/-- The same for the decisions `evaluate` returns; without a proposal it always denies. -/
theorem decision_le_of_noEasier {proposal proposal' : ActionProposal}
    {snapshot snapshot' : PolicySnapshot} {d d' : PolicyResult}
    (h : NoEasier ⟨proposal, snapshot⟩ ⟨proposal', snapshot'⟩)
    (hd : evaluate (some proposal) snapshot = .ok d)
    (hd' : evaluate (some proposal') snapshot' = .ok d') : d.decision ≤ d'.decision :=
  h.decision_le ⟨d, hd, rfl⟩ ⟨d', hd', rfl⟩

/-- **Refund decisions are monotone**: in the amount, in the reading time, and against
the captured amount. -/
theorem refund_decision_mono :
    (∀ (snapshot : PolicySnapshot) (proposal proposal' : ActionProposal) (a b : Int)
      (d d' : PolicyResult),
      proposal.action = .issueRefund → proposal'.action = .issueRefund →
      proposal'.orderId = proposal.orderId →
      proposal.amountCents = some a → proposal'.amountCents = some b → 0 < a → a ≤ b →
      evaluate (some proposal) snapshot = .ok d →
      evaluate (some proposal') snapshot = .ok d' → d.decision ≤ d'.decision) ∧
    (∀ (proposal : Option ActionProposal) (snapshot : PolicySnapshot) (t₁ t₂ : Instant)
      (d d' : PolicyResult), t₁ ≤ t₂ →
      evaluate proposal { snapshot with now := t₁ } = .ok d →
      evaluate proposal { snapshot with now := t₂ } = .ok d' → d.decision ≤ d'.decision) ∧
    (∀ (proposal : Option ActionProposal) (snapshot : PolicySnapshot) (payment : Payment)
      (c₁ c₂ : Int) (d d' : PolicyResult), c₂ ≤ c₁ →
      evaluate proposal
        { snapshot with payment := some { payment with capturedCents := c₁ } } = .ok d →
      evaluate proposal
        { snapshot with payment := some { payment with capturedCents := c₂ } } = .ok d' →
      d.decision ≤ d'.decision) := by
  refine ⟨?_, ?_, ?_⟩
  -- a larger amount
  · intro snapshot proposal proposal' a b d d' ha ha' _ hamount hamount' hpos hle hd hd'
    exact decision_le_of_noEasier
      { action := ha'.trans ha.symm
        amount := .inr ⟨a, b, hamount, hamount', hpos, hle⟩
        now := le_refl _
        order := rfl
        payment := capturedLess_refl _
        shipment := rfl
        refundPolicy := rfl
        readFailures := rfl } hd hd'
  -- a later reading
  · intro proposal snapshot t₁ t₂ d d' hle hd hd'
    cases proposal with
    | none => cases hd; cases hd'; exact le_refl _
    | some proposal =>
        refine decision_le_of_noEasier ?_ hd hd'
        exact
          { action := rfl
            amount := .inl rfl
            now := hle
            order := rfl
            payment := capturedLess_refl _
            shipment := rfl
            refundPolicy := rfl
            readFailures := rfl }
  -- less captured
  · intro proposal snapshot payment c₁ c₂ d d' hle hd hd'
    cases proposal with
    | none => cases hd; cases hd'; exact le_refl _
    | some proposal =>
        refine decision_le_of_noEasier ?_ hd hd'
        exact
          { action := rfl
            amount := .inl rfl
            now := le_refl _
            order := rfl
            payment := .some ⟨rfl, hle⟩
            shipment := rfl
            refundPolicy := rfl
            readFailures := rfl }

/-- A payment of which nothing was given back. -/
def capturedPayment : Payment where
  paymentId := "pay_ord_0001"
  orderId := "ord_0001"
  status := .captured
  capturedCents := 10000
  refundedCents := 0
  version := 1

/-- The order was delivered thirteen days before the clock of the runs begins. -/
def deliveredRead : PolicySnapshot :=
  { refundRead.snapshot with
    order := some { paidOrder with
      status := .delivered
      deliveredAt := some (toIso (defaultClockBase - seconds (13 * 86400))) } }

/-- What is decided on a refund of 5000 that nothing speaks against. -/
def refundGranted : PolicyResult where
  decision := .allow
  reasonCode := .refundableWithinLimits
  maxAmountCents := 5000
  resourceId := "pay_ord_0001"
  expectedResourceVersion := 1

/-- A refund is allowed, and no longer when it is one of more than was captured, when it comes two
days later, or when less was captured. -/
theorem refund_decision_mono_sample :
    (evaluate (some refundFirst) refundRead.snapshot = .ok refundGranted ∧
      evaluate (some refundTooMuch) refundRead.snapshot =
        .ok (denyResult .amountExceedsCaptured "30000 > 10000") ∧
      refundGranted.decision ≤ (denyResult .amountExceedsCaptured "30000 > 10000").decision) ∧
    (evaluate (some refundFirst) { deliveredRead with now := defaultClockBase } =
        .ok refundGranted ∧
      evaluate (some refundFirst)
          { deliveredRead with now := defaultClockBase + seconds (2 * 86400) } =
        .ok (escalateResult .outsideReturnWindow deliveredRead "15.0d > 14d") ∧
      refundGranted.decision ≤
        (escalateResult .outsideReturnWindow deliveredRead "15.0d > 14d").decision) ∧
    (evaluate (some refundFirst)
        { deliveredRead with payment := some { capturedPayment with capturedCents := 10000 } } =
        .ok refundGranted ∧
      evaluate (some refundFirst)
          { deliveredRead with payment := some { capturedPayment with capturedCents := 4000 } } =
        .ok (denyResult .amountExceedsCaptured "5000 > 4000") ∧
      refundGranted.decision ≤ (denyResult .amountExceedsCaptured "5000 > 4000").decision) := by
  have hfirst : evaluate (some refundFirst) refundRead.snapshot = .ok refundGranted := by
    decide +kernel
  have hmore : evaluate (some refundTooMuch) refundRead.snapshot =
      .ok (denyResult .amountExceedsCaptured "30000 > 10000") := by decide +kernel
  have hnow : evaluate (some refundFirst) { deliveredRead with now := defaultClockBase } =
      .ok refundGranted := by decide +kernel
  have hlater : evaluate (some refundFirst)
      { deliveredRead with now := defaultClockBase + seconds (2 * 86400) } =
        .ok (escalateResult .outsideReturnWindow deliveredRead "15.0d > 14d") := by decide +kernel
  have hcaptured : evaluate (some refundFirst)
      { deliveredRead with payment := some { capturedPayment with capturedCents := 10000 } } =
        .ok refundGranted := by decide +kernel
  have hless : evaluate (some refundFirst)
      { deliveredRead with payment := some { capturedPayment with capturedCents := 4000 } } =
        .ok (denyResult .amountExceedsCaptured "5000 > 4000") := by decide +kernel
  refine ⟨⟨hfirst, hmore, ?_⟩, ⟨hnow, hlater, ?_⟩, hcaptured, hless, ?_⟩
  · exact refund_decision_mono.1 refundRead.snapshot refundFirst refundTooMuch 5000 30000 _ _
      rfl rfl rfl rfl rfl (by decide) (by decide) hfirst hmore
  · exact refund_decision_mono.2.1 (some refundFirst) deliveredRead _ _ _ _ (by decide) hnow hlater
  · exact refund_decision_mono.2.2 (some refundFirst) deliveredRead capturedPayment _ _ _ _
      (by decide) hcaptured hless

end BoundedRefund
