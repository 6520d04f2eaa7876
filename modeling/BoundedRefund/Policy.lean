import BoundedRefund.Schemas
import Mathlib.Data.List.Sort
import Mathlib.Data.String.Basic

/-!
# The deterministic policy engine

Pure functions from a proposal and a snapshot to a decision.  `evaluate` returns
in `Except` for one reason only: the delivery time in the snapshot is a text, and
reading it may raise.

`evaluate_allow_cases` says once what an `ALLOW` means, action by action; nothing
downstream unfolds the rules again.
-/

namespace BoundedRefund

/-! ## Constants -/

/-- `AUTO_REFUND_LIMIT_CENTS`, where the policy row has none. -/
def autoRefundLimitDefault : Int := 25000

/-- `CANCELLABLE_ORDER_STATUSES`. -/
def cancellableOrderStatuses : List OrderStatus := [.paid, .readyToShip]

/-- How long a permit lives. -/
def permitTtlSeconds : Int := 120

/-- How often a read is tried. -/
def readMaxAttempts : Nat := 2

/-! ## Snapshots -/

/-- The records a policy can require. -/
inductive RecordName
  | order | payment | shipment | refundPolicy
deriving DecidableEq, Repr

/-- The name of a record in the texts of the policy. -/
def RecordName.name : RecordName → String
  | .order => "order"
  | .payment => "payment"
  | .shipment => "shipment"
  | .refundPolicy => "refund_policy"

/-- What the read tools managed to fetch, plus the reading time. -/
structure PolicySnapshot where
  now : Instant
  order : Option Order := none
  payment : Option Payment := none
  shipment : Option Shipment := none
  refundPolicy : Option RefundPolicy := none
  readFailures : List String := []
deriving DecidableEq, Repr

/-- `getattr(snapshot, name) is None`. -/
def PolicySnapshot.lacks (snapshot : PolicySnapshot) : RecordName → Bool
  | .order => snapshot.order.isNone
  | .payment => snapshot.payment.isNone
  | .shipment => snapshot.shipment.isNone
  | .refundPolicy => snapshot.refundPolicy.isNone

/-- `REQUIRED_RECORDS`. -/
def requiredRecords : ActionName → List RecordName
  | .cancelOrder => [.order, .shipment]
  | .issueRefund => [.order, .payment, .refundPolicy]
  | .createSupportTicket => [.order]

/-! ## Rules -/

/-- An escalation is against the order, when there is one. -/
def escalateResult (reason : ReasonCode) (snapshot : PolicySnapshot) (detail : String := "") :
    PolicyResult where
  decision := .escalate
  reasonCode := reason
  maxAmountCents := 0
  resourceId := (snapshot.order.map Order.orderId).getD ""
  expectedResourceVersion := (snapshot.order.map Order.version).getD (-1)
  detail := detail

/-- `_deny`. -/
def denyResult (reason : ReasonCode) (detail : String := "") : PolicyResult where
  decision := .deny
  reasonCode := reason
  detail := detail

/-- The names of the required records that the snapshot lacks. -/
def missingRecords (proposal : ActionProposal) (snapshot : PolicySnapshot) : List String :=
  ((requiredRecords proposal.action).filter snapshot.lacks).map RecordName.name

/-- `", ".join(sorted(set(names)))`. -/
def joinSorted (names : List String) : String :=
  ", ".intercalate (names.dedup.insertionSort (· ≤ ·))

/-- `_evaluate_cancel`: what was cancelled is denied, what has left is handed over. -/
def evaluateCancel (snapshot : PolicySnapshot) : Except PyError PolicyResult :=
  match snapshot.order, snapshot.shipment with
  | some order, some shipment =>
      if order.status = .cancelled then
        .ok (denyResult .orderAlreadyCancelled order.orderId)
      else if order.status ∈ [OrderStatus.shipped, .delivered] ∨
          shipment.status ∈ [ShipmentStatus.shipped, .delivered] then
        .ok (escalateResult .cancelAfterShipment snapshot (str order.status))
      else if order.status ∈ cancellableOrderStatuses then
        .ok { decision := .allow, reasonCode := .cancellableBeforeShipment,
              maxAmountCents := 0, resourceId := order.orderId,
              expectedResourceVersion := order.version }
      -- no status is left for this case; the source has it all the same
      else .ok (escalateResult .cancelAfterShipment snapshot (str order.status))
  | _, _ => .error .assertionError

/-- `refund_policy.auto_refund_limit_cents or AUTO_REFUND_LIMIT_CENTS`. -/
def RefundPolicy.limit (policy : RefundPolicy) : Int :=
  if policy.autoRefundLimitCents = 0 then autoRefundLimitDefault
  else policy.autoRefundLimitCents

/-- The refund rules below the amount limits: inside the window after delivery, or
not delivered. -/
def evaluateWindow (snapshot : PolicySnapshot) (order : Order) (policy : RefundPolicy)
    (allowed : PolicyResult) : Except PyError PolicyResult :=
  match order.deliveredAt with
  | none => .ok allowed
  | some deliveredAt => do
      let deliveredAt ← parseIso deliveredAt
      let days := elapsedDays (snapshot.now - deliveredAt)
      -- the column is NOT NULL, so the default window of the source is never used
      if (policy.postDeliveryWindowDays : ℚ) < days then
        return escalateResult .outsideReturnWindow snapshot
          (formatFixed1 days ++ "d > " ++ toString policy.postDeliveryWindowDays ++ "d")
      else return allowed

/-- `_evaluate_refund`: the payment first, then the amount, then the window. -/
def evaluateRefund (proposal : ActionProposal) (snapshot : PolicySnapshot) :
    Except PyError PolicyResult :=
  match snapshot.order, snapshot.payment, snapshot.refundPolicy with
  | some order, some payment, some refundPolicy =>
      if payment.status = .refunded then
        .ok (denyResult .paymentAlreadyRefunded payment.paymentId)
      else
        match proposal.amountCents with
        -- the schema bounds an amount, but does not ask for one
        | none => .ok (denyResult .invalidProposal "refund needs a positive amount_cents")
        | some amount =>
            if amount ≤ 0 then
              .ok (denyResult .invalidProposal "refund needs a positive amount_cents")
            else if payment.capturedCents < amount then
              .ok (denyResult .amountExceedsCaptured
                (toString amount ++ " > " ++ toString payment.capturedCents))
            else if refundPolicy.limit < amount then
              .ok (escalateResult .aboveAutoRefundLimit snapshot
                (toString amount ++ " > " ++ toString refundPolicy.limit))
            else
              evaluateWindow snapshot order refundPolicy
                { decision := .allow, reasonCode := .refundableWithinLimits,
                  maxAmountCents := amount, resourceId := payment.paymentId,
                  expectedResourceVersion := payment.version }
  | _, _, _ => .error .assertionError

/-- `_evaluate_ticket`: a ticket may always be written. -/
def evaluateTicket (snapshot : PolicySnapshot) : Except PyError PolicyResult :=
  match snapshot.order with
  | some order =>
      .ok { decision := .allow, reasonCode := .ticketRequested, maxAmountCents := 0,
            resourceId := order.orderId, expectedResourceVersion := order.version }
  | none => .error .assertionError

/-- `evaluate`: what was not read comes before the rules of the action. -/
def evaluate (proposal : Option ActionProposal) (snapshot : PolicySnapshot) :
    Except PyError PolicyResult :=
  match proposal with
  | none => .ok (denyResult .invalidProposal "no proposal was produced")
  | some proposal =>
      if snapshot.readFailures ≠ [] ∨ missingRecords proposal snapshot ≠ [] then
        .ok (escalateResult .insufficientInformation snapshot
          (joinSorted (snapshot.readFailures ++ missingRecords proposal snapshot)))
      else
        -- there is no fourth action, so `UNKNOWN_ACTION` is never the answer here
        match proposal.action with
        | .cancelOrder => evaluateCancel snapshot
        | .issueRefund => evaluateRefund proposal snapshot
        | .createSupportTicket => evaluateTicket snapshot

/-! ## What an `ALLOW` rests on -/

/-- The grounds on which a cancellation is allowed. -/
structure CancelAllowed (snapshot : PolicySnapshot) (d : PolicyResult) (order : Order)
    (shipment : Shipment) : Prop where
  order_read : snapshot.order = some order
  shipment_read : snapshot.shipment = some shipment
  status : order.status = .paid ∨ order.status = .readyToShip
  not_shipped : shipment.status ≠ .shipped ∧ shipment.status ≠ .delivered
  decided : d = { decision := .allow, reasonCode := .cancellableBeforeShipment,
                  resourceId := order.orderId, expectedResourceVersion := order.version }

/-- The grounds on which a refund is allowed. -/
structure RefundAllowed (proposal : ActionProposal) (snapshot : PolicySnapshot)
    (d : PolicyResult) (order : Order) (payment : Payment) (policy : RefundPolicy)
    (amount : Int) : Prop where
  order_read : snapshot.order = some order
  payment_read : snapshot.payment = some payment
  policy_read : snapshot.refundPolicy = some policy
  status : payment.status = .captured
  amount_eq : proposal.amountCents = some amount
  amount_pos : 0 < amount
  within_captured : amount ≤ payment.capturedCents
  within_limit : amount ≤ policy.limit
  decided : d = { decision := .allow, reasonCode := .refundableWithinLimits,
                  maxAmountCents := amount, resourceId := payment.paymentId,
                  expectedResourceVersion := payment.version }

/-- The grounds on which a ticket is allowed. -/
structure TicketAllowed (snapshot : PolicySnapshot) (d : PolicyResult) (order : Order) :
    Prop where
  order_read : snapshot.order = some order
  decided : d = { decision := .allow, reasonCode := .ticketRequested,
                  resourceId := order.orderId, expectedResourceVersion := order.version }

@[simp] theorem escalateResult_decision (reason : ReasonCode) (snapshot : PolicySnapshot)
    (detail : String) : (escalateResult reason snapshot detail).decision = .escalate := rfl

@[simp] theorem denyResult_decision (reason : ReasonCode) (detail : String) :
    (denyResult reason detail).decision = .deny := rfl

/-- When a cancel is allowed. -/
theorem evaluateCancel_allow {snapshot : PolicySnapshot} {d : PolicyResult}
    (h : evaluateCancel snapshot = .ok d) (hd : d.decision = .allow) :
    ∃ order shipment, CancelAllowed snapshot d order shipment := by
  unfold evaluateCancel at h
  split at h
  · rename_i order shipment ho hs
    split_ifs at h with h₁ h₂ h₃
    · cases h
      simp at hd
    · cases h
      simp at hd
    · cases h
      refine ⟨order, shipment, ho, hs, by simpa [cancellableOrderStatuses] using h₃, ?_, rfl⟩
      simpa using (not_or.mp h₂).2
    · cases h
      simp at hd
  · cases h

/-- The window lets what was allowed pass, or escalates it. -/
theorem evaluateWindow_cases {snapshot : PolicySnapshot} {order : Order}
    {policy : RefundPolicy} {allowed d : PolicyResult}
    (h : evaluateWindow snapshot order policy allowed = .ok d) :
    d = allowed ∨ d.decision = .escalate ∧ d.reasonCode = .outsideReturnWindow := by
  unfold evaluateWindow at h
  split at h
  · cases h
    exact .inl rfl
  · rename_i text _
    cases ht : parseIso text with
    | error e => simp [ht, bind, Except.bind] at h
    | ok delivered =>
        simp only [ht, bind, Except.bind, pure, Except.pure] at h
        split_ifs at h
        · cases h
          exact .inr ⟨rfl, rfl⟩
        · cases h
          exact .inl rfl

/-- The window adds nothing to what is allowed. -/
theorem evaluateWindow_allow {snapshot : PolicySnapshot} {order : Order}
    {policy : RefundPolicy} {allowed d : PolicyResult}
    (h : evaluateWindow snapshot order policy allowed = .ok d) (hd : d.decision = .allow) :
    d = allowed := by
  rcases evaluateWindow_cases h with rfl | ⟨hescalate, -⟩
  · rfl
  · cases hd.symm.trans hescalate

/-- When a refund is allowed. -/
theorem evaluateRefund_allow {proposal : ActionProposal} {snapshot : PolicySnapshot}
    {d : PolicyResult} (h : evaluateRefund proposal snapshot = .ok d)
    (hd : d.decision = .allow) :
    ∃ order payment policy amount,
      RefundAllowed proposal snapshot d order payment policy amount := by
  unfold evaluateRefund at h
  split at h
  · rename_i order payment policy ho hp hpol
    split_ifs at h with hstatus
    · cases h
      simp at hd
    · split at h
      · cases h
        simp at hd
      · rename_i amount hamount
        split_ifs at h with h₁ h₂ h₃
        · cases h
          simp at hd
        · cases h
          simp at hd
        · cases h
          simp at hd
        · have hcaptured : payment.status = .captured := by
            cases hs : payment.status with
            | captured => rfl
            | refunded => exact absurd hs hstatus
          exact ⟨order, payment, policy, amount, ho, hp, hpol, hcaptured, hamount,
            not_le.mp h₁, not_lt.mp h₂, not_lt.mp h₃, evaluateWindow_allow h hd⟩
  · cases h

/-- A ticket is allowed for the order that was read. -/
theorem evaluateTicket_allow {snapshot : PolicySnapshot} {d : PolicyResult}
    (h : evaluateTicket snapshot = .ok d) :
    ∃ order, TicketAllowed snapshot d order := by
  unfold evaluateTicket at h
  split at h
  · rename_i order ho
    cases h
    exact ⟨order, ho, rfl⟩
  · cases h

/-- **What an `ALLOW` rests on**, action by action. -/
theorem evaluate_allow_cases {proposal : ActionProposal} {snapshot : PolicySnapshot}
    {d : PolicyResult} (h : evaluate (some proposal) snapshot = .ok d)
    (hd : d.decision = .allow) :
    (proposal.action = .cancelOrder ∧
      ∃ order shipment, CancelAllowed snapshot d order shipment) ∨
    (proposal.action = .issueRefund ∧ ∃ order payment policy amount,
      RefundAllowed proposal snapshot d order payment policy amount) ∨
    (proposal.action = .createSupportTicket ∧ ∃ order, TicketAllowed snapshot d order) := by
  simp only [evaluate] at h
  split_ifs at h
  · cases h
    simp at hd
  · cases ha : proposal.action with
    | cancelOrder =>
        rw [ha] at h
        exact Or.inl ⟨rfl, evaluateCancel_allow h hd⟩
    | issueRefund =>
        rw [ha] at h
        exact Or.inr (Or.inl ⟨rfl, evaluateRefund_allow h hd⟩)
    | createSupportTicket =>
        rw [ha] at h
        exact Or.inr (Or.inr ⟨rfl, evaluateTicket_allow h⟩)

/-- What is required and not missing was read. -/
theorem read_of_missingRecords {proposal : ActionProposal} {snapshot : PolicySnapshot}
    (h : missingRecords proposal snapshot = []) {name : RecordName}
    (hname : name ∈ requiredRecords proposal.action) : snapshot.lacks name = false := by
  rw [missingRecords, List.map_eq_nil_iff, List.filter_eq_nil_iff] at h
  simpa using h name hname

/-- Only a refund is allowed to move money. -/
theorem evaluate_allow_maxAmount {proposal : ActionProposal} {snapshot : PolicySnapshot}
    {d : PolicyResult} (h : evaluate (some proposal) snapshot = .ok d)
    (hd : d.decision = .allow) (ha : proposal.action ≠ .issueRefund) : d.maxAmountCents = 0 := by
  obtain ⟨-, order, shipment, hcancel⟩ | ⟨hact, -⟩ | ⟨-, order, hticket⟩ :=
    evaluate_allow_cases h hd
  · rw [hcancel.decided]
  · exact absurd hact ha
  · rw [hticket.decided]

/-! ## What an `ESCALATE` gives as its reason -/

/-- The reasons the rules escalate with. -/
def escalationReasons : List ReasonCode :=
  [.insufficientInformation, .cancelAfterShipment, .aboveAutoRefundLimit, .outsideReturnWindow]

/-- The window hands over for one reason only. -/
theorem evaluateWindow_escalate {snapshot : PolicySnapshot} {order : Order}
    {policy : RefundPolicy} {allowed d : PolicyResult}
    (h : evaluateWindow snapshot order policy allowed = .ok d)
    (hallowed : allowed.decision = .allow) (hd : d.decision = .escalate) :
    d.reasonCode = .outsideReturnWindow := by
  rcases evaluateWindow_cases h with rfl | ⟨-, hreason⟩
  · cases hallowed.symm.trans hd
  · exact hreason

/-- A refund is handed over for its amount or its time. -/
theorem evaluateRefund_escalate {proposal : ActionProposal} {snapshot : PolicySnapshot}
    {d : PolicyResult} (h : evaluateRefund proposal snapshot = .ok d)
    (hd : d.decision = .escalate) :
    d.reasonCode = .aboveAutoRefundLimit ∨ d.reasonCode = .outsideReturnWindow := by
  unfold evaluateRefund at h
  split at h
  · split_ifs at h
    · cases h
      simp at hd
    · split at h
      · cases h
        simp at hd
      · split_ifs at h
        · cases h
          simp at hd
        · cases h
          simp at hd
        · cases h
          exact Or.inl rfl
        · exact Or.inr (evaluateWindow_escalate h rfl hd)
  · cases h

/-- A cancel is handed over for one reason only. -/
theorem evaluateCancel_escalate {snapshot : PolicySnapshot} {d : PolicyResult}
    (h : evaluateCancel snapshot = .ok d) (hd : d.decision = .escalate) :
    d.reasonCode = .cancelAfterShipment := by
  unfold evaluateCancel at h
  split at h
  · split_ifs at h <;> cases h
    · simp at hd
    · rfl
    · cases hd
    · rfl
  · cases h

/-- The reasons of the policy to hand over. -/
theorem evaluate_escalate_reason {proposal : ActionProposal} {snapshot : PolicySnapshot}
    {d : PolicyResult} (h : evaluate (some proposal) snapshot = .ok d)
    (hd : d.decision = .escalate) : d.reasonCode ∈ escalationReasons := by
  simp only [evaluate] at h
  split_ifs at h
  · cases h
    simp [escalateResult, escalationReasons]
  · cases ha : proposal.action with
    | cancelOrder =>
        rw [ha] at h
        simp [evaluateCancel_escalate h hd, escalationReasons]
    | issueRefund =>
        rw [ha] at h
        rcases evaluateRefund_escalate h hd with hreason | hreason <;>
          simp [hreason, escalationReasons]
    | createSupportTicket =>
        -- a ticket is allowed or raises
        rw [ha] at h
        obtain ⟨order, hticket⟩ := evaluateTicket_allow h
        rw [hticket.decided] at hd
        cases hd

end BoundedRefund
