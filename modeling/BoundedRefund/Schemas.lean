import BoundedRefund.Domain

/-!
# Boundary objects

What the planner may say, and what the server issues.  The bounds pydantic checks
on an `ActionProposal` are fields of the structure, so a proposal out of bounds
does not exist; the one place that builds a proposal from untrusted data is
`ActionProposal.modelValidate`.
-/

namespace BoundedRefund

/-- The complete set of write actions. -/
inductive ActionName
  | cancelOrder | issueRefund | createSupportTicket
deriving DecidableEq, Repr

instance : StrEnum ActionName where
  className := "ActionName"
  members := [.cancelOrder, .issueRefund, .createSupportTicket]
  value
    | .cancelOrder => "cancel_order"
    | .issueRefund => "issue_refund"
    | .createSupportTicket => "create_support_ticket"
  find_value a := by cases a <;> decide

/-- What the policy decides. -/
inductive Decision
  | allow | deny | escalate
deriving DecidableEq, Repr

instance : StrEnum Decision where
  className := "Decision"
  members := [.allow, .deny, .escalate]
  value
    | .allow => "allow"
    | .deny => "deny"
    | .escalate => "escalate"
  find_value a := by cases a <;> decide

/-- What a run comes to. -/
inductive Outcome
  | completed | denied | escalated
deriving DecidableEq, Repr

instance : StrEnum Outcome where
  className := "Outcome"
  members := [.completed, .denied, .escalated]
  value
    | .completed => "completed"
    | .denied => "denied"
    | .escalated => "escalated"
  find_value a := by cases a <;> decide

/-- Why something was decided or refused. -/
inductive ReasonCode
  | cancellableBeforeShipment | refundableWithinLimits | ticketRequested
  | cancelAfterShipment | orderAlreadyCancelled | paymentAlreadyRefunded
  | aboveAutoRefundLimit | amountExceedsCaptured | outsideReturnWindow
  | insufficientInformation | staleResourceVersion | invalidProposal | unknownAction
  | permitExpired | permitAlreadyUsed | permitResourceMismatch | permitActionMismatch
  | permitAmountExceeded | permitMissing | idempotentReplay | readUnavailable
  | transitionNotAllowed
deriving DecidableEq, Repr

instance : StrEnum ReasonCode where
  className := "ReasonCode"
  members :=
    [.cancellableBeforeShipment, .refundableWithinLimits, .ticketRequested,
     .cancelAfterShipment, .orderAlreadyCancelled, .paymentAlreadyRefunded,
     .aboveAutoRefundLimit, .amountExceedsCaptured, .outsideReturnWindow,
     .insufficientInformation, .staleResourceVersion, .invalidProposal, .unknownAction,
     .permitExpired, .permitAlreadyUsed, .permitResourceMismatch, .permitActionMismatch,
     .permitAmountExceeded, .permitMissing, .idempotentReplay, .readUnavailable,
     .transitionNotAllowed]
  value
    | .cancellableBeforeShipment => "cancellable_before_shipment"
    | .refundableWithinLimits => "refundable_within_limits"
    | .ticketRequested => "ticket_requested"
    | .cancelAfterShipment => "cancel_after_shipment"
    | .orderAlreadyCancelled => "order_already_cancelled"
    | .paymentAlreadyRefunded => "payment_already_refunded"
    | .aboveAutoRefundLimit => "above_auto_refund_limit"
    | .amountExceedsCaptured => "amount_exceeds_captured"
    | .outsideReturnWindow => "outside_return_window"
    | .insufficientInformation => "insufficient_information"
    | .staleResourceVersion => "stale_resource_version"
    | .invalidProposal => "invalid_proposal"
    | .unknownAction => "unknown_action"
    | .permitExpired => "permit_expired"
    | .permitAlreadyUsed => "permit_already_used"
    | .permitResourceMismatch => "permit_resource_mismatch"
    | .permitActionMismatch => "permit_action_mismatch"
    | .permitAmountExceeded => "permit_amount_exceeded"
    | .permitMissing => "permit_missing"
    | .idempotentReplay => "idempotent_replay"
    | .readUnavailable => "read_unavailable"
    | .transitionNotAllowed => "transition_not_allowed"
  find_value a := by cases a <;> decide

/-- Who an event of the trace belongs to. -/
inductive DecisionOwner
  | planner | policy | executor | verifier
deriving DecidableEq, Repr

instance : StrEnum DecisionOwner where
  className := "DecisionOwner"
  members := [.planner, .policy, .executor, .verifier]
  value
    | .planner => "planner"
    | .policy => "policy"
    | .executor => "executor"
    | .verifier => "verifier"
  find_value a := by cases a <;> decide

/-- `str(x)` of a member of a closed enumeration. -/
abbrev str {α : Type} [StrEnum α] (a : α) : String := StrEnum.value a

/-- `text or fallback`: the empty text is falsy. -/
def textOr (text fallback : String) : String := if text = "" then fallback else text

/-- What a planner is allowed to emit.  It is a request, never an instruction. -/
structure ActionProposal where
  action : ActionName
  orderId : String
  amountCents : Option Int := none
  reason : String
  orderId_length : 1 ≤ orderId.length ∧ orderId.length ≤ 64 := by decide
  amountCents_range : ∀ a ∈ amountCents, 0 ≤ a ∧ a ≤ 100000000 := by decide
  reason_length : 1 ≤ reason.length ∧ reason.length ≤ 200 := by decide
deriving DecidableEq

/-- No amount is in every range. -/
theorem ActionProposal.range_of_none : ∀ a ∈ (none : Option Int), 0 ≤ a ∧ a ≤ 100000000 := by
  simp

/-- `proposal.amount_cents or 0`. -/
def ActionProposal.amount (proposal : ActionProposal) : Int :=
  proposal.amountCents.getD 0

/-- A proposal never names less than nothing. -/
theorem ActionProposal.amount_nonneg (proposal : ActionProposal) : 0 ≤ proposal.amount := by
  unfold amount
  cases h : proposal.amountCents with
  | none => simp
  | some a => exact (proposal.amountCents_range a h).1

/-- Issued by the server only, after the policy has allowed the proposal. -/
structure ExecutionPermit where
  permitId : String
  action : ActionName
  resourceId : String
  expectedResourceVersion : Int
  maxAmountCents : Int
  expiresAt : IsoText
  idempotencyKey : String
  used : Bool := false
deriving DecidableEq, Repr

/-- A decision, with what a permit for it may name. -/
structure PolicyResult where
  decision : Decision
  reasonCode : ReasonCode
  maxAmountCents : Int := 0
  resourceId : String := ""
  expectedResourceVersion : Int := -1
  detail : String := ""
deriving DecidableEq, Repr

/-- The answer of the executor. -/
structure ExecutionResult where
  committed : Bool
  action : Option ActionName := none
  resourceId : String := ""
  amountCents : Int := 0
  reasonCode : Option ReasonCode := none
  replayed : Bool := false
  createdId : String := ""
deriving DecidableEq, Repr

/-- A mutation was written by this very call. -/
def ExecutionResult.fresh (r : ExecutionResult) : Bool := r.committed && !r.replayed

/-- What a run finds when it looks at its order again. -/
structure VerifiedState where
  orderStatus : Option String := none
  paymentStatus : Option String := none
  shipmentStatus : Option String := none
  refundAmountCents : Int := 0
deriving DecidableEq, Repr

/-- The report of a run, without its wall-clock latency and its constant
`token_cost`. -/
structure RunReport where
  runId : String
  scenarioId : String
  outcome : Outcome
  reasonCode : ReasonCode
  refundCreated : Bool
  refundAmountCents : Int
  supportTicketCreated : Bool
  mutationCount : Nat
  mutations : List String
  toolCalls : List String
  toolCallCount : Nat
  duplicateMutationCount : Nat
  recovered : Bool
  finalState : VerifiedState
  notes : List String
deriving DecidableEq, Repr

/-! ## The schema gate -/

/-- A value inside a raw proposal: what JSON can carry.  `other` is everything
that is neither a scalar nor an integer, boolean, float or text. -/
inductive PyValue
  | none
  | bool (b : Bool)
  | int (n : Int)
  | float (x : ℚ)
  | str (s : String)
  | other
deriving DecidableEq

/-- What a planner emits before anything has looked at it. -/
inductive RawProposal
  | none
  | proposal (p : ActionProposal)
  | mapping (fields : List (String × PyValue))
  | other

/-- `dict.get`. -/
def getKey (fields : List (String × PyValue)) (key : String) : Option PyValue :=
  fields.lookup key

/-- pydantic's reading of an `int` field outside strict mode: booleans and
integral floats are converted, and a text is converted by `intFromText`, which is
pydantic's own and a parameter here. -/
def laxInt (intFromText : String → Option Int) : PyValue → Option Int
  | .bool b => some (if b then 1 else 0)
  | .int n => some n
  -- only a float without a fraction
  | .float x => if x.den = 1 then some x.num else Option.none
  | .str s => intFromText s
  | .none => Option.none
  | .other => Option.none

/-- The `amount_cents` field, which may be absent or null. -/
def amountField (intFromText : String → Option Int) (fields : List (String × PyValue)) :
    Option (Option Int) :=
  match getKey fields "amount_cents" with
  | Option.none => some Option.none
  | some .none => some Option.none
  | some v => (laxInt intFromText v).map some

/-- `ActionProposal.model_validate`: no unknown field, the three required ones
with the right type, every bound kept. -/
def ActionProposal.modelValidate (intFromText : String → Option Int)
    (fields : List (String × PyValue)) : Option ActionProposal :=
  -- `extra="forbid"`
  if fields.all (fun f => f.1 ∈ ["action", "order_id", "amount_cents", "reason"]) then
    match getKey fields "action", getKey fields "order_id", getKey fields "reason",
        amountField intFromText fields with
    | some (.str action), some (.str orderId), some (.str reason), some amountCents =>
        match (StrEnum.parse action : Except PyError ActionName) with
        | .error _ => Option.none
        | .ok action =>
            if h₁ : 1 ≤ orderId.length ∧ orderId.length ≤ 64 then
              if h₂ : ∀ a ∈ amountCents, 0 ≤ a ∧ a ≤ 100000000 then
                if h₃ : 1 ≤ reason.length ∧ reason.length ≤ 200 then
                  some { action, orderId, amountCents, reason, orderId_length := h₁,
                         amountCents_range := h₂, reason_length := h₃ }
                else Option.none
              else Option.none
            else Option.none
    | _, _, _, _ => Option.none
  else Option.none

/-- Nothing a planner emits is trusted before this.  The runner denies with the
reason on the right. -/
def validate (intFromText : String → Option Int) : RawProposal → Except ReasonCode ActionProposal
  | .none => .error .invalidProposal
  | .proposal p => .ok p
  | .other => .error .invalidProposal
  | .mapping fields =>
      -- looked at before the model, so a wrong action goes before any other fault
      if namesUnknownAction (getKey fields "action") then .error .unknownAction
      else
        match ActionProposal.modelValidate intFromText fields with
        | some p => .ok p
        | Option.none => .error .invalidProposal
where
  /-- `action is not None and str(action) not in set(ActionName)`; no value that
  is not a text prints as the name of an action. -/
  namesUnknownAction : Option PyValue → Bool
    | Option.none => false
    | some .none => false
    | some (.str s) => (StrEnum.members : List ActionName).all fun a => StrEnum.value a ≠ s
    | some _ => true

/-- The order a raw proposal names, if it names one. -/
def rawOrderId : RawProposal → String
  | .proposal p => p.orderId
  | .mapping fields =>
      match getKey fields "order_id" with
      | some (.str s) => s
      | _ => ""
  | .none => ""
  | .other => ""

end BoundedRefund
