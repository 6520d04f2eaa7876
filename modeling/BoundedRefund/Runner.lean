import BoundedRefund.Executor

/-!
# The runner

Request, proposal, schema, policy, permit, executor, verification.  The runner
holds no authority of its own: it moves a request through the stages and reports
what the database says happened.

Latency, token cost and the planner's context are left out; a scripted planner
looks at none of them.
-/

namespace BoundedRefund

open Concurrent

/-! ## Read tools -/

namespace ReadTools

variable {α : Type}

/-- `_call`: `left` more attempts after `made` have failed. -/
def call (tool : String) (arguments : List (String × PlainValue))
    (fetch : Database → Except PyError α) (made : Nat) : (left : Nat) → Py α
  | 0 => throw (.readUnavailable tool made)
  | left + 1 => do
      Py.record tool (("attempt", .int (made + 1)) :: arguments)
      -- the attempt is on record before it can fail
      let fails ← Py.update fun s => s.readShouldFail tool
      if fails then call tool arguments fetch (made + 1) left
      else Py.query fetch

/-- `get_order`. -/
def getOrder (orderId : String) : Py (Option Order) :=
  call "get_order" [("order_id", .str orderId)] (·.fetchOrder orderId) 0 readMaxAttempts

/-- `get_payment`. -/
def getPayment (orderId : String) : Py (Option Payment) :=
  call "get_payment" [("order_id", .str orderId)] (·.fetchPaymentForOrder orderId) 0
    readMaxAttempts

/-- `get_shipment`. -/
def getShipment (orderId : String) : Py (Option Shipment) :=
  call "get_shipment" [("order_id", .str orderId)] (·.fetchShipmentForOrder orderId) 0
    readMaxAttempts

/-- `get_refund_policy`. -/
def getRefundPolicy (policyId : String) : Py (Option RefundPolicy) :=
  call "get_refund_policy" [("policy_id", .str policyId)] (·.fetchRefundPolicy policyId) 0
    readMaxAttempts

/-- `try … except ReadUnavailable`: a read that gave up is a missing record and the
name of its tool. -/
def recovering (read : Py (Option α)) : Py (Option α × List String) :=
  tryCatch (do return (← read, [])) fun
    | .readUnavailable tool _ => return (none, [tool])
    | err => throw err

/-- A read that is made only for some actions. -/
def optional (needed : Bool) (read : Py (Option α)) : Py (Option α × List String) :=
  if needed then recovering read else return (none, [])

/-- The refund policy of an order that could be read. -/
def policyOf (needed : Bool) (order : Option Order) : Py (Option RefundPolicy × List String) :=
  match order with
  | none => return (none, [])
  | some order => optional needed (getRefundPolicy order.policyId)

end ReadTools

/-! ## The configuration of a run -/

/-- A run: its clock, its ids and its options. -/
structure Runner where
  clock : Clock
  runId : String
  scenarioId : String
  allowReplanOnStale : Bool := false
  defaultOrderId : String := ""
  chainProposals : Bool := false
  replayLastPermit : Bool := false
  /-- How pydantic reads an integer from a text. -/
  intFromText : String → Option Int := fun _ => none

/-- `_Attempt`. -/
structure Attempt where
  outcome : Outcome
  reasonCode : ReasonCode
  replan : Bool := false
  escalateAfterReplan : Bool := false
deriving DecidableEq, Repr

/-- Where the first loop of a run ends. -/
structure Planned where
  outcome : Outcome
  reasonCode : ReasonCode
  orderId : String
  escalateReason : Option ReasonCode := none

namespace Database

/-- `SELECT COALESCE(SUM(amount_cents), 0) FROM refunds WHERE run_id = ?`. -/
def refundTotal (db : Database) (runId : String) : Int :=
  ((db.refunds.rows.filter fun row => row.runId = runId).map RefundRow.amountCents).sum

/-- How many refunds the run has written. -/
def refundCount (db : Database) (runId : String) : Nat :=
  (db.refunds.rows.filter fun row => row.runId = runId).length

/-- How many tickets the run has written. -/
def ticketCount (db : Database) (runId : String) : Nat :=
  (db.supportTickets.rows.filter fun row => row.runId = runId).length

end Database

namespace Runner

variable (r : Runner)

/-- What a run starts with: its script, its failures, an empty trace. -/
def start (proposals : List RawProposal) (failures : FailureSpec) : Local where
  session :=
    { planner := { proposals }
      injector := some { spec := failures }
      audit := some { runId := r.runId, scenarioId := r.scenarioId }
      recorder := some [] }

/-- The issuer of the run. -/
def issuer : PermitIssuer where
  clock := r.clock
  runId := r.runId

/-- The executor of the run. -/
def executor : Executor where
  clock := r.clock
  runId := r.runId

/-! ## The stages -/

/-- `_snapshot`: the records the action requires, with the reads that failed. -/
def snapshot (proposal : ActionProposal) : Py PolicySnapshot := do
  let needed := requiredRecords proposal.action
  let (order, orderFailures) ← ReadTools.recovering (ReadTools.getOrder proposal.orderId)
  let (payment, paymentFailures) ←
    ReadTools.optional (.payment ∈ needed) (ReadTools.getPayment proposal.orderId)
  let (shipment, shipmentFailures) ←
    ReadTools.optional (.shipment ∈ needed) (ReadTools.getShipment proposal.orderId)
  let (refundPolicy, policyFailures) ←
    ReadTools.policyOf (.refundPolicy ∈ needed) order
  -- the time of the snapshot is behind all its reads
  let now ← Py.now r.clock
  return { now, order, payment, shipment, refundPolicy,
           readFailures := orderFailures ++ paymentFailures ++ shipmentFailures ++
             policyFailures }

/-- The proposal an escalation makes on behalf of nobody; pydantic checks it like
any other. -/
def ticketProposal (order : Order) (reason : ReasonCode) (detail : String) :
    Except PyError ActionProposal :=
  let text := if detail = "" then str reason else clip200 (str reason ++ ": " ++ detail)
  if h₁ : 1 ≤ order.orderId.length ∧ order.orderId.length ≤ 64 then
    if h₂ : 1 ≤ text.length ∧ text.length ≤ 200 then
      .ok { action := .createSupportTicket, orderId := order.orderId, reason := text,
            orderId_length := h₁, amountCents_range := ActionProposal.range_of_none,
            reason_length := h₂ }
    else .error (.valueError "reason")
  else .error (.valueError "order_id")

/-- A hand-over proposes a ticket. -/
theorem ticketProposal_action {order : Order} {reason : ReasonCode} {detail : String}
    {proposal : ActionProposal} (h : ticketProposal order reason detail = .ok proposal) :
    proposal.action = .createSupportTicket := by
  unfold ticketProposal at h
  dsimp only at h
  split_ifs at h <;> cases h <;> rfl

/-- It is for the order that was read. -/
theorem ticketProposal_orderId {order : Order} {reason : ReasonCode} {detail : String}
    {proposal : ActionProposal} (h : ticketProposal order reason detail = .ok proposal) :
    proposal.orderId = order.orderId := by
  unfold ticketProposal at h
  dsimp only at h
  split_ifs at h <;> cases h <;> rfl

/-- It names no amount. -/
theorem ticketProposal_amount {order : Order} {reason : ReasonCode} {detail : String}
    {proposal : ActionProposal} (h : ticketProposal order reason detail = .ok proposal) :
    proposal.amount = 0 := by
  unfold ticketProposal at h
  dsimp only at h
  split_ifs at h <;> cases h <;> rfl

/-- `_escalate`: one support ticket, if the order can be read. -/
def escalate (orderId : String) (reason : ReasonCode) (detail : String) :
    Py (Option ExecutionResult) := do
  -- not a read tool: nothing is recorded or retried, and nothing can be made to fail
  let order ← Py.query (·.fetchOrder orderId)
  match order with
  | none => do
      Py.touch fun s => s.note ("escalated without a ticket: order " ++
        textOr orderId "<unknown>" ++ " is unreadable")
      return none
  | some order => do
      let proposal ← Py.raising (ticketProposal order reason detail)
      let permit ← r.issuer.issuePermit
        { action := .createSupportTicket, resourceId := order.orderId,
          expectedResourceVersion := order.version, maxAmountCents := 0 }
      Py.emit r.clock
        { eventType := .permitIssued, resourceId := permit.resourceId,
          resourceVersion := permit.expectedResourceVersion, decisionOwner := .executor,
          reasonCode := reason, extra := [("permit_id", .str permit.permitId)] }
      -- no second try here, so a lost response is raised out of the run
      let result ← r.executor.execute (some permit.permitId) proposal
        { reasonCode := str reason, summary := proposal.reason }
      return some result

/-- What an answer of the executor means for the attempt. -/
def conclude (decision : PolicyResult) (attempt : Nat) (result : ExecutionResult) : Attempt :=
  if result.committed then { outcome := .completed, reasonCode := decision.reasonCode }
  else if result.reasonCode = some .staleResourceVersion then
    if r.allowReplanOnStale ∧ attempt = 1 then
      { outcome := .denied, reasonCode := .staleResourceVersion, replan := true }
    else if r.allowReplanOnStale then
      { outcome := .escalated, reasonCode := .staleResourceVersion,
        escalateAfterReplan := true }
    else { outcome := .denied, reasonCode := .staleResourceVersion }
  else { outcome := .denied, reasonCode := result.reasonCode.getD .invalidProposal }

/-- What the attempt makes of an answer. -/
theorem conclude_cases (decision : PolicyResult) (attempt : Nat) (result : ExecutionResult) :
    (result.committed = true ∧ r.conclude decision attempt result =
      { outcome := .completed, reasonCode := decision.reasonCode }) ∨
    (result.committed = false ∧ result.reasonCode = some .staleResourceVersion ∧
      r.allowReplanOnStale = true ∧ attempt = 1 ∧ r.conclude decision attempt result =
        { outcome := .denied, reasonCode := .staleResourceVersion, replan := true }) ∨
    (result.committed = false ∧ result.reasonCode = some .staleResourceVersion ∧
      r.allowReplanOnStale = true ∧ attempt ≠ 1 ∧ r.conclude decision attempt result =
        { outcome := .escalated, reasonCode := .staleResourceVersion,
          escalateAfterReplan := true }) ∨
    (result.committed = false ∧ r.conclude decision attempt result =
      { outcome := .denied, reasonCode := result.reasonCode.getD .invalidProposal } ∧
      (result.reasonCode = some .staleResourceVersion → r.allowReplanOnStale = false)) := by
  unfold conclude
  cases hcommitted : result.committed with
  | true => simp
  | false =>
      by_cases hstale : result.reasonCode = some .staleResourceVersion
      · cases hreplan : r.allowReplanOnStale with
        | false => simp [hstale]
        | true => by_cases hn : attempt = 1 <;> simp [hstale, hn]
      · simp [hstale]

/-- What the attempt makes of stale state. -/
theorem conclude_stale (decision : PolicyResult) (attempt : Nat) (resourceId : String) :
    (r.allowReplanOnStale = false ∧
      r.conclude decision attempt (rejected .staleResourceVersion resourceId) =
        { outcome := .denied, reasonCode := .staleResourceVersion }) ∨
    (r.allowReplanOnStale = true ∧
      r.conclude decision attempt (rejected .staleResourceVersion resourceId) =
        { outcome := .denied, reasonCode := .staleResourceVersion, replan := true }) ∨
    (r.allowReplanOnStale = true ∧
      r.conclude decision attempt (rejected .staleResourceVersion resourceId) =
        { outcome := .escalated, reasonCode := .staleResourceVersion,
          escalateAfterReplan := true }) := by
  obtain ⟨hcommitted, -⟩ | ⟨-, -, hallow, -, hc⟩ | ⟨-, -, hallow, -, hc⟩ | ⟨-, hc, hdeny⟩ :=
    r.conclude_cases decision attempt (rejected .staleResourceVersion resourceId)
  · cases hcommitted
  · exact .inr (.inl ⟨hallow, hc⟩)
  · exact .inr (.inr ⟨hallow, hc⟩)
  · exact .inl ⟨hdeny rfl, hc⟩

/-- Stale state is escalated where the attempt asks for that, and else it is a denial. -/
theorem conclude_stale_outcome (decision : PolicyResult) (attempt : Nat) (resourceId : String) :
    (r.conclude decision attempt (rejected .staleResourceVersion resourceId)).outcome =
      if (r.conclude decision attempt
        (rejected .staleResourceVersion resourceId)).escalateAfterReplan then .escalated
      else .denied := by
  obtain ⟨-, hc⟩ | ⟨-, hc⟩ | ⟨-, hc⟩ := r.conclude_stale decision attempt resourceId
  · rw [hc]
    rfl
  · rw [hc]
    rfl
  · rw [hc]
    rfl

/-- The execution, and one more if its response was lost. -/
def executeWithRetry (permitId : String) (proposal : ActionProposal) : Py ExecutionResult :=
  tryCatch (r.executor.execute (some permitId) proposal) fun
    | .responseTimeout _ idempotencyKey => do
        Py.touch fun s =>
          { s.note ("response lost after commit; retrying " ++ idempotencyKey) with
            recovered := true }
        r.executor.execute (some permitId) proposal
    | err => throw err

/-- `_execute_allowed`: a permit is issued and presented, and the answer judged. -/
def executeAllowed (proposal : ActionProposal) (decision : PolicyResult) (attempt : Nat) :
    Py Attempt := do
  let permit ← r.issuer.issuePermit
    { action := proposal.action, resourceId := decision.resourceId,
      expectedResourceVersion := decision.expectedResourceVersion,
      maxAmountCents := decision.maxAmountCents }
  Py.callLearns fun call => { call with permitId := some permit.permitId }
  Py.emit r.clock
    { eventType := .permitIssued, resourceId := permit.resourceId,
      resourceVersion := permit.expectedResourceVersion, decisionOwner := .executor,
      reasonCode := decision.reasonCode, extra := [("permit_id", .str permit.permitId)] }
  -- what the deliberate replay will present
  Py.touch fun s => { s with lastExecution := some (permit.permitId, proposal) }
  let result ← r.executeWithRetry permit.permitId proposal
  Py.callLearns fun call => { call with answer := some result }
  return r.conclude decision attempt result

/-- What follows once the policy has decided. -/
def proceed (proposal : ActionProposal) (snapshot : PolicySnapshot) (decision : PolicyResult)
    (attempt : Nat) : Py Attempt :=
  if decision.decision = .deny then do
    Py.emit r.clock
      { eventType := .policyDenied, resourceId := proposal.orderId,
        resourceVersion := (snapshot.order.map Order.version).getD (-1),
        decisionOwner := .policy, reasonCode := decision.reasonCode }
    return { outcome := .denied, reasonCode := decision.reasonCode }
  else do
    Py.emit r.clock
      { eventType := .policyAllowed,
        resourceId := textOr decision.resourceId proposal.orderId,
        resourceVersion := decision.expectedResourceVersion, decisionOwner := .policy,
        reasonCode := decision.reasonCode,
        extra := [("decision", .str (str decision.decision))] }
    if decision.decision = .escalate then do
      let _ ← r.escalate proposal.orderId decision.reasonCode decision.detail
      return { outcome := .escalated, reasonCode := decision.reasonCode }
    else r.executeAllowed proposal decision attempt

/-- `_attempt`: one proposal, from the planner to an outcome, with the order it was
about. -/
def attempt (attempt : Nat) (orderId : String) : Py (Attempt × String) := do
  let raw ← Py.propose attempt
  Py.emit r.clock
    { eventType := .proposalCreated, resourceId := textOr (rawOrderId raw) orderId,
      decisionOwner := .planner, extra := [("attempt", .int attempt)] }
  match validate r.intFromText raw with
  | .error reason => do
      Py.emit r.clock
        { eventType := .proposalRejected, resourceId := textOr (rawOrderId raw) orderId,
          decisionOwner := .policy, reasonCode := reason }
      -- no order is taken from what is no proposal
      return ({ outcome := .denied, reasonCode := reason }, orderId)
  | .ok proposal => do
      Py.emit r.clock
        { eventType := .proposalValidated, resourceId := proposal.orderId,
          decisionOwner := .policy, extra := [("action", .str (str proposal.action))] }
      let snapshot ← r.snapshot proposal
      let decision ← Py.raising (evaluate (some proposal) snapshot)
      Py.callLearns fun call => { call with judged := some (snapshot, decision) }
      let step ← r.proceed proposal snapshot decision attempt
      return (step, proposal.orderId)

/-! ## The loops -/

/-- `for attempt in …: … else: …`. -/
def plan : List Nat → String → Py Planned
  | [], orderId =>
      -- the `else` of the loop, after attempts that all asked for another
      return { outcome := .escalated, reasonCode := .staleResourceVersion, orderId,
               escalateReason := some .staleResourceVersion }
  | n :: rest, orderId => do
      let (step, stepOrderId) ← r.attempt n orderId
      let orderId := textOr stepOrderId orderId
      if step.replan then do
        Py.touch fun s => s.note
          ("replanning after stale state (attempt " ++ toString n ++ ")")
        plan rest orderId
      else if step.escalateAfterReplan then
        return { outcome := .escalated, reasonCode := .staleResourceVersion, orderId,
                 escalateReason := some .staleResourceVersion }
      else return { outcome := step.outcome, reasonCode := step.reasonCode, orderId }

/-- The condition of the `while` loop. -/
def chains (planned : Planned) (exhausted : Bool) : Bool :=
  r.chainProposals && planned.outcome = .completed && !exhausted

/-- `while` the last step was completed and there are proposals left.  Every round
uses one up, so as many rounds as there are proposals left are enough. -/
def chain (planned : Planned) : (fuel : Nat) → Py Planned
  | 0 => do
      let exhausted ← Py.own fun s => s.planner.exhausted
      if r.chains planned exhausted then throw .outOfFuel else return planned
  | fuel + 1 => do
      let exhausted ← Py.own fun s => s.planner.exhausted
      if r.chains planned exhausted then do
        -- every chained proposal is a first attempt
        let (followUp, orderId) ← r.attempt 1 planned.orderId
        if followUp.replan ∨ followUp.escalateAfterReplan then
          -- `break`: outcome and reason stay those of the step before
          return { planned with orderId }
        else
          chain { planned with outcome := followUp.outcome,
                               reasonCode := followUp.reasonCode, orderId } fuel
      else return planned

/-- `str(flag)`. -/
def flag (b : Bool) : String := if b then "True" else "False"

/-- `_replay_last_permit`: present a spent permit again on purpose. -/
def replay : Py Unit := do
  let last ← Py.own fun s => s.lastExecution
  match last with
  | none => return
  | some (permitId, proposal) => do
      let result ← r.executor.execute (some permitId) proposal
      Py.touch fun s => s.note ("deliberate replay of " ++ permitId ++ ": committed=" ++
        flag result.committed ++ " replayed=" ++ flag result.replayed ++ " reason=" ++
        (result.reasonCode.map StrEnum.value).getD "none")

/-! ## Verification and report -/

/-- `_verify`: the statuses as they stand, and what the run refunded. -/
def verify (orderId : String) : Py VerifiedState := do
  let order ← Py.query (·.fetchOrder orderId)
  let payment ← Py.query (·.fetchPaymentForOrder orderId)
  let shipment ← Py.query (·.fetchShipmentForOrder orderId)
  let refunded ← Py.query fun db => .ok (db.refundTotal r.runId)
  let state : VerifiedState :=
    { orderStatus := order.map fun o => str o.status
      paymentStatus := payment.map fun p => str p.status
      shipmentStatus := shipment.map fun s => str s.status
      refundAmountCents := refunded }
  let plain := fun status : Option String => (status.map PlainValue.str).getD .none
  Py.emit r.clock
    { eventType := .stateVerified, resourceId := orderId,
      resourceVersion := (order.map Order.version).getD (-1), decisionOwner := .verifier,
      extra := [("order_status", plain state.orderStatus),
        ("payment_status", plain state.paymentStatus),
        ("shipment_status", plain state.shipmentStatus)] }
  return state

/-- `_report`. -/
def report (outcome : Outcome) (reasonCode : ReasonCode) (finalState : VerifiedState) :
    Py RunReport := do
  let rows ← Py.query fun db => .ok (db.mutationLogRows r.runId)
  let refunds ← Py.query fun db => .ok (db.refundCount r.runId, db.refundTotal r.runId)
  let tickets ← Py.query fun db => .ok (db.ticketCount r.runId)
  let toolCalls ← Py.own fun s => s.recorder.getD []
  let recovered ← Py.own Session.recovered
  let notes ← Py.own Session.notes
  let mutations := rows.map fun row => str row.action ++ ":" ++ row.resourceId
  return { runId := r.runId
           scenarioId := r.scenarioId
           outcome
           reasonCode
           refundCreated := decide (0 < refunds.1)
           refundAmountCents := refunds.2
           supportTicketCreated := decide (0 < tickets)
           mutationCount := rows.length
           mutations
           toolCalls
           toolCallCount := toolCalls.length
           duplicateMutationCount := mutations.length - mutations.dedup.length
           recovered
           finalState
           notes }

/-- The escalation of a run that found stale state twice. -/
def handOver (planned : Planned) : Py Unit :=
  match planned.escalateReason with
  | none => return
  | some reason => do
      let _ ← r.escalate planned.orderId reason "stale state after replan"
      return

/-- Verification, report, last event. -/
def finish (planned : Planned) : Py RunReport := do
  let finalState ← r.verify planned.orderId
  let report ← r.report planned.outcome planned.reasonCode finalState
  Py.emit r.clock
    { eventType := .runFinished, resourceId := planned.orderId, decisionOwner := .verifier,
      reasonCode := planned.reasonCode,
      extra := [("outcome", .str (str planned.outcome)),
        ("mutation_count", .int report.mutationCount)] }
  return report

/-- The attempts the first loop makes at most. -/
def attempts : List Nat := if r.allowReplanOnStale then [1, 2] else [1]

/-- `Runner.run`: the first loop, a hand-over, the chained proposals, the deliberate replay, and
the report. -/
def run : Py RunReport := do
  Py.emit r.clock
    { eventType := .userRequestReceived, resourceId := r.defaultOrderId,
      decisionOwner := .planner }
  let planned ← r.plan r.attempts r.defaultOrderId
  r.handOver planned
  -- enough rounds for the loop to end by itself
  let left ← Py.own fun s => s.planner.remaining
  let planned ← r.chain planned left
  if r.replayLastPermit then r.replay else pure ()
  r.finish planned

end Runner

end BoundedRefund
