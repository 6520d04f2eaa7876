import BoundedRefund.WriteTools

/-!
# The executor

The only component that may change the world.  The checks run one after the other
on a shared database, outside any transaction; what they have seen may be gone when
the commit begins, and only the guards inside the transaction are atomic with it.
-/

namespace BoundedRefund

open Concurrent Relational

/-- The row an action is aimed at, as the checks saw it. -/
structure Target where
  resourceId : String
  version : Int
  status : String
deriving DecidableEq, Repr

/-- `_resolve_target`: the payment of the order for a refund, else the order. -/
def Database.resolveTarget (db : Database) (proposal : ActionProposal) :
    Except PyError (Option Target) :=
  match proposal.action with
  | .issueRefund =>
      (db.fetchPaymentForOrder proposal.orderId).map fun payment =>
        payment.map fun p => ⟨p.paymentId, p.version, str p.status⟩
  | .cancelOrder | .createSupportTicket =>
      (db.fetchOrder proposal.orderId).map fun order =>
        order.map fun o => ⟨o.orderId, o.version, str o.status⟩

/-- A refund is aimed at the payment of its order, everything else at the order. -/
theorem Database.resolveTarget_eq_some {db : Database} {proposal : ActionProposal}
    {target : Target} :
    db.resolveTarget proposal = .ok (some target) ↔
      (proposal.action = .issueRefund ∧
        ∃ p, db.fetchPaymentForOrder proposal.orderId = .ok (some p) ∧
          target = ⟨p.paymentId, p.version, str p.status⟩) ∨
      (proposal.action ≠ .issueRefund ∧
        ∃ o, db.fetchOrder proposal.orderId = .ok (some o) ∧
          target = ⟨o.orderId, o.version, str o.status⟩) := by
  cases ha : proposal.action <;>
    simp only [resolveTarget, ha, map_eq_ok, Option.map_eq_some_iff, reduceCtorEq, ne_eq,
      not_true_eq_false, not_false_eq_true, true_and, false_and, or_false, false_or]
  all_goals
    constructor
    · rintro ⟨found, hfetch, row, rfl, rfl⟩
      exact ⟨row, hfetch, rfl⟩
    · rintro ⟨row, hfetch, rfl⟩
      exact ⟨_, hfetch, row, rfl, rfl⟩

/-- `_transition_allowed`. -/
def transitionAllowed (proposal : ActionProposal) (target : Target) : Except PyError Bool :=
  match proposal.action with
  | .cancelOrder => (StrEnum.parse target.status).map (orderTransitionAllowed · .cancelled)
  | .issueRefund => (StrEnum.parse target.status).map (paymentTransitionAllowed · .refunded)
  | .createSupportTicket => .ok true

/-- The result of an execution as a replay reports it. -/
def ExecutionResult.asReplay (result : ExecutionResult) : ExecutionResult :=
  { result with replayed := true, reasonCode := some .idempotentReplay }

/-- `_stored_result`. -/
def Database.storedResult (db : Database) (idempotencyKey : String) : Option ExecutionResult :=
  (db.executionRecords.find? idempotencyKey).map fun row => row.result.asReplay

/-- `_rejected`. -/
def rejected (reason : ReasonCode) (resourceId : String := "") : ExecutionResult where
  committed := false
  resourceId := resourceId
  reasonCode := some reason

/-- What a committed write is reported as. -/
def WriteOutcome.result (outcome : WriteOutcome) : ExecutionResult where
  committed := true
  action := some outcome.action
  resourceId := outcome.resourceId
  amountCents := outcome.amountCents
  reasonCode := none
  replayed := false
  createdId := outcome.createdId

/-- An executor belongs to one run and has a clock. -/
structure Executor where
  clock : Clock
  runId : String

/-- The two texts a caller may give for the ticket. -/
structure TicketTexts where
  reasonCode : String := ""
  summary : String := ""

namespace Executor

variable (e : Executor)

/-- The checks that need no further look at the world, from 5 to 9.  `none` is
clearance. -/
def lateChecks (permit : ExecutionPermit) (proposal : ActionProposal) (target : Target)
    (stored : Option ExecutionResult) : Except PyError (Option ExecutionResult) :=
  if permit.used then
    -- a used permit answers with what its commit has stored
    .ok (some (stored.getD (rejected .permitAlreadyUsed permit.resourceId)))
  else if permit.maxAmountCents < proposal.amount then
    .ok (some (rejected .permitAmountExceeded permit.resourceId))
  else if target.version ≠ permit.expectedResourceVersion then
    -- it may be the stored commit itself that moved the row
    .ok (some (stored.getD (rejected .staleResourceVersion permit.resourceId)))
  else
    match stored with
    -- the row has not moved, and yet something is stored under the key
    | some result => .ok (some result)
    | none =>
        (transitionAllowed proposal target).map fun allowed =>
          if allowed then none else some (rejected .transitionNotAllowed permit.resourceId)

/-- What the late checks let pass. -/
theorem lateChecks_eq_none {permit : ExecutionPermit} {proposal : ActionProposal}
    {target : Target}
    {stored : Option ExecutionResult}
    (h : lateChecks permit proposal target stored = .ok none) :
    permit.used = false ∧ proposal.amount ≤ permit.maxAmountCents ∧
      target.version = permit.expectedResourceVersion ∧ stored = none ∧
      transitionAllowed proposal target = .ok true := by
  unfold lateChecks at h
  split_ifs at h with h₁ h₂ h₃
  · simp at h
  · simp at h
  · simp at h
  · cases stored with
    | some result => simp at h
    | none =>
        cases ht : transitionAllowed proposal target with
        | error err => simp [ht, Except.map] at h
        | ok allowed =>
            cases allowed with
            | false => simp [ht, Except.map] at h
            | true => exact ⟨by simpa using h₁, not_lt.mp h₂, not_not.mp h₃, rfl, rfl⟩

/-- The write the permit clears, by action. -/
def write (auth : WriteAuthorization) (permit : ExecutionPermit) (proposal : ActionProposal)
    (texts : TicketTexts) (now : Instant) (db : Database) :
    Except PyError (WriteOutcome × Database) :=
  match proposal.action with
  | .cancelOrder =>
      cancelOrder (some auth) proposal.orderId permit.expectedResourceVersion now db
  | .issueRefund =>
      -- the payment is the permit's, the order and the amount are the proposal's
      issueRefund (some auth) permit.resourceId proposal.orderId proposal.amount
        permit.expectedResourceVersion now db
  | .createSupportTicket =>
      createSupportTicket (some auth) proposal.orderId
        (textOr texts.reasonCode (str ReasonCode.ticketRequested))
        (textOr texts.summary proposal.reason) now db

/-- The execution record of a write. -/
def recordFor (permit : ExecutionPermit) (outcome : WriteOutcome) (now : Instant) :
    RecordRow where
  idempotencyKey := permit.idempotencyKey
  runId := e.runId
  action := outcome.action
  resourceId := outcome.resourceId
  amountCents := outcome.amountCents
  result := outcome.result
  createdAt := toIso now

/-- Everything inside the commit transaction: the write, its record, the used mark. -/
def commitAll (auth : WriteAuthorization) (permit : ExecutionPermit)
    (proposal : ActionProposal) (texts : TicketTexts) (now : Instant) (db : Database) :
    Except PyError (ExecutionResult × Database) := do
  let (outcome, db) ← write auth permit proposal texts now db
  let db ← db.insertRecord (e.recordFor permit outcome now)
  return (outcome.result, db.markUsed permit.permitId)

/-- The authorization the executor mints for a permit. -/
def authorization (permit : ExecutionPermit) : WriteAuthorization where
  permitId := permit.permitId
  action := permit.action
  resourceId := permit.resourceId
  maxAmountCents := permit.maxAmountCents
  runId := e.runId

/-- `_commit`: the writes in one transaction, and stale state turned into a rejection. -/
def commit (permit : ExecutionPermit) (proposal : ActionProposal) (texts : TicketTexts) :
    Py ExecutionResult := do
  let auth ← Py.raising (WriteAuthorization.mint executorToken (e.authorization permit))
  -- a new reading, which nothing compares with the expiry
  let now ← Py.now e.clock
  Py.record (str proposal.action)
    [("order_id", .str proposal.orderId), ("amount_cents", .int proposal.amount)]
  -- a taken key is not caught: it leaves the executor as it is raised
  tryCatch (Py.transaction (e.commitAll auth permit proposal texts now)) fun
    | .staleResource _ _ => return rejected .staleResourceVersion permit.resourceId
    | err => throw err

/-- The checks, in their order, and the commit behind them. -/
def runChecks (permit : Option ExecutionPermit) (proposal : ActionProposal)
    (texts : TicketTexts) : Py ExecutionResult :=
  match permit with
  | none => return rejected .permitMissing
  | some permit =>
      if permit.action ≠ proposal.action then
        return rejected .permitActionMismatch permit.resourceId
      else do
        let target ← Py.query fun db => db.resolveTarget proposal
        match target with
        | none => return rejected .permitResourceMismatch permit.resourceId
        | some target =>
            if target.resourceId ≠ permit.resourceId then
              return rejected .permitResourceMismatch permit.resourceId
            else do
              let now ← Py.now e.clock
              let expiresAt ← Py.raising (parseIso permit.expiresAt)
              -- at the instant itself the permit is still good
              if expiresAt < now then
                return rejected .permitExpired permit.resourceId
              else do
                let stored ← Py.query fun db => .ok (db.storedResult permit.idempotencyKey)
                let answer ← Py.raising (lateChecks permit proposal target stored)
                match answer with
                | some result => return result
                | none => do
                    -- the last moment before the commit, and the failure spec's only one
                    Py.applyPreCommit (str proposal.action)
                    e.commit permit proposal texts

/-- `_emit`: nothing at all without a trace. -/
def emit (eventType : EventType) (proposal : ActionProposal) (permit : Option ExecutionPermit)
    (result : Option ExecutionResult) (extra : List (String × PlainValue) := []) :
    Py Unit := do
  let audited ← Py.own fun s => s.audit.isSome
  if audited then do
    -- looked up anew, so a committed event shows the version after the commit
    let target ← Py.query fun db => db.resolveTarget proposal
    Py.emit e.clock
      { eventType
        resourceId := (permit.map ExecutionPermit.resourceId).getD proposal.orderId
        resourceVersion := (target.map Target.version).getD (-1)
        decisionOwner := .executor
        reasonCode := result.bind ExecutionResult.reasonCode
        extra := ("permit_id", .str ((permit.map ExecutionPermit.permitId).getD "")) :: extra }
  else return

/-- What happens once the checks have answered. -/
def respond (proposal : ActionProposal) (permit : Option ExecutionPermit)
    (result : ExecutionResult) : Py ExecutionResult :=
  if result.fresh then do
    e.emit .mutationCommitted proposal permit (some result)
    let lost ← Py.update fun s => s.shouldTimeoutAfterCommit (str proposal.action)
    if lost then
      match permit with
      -- the `assert`: nothing is committed without a permit
      | none => throw .assertionError
      | some permit => throw (.responseTimeout (str proposal.action) permit.idempotencyKey)
    else return result
  else if result.committed then do
    e.emit .mutationReplayed proposal permit (some result)
      [("created_id", .str result.createdId)]
    return result
  else do
    e.emit .mutationRejected proposal permit (some result)
    return result

/-- `execute`: the permit is loaded, the attempt announced, the checks made, and the answer given.
-/
def execute (permitId : Option String) (proposal : ActionProposal) (texts : TicketTexts := {}) :
    Py ExecutionResult := do
  let permit ← Py.query fun db => .ok (db.loadPermit permitId)
  e.emit .mutationAttempted proposal permit none
  let result ← e.runChecks permit proposal texts
  e.respond proposal permit result

end Executor

end BoundedRefund
