import BoundedRefund.Guard
import BoundedRefund.Ledger
import BoundedRefund.Walk
import BoundedRefund.Concurrent.Transaction

/-!
# The statements of a commit

The model takes the executor's transaction to be one atomic statement.  The source writes it
as a sequence of statements between `BEGIN IMMEDIATE` and `COMMIT`: the guarded update, the
rows that depend on it, the log row, the execution record, the mark on the permit.  Any of
them may raise, which rolls the ones before it back, the other runs go on reading between
them, and the process may be killed between any two.

Here the sequence is written out (`Executor.commitStatements`).  It carries out what the
atomic statement does (`Executor.commitStatements_carriesOut`), and so an engine that performs
the commits of the runs statement by statement commits exactly what the pool of the runs does
(`commits_statement_by_statement`).  Waiting for the lock longer than the driver is willing to
is not modelled.
-/

namespace BoundedRefund

open Concurrent Relational

/-- Statements inside a transaction. -/
abbrev Sql := Prog PyError Database

namespace Sql

variable {α : Type}

/-- One statement.  Where it raises it has done nothing. -/
def execute (t : Database → Except PyError (α × Database)) : Sql α :=
  Prog.atomically fun db =>
    match t db with
    | .ok (a, db') => (.ok a, db')
    | .error err => (.error err, db)

/-- A statement without a result. -/
def perform (t : Database → Except PyError Database) : Sql Unit :=
  execute fun db => (t db).map fun db' => ((), db')

/-- A statement that cannot raise. -/
def change (t : Database → Database) : Sql Unit :=
  perform fun db => .ok (t db)

/-- `UPDATE orders SET status = ?, version = version + 1 WHERE order_id = ? AND version = ?`,
with the number of rows it matched. -/
def updateOrder (orderId : String) (expectedVersion : Int) : Sql Nat :=
  execute fun db =>
    let guard := Database.orderGuard orderId expectedVersion
    let orders := db.orders.update guard OrderRow.cancelled OrderRow.cancelled_orderId
    .ok (db.orders.rowcount guard, { db with orders })

/-- `UPDATE shipments SET status = ?, version = version + 1
WHERE order_id = ? AND status IN (?,?)`. -/
def updateShipments (orderId : String) : Sql Unit :=
  change fun db =>
    let shipments := db.shipments.update
      (fun row => row.orderId = orderId && row.status ∈ cancellableShipmentStatuses)
      ShipmentRow.cancelled ShipmentRow.cancelled_shipmentId
    { db with shipments }

/-- `UPDATE payments SET … WHERE payment_id = ? AND version = ?`, with the number of rows it
matched. -/
def updatePayment (paymentId : String) (expectedVersion amountCents : Int) : Sql Nat :=
  execute fun db =>
    .ok (db.payments.rowcount (Database.paymentGuard paymentId expectedVersion),
      db.refundPayment paymentId expectedVersion amountCents)

/-- `_log_mutation`. -/
def logMutation (row : MutationRow) : Sql Unit :=
  change fun db => db.logMutation row

end Sql

/-! ## The write tools, statement by statement -/

/-- `cancel_order`, statement by statement. -/
def cancelOrderStatements (auth : Option WriteAuthorization) (orderId : String)
    (expectedVersion : Int) (now : Instant) : Sql WriteOutcome := do
  let authorized ← Prog.ofExcept (require auth .cancelOrder orderId)
  let rowcount ← Sql.updateOrder orderId expectedVersion
  if rowcount ≠ 1 then
    throw (.staleResource orderId expectedVersion)
  else do
    Sql.updateShipments orderId
    Sql.logMutation ⟨authorized.runId, .cancelOrder, orderId, 0, toIso now⟩
    return ⟨.cancelOrder, orderId, 0, orderId⟩

/-- `issue_refund`, statement by statement. -/
def issueRefundStatements (auth : Option WriteAuthorization) (paymentId orderId : String)
    (amountCents expectedVersion : Int) (now : Instant) : Sql WriteOutcome := do
  let authorized ← Prog.ofExcept (require auth .issueRefund paymentId)
  if authorized.maxAmountCents < amountCents then
    throw (.permitRequired (toString amountCents ++ " exceeds the authorized " ++
      toString authorized.maxAmountCents))
  else do
    let rowcount ← Sql.updatePayment paymentId expectedVersion amountCents
    if rowcount ≠ 1 then
      throw (.staleResource paymentId expectedVersion)
    else do
      let refundId := "ref_" ++ authorized.permitId
      Sql.perform fun db => db.insertRefund ⟨refundId, paymentId, orderId, amountCents, toIso now,
        authorized.runId, authorized.permitId⟩
      Sql.logMutation ⟨authorized.runId, .issueRefund, paymentId, amountCents, toIso now⟩
      return ⟨.issueRefund, paymentId, amountCents, refundId⟩

/-- `create_support_ticket`, statement by statement. -/
def createSupportTicketStatements (auth : Option WriteAuthorization)
    (orderId reasonCode summary : String) (now : Instant) : Sql WriteOutcome := do
  let authorized ← Prog.ofExcept (require auth .createSupportTicket orderId)
  let ticketId := "tkt_" ++ authorized.permitId
  Sql.perform fun db => db.insertTicket ⟨ticketId, orderId, reasonCode, clip200 summary, toIso now,
    authorized.runId⟩
  Sql.logMutation ⟨authorized.runId, .createSupportTicket, orderId, 0, toIso now⟩
  return ⟨.createSupportTicket, orderId, 0, ticketId⟩

namespace Executor

variable (e : Executor)

/-- The write tool of the proposal, statement by statement. -/
def writeStatements (auth : WriteAuthorization) (permit : ExecutionPermit)
    (proposal : ActionProposal) (texts : TicketTexts) (now : Instant) : Sql WriteOutcome :=
  match proposal.action with
  | .cancelOrder =>
      cancelOrderStatements (some auth) proposal.orderId permit.expectedResourceVersion now
  | .issueRefund =>
      issueRefundStatements (some auth) permit.resourceId proposal.orderId proposal.amount
        permit.expectedResourceVersion now
  | .createSupportTicket =>
      createSupportTicketStatements (some auth) proposal.orderId
        (textOr texts.reasonCode (str ReasonCode.ticketRequested))
        (textOr texts.summary proposal.reason) now

/-- What stands between `BEGIN IMMEDIATE` and `COMMIT`. -/
def commitStatements (auth : WriteAuthorization) (permit : ExecutionPermit)
    (proposal : ActionProposal) (texts : TicketTexts) (now : Instant) : Sql ExecutionResult := do
  let outcome ← writeStatements auth permit proposal texts now
  Sql.perform fun db => db.insertRecord (e.recordFor permit outcome now)
  Sql.change fun db => db.markUsed permit.permitId
  return outcome.result

end Executor

/-! ## The statements carry out the transaction -/

namespace Sql

variable {α : Type}

@[simp] theorem run_execute (t : Database → Except PyError (α × Database)) (db : Database) :
    (execute t).run db = match t db with
      | .ok (a, db') => (.ok a, db')
      | .error err => (.error err, db) := by
  rw [execute, Prog.run_atomically]

/-- A statement without an answer of its own. -/
@[simp] theorem run_perform (t : Database → Except PyError Database) (db : Database) :
    (perform t).run db = match t db with
      | .ok db' => (.ok (), db')
      | .error err => (.error err, db) := by
  rw [perform, run_execute]
  cases t db <;> rfl

/-- A statement that cannot fail. -/
@[simp] theorem run_change (t : Database → Database) (db : Database) :
    (change t).run db = (.ok (), t db) := by
  rw [change, run_perform]

end Sql

section Tools

variable (auth : Option WriteAuthorization) (expectedVersion : Int) (now : Instant)

/-- The statements of a cancel carry out the cancel. -/
theorem cancelOrderStatements_carriesOut (orderId : String) :
    (cancelOrderStatements auth orderId expectedVersion now).CarriesOut
      (cancelOrder auth orderId expectedVersion now) := by
  refine Prog.CarriesOut.raising fun authorized db => ?_
  by_cases hcount : db.orders.rowcount (Database.orderGuard orderId expectedVersion) = 1
  · simp [hcount, Sql.updateOrder, Sql.updateShipments, Sql.logMutation, Database.cancelRows,
      Prog.run_bind, pure, Except.pure]
  · simp [hcount, Sql.updateOrder, Prog.run_bind, throw, throwThe, MonadExceptOf.throw]

/-- Those of a refund carry out the refund. -/
theorem issueRefundStatements_carriesOut (paymentId orderId : String) (amountCents : Int) :
    (issueRefundStatements auth paymentId orderId amountCents expectedVersion now).CarriesOut
      (issueRefund auth paymentId orderId amountCents expectedVersion now) := by
  refine Prog.CarriesOut.raising fun authorized db => ?_
  by_cases hamount : authorized.maxAmountCents < amountCents
  · simp [hamount, throw, throwThe, MonadExceptOf.throw]
  by_cases hcount : db.payments.rowcount (Database.paymentGuard paymentId expectedVersion) = 1
  · -- the payment is updated by now, and the refund may still be refused
    cases hinsert : (db.refundPayment paymentId expectedVersion amountCents).insertRefund
      ⟨"ref_" ++ authorized.permitId, paymentId, orderId, amountCents, toIso now,
        authorized.runId, authorized.permitId⟩ with
    | error err =>
        simp [hamount, hcount, hinsert, Sql.updatePayment, Prog.run_bind, bind, Except.bind]
    | ok db' =>
        simp [hamount, hcount, hinsert, Sql.updatePayment, Sql.logMutation, Prog.run_bind, bind,
          Except.bind, pure, Except.pure]
  · simp [hamount, hcount, Sql.updatePayment, Prog.run_bind, throw, throwThe,
      MonadExceptOf.throw]

/-- Those of a ticket carry out the ticket. -/
theorem createSupportTicketStatements_carriesOut (orderId reasonCode summary : String) :
    (createSupportTicketStatements auth orderId reasonCode summary now).CarriesOut
      (createSupportTicket auth orderId reasonCode summary now) := by
  refine Prog.CarriesOut.raising fun authorized db => ?_
  cases hinsert : db.insertTicket ⟨"tkt_" ++ authorized.permitId, orderId, reasonCode,
    clip200 summary, toIso now, authorized.runId⟩ with
  | error err => simp [hinsert, Prog.run_bind, bind, Except.bind]
  | ok db' =>
      simp [hinsert, Sql.logMutation, Prog.run_bind, bind, Except.bind, pure, Except.pure]

end Tools

namespace Executor

variable (e : Executor) (auth : WriteAuthorization) (permit : ExecutionPermit)
variable (proposal : ActionProposal) (texts : TicketTexts) (now : Instant)

/-- The statements of a write tool carry it out. -/
theorem writeStatements_carriesOut :
    (writeStatements auth permit proposal texts now).CarriesOut
      (write auth permit proposal texts now) := by
  intro db
  cases haction : proposal.action with
  | cancelOrder =>
      simp only [writeStatements, write, haction]
      exact cancelOrderStatements_carriesOut (some auth) _ now _ db
  | issueRefund =>
      simp only [writeStatements, write, haction]
      exact issueRefundStatements_carriesOut (some auth) _ now _ _ _ db
  | createSupportTicket =>
      simp only [writeStatements, write, haction]
      exact createSupportTicketStatements_carriesOut (some auth) now _ _ _ db

/-- **The statements of the commit do what the atomic transaction does**: the same result on
the same tables, and the same exception. -/
theorem commitStatements_carriesOut :
    (e.commitStatements auth permit proposal texts now).CarriesOut
      (e.commitAll auth permit proposal texts now) := by
  have hrest : ∀ outcome : WriteOutcome,
      Prog.CarriesOut
        (do
          Sql.perform fun db => db.insertRecord (e.recordFor permit outcome now)
          Sql.change fun db => db.markUsed permit.permitId
          return outcome.result)
        (fun db => do
          let db ← db.insertRecord (e.recordFor permit outcome now)
          return (outcome.result, db.markUsed permit.permitId)) := by
    intro outcome db
    cases hinsert : db.insertRecord (e.recordFor permit outcome now) with
    | error err => simp [hinsert, Prog.run_bind, bind, Except.bind]
    | ok db' => simp [hinsert, Prog.run_bind, bind, Except.bind, pure, Except.pure]
  exact Prog.CarriesOut.bind (writeStatements_carriesOut auth permit proposal texts now) hrest

end Executor

/-- What the executor writes between `BEGIN IMMEDIATE` and `COMMIT`, on any permit for any
proposal. -/
def CommitBody (body : Sql ExecutionResult) : Prop :=
  ∃ (e : Executor) (permit : ExecutionPermit) (proposal : ActionProposal) (texts : TicketTexts)
    (now : Instant), body = e.commitStatements (e.authorization permit) permit proposal texts now

/-- A transformer as one statement is the transaction of the statements that carry it out. -/
theorem Py.transaction_eq_atomic {α : Type} {t : Database → Except PyError (α × Database)}
    {body : Sql α} (h : body.CarriesOut t) :
    (Py.transaction t : Py α) = Transaction.atomic ⟨body, Prog.ofExcept⟩ := by
  simp only [Py.transaction, Prog.atomically, Transaction.atomic, h.settle_run, h.answer]
  congr 1
  · funext v
    cases t v.shared <;> rfl
  · funext v
    cases t v.shared <;> rfl

/-! ## A run writes its ledger in commits -/

/-- The tables only a commit writes. -/
def Database.ledger (db : Database) :
    List MutationRow × Table RecordRow.idempotencyKey × Table RefundRow.refundId ×
      Table TicketRow.ticketId :=
  (db.mutationLog, db.executionRecords, db.refunds, db.supportTickets)

/-- A program of the model writes the ledger in commits. -/
abbrev LedgerInCommits {α : Type} (p : Py α) : Prop :=
  p.WritesInside Database.ledger CommitBody

/-- A single statement that writes elsewhere. -/
theorem LedgerInCommits.elsewhere {α : Type} {t : Database → Except PyError (α × Database)}
    (h : ∀ db a db', t db = .ok (a, db') → db'.ledger = db.ledger) :
    LedgerInCommits (Py.transaction t) := by
  refine .atomically fun v => ?_
  cases ht : t v.shared with
  | ok r => exact h _ _ _ ht
  | error err => rfl

theorem LedgerInCommits.applyPreCommit (action : String) :
    LedgerInCommits (Py.applyPreCommit action) := by
  refine Prog.WritesInside.bind (.atomically fun _ => rfl) fun changes => ?_
  induction changes with
  | nil => exact .ret ()
  | cons change changes ih =>
      refine Prog.WritesInside.bind (elsewhere fun db _ db' h => ?_) fun _ => ih
      obtain ⟨db'', happ, h⟩ := map_eq_ok.mp h
      cases h
      rcases StateChange.apply_eq_ok happ with ⟨-, -, rfl⟩ | ⟨resource, -, -, rfl⟩
      · rfl
      · cases resource <;> rfl

/-- The transaction of the commit is one of those that are written out; no other statement
writes the ledger. -/
theorem ledgerInCommits : Scripted fun _ p => LedgerInCommits p where
  ret := .ret
  fail := .fail
  bind := Prog.WritesInside.bind
  tryCatch := Prog.WritesInside.tryCatch
  query _ := .read _
  own _ := .read _
  update _ := .atomically fun _ => rfl
  callLearns _ := .modify fun _ => rfl
  issue permit row := by
    refine LedgerInCommits.elsewhere fun db _ db' h => ?_
    obtain ⟨db'', hinsert, h⟩ := map_eq_ok.mp h
    cases h
    obtain ⟨permits, -, rfl⟩ := Database.insertPermit_eq_ok.mp hinsert
    rfl
  applyPreCommit := LedgerInCommits.applyPreCommit
  commit e permit proposal texts now := by
    rw [Py.transaction_eq_atomic
      (e.commitStatements_carriesOut (e.authorization permit) permit proposal texts now)]
    exact .atomic ⟨e, permit, proposal, texts, now, rfl⟩ fun r => .ofExcept r
  propose _ := .atomically fun _ => rfl
  look _ := .read _

/-! ## The runs, statement by statement -/

section Runs

variable {ι : Type} (runs : Runs ι)

/-- All the runs write to the ledger inside their commits. -/
theorem Runs.writesInside (db : Database) :
    (runs.pool db).WritesInside Database.ledger CommitBody :=
  fun i => ledgerInCommits.run (runs.runners i)

variable [DecidableEq ι] (E : Database → Database → Prop)

/-- **Commits, statement by statement.**  Let the runs perform what stands in their
transactions one statement at a time, the others going on meanwhile, the environment changing
the database between transactions, and processes being killed anywhere.  What is committed,
and where the runs stand in it, is what can be reached with the transactions taken to be
atomic; and the log, the records, the refunds and the tickets change, but for the
environment, only at a `COMMIT`, to what the open transaction has made of them. -/
theorem commits_statement_by_statement (db : Database) :
    (∀ c, (∃ s : Engine ι PyError Database Local RunReport ExecutionResult,
        Engine.Reaches E CommitBody (.start (runs.pool db)) s ∧ s.pool = c) ↔
      Pool.Reaches E (runs.pool db) c) ∧
    ∀ s s' : Engine ι PyError Database Local RunReport ExecutionResult,
      Engine.Reaches E CommitBody (.start (runs.pool db)) s → Engine.Step E CommitBody s s' →
      s'.pool.shared.ledger = s.pool.shared.ledger ∨ E s.pool.shared s'.pool.shared ∨
        ∃ o result, s.opened = some o ∧ o.rest = .ret result ∧ s'.pool.shared = o.working :=
  ⟨fun _ => Engine.reaches_iff,
    fun _ _ hs hstep => Engine.Reaches.writes (runs.writesInside db) hs hstep⟩

/-- The commit of a cancellation, performed statement by statement. -/
theorem commits_statement_by_statement_shippedMeanwhile :
    ∃ s : Engine Bool PyError Database Local RunReport ExecutionResult,
      Engine.Reaches Later CommitBody
        (.start (overtakenRuns.pool (seedWorld [("ord_0001", .paid)]))) s ∧
      s.pool = shippedMeanwhile.next false :=
  ((commits_statement_by_statement overtakenRuns Later _).1 _).mpr
    ((Pool.reaches_iterate _ false 30).tail (.act false shippedMeanwhile_act))

end Runs

/-! ## The ledger, whoever is killed -/

/-- Callers write the ledger in commits. -/
theorem LedgerInCommits.serve (client : Client) (calls : List ServiceCall) :
    LedgerInCommits (client.serve calls) := by
  have hclosed := ledgerInCommits.toClosed
  induction calls with
  | nil => exact hclosed.ret ()
  | cons call calls ih =>
      refine hclosed.bind (hclosed.tryCatch ?_ fun _ => hclosed.ret ()) fun _ => ih
      cases call with
      | issue request => exact hclosed.bind (hclosed.issuePermit _ _) fun _ => hclosed.ret ()
      | execute permitId proposal texts =>
          exact hclosed.bind (hclosed.execute _ _ _ _) fun _ => hclosed.ret ()

/-- One step of verified callers keeps the ledger, or commits one execution more. -/
theorem Ledger.step {ι : Type} [DecidableEq ι] {c c' : Pool ι PyError Database Local Unit}
    {xs : List Execution} (h : Ledger c.shared xs)
    (hc : c.Verified Persists (Statement (fun _ => True) fun _ _ => True))
    (hstep : Pool.Step OutsideLedger c c') :
    Ledger c'.shared xs ∨ ∃ x, x.Commits c.shared c'.shared ∧ Ledger c'.shared (xs ++ [x]) := by
  cases hstep with
  | env hd =>
      exact .inl (h.congr hd.mutationLog hd.executionRecords (by rw [hd.executionPermits])
        hd.refunds hd.supportTickets)
  | act i hact =>
      obtain ⟨-, hstatement⟩ := hact.guarantee Persists.refl hc
      cases hstatement with
      | quiet heq =>
          have hshared : c'.shared = c.shared := heq
          exact .inl (hshared ▸ h)
      | issue row hunused hins => exact .inl (h.insertPermit hunused hins)
      | inject change may hap => exact .inl (h.inject hap)
      | commit x hcleared grounds hx => exact .inr ⟨x, hx, h.commit hx hcleared⟩

/-- What the statements of a commit return is the result of the execution they commit. -/
theorem CommitBody.result {body : Sql ExecutionResult} (hbody : CommitBody body)
    {db db' : Database} {result : ExecutionResult} (hrun : body.run db = (.ok result, db'))
    {x : Execution} (hx : x.Commits db db') : x.result = result := by
  obtain ⟨e, permit, proposal, texts, now, rfl⟩ := hbody
  have hcarries :=
    e.commitStatements_carriesOut (e.authorization permit) permit proposal texts now
  cases hall : e.commitAll (e.authorization permit) permit proposal texts now db with
  | error err =>
      have hraise := hcarries.error hall
      rw [hrun] at hraise
      cases hraise
  | ok r =>
      obtain ⟨result', db''⟩ := r
      have hsame := hcarries.ok hall
      rw [hrun] at hsame
      cases hsame
      obtain ⟨rfl, hcommits⟩ := commitAll_eq_ok.mp hall
      -- both executions have left the last record there is
      have hrecords := hx.executionRecords_rows
      rw [hcommits.executionRecords_rows] at hrecords
      have hrow := List.singleton_injective (List.append_cancel_left hrecords)
      exact (congrArg RecordRow.result hrow).symm

section Service

variable {ι : Type} [DecidableEq ι] (service : Service ι)

/-- **The ledger, whoever is killed.**  Let callers issue permits and execute proposals on a
seeded database, performing their transactions one statement at a time, and let processes be
killed anywhere, inside a transaction or outside.  The log, the records, the used permits,
the refunds and the tickets that are committed are always views of one list of executions.
Whatever comes next leaves that list as it is, but for a `COMMIT`: it adds one execution, the
one whose result its caller is about to be told. -/
theorem ledger_whoever_is_killed {db : Database} (hseeded : db.Seeded)
    {s : Engine ι PyError Database Local Unit ExecutionResult}
    (h : Engine.Reaches OutsideLedger CommitBody (.start (service.pool db)) s) :
    ∃ xs, Ledger s.pool.shared xs ∧
      ∀ s', Engine.Step OutsideLedger CommitBody s s' →
        Ledger s'.pool.shared xs ∨
          ∃ o x, s.opened = some o ∧ o.rest = .ret x.result ∧
            Ledger s'.pool.shared (xs ++ [x]) := by
  obtain ⟨hreach, hsound⟩ := Engine.Reaches.pool (Engine.sound_start _) h
  obtain ⟨xs, hxs⟩ := exists_ledger_of_reaches (service.verified db)
    ⟨[], Ledger.seeded hseeded⟩ hreach
  have hverified := (Pool.reachable_sound Persists.refl (fun _ _ _ => Persists.trans)
    (fun _ _ => OutsideLedger.persists) (service.verified db) hreach).2
  have hinside : (service.pool db).WritesInside Database.ledger CommitBody :=
    fun i => LedgerInCommits.serve (service.clients i) (service.calls i)
  refine ⟨xs, hxs, fun s' hstep => ?_⟩
  rcases hstep.pool hsound with hsame | hmove
  · exact .inl (hsame ▸ hxs)
  rcases hxs.step hverified hmove with hkept | ⟨x, hx, hmore⟩
  · exact .inl hkept
  refine .inr ?_
  -- the log has grown, so this was the commit of what was open
  have hgrown : s'.pool.shared.mutationLog ≠ s.pool.shared.mutationLog := by
    rw [hx.mutationLog]
    simp
  rcases Engine.Reaches.writes hinside h hstep with hledger | henv |
    ⟨o, result, hopened, hrest, hworking⟩
  · exact absurd (congrArg Prod.fst hledger) hgrown
  · exact absurd henv.mutationLog hgrown
  · obtain ⟨body, hbody, -, hrun⟩ := hsound o hopened
    rw [hrest, Prog.run_ret, ← hworking] at hrun
    rw [← hbody.result hrun hx] at hrest
    exact ⟨o, x, hopened, hrest, hmore⟩

end Service

/-- The first caller stands before its commit. -/
def beforeKill : Pool Bool PyError Database Local Unit :=
  (fun c => c.next false)^[11] (sharedPermitService.pool (seedWorld [("ord_0001", .paid)]))

/-- The second caller has gone on alone. -/
def afterKill : Pool Bool PyError Database Local Unit :=
  (fun c => c.next true)^[11] beforeKill

/-- The process of the first caller is killed inside its transaction, some of whose statements
have been performed.  The second presents the same permit, and there is one execution. -/
theorem ledger_whoever_is_killed_sharedPermit :
    ∃ (o : Concurrent.Opened Bool PyError Database Local Unit ExecutionResult) (x : Execution),
      o.owner = false ∧
      Engine.Reaches OutsideLedger CommitBody
        (.start (sharedPermitService.pool (seedWorld [("ord_0001", .paid)])))
        ⟨beforeKill, some o, fun _ => true⟩ ∧
      Engine.Step OutsideLedger CommitBody ⟨beforeKill, some o, fun _ => true⟩
        ⟨beforeKill, none, Function.update (fun _ => true) false false⟩ ∧
      Engine.Reaches OutsideLedger CommitBody
        ⟨beforeKill, none, Function.update (fun _ => true) false false⟩
        ⟨afterKill, none, Function.update (fun _ => true) false false⟩ ∧
      Ledger afterKill.shared [x] := by
  have hreach := Pool.reaches_iterate (E := OutsideLedger)
    (sharedPermitService.pool (seedWorld [("ord_0001", .paid)])) false 11
  have hinside : beforeKill.WritesInside Database.ledger CommitBody :=
    Pool.WritesInside.reaches (fun i => LedgerInCommits.serve _ _) hreach
  have hlogs : (beforeKill.next false).shared.ledger ≠ beforeKill.shared.ledger := fun hsame =>
    absurd (congrArg (fun l => l.1.length) hsame) (by decide +kernel)
  obtain ⟨o, howner, hmidway⟩ :
      ∃ o : Concurrent.Opened Bool PyError Database Local Unit ExecutionResult,
        o.owner = false ∧ Engine.Reaches OutsideLedger CommitBody
          ⟨beforeKill, none, fun _ => true⟩ ⟨beforeKill, some o, fun _ => true⟩ :=
    Engine.reaches_midway hinside rfl (Pool.act_next (by decide +kernel)) hlogs
  have hopened := (Engine.reaches_iterate (E := OutsideLedger) (B := CommitBody) rfl _ 11).trans
    hmidway
  have hkill : Engine.Step OutsideLedger CommitBody ⟨beforeKill, some o, fun _ => true⟩
      ⟨beforeKill, none, Function.update (fun _ => true) false false⟩ := by
    have hwithout : (⟨beforeKill, some o, fun _ => true⟩ : Engine ..).without false = none := by
      simp [Engine.without, howner]
    exact hwithout ▸ .kill false
  have hafter : Engine.Reaches OutsideLedger CommitBody
      ⟨beforeKill, none, Function.update (fun _ => true) false false⟩
      ⟨afterKill, none, Function.update (fun _ => true) false false⟩ :=
    Engine.reaches_iterate rfl beforeKill 11
  obtain ⟨xs, hxs, -⟩ := ledger_whoever_is_killed sharedPermitService (seedWorld_seeded _)
    ((hopened.tail hkill).trans hafter)
  have hlength : xs.length = 1 := by
    rw [← List.length_map (f := Execution.logRow), ← hxs.log]
    decide +kernel
  obtain ⟨x, rfl⟩ := List.length_eq_one_iff.mp hlength
  exact ⟨o, x, howner, hopened, hkill, hafter, hxs⟩

end BoundedRefund
